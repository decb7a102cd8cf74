import MessengerApp.Models

/-!
# Documents written and read back

`toDict` writes a document and the snapshot listeners decode it, key by key.  A message is
written with every key that is read; a channel only with its name, so that the rest of what
is read back are defaults.

## Main definitions

* `addDocument` — the document that is stored.
* `ReadsBack` — a message and a channel are read back as they were written.

## Main results

* `decodeMessage_addDocument`, `decodeChannel_addDocument` — what is read back.
* `readsBack_iff_defaults` — **when it is what was written.**
-/

namespace MessengerApp

/-- `addDocument(data:)`: Firestore chooses the ID and keeps the fields. -/
def addDocument (documentID : String) (data : List (String × FieldValue)) : Document where
  documentID := documentID
  data := data

/-- At the time `now`, a listener reads back the message, and all of the channel but for its
identifier, which is the document's. -/
def ReadsBack (m : Message) (c : ChannelModel) (documentID : String) (now : Date) : Prop :=
  decodeMessage (addDocument documentID m.toDict) now = m ∧
    decodeChannel (addDocument documentID c.toDict) now = { c with identifier := documentID }

/-- **A message is read back as it was written**, at any time. -/
theorem decodeMessage_addDocument (m : Message) (documentID : String) (now : Date) :
    decodeMessage (addDocument documentID m.toDict) now = m := rfl

/-- **A channel is read back with its name and two defaults.** -/
theorem decodeChannel_addDocument (c : ChannelModel) (documentID : String) (now : Date) :
    decodeChannel (addDocument documentID c.toDict) now =
      { identifier := documentID
        name := c.name
        lastMessage := some "Last Message"
        lastActivity := some now } := rfl

/-- **When documents decode to what was written**: if and only if the channel has the default
message, and was active just when it is decoded. -/
theorem readsBack_iff_defaults (m : Message) (c : ChannelModel) (documentID : String)
    (now : Date) : ReadsBack m c documentID now ↔
      c.lastMessage = some "Last Message" ∧ c.lastActivity = some now := by
  obtain ⟨identifier, name, lastMessage, lastActivity⟩ := c
  unfold ReadsBack
  rw [decodeMessage_addDocument, decodeChannel_addDocument]
  simp [eq_comm]

/-- **A new channel** is created with an empty message, and gets another one. -/
theorem exists_channel_not_read_back : ¬ ∀ (m : Message) (c : ChannelModel)
    (documentID : String) (now : Date), ReadsBack m c documentID now := by
  intro h
  obtain ⟨-, hchannel⟩ := h ⟨"Hi", 0, "me", "Ann"⟩ ⟨"", "News", some "", some 0⟩ "id" 1
  exact absurd (congrArg ChannelModel.lastMessage hchannel) (by decide)

end MessengerApp
