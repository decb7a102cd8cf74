import Mathlib.Data.Int.Notation

/-!
# Channels, messages and the documents they are decoded from

The values that travel between Firestore and the local store.  A snapshot
listener decodes every field with a cast and a default, so no document is
rejected: a missing or mistyped field silently becomes the default, and for the
two dates the default is the time at which the document is decoded.

## Main definitions

* `ChannelModel`, `Message` — the app's own values.
* `Document` — a Firestore document with its untyped fields.
* `actualChannels`, `channelMessages` — what the two snapshot listeners decode.
-/

namespace MessengerApp

/-- A point in time. -/
abbrev Date := ℤ

/-- Firestore's time value. -/
structure Timestamp where
  date : Date
  deriving DecidableEq, Repr

/-- `Timestamp.dateValue()`. -/
def Timestamp.dateValue (t : Timestamp) : Date := t.date

/-- A field value of a document: what the two listeners cast to, and the rest. -/
inductive FieldValue
  | string (s : String)
  | timestamp (t : Timestamp)
  /-- A number, a boolean, a map, ... — a value of no type the app casts to. -/
  | other
  deriving DecidableEq, Repr

/-- `as? String`. -/
def FieldValue.asString : FieldValue → Option String
  | .string s => some s
  | _ => none

/-- `as? Timestamp`. -/
def FieldValue.asTimestamp : FieldValue → Option Timestamp
  | .timestamp t => some t
  | _ => none

/-- A document of a snapshot. -/
structure Document where
  documentID : String
  data : List (String × FieldValue)
  deriving DecidableEq, Repr

/-- `document.data()[key] as? String`. -/
def Document.string (d : Document) (key : String) : Option String :=
  (d.data.lookup key).bind FieldValue.asString

/-- `document.data()[key] as? Timestamp`. -/
def Document.timestamp (d : Document) (key : String) : Option Timestamp :=
  (d.data.lookup key).bind FieldValue.asTimestamp

/-- A snapshot: its documents, each with the time `Date()` reads when the
listener decodes it. -/
abbrev Snapshot := List (Document × Date)

structure ChannelModel where
  identifier : String
  name : String
  lastMessage : Option String
  lastActivity : Option Date
  deriving DecidableEq, Repr

structure Message where
  content : String
  created : Date
  senderid : String
  senderName : String
  deriving DecidableEq, Repr

/-- `ChannelModel.toDict`: a new document carries the name and nothing else. -/
def ChannelModel.toDict (c : ChannelModel) : List (String × FieldValue) :=
  [("name", .string c.name)]

/-- `Message.toDict`. -/
def Message.toDict (m : Message) : List (String × FieldValue) :=
  [("content", .string m.content), ("created", .timestamp ⟨m.created⟩),
    ("senderid", .string m.senderid), ("senderName", .string m.senderName)]

/-- One turn of the loop of `getChannelsFromFirebase`. -/
def decodeChannel (document : Document) (now : Date) : ChannelModel where
  identifier := document.documentID
  name := (document.string "name").getD "Channel Name"
  lastMessage := some ((document.string "lastMessage").getD "Last Message")
  lastActivity := some (((document.timestamp "lastActivity").map Timestamp.dateValue).getD now)

/-- The `actualChannels` that `getChannelsFromFirebase` decodes from a snapshot. -/
def actualChannels (snap : Snapshot) : List ChannelModel :=
  snap.map fun d => decodeChannel d.1 d.2

/-- One turn of the loop of `getChannelMessages`.  The default for the content
is the channel listener's, as in the source. -/
def decodeMessage (document : Document) (now : Date) : Message where
  content := (document.string "content").getD "Channel Name"
  created := ((document.timestamp "created").map Timestamp.dateValue).getD now
  senderid := (document.string "senderid").getD "senderid Name"
  senderName := (document.string "senderName").getD "Sender Name"

/-- The `channelMessages` that `getChannelMessages` decodes from a snapshot. -/
def channelMessages (snap : Snapshot) : List Message :=
  snap.map fun d => decodeMessage d.1 d.2

@[simp] theorem length_channelMessages (snap : Snapshot) :
    (channelMessages snap).length = snap.length := List.length_map _

/-- Channels are identified by their documents. -/
theorem map_identifier_actualChannels (snap : Snapshot) :
    (actualChannels snap).map ChannelModel.identifier = snap.map (·.1.documentID) :=
  List.map_map

end MessengerApp
