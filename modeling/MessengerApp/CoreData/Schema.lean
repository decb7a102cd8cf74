import MessengerApp.Library.UniqueTable
import MessengerApp.Models

/-!
# The Core Data schema and its persistent store

The two entities of `Chat.xcdatamodel`, their uniqueness constraints, and a
store whose rows obey them.  A `PersistentStore` cannot be built in violation of
the schema: its channels are unique in identifier and in name, its messages in
content, and every relationship that is set leads to a stored channel, because
deleting a channel nullifies it.

## Main definitions

* `DBChannel`, `DBMessage` — the rows.
* `PersistentStore` — the stored rows with the constraints they satisfy.
* `PersistentStore.save` — the store after a context is saved.
* `PersistentStore.delete` — the store after a channel is deleted.
* `MergePolicy`, `Fetch`, `CoreData` — what the framework may decide: how conflicts
  are resolved, and whether and in which order an unsorted fetch returns its objects.

## Main results

* `save_channels_sublist`, `mem_of_mem_save_messages` — saving makes no rows up.
* `channelOf_eq_some` — the channel a message row is attached to.
* `attached_delete`, `messages_prefix_save` — what deleting and saving leave alone.
-/

namespace MessengerApp

open UniqueTable

/-- The identity of a managed object. -/
abbrev ObjectID := ℕ

/-- A row of `DBChannel`.  Its `message` relationship is the inverse of
`DBMessage.channel` and is not stored twice. -/
structure DBChannel where
  objectID : ObjectID
  identifier : String
  name : String
  lastMessage : Option String
  lastActivity : Option Date
  deriving DecidableEq, Repr

/-- A row of `DBMessage`. -/
structure DBMessage where
  content : String
  created : Date
  senderId : String
  senderName : String
  channel : Option ObjectID
  deriving DecidableEq, Repr

/-- The channel a row stands for, as `cellForRowAt` reads it. -/
def DBChannel.model (r : DBChannel) : ChannelModel where
  identifier := r.identifier
  name := r.name
  lastMessage := r.lastMessage
  lastActivity := r.lastActivity

/-- The message a row stands for. -/
def DBMessage.message (m : DBMessage) : Message where
  content := m.content
  created := m.created
  senderid := m.senderId
  senderName := m.senderName

/-- Two channels that cannot both be stored. -/
def ChannelModel.Conflicts (c c' : ChannelModel) : Prop :=
  c.identifier = c'.identifier ∨ c.name = c'.name

instance : DecidableRel ChannelModel.Conflicts := fun c c' =>
  inferInstanceAs (Decidable (c.identifier = c'.identifier ∨ c.name = c'.name))

theorem ChannelModel.Conflicts.symm {c c' : ChannelModel} (h : c.Conflicts c') :
    c'.Conflicts c := h.imp Eq.symm Eq.symm

/-- The uniqueness constraints of `DBChannel`: `identifier`, and independently `name`. -/
def DBChannel.Conflicts (r r' : DBChannel) : Prop :=
  r.identifier = r'.identifier ∨ r.name = r'.name

instance : DecidableRel DBChannel.Conflicts := fun r r' =>
  inferInstanceAs (Decidable (r.identifier = r'.identifier ∨ r.name = r'.name))

theorem DBChannel.conflicts_iff_model (r r' : DBChannel) :
    r.Conflicts r' ↔ r.model.Conflicts r'.model := Iff.rfl

/-- The uniqueness constraint of `DBMessage`: `content`, whatever the channel. -/
abbrev DBMessage.Conflicts : DBMessage → DBMessage → Prop := SameKey DBMessage.content

/-- The relationship survives only to a row among `rows`; otherwise it is nullified. -/
def DBMessage.nullify (rows : List DBChannel) (m : DBMessage) : DBMessage :=
  { m with channel := m.channel.filter fun o => rows.any (·.objectID = o) }

@[simp] theorem DBMessage.message_nullify (rows : List DBChannel) (m : DBMessage) :
    (m.nullify rows).message = m.message := rfl

theorem DBMessage.channel_nullify_eq_some {rows : List DBChannel} {m : DBMessage} {o : ObjectID} :
    (m.nullify rows).channel = some o ↔
      m.channel = some o ∧ ∃ r ∈ rows, r.objectID = o := by
  simp [nullify, Option.filter_eq_some_iff]

/-- A relationship to one of the rows is left alone. -/
theorem DBMessage.nullify_eq_self {rows : List DBChannel} {m : DBMessage}
    (h : ∀ o ∈ m.channel, ∃ r ∈ rows, r.objectID = o) : m.nullify rows = m := by
  obtain ⟨content, created, senderId, senderName, channel⟩ := m
  cases channel with
  | none => rfl
  | some o =>
    obtain ⟨r, hr, hro⟩ := h o rfl
    have hany : rows.any (·.objectID = o) = true := by
      rw [List.any_eq_true]
      exact ⟨r, hr, by simpa using hro⟩
    simp [nullify, Option.filter, hany]

theorem DBMessage.map_nullify_eq_self {rows : List DBChannel} {ms : List DBMessage}
    (h : ∀ m ∈ ms, ∀ o ∈ m.channel, ∃ r ∈ rows, r.objectID = o) :
    ms.map (DBMessage.nullify rows) = ms := by
  have hid : ms.map (DBMessage.nullify rows) = ms.map id :=
    List.map_congr_left fun m hm => DBMessage.nullify_eq_self (h m hm)
  rw [hid, List.map_id]

/-- The stored rows.  The fields state the schema. -/
structure PersistentStore where
  channels : List DBChannel
  messages : List DBMessage
  channels_unique : Unique DBChannel.Conflicts channels
  messages_unique : Unique DBMessage.Conflicts messages
  channel_stored : ∀ m ∈ messages, ∀ o ∈ m.channel, ∃ r ∈ channels, r.objectID = o

namespace PersistentStore

/-- A stored channel is determined by its identifier. -/
theorem eq_of_identifier {st : PersistentStore} {r r' : DBChannel} (hr : r ∈ st.channels)
    (hr' : r' ∈ st.channels) (h : r.identifier = r'.identifier) : r = r' :=
  st.channels_unique.eq_of_conflict (fun _ _ h => h.imp Eq.symm Eq.symm) hr hr' (Or.inl h)

/-- The store with nothing in it. -/
def empty : PersistentStore where
  channels := []
  messages := []
  channels_unique := unique_nil _
  messages_unique := unique_nil _
  channel_stored := by simp

/-- The store with the given rows, relationships to other rows nullified. -/
def ofRows (channels : List DBChannel) (messages : List DBMessage)
    (hc : Unique DBChannel.Conflicts channels) (hm : Unique DBMessage.Conflicts messages) :
    PersistentStore where
  channels := channels
  messages := messages.map (DBMessage.nullify channels)
  channels_unique := hc
  messages_unique := List.pairwise_map.mpr hm
  channel_stored := by
    intro m hm o ho
    obtain ⟨m', -, rfl⟩ := List.mem_map.mp hm
    exact (DBMessage.channel_nullify_eq_some.mp ho).2

/-- Delete a channel; its messages stay and lose their channel (`Nullify`). -/
def delete (st : PersistentStore) (object : ObjectID) : PersistentStore :=
  ofRows (st.channels.filter (·.objectID ≠ object)) st.messages
    (st.channels_unique.filter _) st.messages_unique

/-- The row a message is attached to. -/
def channelOf (st : PersistentStore) (m : DBMessage) : Option DBChannel :=
  m.channel.bind fun o => st.channels.find? (·.objectID = o)

theorem channelOf_eq_some {st : PersistentStore} {m : DBMessage} {r : DBChannel}
    (h : st.channelOf m = some r) : r ∈ st.channels ∧ m.channel = some r.objectID := by
  obtain ⟨o, ho, hr⟩ := Option.bind_eq_some_iff.mp h
  have hro : r.objectID = o := by simpa using List.find?_some hr
  exact ⟨List.mem_of_find?_eq_some hr, hro ▸ ho⟩

@[simp] theorem delete_channels (st : PersistentStore) (object : ObjectID) :
    (st.delete object).channels = st.channels.filter (·.objectID ≠ object) := rfl

@[simp] theorem delete_messages (st : PersistentStore) (object : ObjectID) :
    (st.delete object).messages =
      st.messages.map (DBMessage.nullify (st.channels.filter (·.objectID ≠ object))) := rfl

end PersistentStore

/-- How a save decides between rows that violate a constraint. -/
structure MergePolicy where
  /-- Uniqueness conflicts between channels. -/
  channels : Resolution DBChannel.Conflicts
  /-- Uniqueness conflicts between messages. -/
  messages : Resolution DBMessage.Conflicts

/-- `NSMergeByPropertyStoreTrumpMergePolicy`: the stored row is kept and the new
object discarded. -/
def MergePolicy.propertyStoreTrump : MergePolicy where
  channels := keepStored DBChannel.Conflicts
  messages := keepStored DBMessage.Conflicts

/-- The result of a fetch without sort descriptors that matches the given objects,
stored ones before pending ones: these objects in whatever order, or `none` when the
fetch throws. -/
structure Fetch where
  fetch : List DBChannel → Option (List DBChannel)
  fetch_perm : ∀ matching result, fetch matching = some result → result.Perm matching

namespace Fetch

/-- No fetch throws. -/
def Succeeds (F : Fetch) : Prop := ∀ matching, (F.fetch matching).isSome

/-- No fetch throws, and the object that is returned first is a stored one if one
matches, and otherwise the one inserted first. -/
structure TakesFirst (F : Fetch) : Prop where
  succeeds : F.Succeeds
  head : ∀ matching result, F.fetch matching = some result → result.head? = matching.head?

/-- The fetch that returns what matches as it is. -/
def inOrder : Fetch where
  fetch := some
  fetch_perm := by
    intro matching result h
    exact Option.some.inj h ▸ List.Perm.refl _

theorem succeeds_inOrder : inOrder.Succeeds := fun _ => rfl

theorem takesFirst_inOrder : inOrder.TakesFirst where
  succeeds := succeeds_inOrder
  head := by
    intro matching result h
    rw [Option.some.inj h]

end Fetch

/-- What the code relies on the Core Data framework for. -/
structure CoreData extends MergePolicy, Fetch

/-- The app's merge policy, with any behaviour of the fetch. -/
def CoreData.propertyStoreTrump (F : Fetch) : CoreData :=
  { MergePolicy.propertyStoreTrump, F with }

/-- The same with the plainest fetch, for concrete runs. -/
abbrev CoreData.inOrder : CoreData := .propertyStoreTrump .inOrder

namespace PersistentStore

variable (policy : MergePolicy) (st : PersistentStore)

/-- Save the inserted objects of a context. -/
def save (channels : List DBChannel) (messages : List DBMessage) : PersistentStore :=
  ofRows (policy.channels.keep st.channels channels) (policy.messages.keep st.messages messages)
    (policy.channels.unique _ _ st.channels_unique) (policy.messages.unique _ _ st.messages_unique)

@[simp] theorem save_messages (channels : List DBChannel) (messages : List DBMessage) :
    (st.save policy channels messages).messages =
      (policy.messages.keep st.messages messages).map
        (DBMessage.nullify (policy.channels.keep st.channels channels)) := rfl

theorem save_channels_sublist (channels : List DBChannel) (messages : List DBMessage) :
    (st.save policy channels messages).channels.Sublist (st.channels ++ channels) :=
  policy.channels.sublist _ _

theorem mem_of_mem_save_messages {channels : List DBChannel} {messages : List DBMessage}
    {m : DBMessage} (hm : m ∈ (st.save policy channels messages).messages) :
    ∃ m' ∈ st.messages ++ messages,
      m = m'.nullify (policy.channels.keep st.channels channels) := by
  rw [save_messages, List.mem_map] at hm
  obtain ⟨m', hm', rfl⟩ := hm
  exact ⟨m', (policy.messages.sublist _ _).subset hm', rfl⟩

/-! ### What is left alone -/

/-- The messages attached to a channel: `DBChannel.message`. -/
def attached (r : DBChannel) : List DBMessage :=
  st.messages.filter fun m => m.channel = some r.objectID

variable {st}

/-- Deleting a row does not detach the messages of another. -/
theorem attached_delete {r : DBChannel} {o : ObjectID} (hr : r ∈ st.channels)
    (hne : r.objectID ≠ o) : (st.delete o).attached r = st.attached r := by
  unfold attached
  rw [delete_messages, List.filter_map]
  have hr' : r ∈ st.channels.filter (·.objectID ≠ o) :=
    List.mem_filter.mpr ⟨hr, by simpa using hne⟩
  have hlink : ∀ m : DBMessage,
      (m.nullify (st.channels.filter (·.objectID ≠ o))).channel = some r.objectID ↔
        m.channel = some r.objectID := by
    intro m
    rw [DBMessage.channel_nullify_eq_some]
    exact and_iff_left ⟨r, hr', rfl⟩
  have hfilter : st.messages.filter ((fun m => decide (m.channel = some r.objectID)) ∘
        DBMessage.nullify (st.channels.filter (·.objectID ≠ o))) =
      st.messages.filter fun m => m.channel = some r.objectID := by
    refine List.filter_congr fun m _ => ?_
    exact decide_eq_decide.mpr (hlink m)
  rw [hfilter]
  apply DBMessage.map_nullify_eq_self
  intro m hm o' ho'
  have hm' : m.channel = some r.objectID := by simpa using (List.mem_filter.mp hm).2
  exact ⟨r, hr', Option.some.inj (hm'.symm.trans ho')⟩

/-- A stored channel never makes room for a new one. -/
theorem mem_save_channels_of_mem (channels : List DBChannel) (messages : List DBMessage)
    {r : DBChannel} (hr : r ∈ st.channels) :
    r ∈ (st.save .propertyStoreTrump channels messages).channels :=
  mem_insertAll_of_mem _ channels hr

/-- So the stored messages keep their places and their channels. -/
theorem messages_prefix_save (channels : List DBChannel) (messages : List DBMessage) :
    st.messages <+: (st.save .propertyStoreTrump channels messages).messages := by
  have hself : st.messages.map (DBMessage.nullify
      (st.save .propertyStoreTrump channels messages).channels) = st.messages := by
    apply DBMessage.map_nullify_eq_self
    intro m hm o ho
    obtain ⟨r, hr, hro⟩ := st.channel_stored m hm o ho
    exact ⟨r, mem_save_channels_of_mem channels messages hr, hro⟩
  have hprefix := (prefix_insertAll DBMessage.Conflicts messages st.messages).map
    (DBMessage.nullify (st.save .propertyStoreTrump channels messages).channels)
  rw [hself] at hprefix
  exact hprefix

/-- Where no message is saved, none is added. -/
theorem save_messages_nil (channels : List DBChannel) :
    (st.save .propertyStoreTrump channels []).messages = st.messages := by
  refine ((messages_prefix_save channels []).eq_of_length ?_).symm
  show st.messages.length = (st.messages.map _).length
  rw [List.length_map]

end PersistentStore

end MessengerApp
