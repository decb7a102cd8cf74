import Mathlib.Data.List.Nodup
import MessengerApp.CoreData.Schema
import MessengerApp.Library.Machine

/-!
# `CoreDataManager`

The two contexts of the app and the four functions that write through them.
Every insert goes into the one background context that all channels and
messages share, and schedules a block that saves whatever that context holds by
the time the block runs.  Deletions go through the view context and take effect
at once.

The save blocks run on the background context's own queue, one at a time and in
the order scheduled, between any two calls of the main queue: `ran` of the
`issued` blocks have run.

## Main definitions

* `CoreDataManager` — the persistent store, the pending inserts and the queue.
* `saveChannelsWithCoreData`, `saveMessagesWithCoreData`, `deleteChannel`,
  `saveBackgroundContex` — the functions of the source.
* `runSaveBlock` — what a scheduled block does.
* `Call`, `Op`, `step` — calls and blocks as the events of a machine.

## Main results

* `fetchChannel_eq_some`, `fetchChannel_eq_none`, `fetchChannel_isSome`,
  `fetchChannel_of_takesFirst` — the object that a fetch for an identifier can return,
  depending on what is known of fetches.
* `mem_store_of_link` — stored messages are linked to stored rows.
* `runSaveBlock_cases` — the three ways a block can run.
* `scheduled_of_step` — a pending insert always has a block still to run.
-/

namespace MessengerApp

open UniqueTable

/-- The object inserted for a channel. -/
def ChannelModel.row (channel : ChannelModel) (objectID : ObjectID) : DBChannel where
  objectID := objectID
  identifier := channel.identifier
  name := channel.name
  lastMessage := channel.lastMessage
  lastActivity := channel.lastActivity

/-- The object inserted for a message. -/
def Message.row (message : Message) (channel : Option ObjectID) : DBMessage where
  content := message.content
  created := message.created
  senderId := message.senderid
  senderName := message.senderName
  channel := channel

@[simp] theorem ChannelModel.model_row (channel : ChannelModel) (o : ObjectID) :
    (channel.row o).model = channel := rfl

@[simp] theorem Message.message_row (message : Message) (channel : Option ObjectID) :
    (message.row channel).message = message := rfl

/-- The store, what the background context holds beyond it, and the queue of
save blocks.  Object identities are never used twice. -/
structure CoreDataManager where
  store : PersistentStore
  insertedChannels : List DBChannel
  insertedMessages : List DBMessage
  /-- The number of save blocks scheduled so far. -/
  issued : ℕ
  /-- The number of save blocks that have run. -/
  ran : ℕ
  /-- The blocks whose save threw, as printed. -/
  failed : List ℕ
  nextID : ObjectID
  ids_nodup : ((store.channels ++ insertedChannels).map DBChannel.objectID).Nodup
  ids_lt : ∀ r ∈ store.channels ++ insertedChannels, r.objectID < nextID
  links_lt : ∀ m ∈ store.messages ++ insertedMessages, ∀ o ∈ m.channel, o < nextID

namespace CoreDataManager

/-- Nothing stored, nothing pending. -/
def empty : CoreDataManager where
  store := .empty
  insertedChannels := []
  insertedMessages := []
  issued := 0
  ran := 0
  failed := []
  nextID := 0
  ids_nodup := by simp [PersistentStore.empty]
  ids_lt := by simp [PersistentStore.empty]
  links_lt := by simp [PersistentStore.empty]

variable (cd : CoreData) (m : CoreDataManager)

/-- `backgroundContex.hasChanges`. -/
def hasChanges : Bool := !(m.insertedChannels.isEmpty && m.insertedMessages.isEmpty)

/-- The channel objects the background context knows: stored and pending. -/
def channelObjects : List DBChannel := m.store.channels ++ m.insertedChannels

/-- The message objects the background context knows: stored and pending. -/
def messageObjects : List DBMessage := m.store.messages ++ m.insertedMessages

theorem stored_ids_nodup : (m.store.channels.map DBChannel.objectID).Nodup :=
  m.ids_nodup.sublist ((List.sublist_append_left _ _).map _)

variable {m} in
/-- Two channel objects with one identity are the same. -/
theorem eq_of_objectID {r r' : DBChannel} (hr : r ∈ m.channelObjects)
    (hr' : r' ∈ m.channelObjects) (h : r.objectID = r'.objectID) : r = r' :=
  List.inj_on_of_nodup_map m.ids_nodup hr hr' h

variable {m} in
/-- A stored message is only ever linked to a stored row. -/
theorem mem_store_of_link {p : DBMessage} {r : DBChannel} (hp : p ∈ m.store.messages)
    (hr : r ∈ m.channelObjects) (hlink : p.channel = some r.objectID) : r ∈ m.store.channels := by
  obtain ⟨r', hr', ho⟩ := m.store.channel_stored p hp _ hlink
  exact eq_of_objectID (List.mem_append_left _ hr') hr ho ▸ hr'

variable {m} in
/-- The row a message is attached to is the stored row that its link leads to. -/
theorem channelOf_eq_some_iff {p : DBMessage} {r : DBChannel} (hr : r ∈ m.store.channels) :
    m.store.channelOf p = some r ↔ p.channel = some r.objectID := by
  constructor
  · exact fun h => (PersistentStore.channelOf_eq_some h).2
  · intro h
    have hsome : (m.store.channels.find? (·.objectID = r.objectID)).isSome := by
      rw [List.find?_isSome]
      exact ⟨r, hr, by simp⟩
    obtain ⟨r', hr'⟩ := Option.isSome_iff_exists.mp hsome
    have ho : r'.objectID = r.objectID := by simpa using List.find?_some hr'
    have heq : r' = r := eq_of_objectID (List.mem_append_left _ (List.mem_of_find?_eq_some hr'))
      (List.mem_append_left _ hr) ho
    rw [PersistentStore.channelOf, h, Option.bind_some, hr', heq]

/-- `saveBackgroundContex`: schedule a block that saves the context. -/
def saveBackgroundContex : CoreDataManager := { m with issued := m.issued + 1 }

/-- `DBChannel(entity:insertInto:)` with its attributes set. -/
def insertChannel (channel : ChannelModel) : CoreDataManager :=
  { m with
    insertedChannels := m.insertedChannels ++ [channel.row m.nextID]
    nextID := m.nextID + 1
    ids_nodup := by
      rw [← List.append_assoc, List.map_append, List.nodup_append]
      refine ⟨m.ids_nodup, List.nodup_singleton _, ?_⟩
      intro o ho o' ho' heq
      obtain ⟨r, hr, rfl⟩ := List.mem_map.mp ho
      obtain ⟨r', hr', rfl⟩ := List.mem_map.mp ho'
      rw [List.mem_singleton] at hr'
      have hlt := m.ids_lt r hr
      rw [heq, hr', ChannelModel.row] at hlt
      exact Nat.lt_irrefl _ hlt
    ids_lt := by
      intro r hr
      rw [← List.append_assoc, List.mem_append, List.mem_singleton] at hr
      rcases hr with hr | rfl
      · exact Nat.lt_succ_of_lt (m.ids_lt r hr)
      · exact Nat.lt_succ_self _
    links_lt := fun x hx o ho => Nat.lt_succ_of_lt (m.links_lt x hx o ho) }

/-- `saveChannelsWithCoreData(channel:)`. -/
def saveChannelsWithCoreData (channel : ChannelModel) : CoreDataManager :=
  (m.insertChannel channel).saveBackgroundContex

/-- The first object of the background fetch `identifier == identifier`; `none`
when there is none or when the fetch throws. -/
def fetchChannel (identifier : String) : Option DBChannel :=
  (cd.fetch (m.channelObjects.filter (·.identifier = identifier))).bind List.head?

variable {cd m} in
theorem fetchChannel_eq_some {identifier : String} {r : DBChannel}
    (h : m.fetchChannel cd identifier = some r) :
    r ∈ m.channelObjects ∧ r.identifier = identifier := by
  obtain ⟨result, hfetch, hhead⟩ := Option.bind_eq_some_iff.mp h
  have hmem : r ∈ m.channelObjects.filter (·.identifier = identifier) :=
    (cd.fetch_perm _ _ hfetch).mem_iff.mp (List.mem_of_head? hhead)
  simpa using List.mem_filter.mp hmem

variable {cd m} in
/-- If none is found, there is none, or the fetch has thrown. -/
theorem fetchChannel_eq_none {identifier : String} (h : m.fetchChannel cd identifier = none) :
    (∀ r ∈ m.channelObjects, r.identifier ≠ identifier) ∨
      cd.fetch (m.channelObjects.filter (·.identifier = identifier)) = none := by
  cases hfetch : cd.fetch (m.channelObjects.filter (·.identifier = identifier)) with
  | none => exact Or.inr rfl
  | some result =>
    rw [fetchChannel, hfetch, Option.bind_some, List.head?_eq_none_iff] at h
    have hnil := (cd.fetch_perm _ _ hfetch).symm
    rw [h, List.perm_nil, List.filter_eq_nil_iff] at hnil
    exact Or.inl fun r hr => by simpa using hnil r hr

variable {m} in
/-- A fetch that takes the first match finds the first object with the identifier. -/
theorem fetchChannel_of_takesFirst {F : Fetch} (hF : F.TakesFirst) (identifier : String) :
    m.fetchChannel (.propertyStoreTrump F) identifier =
      m.channelObjects.find? (·.identifier = identifier) := by
  obtain ⟨result, hresult⟩ := Option.isSome_iff_exists.mp
    (hF.succeeds (m.channelObjects.filter (·.identifier = identifier)))
  have hfetch : m.fetchChannel (.propertyStoreTrump F) identifier = result.head? := by
    show (F.fetch _).bind List.head? = _
    rw [hresult, Option.bind_some]
  rw [hfetch, hF.head _ _ hresult, List.head?_filter]

variable {m} in
/-- A fetch that succeeds finds an object if there is one. -/
theorem fetchChannel_isSome {F : Fetch} (hF : F.Succeeds) {r : DBChannel}
    (hr : r ∈ m.channelObjects) :
    (m.fetchChannel (.propertyStoreTrump F) r.identifier).isSome := by
  have hmem : r ∈ m.channelObjects.filter (·.identifier = r.identifier) :=
    List.mem_filter.mpr ⟨hr, by simp⟩
  obtain ⟨result, hresult⟩ := Option.isSome_iff_exists.mp (hF (m.channelObjects.filter
    (·.identifier = r.identifier)))
  have hhead : result.head?.isSome := by
    rw [List.isSome_head?]
    exact List.ne_nil_of_mem ((F.fetch_perm _ _ hresult).mem_iff.mpr hmem)
  have hfetch : m.fetchChannel (.propertyStoreTrump F) r.identifier = result.head? := by
    show (F.fetch _).bind List.head? = _
    rw [hresult, Option.bind_some]
  rw [hfetch]
  exact hhead

/-- `DBMessage(entity:insertInto:)` with its attributes set and, when a channel
was found, its relationship. -/
def insertMessage (message : Message) (channel : Option DBChannel)
    (h : ∀ r ∈ channel, r ∈ m.channelObjects) : CoreDataManager :=
  { m with
    insertedMessages := m.insertedMessages ++ [message.row (channel.map DBChannel.objectID)]
    links_lt := by
      intro x hx o ho
      rw [← List.append_assoc, List.mem_append, List.mem_singleton] at hx
      rcases hx with hx | rfl
      · exact m.links_lt x hx o ho
      · obtain ⟨r, hr, rfl⟩ := Option.map_eq_some_iff.mp ho
        exact m.ids_lt r (h r hr) }

/-- `saveMessagesWithCoreData(message:identifier:)`.  Whether or not a channel is
found, the message is inserted and a save scheduled. -/
def saveMessagesWithCoreData (message : Message) (identifier : String) : CoreDataManager :=
  (m.insertMessage message (m.fetchChannel cd identifier)
    fun _ hr => (fetchChannel_eq_some hr).1).saveBackgroundContex

/-- `deleteChannel(object:)`: delete in the view context and save it, or roll it
back when the save throws. -/
def deleteChannel (object : ObjectID) (fails : Bool) : CoreDataManager :=
  if fails then m
  else
    { m with
      store := m.store.delete object
      ids_nodup := m.ids_nodup.sublist
        (((List.filter_sublist).append (List.Sublist.refl _)).map _)
      ids_lt := fun r hr =>
        m.ids_lt r (((List.filter_sublist).append (List.Sublist.refl _)).subset hr)
      links_lt := by
        intro x hx o ho
        rcases List.mem_append.mp hx with hx | hx
        · obtain ⟨x', hx', rfl⟩ := List.mem_map.mp hx
          exact m.links_lt x' (List.mem_append_left _ hx') o
            (DBMessage.channel_nullify_eq_some.mp ho).1
        · exact m.links_lt x (List.mem_append_right _ hx) o ho }

/-- The background context after its save went through. -/
def commit : CoreDataManager :=
  { m with
    store := m.store.save cd.toMergePolicy m.insertedChannels m.insertedMessages
    insertedChannels := []
    insertedMessages := []
    ids_nodup := by
      rw [List.append_nil]
      exact m.ids_nodup.sublist ((m.store.save_channels_sublist cd.toMergePolicy _ _).map _)
    ids_lt := by
      rw [List.append_nil]
      exact fun r hr => m.ids_lt r ((m.store.save_channels_sublist cd.toMergePolicy _ _).subset hr)
    links_lt := by
      rw [List.append_nil]
      intro x hx o ho
      obtain ⟨x', hx', rfl⟩ := m.store.mem_of_mem_save_messages cd.toMergePolicy hx
      exact m.links_lt x' hx' o (DBMessage.channel_nullify_eq_some.mp ho).1 }

/-- `rollback()`: the background context drops every pending insert. -/
def rollback : CoreDataManager :=
  { m with
    insertedChannels := []
    insertedMessages := []
    failed := m.failed ++ [m.ran]
    ids_nodup := m.ids_nodup.sublist
      (((List.Sublist.refl _).append (List.nil_sublist _)).map _)
    ids_lt := fun r hr =>
      m.ids_lt r (((List.Sublist.refl _).append (List.nil_sublist _)).subset hr)
    links_lt := fun x hx o ho =>
      m.links_lt x (((List.Sublist.refl _).append (List.nil_sublist _)).subset hx) o ho }

/-- The next scheduled block has been taken off the queue. -/
def dequeue : CoreDataManager := { m with ran := m.ran + 1 }

/-- Run the next block that `saveBackgroundContex` scheduled, if there is one;
`fails` says whether `save()` throws. -/
def runSaveBlock (fails : Bool) : Option CoreDataManager :=
  if m.ran < m.issued then
    some (if m.hasChanges then (if fails then m.rollback else m.commit cd).dequeue
      else m.dequeue)
  else none

/-! ### Calls and blocks as events -/

/-- A call the main queue makes. -/
inductive Call
  | saveChannel (channel : ChannelModel)
  | saveMessage (message : Message) (identifier : String)
  | deleteChannel (object : ObjectID)
  deriving DecidableEq, Repr

/-- Perform a call; `fails` is for the save of the view context. -/
def perform (fails : Bool) : Call → CoreDataManager
  | .saveChannel channel => m.saveChannelsWithCoreData channel
  | .saveMessage message identifier => m.saveMessagesWithCoreData cd message identifier
  | .deleteChannel object => m.deleteChannel object fails

/-- A call of the main queue, or a block of the background queue. -/
inductive Op
  | call (c : Call) (fails : Bool)
  | saveBlock (fails : Bool)
  deriving DecidableEq, Repr

/-- The next state; a block can only run when one is scheduled. -/
def step (m : CoreDataManager) : Op → Option CoreDataManager
  | .call c fails => some (m.perform cd fails c)
  | .saveBlock fails => m.runSaveBlock cd fails

/-! ### What the operations do to each part -/

section Parts

variable (channel : ChannelModel) (message : Message) (identifier : String) (object : ObjectID)

@[simp] theorem saveChannels_store : (m.saveChannelsWithCoreData channel).store = m.store := rfl

@[simp] theorem saveChannels_insertedChannels :
    (m.saveChannelsWithCoreData channel).insertedChannels =
      m.insertedChannels ++ [channel.row m.nextID] := rfl

@[simp] theorem saveChannels_insertedMessages :
    (m.saveChannelsWithCoreData channel).insertedMessages = m.insertedMessages := rfl

@[simp] theorem saveMessages_store :
    (m.saveMessagesWithCoreData cd message identifier).store = m.store := rfl

@[simp] theorem saveMessages_insertedChannels :
    (m.saveMessagesWithCoreData cd message identifier).insertedChannels =
      m.insertedChannels := rfl

@[simp] theorem saveMessages_insertedMessages :
    (m.saveMessagesWithCoreData cd message identifier).insertedMessages =
      m.insertedMessages ++
        [message.row ((m.fetchChannel cd identifier).map DBChannel.objectID)] := rfl

@[simp] theorem deleteChannel_store_false :
    (m.deleteChannel object false).store = m.store.delete object := rfl

@[simp] theorem deleteChannel_insertedChannels (fails : Bool) :
    (m.deleteChannel object fails).insertedChannels = m.insertedChannels := by
  cases fails <;> rfl

@[simp] theorem deleteChannel_insertedMessages (fails : Bool) :
    (m.deleteChannel object fails).insertedMessages = m.insertedMessages := by
  cases fails <;> rfl

@[simp] theorem deleteChannel_issued (fails : Bool) :
    (m.deleteChannel object fails).issued = m.issued := by
  cases fails <;> rfl

@[simp] theorem deleteChannel_ran (fails : Bool) :
    (m.deleteChannel object fails).ran = m.ran := by
  cases fails <;> rfl

end Parts

theorem hasChanges_eq_false_iff {m : CoreDataManager} :
    m.hasChanges = false ↔ m.insertedChannels = [] ∧ m.insertedMessages = [] := by
  simp [hasChanges]

variable {cd m} in
/-- **What a save block can do**: find nothing to save, roll everything back, or
commit everything. -/
theorem runSaveBlock_cases {fails : Bool} {m' : CoreDataManager}
    (h : m.runSaveBlock cd fails = some m') :
    m.ran < m.issued ∧
      ((m.hasChanges = false ∧ m' = m.dequeue) ∨
        (m.hasChanges = true ∧ fails = true ∧ m' = m.rollback.dequeue) ∨
        (m.hasChanges = true ∧ fails = false ∧ m' = (m.commit cd).dequeue)) := by
  unfold runSaveBlock at h
  split at h
  · next hlt =>
    refine ⟨hlt, ?_⟩
    rw [Option.some.injEq] at h
    subst h
    cases hch : m.hasChanges with
    | false => exact Or.inl ⟨rfl, rfl⟩
    | true => cases fails <;> simp
  · exact absurd h (by simp)

variable {cd m} in
/-- However a block ran, nothing is pending afterwards. -/
theorem hasChanges_of_block {fails : Bool} {m' : CoreDataManager}
    (h : m.runSaveBlock cd fails = some m') :
    m'.hasChanges = false ∧ m'.ran = m.ran + 1 ∧ m'.issued = m.issued ∧ m'.nextID = m.nextID := by
  obtain ⟨-, ⟨hch, rfl⟩ | ⟨-, -, rfl⟩ | ⟨-, -, rfl⟩⟩ := runSaveBlock_cases h
  · exact ⟨hch, rfl, rfl, rfl⟩
  · exact ⟨rfl, rfl, rfl, rfl⟩
  · exact ⟨rfl, rfl, rfl, rfl⟩

variable {cd m} in
/-- So the objects are those that are stored. -/
theorem objects_eq_store_of_block {fails : Bool} {m' : CoreDataManager}
    (h : m.runSaveBlock cd fails = some m') :
    m'.channelObjects = m'.store.channels ∧ m'.messageObjects = m'.store.messages := by
  obtain ⟨hc, hm⟩ := hasChanges_eq_false_iff.mp (hasChanges_of_block h).1
  rw [channelObjects, messageObjects, hc, hm, List.append_nil, List.append_nil]
  exact ⟨rfl, rfl⟩

/-! ### Pending inserts are scheduled -/

/-- Whatever the background context holds, a block that will save it has not run yet. -/
def Scheduled : Prop := m.ran ≤ m.issued ∧ (m.hasChanges = true → m.ran < m.issued)

theorem scheduled_empty : empty.Scheduled := ⟨Nat.le_refl 0, fun h => absurd h (by decide)⟩

variable {cd m} in
theorem scheduled_of_step {op : Op} {m' : CoreDataManager} (hm : m.Scheduled)
    (h : m.step cd op = some m') : m'.Scheduled := by
  obtain ⟨hle, hpend⟩ := hm
  cases op with
  | call c fails =>
    obtain rfl := Option.some.inj h
    cases c with
    | saveChannel channel =>
      exact ⟨Nat.le_succ_of_le hle, fun _ => Nat.lt_succ_of_le hle⟩
    | saveMessage message identifier =>
      exact ⟨Nat.le_succ_of_le hle, fun _ => Nat.lt_succ_of_le hle⟩
    | deleteChannel object =>
      have hsame : (m.deleteChannel object fails).hasChanges = m.hasChanges := by
        simp [hasChanges]
      refine ⟨by simpa [perform] using hle, fun hch => ?_⟩
      simpa [perform] using hpend (hsame ▸ hch)
  | saveBlock fails =>
    have hlt := (runSaveBlock_cases h).1
    obtain ⟨hch, hran, hissued, -⟩ := hasChanges_of_block h
    exact ⟨by omega, fun h => absurd (hch ▸ h) (by simp)⟩

/-- Once every scheduled block has run, nothing is pending. -/
theorem Scheduled.inserted_eq_nil {m : CoreDataManager} (hm : m.Scheduled)
    (hran : m.ran = m.issued) : m.insertedChannels = [] ∧ m.insertedMessages = [] := by
  rw [← hasChanges_eq_false_iff]
  cases hch : m.hasChanges with
  | false => rfl
  | true => exact absurd (hm.2 hch) (by omega)

end CoreDataManager

end MessengerApp
