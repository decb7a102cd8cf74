import Mathlib.Data.List.Sort
import MessengerApp.CoreData.Manager

/-!
# `MessagesManager`

The listener for the messages of one channel saves the whole snapshot again
whenever it is longer than the list of messages stored for the channel.

* `fetchedResult` — the messages a channel's screen shows.
* `shownMessages` — the same as values.
* `checkingTheMessages` — the calls the listener makes.
* `mem_fetchedResult` — the rows it shows are those attached to the channel.
-/

namespace MessengerApp

open UniqueTable CoreDataManager

/-- The predicate `channel.identifier == channelIdentifier`. -/
def BelongsTo (st : PersistentStore) (channelIdentifier : String) (m : DBMessage) : Prop :=
  (st.channelOf m).map DBChannel.identifier = some channelIdentifier

instance (st : PersistentStore) (channelIdentifier : String) :
    DecidablePred (BelongsTo st channelIdentifier) := fun m =>
  inferInstanceAs (Decidable ((st.channelOf m).map DBChannel.identifier = some channelIdentifier))

/-- The messages of a stored channel are those attached to its row. -/
theorem belongsTo_iff {m : CoreDataManager} {r : DBChannel} (hr : r ∈ m.store.channels)
    (p : DBMessage) : BelongsTo m.store r.identifier p ↔ p.channel = some r.objectID := by
  unfold BelongsTo
  rw [← channelOf_eq_some_iff hr, Option.map_eq_some_iff]
  constructor
  · rintro ⟨r', hr', hid⟩
    have hmem := (PersistentStore.channelOf_eq_some hr').1
    rw [hr', PersistentStore.eq_of_identifier hmem hr hid]
  · exact fun h => ⟨r, h, rfl⟩

/-- `fetchedResult(channelIdentifier:)`: sorted by `created`; rows of equal date
come in the order in which they were stored. -/
def fetchedResult (channelIdentifier : String) (st : PersistentStore) : List DBMessage :=
  (st.messages.filter fun m => BelongsTo st channelIdentifier m).insertionSort
    fun m m' => m.created ≤ m'.created

theorem fetchedResult_perm (channelIdentifier : String) (st : PersistentStore) :
    (fetchedResult channelIdentifier st).Perm
      (st.messages.filter fun m => BelongsTo st channelIdentifier m) :=
  List.perm_insertionSort _ _

theorem mem_fetchedResult {channelIdentifier : String} {st : PersistentStore} {m : DBMessage} :
    m ∈ fetchedResult channelIdentifier st ↔
      m ∈ st.messages ∧ ∃ r ∈ st.channels, st.channelOf m = some r ∧
        r.identifier = channelIdentifier := by
  rw [(fetchedResult_perm channelIdentifier st).mem_iff, List.mem_filter, decide_eq_true_eq]
  unfold BelongsTo
  rw [Option.map_eq_some_iff]
  constructor
  · rintro ⟨hm, r, hr, hid⟩
    exact ⟨hm, r, (PersistentStore.channelOf_eq_some hr).1, hr, hid⟩
  · rintro ⟨hm, r, -, hr, hid⟩
    exact ⟨hm, r, hr, hid⟩

/-- A channel that is not stored shows nothing. -/
theorem fetchedResult_of_notStored {st : PersistentStore} {c : String}
    (hc : ∀ r ∈ st.channels, r.identifier ≠ c) : fetchedResult c st = [] := by
  apply List.eq_nil_iff_forall_not_mem.mpr
  intro p hp
  obtain ⟨-, r, hr, -, hid⟩ := mem_fetchedResult.mp hp
  exact hc r hr hid

/-- A stored channel shows as many messages as are attached to its row. -/
theorem length_fetchedResult {m : CoreDataManager} {r : DBChannel} (hr : r ∈ m.store.channels) :
    (fetchedResult r.identifier m.store).length = (m.store.attached r).length := by
  rw [(fetchedResult_perm r.identifier m.store).length_eq, PersistentStore.attached]
  have hfilter : (m.store.messages.filter fun p => BelongsTo m.store r.identifier p) =
      m.store.messages.filter fun p => p.channel = some r.objectID :=
    List.filter_congr fun p _ => decide_eq_decide.mpr (belongsTo_iff hr p)
  rw [hfilter]

/-- The messages that the screen of a channel shows. -/
def shownMessages (channelIdentifier : String) (st : PersistentStore) : List Message :=
  (fetchedResult channelIdentifier st).map DBMessage.message

/-- No screen shows two messages with one content, as contents are unique. -/
theorem nodup_content_shownMessages (channelIdentifier : String) (st : PersistentStore) :
    ((shownMessages channelIdentifier st).map Message.content).Nodup := by
  have hstored : (st.messages.map DBMessage.content).Nodup :=
    List.pairwise_map.mpr st.messages_unique
  have hmap : (shownMessages channelIdentifier st).map Message.content =
      (fetchedResult channelIdentifier st).map DBMessage.content := by
    rw [shownMessages, List.map_map]
    rfl
  rw [hmap, ((fetchedResult_perm channelIdentifier st).map _).nodup_iff]
  exact hstored.sublist (List.filter_sublist.map _)

theorem nodup_shownMessages (channelIdentifier : String) (st : PersistentStore) :
    (shownMessages channelIdentifier st).Nodup :=
  List.Nodup.of_map _ (nodup_content_shownMessages channelIdentifier st)

/-- The calls that `checkingTheMessages` makes, given the messages of the
snapshot and the store. -/
def checkingTheMessages (messages : List Message) (channelIdentifier : String)
    (st : PersistentStore) : List Call :=
  if (fetchedResult channelIdentifier st).length < messages.length then
    messages.map fun message => .saveMessage message channelIdentifier
  else []

/-- The listener of a channel only saves messages of its snapshot, for that channel. -/
theorem mem_checkingTheMessages {messages : List Message} {channelIdentifier : String}
    {st : PersistentStore} {c : Call}
    (h : c ∈ checkingTheMessages messages channelIdentifier st) :
    ∃ message ∈ messages, c = .saveMessage message channelIdentifier := by
  unfold checkingTheMessages at h
  split at h
  · obtain ⟨message, hm, rfl⟩ := List.mem_map.mp h
    exact ⟨message, hm, rfl⟩
  · exact absurd h List.not_mem_nil

end MessengerApp
