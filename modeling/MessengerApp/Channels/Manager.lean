import MessengerApp.CoreData.Manager
import MessengerApp.Library.Positions

/-!
# `ChannelsManager`

The listener for the list of channels compares the *number* of channels in the
snapshot with the number its fetched results controller holds, and from that
decides to prune, to insert, or to do nothing.

* `fetchChannels` — the fetch of `fetchedResultsController`.
* `fetchChannels_delete` — what it finds after a deletion.
* `checkingTheRelevanceOfChannels` — the calls the listener makes.
* `mem_checkingTheRelevance` — what such a call can be.
-/

namespace MessengerApp

open CoreDataManager Positions

/-- Dates in ascending order; a missing date comes first. -/
def dateBefore : Option Date → Option Date → Bool
  | none, _ => true
  | some _, none => false
  | some d, some d' => d ≤ d'

/-- The sort descriptor `lastActivity`, ascending. -/
def DBChannel.Before (r r' : DBChannel) : Prop := dateBefore r.lastActivity r'.lastActivity = true

instance : DecidableRel DBChannel.Before := fun r r' =>
  inferInstanceAs (Decidable (dateBefore r.lastActivity r'.lastActivity = true))

instance : Std.Total DBChannel.Before where
  total r r' := by
    unfold DBChannel.Before
    cases hr : r.lastActivity <;> cases hr' : r'.lastActivity <;> simp [dateBefore]
    exact le_total _ _

instance : IsTrans DBChannel DBChannel.Before where
  trans r₁ r₂ r₃ := by
    unfold DBChannel.Before
    cases r₁.lastActivity <;> cases r₂.lastActivity <;> cases r₃.lastActivity <;>
      simp [dateBefore]
    exact le_trans

/-- What `performFetch` of a fresh `fetchedResultsController` finds; rows with
equal dates come in the order in which they were stored. -/
def fetchChannels (st : PersistentStore) : List DBChannel :=
  st.channels.insertionSort DBChannel.Before

theorem fetchChannels_perm (st : PersistentStore) : (fetchChannels st).Perm st.channels :=
  List.perm_insertionSort _ _

/-- After a deletion the fetch finds the rest, in the same order. -/
theorem fetchChannels_delete (st : PersistentStore) (object : ObjectID) :
    fetchChannels (st.delete object) = (fetchChannels st).filter (·.objectID ≠ object) :=
  (filter_insertionSort _ _).symm

@[simp] theorem length_fetchChannels (st : PersistentStore) :
    (fetchChannels st).length = st.channels.length := (fetchChannels_perm st).length_eq

/-- The rows of the fetch `NOT identifier IN identifiers`. -/
def staleChannels (st : PersistentStore) (identifiers : List String) : List DBChannel :=
  st.channels.filter (·.identifier ∉ identifiers)

/-- The calls that `checkingTheRelevanceOfChannels` makes, given the channels of
the snapshot, the objects its controller holds and the store. -/
def checkingTheRelevanceOfChannels (actualChannels : List ChannelModel)
    (channelsFromCoreData : List DBChannel) (st : PersistentStore) : List Call :=
  if actualChannels.length < channelsFromCoreData.length then
    (staleChannels st (actualChannels.map ChannelModel.identifier)).map
      fun r => .deleteChannel r.objectID
  else if channelsFromCoreData.length < actualChannels.length then
    actualChannels.map .saveChannel
  else []

/-- The listener only deletes channels that the snapshot does not list, and only
saves channels that it lists. -/
theorem mem_checkingTheRelevance {cs : List ChannelModel} {rows : List DBChannel}
    {st : PersistentStore} {c : Call} (h : c ∈ checkingTheRelevanceOfChannels cs rows st) :
    (∃ r ∈ st.channels, r.identifier ∉ cs.map ChannelModel.identifier ∧
        c = .deleteChannel r.objectID) ∨
      ∃ channel ∈ cs, c = .saveChannel channel := by
  unfold checkingTheRelevanceOfChannels at h
  split at h
  · obtain ⟨r, hr, rfl⟩ := List.mem_map.mp h
    obtain ⟨hr, hid⟩ := List.mem_filter.mp hr
    exact Or.inl ⟨r, hr, by simpa using hid, rfl⟩
  · split at h
    · obtain ⟨channel, hc, rfl⟩ := List.mem_map.mp h
      exact Or.inr ⟨channel, hc, rfl⟩
    · exact absurd h List.not_mem_nil

end MessengerApp
