import Mathlib.Data.List.Perm.Subperm
import MessengerApp.App

/-!
# What one channel snapshot does to the store

The listener of `ChannelsManager` is meant to bring the stored channels in line
with a snapshot.  It prunes when the snapshot is shorter than the stored list,
inserts when it is longer, and does nothing when both have the same length;
`syncResult` is what that comes to, once every save and deletion has gone
through.

## Main definitions

* `syncResult stored snapshot` — the channels stored afterwards.
* `InStep stored snapshot` — the condition under which those are the snapshot's.
* `App.promised` — the channels that will be stored once everything under way is done.

## Main results

* `promised_of_step` — finishing a delivery changes nothing about what it promised.
* `channels_of_run` — one delivery, in whatever order its calls and save blocks
  run, takes the stored channels to `syncResult`.
* `channels_eq_snapshot_iff` — **when the stored channels are exactly those of the
  snapshot.**
-/

namespace MessengerApp

open Machine UniqueTable CoreDataManager

/-! ### The lists -/

/-- The stored channels after a delivery that went through. -/
def syncResult (stored snapshot : List ChannelModel) : List ChannelModel :=
  if snapshot.length < stored.length then
    stored.filter fun c => c.identifier ∈ snapshot.map ChannelModel.identifier
  else if stored.length < snapshot.length then
    insertAll ChannelModel.Conflicts stored snapshot
  else stored

/-- Either the snapshot is no longer than the stored list, and each of its channels
is stored exactly as it is; or it is longer, each stored channel is listed exactly
as it is, and no two channels of the snapshot share a name. -/
def InStep (stored snapshot : List ChannelModel) : Prop :=
  (snapshot.length ≤ stored.length ∧ ∀ c ∈ snapshot, c ∈ stored) ∨
    (stored.length < snapshot.length ∧ (∀ c ∈ stored, c ∈ snapshot) ∧
      (snapshot.map ChannelModel.name).Nodup)

theorem syncResult_shorter_iff {T S : List ChannelModel} (hT : Unique ChannelModel.Conflicts T)
    (hlt : S.length < T.length) :
    (∀ c, c ∈ syncResult T S ↔ c ∈ S) ↔ ∀ c ∈ S, c ∈ T := by
  have hmem : ∀ c, c ∈ syncResult T S ↔
      c ∈ T ∧ c.identifier ∈ S.map ChannelModel.identifier := by
    intro c
    rw [syncResult, if_pos hlt, List.mem_filter, decide_eq_true_eq]
  constructor
  · intro h c hc
    exact ((hmem c).mp ((h c).mpr hc)).1
  · intro h c
    rw [hmem]
    constructor
    · rintro ⟨hcT, hid⟩
      obtain ⟨c', hc', hid'⟩ := List.mem_map.mp hid
      -- the stored channel with that identifier is the one listed
      have heq := hT.eq_of_conflict (fun _ _ h => h.symm) (h c' hc') hcT (Or.inl hid')
      exact heq ▸ hc'
    · intro hc
      exact ⟨h c hc, List.mem_map_of_mem hc⟩

theorem syncResult_equal_iff {T S : List ChannelModel}
    (hS : (S.map ChannelModel.identifier).Nodup) (heq : S.length = T.length) :
    (∀ c, c ∈ syncResult T S ↔ c ∈ S) ↔ ∀ c ∈ S, c ∈ T := by
  rw [syncResult, if_neg (by omega), if_neg (by omega)]
  constructor
  · intro h c hc
    exact (h c).mpr hc
  · intro h c
    -- a list without repetitions inside a list of its own length is all of it
    have hsub : S.Subperm T := List.subperm_of_subset (List.Nodup.of_map _ hS) h
    have hperm : S.Perm T := hsub.perm_of_length_le (by omega)
    exact hperm.mem_iff.symm

theorem syncResult_longer_iff {T S : List ChannelModel} (hT : Unique ChannelModel.Conflicts T)
    (hS : (S.map ChannelModel.identifier).Nodup) (hlt : T.length < S.length) :
    (∀ c, c ∈ syncResult T S ↔ c ∈ S) ↔
      (∀ c ∈ T, c ∈ S) ∧ (S.map ChannelModel.name).Nodup := by
  rw [syncResult, if_neg (by omega), if_pos hlt]
  have hunique : Unique ChannelModel.Conflicts (insertAll ChannelModel.Conflicts T S) :=
    unique_insertAll _ S T hT
  constructor
  · intro h
    refine ⟨fun c hc => (h c).mp (mem_insertAll_of_mem _ S hc), ?_⟩
    refine (List.nodup_map_iff_inj_on (List.Nodup.of_map _ hS)).mpr ?_
    intro c hc c' hc' hname
    exact hunique.eq_of_conflict (fun _ _ h => h.symm) ((h c).mpr hc) ((h c').mpr hc')
      (Or.inr hname)
  · rintro ⟨hTS, hnames⟩ c
    have hsub : ∀ c, c ∈ insertAll ChannelModel.Conflicts T S → c ∈ S := fun c hc =>
      (mem_or_mem_of_mem_insertAll _ hc).elim (hTS c) id
    refine ⟨hsub c, fun hc => ?_⟩
    by_contra hn
    obtain ⟨c', hc', hconf⟩ :=
      exists_conflict_of_notMem _ S T c (List.mem_append_right _ hc) hn
    -- the channel in its way is listed too, so it is the same channel
    have heq : c' = c := hconf.elim (List.inj_on_of_nodup_map hS (hsub c' hc') hc)
      (List.inj_on_of_nodup_map hnames (hsub c' hc') hc)
    exact hn (heq ▸ hc')

/-- The first alternative is about snapshots that are no longer than the stored list, -/
theorem inStep_iff_of_le {T S : List ChannelModel} (hle : S.length ≤ T.length) :
    InStep T S ↔ ∀ c ∈ S, c ∈ T := by
  constructor
  · rintro (⟨-, h⟩ | ⟨hlt, -⟩)
    · exact h
    · omega
  · exact fun h => Or.inl ⟨hle, h⟩

/-- and the second about those that are. -/
theorem inStep_iff_of_lt {T S : List ChannelModel} (hlt : T.length < S.length) :
    InStep T S ↔ (∀ c ∈ T, c ∈ S) ∧ (S.map ChannelModel.name).Nodup := by
  constructor
  · rintro (⟨hle, -⟩ | ⟨-, h⟩)
    · omega
    · exact h
  · exact fun h => Or.inr ⟨hlt, h⟩

/-- When a delivery stores exactly the snapshot. -/
theorem syncResult_eq_iff_inStep {T S : List ChannelModel}
    (hT : Unique ChannelModel.Conflicts T) (hS : (S.map ChannelModel.identifier).Nodup) :
    (∀ c, c ∈ syncResult T S ↔ c ∈ S) ↔ InStep T S := by
  rcases Nat.lt_trichotomy S.length T.length with hlt | heq | hgt
  · rw [syncResult_shorter_iff hT hlt, inStep_iff_of_le (by omega)]
  · rw [syncResult_equal_iff hS heq, inStep_iff_of_le (by omega)]
  · rw [syncResult_longer_iff hT hS hgt, inStep_iff_of_lt hgt]

/-! ### What is under way -/

/-- The channels that the running listener has still to save. -/
def queuedChannels : List Call → List ChannelModel :=
  List.filterMap fun
    | .saveChannel channel => some channel
    | _ => none

/-- The rows that the running listener has still to delete. -/
def queuedDeletions : List Call → List ObjectID :=
  List.filterMap fun
    | .deleteChannel object => some object
    | _ => none

theorem queuedDeletions_cons (object : ObjectID) (cs : List Call) :
    queuedDeletions (.deleteChannel object :: cs) = object :: queuedDeletions cs := rfl

/-- The stored channels, as values. -/
def PersistentStore.models (st : PersistentStore) : List ChannelModel :=
  st.channels.map DBChannel.model

theorem PersistentStore.models_unique (st : PersistentStore) :
    Unique ChannelModel.Conflicts st.models := List.pairwise_map.mpr st.channels_unique

namespace App

/-- The channels that will be stored once everything under way has gone through. -/
def promised (s : App) : List ChannelModel :=
  insertAll ChannelModel.Conflicts
    ((s.core.store.channels.filter (·.objectID ∉ queuedDeletions s.main)).map DBChannel.model)
    (s.core.insertedChannels.map DBChannel.model ++ queuedChannels s.main)

/-- Deletions and inserts are not under way together. -/
def OneWay (s : App) : Prop :=
  queuedDeletions s.main = [] ∨ (s.core.insertedChannels = [] ∧ queuedChannels s.main = [])

theorem promised_of_settled {s : App} (hmain : s.main = []) (hins : s.core.insertedChannels = []) :
    s.promised = s.core.store.models := by
  unfold promised PersistentStore.models
  rw [hmain, hins]
  simp [queuedDeletions, queuedChannels]

variable {F : Fetch} {s s' : App}

theorem promised_of_next (hone : s.OneWay)
    (h : s.step (.propertyStoreTrump F) (.next false) = some s') :
    s'.promised = s.promised ∧ s'.OneWay := by
  obtain ⟨c, cs, hmain, rfl⟩ := step_next.mp h
  unfold promised OneWay at *
  rw [hmain] at hone ⊢
  cases c with
  | saveChannel channel =>
    -- the channel moves from the queue to the end of the pending inserts
    refine ⟨by simp [App.perform, CoreDataManager.perform, queuedChannels, queuedDeletions], ?_⟩
    exact hone.imp id fun hq => absurd hq.2 (by simp [queuedChannels])
  | saveMessage message identifier => exact ⟨rfl, hone⟩
  | deleteChannel object =>
    refine ⟨?_, Or.inr ?_⟩
    · congr 2
      simp only [App.perform, CoreDataManager.perform, deleteChannel_store_false,
        PersistentStore.delete_channels, List.filter_filter]
      refine List.filter_congr fun r _ => ?_
      rw [queuedDeletions_cons]
      simp [not_or, Bool.and_comm]
    · rcases hone with hq | hq
      · exact absurd hq (by simp [queuedDeletions])
      · exact hq

theorem promised_of_saveBlock (hone : s.OneWay)
    (h : s.step (.propertyStoreTrump F) (.saveBlock false) = some s') :
    s'.promised = s.promised ∧ s'.OneWay := by
  obtain ⟨core, hcore, rfl⟩ := step_saveBlock.mp h
  obtain ⟨-, ⟨-, rfl⟩ | ⟨-, hfails, -⟩ | ⟨-, -, rfl⟩⟩ := runSaveBlock_cases hcore
  · exact ⟨rfl, hone⟩
  · exact absurd hfails (by decide)
  · refine ⟨?_, hone.imp id fun hq => ⟨rfl, hq.2⟩⟩
    have hstore : (s.core.commit (.propertyStoreTrump F)).store.channels =
        insertAll DBChannel.Conflicts s.core.store.channels s.core.insertedChannels := rfl
    unfold promised
    rcases hone with hq | ⟨hins, -⟩
    · -- no deletion is under way: inserting in two batches is inserting in one
      simp only [hq, List.not_mem_nil, not_false_eq_true, decide_true, List.filter_true,
        insertAll_append]
      have hmap := map_insertAll DBChannel.conflicts_iff_model s.core.insertedChannels
        s.core.store.channels
      rw [← hmap]
      rfl
    · -- there is nothing to insert
      rw [hins, insertAll_nil] at hstore
      simp only [hins, List.map_nil, List.nil_append]
      exact congrArg (fun l => insertAll ChannelModel.Conflicts
        ((l.filter (·.objectID ∉ queuedDeletions s.main)).map DBChannel.model)
        (queuedChannels s.main)) hstore

/-- **Finishing a delivery changes nothing about what it promised.** -/
theorem promised_of_step {e : Event} (hone : s.OneWay) (he : e.Finishes)
    (h : s.step (.propertyStoreTrump F) e = some s') : s'.promised = s.promised ∧ s'.OneWay := by
  cases e with
  | next fails =>
    obtain rfl : fails = false := he
    exact promised_of_next hone h
  | saveBlock fails =>
    obtain rfl : fails = false := he
    exact promised_of_saveBlock hone h
  | merge objects =>
    obtain ⟨-, rfl⟩ := step_merge.mp h
    exact ⟨rfl, hone⟩
  | channelsSnapshot snap => exact absurd he not_false
  | messagesSnapshot channelIdentifier snap => exact absurd he not_false
  | deleteChannel object fails => exact absurd he not_false

/-! ### One delivery -/

theorem queuedChannels_map_saveChannel (cs : List ChannelModel) :
    queuedChannels (cs.map .saveChannel) = cs := by
  simp [queuedChannels, List.filterMap_map]

theorem queuedDeletions_map_saveChannel (cs : List ChannelModel) :
    queuedDeletions (cs.map .saveChannel) = [] := by
  simp [queuedDeletions, List.filterMap_map]

theorem queuedChannels_map_deleteChannel (rows : List DBChannel) :
    queuedChannels (rows.map fun r => .deleteChannel r.objectID) = [] := by
  simp [queuedChannels, List.filterMap_map]

theorem queuedDeletions_map_deleteChannel (rows : List DBChannel) :
    queuedDeletions (rows.map fun r => .deleteChannel r.objectID) =
      rows.map DBChannel.objectID := by
  simp [queuedDeletions, List.filterMap_map]

/-- The rows that pruning leaves are those whose identifiers are listed. -/
theorem filter_notMem_staleChannels (m : CoreDataManager) (identifiers : List String) :
    m.store.channels.filter
        (·.objectID ∉ (staleChannels m.store identifiers).map DBChannel.objectID) =
      m.store.channels.filter (·.identifier ∈ identifiers) := by
  refine List.filter_congr fun r hr => ?_
  rw [decide_eq_decide]
  constructor
  · intro hn
    by_contra hid
    exact hn (List.mem_map.mpr ⟨r, List.mem_filter.mpr ⟨hr, by simpa using hid⟩, rfl⟩)
  · rintro hid hmem
    obtain ⟨r', hr', ho⟩ := List.mem_map.mp hmem
    obtain ⟨hr', hid'⟩ := List.mem_filter.mp hr'
    obtain rfl := List.inj_on_of_nodup_map m.stored_ids_nodup hr' hr ho
    exact absurd hid (by simpa using hid')

/-- The snapshot promises `syncResult`. -/
theorem promised_of_snapshot {snap : Snapshot} (hs : s.AtRest)
    (h : s.step (.propertyStoreTrump F) (.channelsSnapshot snap) = some s') :
    s'.promised = syncResult s.core.store.models (actualChannels snap) ∧ s'.OneWay := by
  obtain ⟨-, rfl⟩ := step_channelsSnapshot.mp h
  have hins := hs.inserted_eq_nil.1
  have hlen : s.fetchedObjects.length = s.core.store.models.length := by
    rw [hs.merged, length_fetchChannels, PersistentStore.models, List.length_map]
  unfold promised OneWay syncResult checkingTheRelevanceOfChannels
  rw [hlen]
  split
  · refine ⟨?_, Or.inr ⟨hins, queuedChannels_map_deleteChannel _⟩⟩
    rw [queuedChannels_map_deleteChannel, queuedDeletions_map_deleteChannel, hins,
      filter_notMem_staleChannels, PersistentStore.models, List.filter_map]
    rfl
  · split
    · refine ⟨?_, Or.inl (queuedDeletions_map_saveChannel _)⟩
      rw [queuedChannels_map_saveChannel, queuedDeletions_map_saveChannel, hins]
      simp [PersistentStore.models]
    · refine ⟨?_, Or.inl rfl⟩
      rw [hins]
      simp [PersistentStore.models, queuedDeletions, queuedChannels]

/-- **One delivery.**  However its calls and the save blocks interleave, a delivery
that goes through takes the stored channels to `syncResult`. -/
theorem channels_of_run {snap : Snapshot} {es : List Event} (hs : s.AtRest)
    (hes : ∀ e ∈ es, e.Finishes)
    (hrun : run (step (.propertyStoreTrump F)) s (.channelsSnapshot snap :: es) = some s')
    (hs' : s'.Settled) :
    s'.core.store.models = syncResult s.core.store.models (actualChannels snap) := by
  obtain ⟨s₁, hsnap, hrest⟩ := (run_cons_eq_some _).mp hrun
  obtain ⟨hprom, hone⟩ := promised_of_snapshot hs hsnap
  -- what was promised stays promised until everything is done
  have hkeep : s'.promised = s₁.promised ∧ s'.OneWay :=
    invariant (fun t => t.promised = s₁.promised ∧ t.OneWay) Event.Finishes
      (fun t e t' hI he hstep => by
        obtain ⟨heq, hone'⟩ := promised_of_step hI.2 he hstep
        exact ⟨heq.trans hI.1, hone'⟩) hes ⟨rfl, hone⟩ hrest
  have hsched : s'.core.Scheduled := scheduled_of_run hs.scheduled hrun
  rw [← promised_of_settled hs'.1 (hsched.inserted_eq_nil hs'.2).1, hkeep.1, hprom]

/-- **When the stored channels are those of the snapshot.**  After a delivery that
went through, the store holds exactly the decoded channels if and only if it was in
step with them before. -/
theorem channels_eq_snapshot_iff {snap : Snapshot} {es : List Event} (hs : s.AtRest)
    (hids : (snap.map (·.1.documentID)).Nodup) (hes : ∀ e ∈ es, e.Finishes)
    (hrun : run (step (.propertyStoreTrump F)) s (.channelsSnapshot snap :: es) = some s')
    (hs' : s'.Settled) :
    (∀ c, c ∈ s'.core.store.models ↔ c ∈ actualChannels snap) ↔
      InStep s.core.store.models (actualChannels snap) := by
  rw [channels_of_run hs hes hrun hs']
  refine syncResult_eq_iff_inStep s.core.store.models_unique ?_
  rw [map_identifier_actualChannels]
  exact hids

/-- Two channels are stored; the next snapshot lists them among three. -/
theorem channels_eq_snapshot_iff_added : ∃ (s s' : App) (snap : Snapshot) (es : List Event),
    s.core.store.models = [⟨"a", "A", some "x", some 1⟩, ⟨"b", "B", some "Last Message", some 2⟩] ∧
      actualChannels snap = [⟨"c", "C", some "z", some 6⟩, ⟨"b", "B", some "Last Message", some 2⟩,
        ⟨"a", "A", some "x", some 1⟩] ∧
      run (step .inOrder) s (.channelsSnapshot snap :: es) = some s' ∧
      ((∀ c, c ∈ s'.core.store.models ↔ c ∈ actualChannels snap) ↔
        InStep s.core.store.models (actualChannels snap)) := by
  let a : Document := ⟨"a", [("name", .string "A"), ("lastMessage", .string "x"),
    ("lastActivity", .timestamp ⟨1⟩)]⟩
  let b : Document := ⟨"b", [("name", .string "B"), ("lastActivity", .timestamp ⟨2⟩)]⟩
  let c : Document := ⟨"c", [("name", .string "C"), ("lastMessage", .string "z")]⟩
  let snap : Snapshot := [(c, 6), (b, 6), (a, 6)]
  let es : List Event := [.next false, .saveBlock false, .next false, .next false,
    .saveBlock false, .merge [2], .saveBlock false]
  let s : App := (run (step .inOrder) .empty [.channelsSnapshot [(a, 5), (b, 5)], .next false,
    .next false, .saveBlock false, .saveBlock false, .merge [0, 1]]).get (by decide +kernel)
  let s' : App := (run (step .inOrder) s (.channelsSnapshot snap :: es)).get (by decide +kernel)
  have hrun : run (step .inOrder) s (.channelsSnapshot snap :: es) = some s' :=
    (Option.some_get _).symm
  have hs : s.AtRest := ⟨⟨by decide +kernel, by decide +kernel⟩,
    ⟨by decide +kernel, by decide +kernel⟩, by decide +kernel⟩
  exact ⟨s, s', snap, es, by decide +kernel, by decide +kernel, hrun,
    channels_eq_snapshot_iff hs (by decide) (by simp [es, Event.Finishes]) hrun
      ⟨by decide +kernel, by decide +kernel⟩⟩

/-- **A snapshot of the stored length is ignored.**  Channel `a` is stored with the
message `old`; the next snapshot lists it with the message `new`. -/
theorem exists_snapshot_not_stored : ¬ ∀ (s s' : App) (snap : Snapshot) (es : List Event),
    s.AtRest → (snap.map (·.1.documentID)).Nodup → (∀ e ∈ es, e.Finishes) →
      run (step .inOrder) s (.channelsSnapshot snap :: es) = some s' → s'.Settled →
        ∀ c, c ∈ s'.core.store.models ↔ c ∈ actualChannels snap := by
  intro h
  have hall := h ((run (step .inOrder) .empty
      [.channelsSnapshot [(⟨"a", [("name", .string "A"), ("lastMessage", .string "old")]⟩, 5)],
        .next false, .saveBlock false, .merge [0]]).get rfl) _
    [(⟨"a", [("name", .string "A"), ("lastMessage", .string "new")]⟩, 6)] []
    ⟨⟨rfl, rfl⟩, ⟨by decide, by decide⟩, rfl⟩ (by decide) (by simp) rfl ⟨rfl, rfl⟩
  exact absurd ((hall ⟨"a", "A", some "new", some 6⟩).mpr (by decide)) (by decide)

end App

end MessengerApp
