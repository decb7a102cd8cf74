import Mathlib.Data.List.GetD
import MessengerApp.Channels.Sync

/-!
# One snapshot delivered again and again

A snapshot that is shorter than the stored list prunes it, one that is longer
grows it, and after either the comparison of the two counts may come out
differently.  It does so three times at most: a pruned list holds only
identifiers of the snapshot, such a list can only grow, and it grows once,
because the channels that are still missing are kept out by what is stored.

## Main definitions

* `ChannelModel.listing` — what decides about conflicts: the identifier and the name.
* `Within`, `Stable` — the stages the stored list goes through.
* `App.Redelivery` — one delivery of given documents, committed completely.

## Main results

* `within_or_stable_of_two` — after two deliveries.
* `stable_of_three` — after three deliveries nothing changes any more.
* `identifiers_of_two` — when two deliveries suffice.
* `models_of_redelivery` — **the same for the runs of the app.**
-/

namespace MessengerApp

open Machine UniqueTable CoreDataManager

/-- The identifier and the name of a channel. -/
def ChannelModel.listing (c : ChannelModel) : String × String := (c.identifier, c.name)

theorem ChannelModel.conflicts_of_listing_eq {c d d' : ChannelModel} (h : d.listing = d'.listing)
    (hc : c.Conflicts d) : c.Conflicts d' := by
  obtain ⟨hid, hname⟩ := Prod.mk.inj h
  exact hc.imp (fun h => h.trans hid) fun h => h.trans hname

/-- The identifiers of a list of channels. -/
abbrev identifiers (T : List ChannelModel) : List String := T.map ChannelModel.identifier

/-- The listed channels all have an identifier of the snapshot. -/
def Within (S T : List ChannelModel) : Prop := ∀ id ∈ identifiers T, id ∈ identifiers S

/-- No delivery of the same channels, whenever they are decoded, changes the list. -/
def Stable (S T : List ChannelModel) : Prop :=
  ∀ S' : List ChannelModel, S'.map ChannelModel.listing = S.map ChannelModel.listing →
    syncResult T S' = T

variable {S S' T : List ChannelModel}

/-! ### Lists that differ in the decoding time only -/

theorem identifiers_of_listing (h : S'.map ChannelModel.listing = S.map ChannelModel.listing) :
    identifiers S' = identifiers S := by
  have hfst := congrArg (List.map Prod.fst) h
  rwa [List.map_map, List.map_map] at hfst

theorem length_of_listing (h : S'.map ChannelModel.listing = S.map ChannelModel.listing) :
    S'.length = S.length := by
  have hlen := congrArg List.length h
  rwa [List.length_map, List.length_map] at hlen

theorem exists_of_listing (h : S'.map ChannelModel.listing = S.map ChannelModel.listing)
    {c : ChannelModel} (hc : c ∈ S') : ∃ d ∈ S, d.listing = c.listing := by
  have hmem : c.listing ∈ S.map ChannelModel.listing := h ▸ List.mem_map_of_mem hc
  exact List.mem_map.mp hmem

theorem within_of_listing (h : S'.map ChannelModel.listing = S.map ChannelModel.listing) :
    Within S' T ↔ Within S T := by
  unfold Within
  rw [identifiers_of_listing h]

/-! ### One delivery -/

theorem unique_syncResult (hT : Unique ChannelModel.Conflicts T) (S : List ChannelModel) :
    Unique ChannelModel.Conflicts (syncResult T S) := by
  unfold syncResult
  split
  · exact List.Pairwise.filter _ hT
  · split
    · exact unique_insertAll _ S T hT
    · exact hT

theorem nodup_identifiers (hT : Unique ChannelModel.Conflicts T) : (identifiers T).Nodup :=
  List.pairwise_map.mpr (hT.imp fun hn hid => hn (Or.inl hid))

/-- The identifiers of a list within the snapshot are a part of the snapshot's. -/
theorem subperm_of_within (hT : Unique ChannelModel.Conflicts T) (hw : Within S T) :
    (identifiers T).Subperm (identifiers S) :=
  List.subperm_of_subset (nodup_identifiers hT) hw

theorem length_le_of_within (hT : Unique ChannelModel.Conflicts T) (hw : Within S T) :
    T.length ≤ S.length := by
  have hle := (subperm_of_within hT hw).length_le
  rwa [List.length_map, List.length_map] at hle

theorem within_of_prune (hlt : S.length < T.length) : Within S (syncResult T S) := by
  rw [syncResult, if_pos hlt]
  intro id hid
  obtain ⟨c, hc, rfl⟩ := List.mem_map.mp hid
  exact of_decide_eq_true (List.mem_filter.mp hc).2

theorem within_syncResult (hw : Within S T) : Within S (syncResult T S) := by
  intro id hid
  obtain ⟨c, hc, rfl⟩ := List.mem_map.mp hid
  unfold syncResult at hc
  split at hc
  · exact hw _ (List.mem_map_of_mem (List.mem_filter.mp hc).1)
  · split at hc
    · rcases mem_or_mem_of_mem_insertAll _ hc with hc | hc
      · exact hw _ (List.mem_map_of_mem hc)
      · exact List.mem_map_of_mem hc
    · exact hw _ (List.mem_map_of_mem hc)

/-! ### The stages -/

theorem stable_of_length_eq (h : T.length = S.length) : Stable S T := by
  intro S' hS'
  rw [syncResult, length_of_listing hS', if_neg (by omega), if_neg (by omega)]

/-- What has grown once does not grow again. -/
theorem stable_of_insertAll
    (hle : (insertAll ChannelModel.Conflicts T S).length ≤ S.length) :
    Stable S (insertAll ChannelModel.Conflicts T S) := by
  intro S' hS'
  rw [syncResult, length_of_listing hS', if_neg (by omega)]
  split
  · apply insertAll_eq_self
    intro c hc
    obtain ⟨d, hd, hlist⟩ := exists_of_listing hS' hc
    by_cases hkept : d ∈ insertAll ChannelModel.Conflicts T S
    · exact ⟨d, hkept, Or.inl (Prod.mk.inj hlist).1⟩
    · -- what kept `d` out keeps `c` out
      obtain ⟨x, hx, hconf⟩ :=
        exists_conflict_of_notMem _ S T d (List.mem_append_right _ hd) hkept
      exact ⟨x, hx, ChannelModel.conflicts_of_listing_eq hlist hconf⟩
  · rfl

/-- A list within the snapshot grows once, if at all. -/
theorem stable_of_within (hT : Unique ChannelModel.Conflicts T) (hw : Within S T) :
    Stable S (syncResult T S) := by
  have hle := length_le_of_within hT hw
  have hle' := length_le_of_within (unique_syncResult hT S) (within_syncResult hw)
  rcases Nat.lt_or_eq_of_le hle with hlt | heq
  · have hgrow : syncResult T S = insertAll ChannelModel.Conflicts T S := by
      rw [syncResult, if_neg (by omega), if_pos hlt]
    rw [hgrow] at hle' ⊢
    exact stable_of_insertAll hle'
  · have hkeep : syncResult T S = T := by
      rw [syncResult, if_neg (by omega), if_neg (by omega)]
    rw [hkeep]
    exact stable_of_length_eq heq

/-- **The first delivery.** -/
theorem stage_of_one (T S : List ChannelModel) :
    Within S (syncResult T S) ∨ Stable S (syncResult T S) ∨ S.length < (syncResult T S).length := by
  rcases Nat.lt_trichotomy S.length T.length with hlt | heq | hgt
  · exact Or.inl (within_of_prune hlt)
  · right; left
    have hkeep : syncResult T S = T := by
      rw [syncResult, if_neg (by omega), if_neg (by omega)]
    rw [hkeep]
    exact stable_of_length_eq heq.symm
  · have hgrow : syncResult T S = insertAll ChannelModel.Conflicts T S := by
      rw [syncResult, if_neg (by omega), if_pos hgt]
    rw [hgrow]
    rcases Nat.lt_or_ge S.length (insertAll ChannelModel.Conflicts T S).length with hlong | hle
    · exact Or.inr (Or.inr hlong)
    · exact Or.inr (Or.inl (stable_of_insertAll hle))

/-- **The second delivery.** -/
theorem within_or_stable_of_two
    (hS' : S'.map ChannelModel.listing = S.map ChannelModel.listing) :
    Within S (syncResult (syncResult T S) S') ∨ Stable S (syncResult (syncResult T S) S') := by
  rcases stage_of_one T S with hw | hstable | hlong
  · left
    rw [← within_of_listing hS'] at hw ⊢
    exact within_syncResult hw
  · right
    rw [hstable S' hS']
    exact hstable
  · left
    rw [← within_of_listing hS']
    exact within_of_prune (length_of_listing hS' ▸ hlong)

/-- **After three deliveries nothing changes any more.** -/
theorem stable_of_three {S₁ S₂ : List ChannelModel} (hT : Unique ChannelModel.Conflicts T)
    (hS₁ : S₁.map ChannelModel.listing = S.map ChannelModel.listing)
    (hS₂ : S₂.map ChannelModel.listing = S.map ChannelModel.listing) :
    Stable S (syncResult (syncResult (syncResult T S) S₁) S₂) := by
  rcases within_or_stable_of_two (T := T) hS₁ with hw | hstable
  · rw [← within_of_listing hS₂] at hw
    have hunique := unique_syncResult (unique_syncResult hT S) S₁
    intro S' hS'
    exact stable_of_within hunique hw S' (hS'.trans hS₂.symm)
  · rw [hstable S₂ hS₂]
    exact hstable

/-! ### When two deliveries suffice -/

/-- Different identifiers have different names. -/
def NamesDiffer (listings : List (String × String)) : Prop :=
  ∀ p ∈ listings, ∀ q ∈ listings, p.2 = q.2 → p.1 = q.1

instance (listings : List (String × String)) : Decidable (NamesDiffer listings) :=
  inferInstanceAs (Decidable (∀ p ∈ listings, ∀ q ∈ listings, p.2 = q.2 → p.1 = q.1))

/-- Where names differ, growing adds every identifier of the snapshot. -/
theorem mem_identifiers_insertAll
    (hnames : NamesDiffer (T.map ChannelModel.listing ++ S.map ChannelModel.listing))
    (i : String) : i ∈ identifiers (insertAll ChannelModel.Conflicts T S) ↔
      i ∈ identifiers T ∨ i ∈ identifiers S := by
  have hlist : ∀ c, c ∈ T ∨ c ∈ S →
      c.listing ∈ T.map ChannelModel.listing ++ S.map ChannelModel.listing := fun c hc =>
    List.mem_append.mpr (hc.imp List.mem_map_of_mem List.mem_map_of_mem)
  constructor
  · intro h
    obtain ⟨c, hc, rfl⟩ := List.mem_map.mp h
    exact (mem_or_mem_of_mem_insertAll _ hc).imp List.mem_map_of_mem List.mem_map_of_mem
  · rintro (h | h)
    · obtain ⟨c, hc, rfl⟩ := List.mem_map.mp h
      exact List.mem_map_of_mem (mem_insertAll_of_mem _ S hc)
    · obtain ⟨c, hc, rfl⟩ := List.mem_map.mp h
      by_cases hkept : c ∈ insertAll ChannelModel.Conflicts T S
      · exact List.mem_map_of_mem hkept
      · -- a channel that keeps `c` out has its identifier
        obtain ⟨x, hx, hconf⟩ :=
          exists_conflict_of_notMem _ S T c (List.mem_append_right _ hc) hkept
        have hid : x.identifier = c.identifier := hconf.elim id fun hname =>
          hnames _ (hlist x (mem_or_mem_of_mem_insertAll _ hx)) _ (hlist c (Or.inr hc)) hname
        exact hid ▸ List.mem_map_of_mem hx

theorem mem_identifiers_prune (hlt : S.length < T.length) (i : String) :
    i ∈ identifiers (syncResult T S) ↔ i ∈ identifiers T ∧ i ∈ identifiers S := by
  rw [syncResult, if_pos hlt]
  constructor
  · intro h
    obtain ⟨c, hc, rfl⟩ := List.mem_map.mp h
    obtain ⟨hc, hi⟩ := List.mem_filter.mp hc
    exact ⟨List.mem_map_of_mem hc, of_decide_eq_true hi⟩
  · rintro ⟨h, hi⟩
    obtain ⟨c, hc, rfl⟩ := List.mem_map.mp h
    exact List.mem_map_of_mem (List.mem_filter.mpr ⟨hc, decide_eq_true hi⟩)

theorem namesDiffer_syncResult
    (hnames : NamesDiffer (T.map ChannelModel.listing ++ S.map ChannelModel.listing)) :
    NamesDiffer ((syncResult T S).map ChannelModel.listing ++ S.map ChannelModel.listing) := by
  have hsub : ∀ c ∈ syncResult T S, c ∈ T ∨ c ∈ S := by
    intro c hc
    unfold syncResult at hc
    split at hc
    · exact Or.inl (List.mem_filter.mp hc).1
    · split at hc
      · exact mem_or_mem_of_mem_insertAll _ hc
      · exact Or.inl hc
  have hlist : ∀ p ∈ (syncResult T S).map ChannelModel.listing ++ S.map ChannelModel.listing,
      p ∈ T.map ChannelModel.listing ++ S.map ChannelModel.listing := by
    intro p hp
    rcases List.mem_append.mp hp with hp | hp
    · obtain ⟨c, hc, rfl⟩ := List.mem_map.mp hp
      exact List.mem_append.mpr ((hsub c hc).imp List.mem_map_of_mem List.mem_map_of_mem)
    · exact List.mem_append_right _ hp
  exact fun p hp q hq => hnames p (hlist p hp) q (hlist q hq)

/-- A list within the snapshot gets all its identifiers. -/
theorem identifiers_of_within (hT : Unique ChannelModel.Conflicts T) (hw : Within S T)
    (hnames : NamesDiffer (T.map ChannelModel.listing ++ S.map ChannelModel.listing))
    (i : String) : i ∈ identifiers (syncResult T S) ↔ i ∈ identifiers S := by
  rcases Nat.lt_or_eq_of_le (length_le_of_within hT hw) with hlt | heq
  · rw [syncResult, if_neg (by omega), if_pos hlt, mem_identifiers_insertAll hnames]
    exact ⟨fun h => h.elim (hw i) id, Or.inr⟩
  · rw [syncResult, if_neg (by omega), if_neg (by omega)]
    have hlen : (identifiers S).length ≤ (identifiers T).length := by
      rw [List.length_map, List.length_map, heq]
    exact ((subperm_of_within hT hw).perm_of_length_le hlen).mem_iff

/-- **When two deliveries suffice**: the counts differ and no two identifiers share a
name. -/
theorem identifiers_of_two (hT : Unique ChannelModel.Conflicts T) (hS : (identifiers S).Nodup)
    (hS' : S'.map ChannelModel.listing = S.map ChannelModel.listing)
    (hlen : T.length ≠ S.length)
    (hnames : NamesDiffer (T.map ChannelModel.listing ++ S.map ChannelModel.listing))
    (i : String) :
    i ∈ identifiers (syncResult (syncResult T S) S') ↔ i ∈ identifiers S := by
  have hunique := unique_syncResult hT S
  have hnames' := namesDiffer_syncResult hnames
  rw [← hS'] at hnames'
  rcases Nat.lt_or_gt_of_ne hlen with hgrow | hprune
  · have hall : ∀ i, i ∈ identifiers (syncResult T S) ↔ i ∈ identifiers T ∨ i ∈ identifiers S := by
      intro i
      rw [syncResult, if_neg (by omega), if_pos hgrow, mem_identifiers_insertAll hnames]
    -- all identifiers of the snapshot are there, so the list is not too short
    have hsub : (identifiers S).Subperm (identifiers (syncResult T S)) :=
      List.subperm_of_subset hS fun i hi => (hall i).mpr (Or.inr hi)
    have hle := hsub.length_le
    rw [List.length_map, List.length_map] at hle
    rcases Nat.lt_or_eq_of_le hle with hlt | heq
    · rw [mem_identifiers_prune (length_of_listing hS' ▸ hlt), identifiers_of_listing hS', hall]
      exact ⟨fun h => h.2, fun h => ⟨Or.inr h, h⟩⟩
    · rw [stable_of_length_eq heq.symm S' hS']
      have hlen' : (identifiers (syncResult T S)).length ≤ (identifiers S).length := by
        rw [List.length_map, List.length_map, heq]
      exact (hsub.perm_of_length_le hlen').mem_iff.symm
  · have hw : Within S (syncResult T S) := within_of_prune hprune
    rw [← within_of_listing hS'] at hw
    rw [identifiers_of_within hunique hw hnames', identifiers_of_listing hS']

/-! ### The runs -/

/-- The identifier and the name that the listener decodes from a document. -/
def Document.listing (d : Document) : String × String :=
  (d.documentID, (d.string "name").getD "Channel Name")

theorem map_listing_actualChannels (snap : Snapshot) :
    (actualChannels snap).map ChannelModel.listing =
      (snap.map Prod.fst).map Document.listing := by
  rw [actualChannels, List.map_map, List.map_map]
  rfl

namespace App

variable {F : Fetch}

/-- One delivery of the documents, decoded at whatever time, which goes through. -/
structure Redelivery (F : Fetch) (docs : List Document) (s s' : App) : Prop where
  start : s.AtRest
  delivery : ∃ snap es, snap.map Prod.fst = docs ∧ (∀ e ∈ es, e.Finishes) ∧
    run (step (.propertyStoreTrump F)) s (.channelsSnapshot snap :: es) = some s'
  settled : s'.Settled

/-- A delivery is one application of `syncResult`. -/
theorem models_of_delivery {docs : List Document} {s s' : App} (h : Redelivery F docs s s') :
    ∃ S : List ChannelModel, S.map ChannelModel.listing = docs.map Document.listing ∧
      s'.core.store.models = syncResult s.core.store.models S := by
  obtain ⟨hstart, ⟨snap, es, hdocs, hes, hrun⟩, hsettled⟩ := h
  refine ⟨actualChannels snap, ?_, channels_of_run hstart hes hrun hsettled⟩
  rw [map_listing_actualChannels, hdocs]

/-- **Repeated delivery settles.**  When the same documents are delivered again and
again, the stored channels change with the first three deliveries at most; and two
deliveries store exactly the identifiers of the documents, if their number is not
that of the stored channels and different identifiers have different names. -/
theorem models_of_redelivery {docs : List Document} {s : ℕ → App} {N : ℕ}
    (hids : (docs.map Document.documentID).Nodup)
    (h : ∀ n < N, Redelivery F docs (s n) (s (n + 1))) :
    (∀ n, 3 ≤ n → n ≤ N → (s n).core.store.models = (s 3).core.store.models) ∧
      ((s 0).core.store.models.length ≠ docs.length →
        NamesDiffer ((s 0).core.store.models.map ChannelModel.listing ++
          docs.map Document.listing) →
        ∀ n, 2 ≤ n → n ≤ N → ∀ i, i ∈ identifiers (s n).core.store.models ↔
          i ∈ docs.map Document.documentID) := by
  -- the lists that the deliveries decode
  have hS : ∀ n, ∃ S : List ChannelModel, n < N →
      S.map ChannelModel.listing = docs.map Document.listing ∧
        (s (n + 1)).core.store.models = syncResult (s n).core.store.models S := by
    intro n
    by_cases hn : n < N
    · obtain ⟨S, hS⟩ := models_of_delivery (h n hn)
      exact ⟨S, fun _ => hS⟩
    · exact ⟨[], fun hn' => absurd hn' hn⟩
  choose S hS using hS
  have hunique : ∀ n, Unique ChannelModel.Conflicts (s n).core.store.models :=
    fun n => (s n).core.store.models_unique
  have hlist : ∀ n < N, (S n).map ChannelModel.listing = (S 0).map ChannelModel.listing :=
    fun n hn => (hS n hn).1.trans (hS 0 (by omega)).1.symm
  -- a stable list stays as it is
  have hstay : ∀ m ≤ N, Stable (S 0) (s m).core.store.models →
      ∀ n, m ≤ n → n ≤ N → (s n).core.store.models = (s m).core.store.models := by
    intro m _ hstable n hmn
    induction n, hmn using Nat.le_induction with
    | base => exact fun _ => rfl
    | succ n hmn ih =>
      intro hn
      rw [(hS n (by omega)).2, ih (by omega), hstable _ (hlist n (by omega))]
  refine ⟨fun n h3 hn => ?_, fun hlen hnames n h2 hn i => ?_⟩
  · refine hstay 3 (by omega) ?_ n h3 hn
    rw [(hS 2 (by omega)).2, (hS 1 (by omega)).2, (hS 0 (by omega)).2]
    exact stable_of_three (hunique 0) (hlist 1 (by omega)) (hlist 2 (by omega))
  · have hS₀ := (hS 0 (by omega)).1
    have hids₀ : identifiers (S 0) = docs.map Document.documentID := by
      have hfst := congrArg (List.map Prod.fst) hS₀
      rwa [List.map_map, List.map_map] at hfst
    have hlen₀ : (S 0).length = docs.length := by
      have hmap := congrArg List.length hS₀
      rwa [List.length_map, List.length_map] at hmap
    have htwo : ∀ i, i ∈ identifiers (s 2).core.store.models ↔ i ∈ identifiers (S 0) := by
      intro i
      rw [(hS 1 (by omega)).2, (hS 0 (by omega)).2]
      exact identifiers_of_two (hunique 0) (hids₀ ▸ hids) (hlist 1 (by omega)) (hlen₀ ▸ hlen)
        (hS₀ ▸ hnames) i
    have hperm : (identifiers (s 2).core.store.models).Perm (identifiers (S 0)) :=
      (List.perm_ext_iff_of_nodup (nodup_identifiers (hunique 2)) (hids₀ ▸ hids)).mpr htwo
    have hstable : Stable (S 0) (s 2).core.store.models := by
      apply stable_of_length_eq
      have hlength := hperm.length_eq
      rwa [List.length_map, List.length_map] at hlength
    rw [hstay 2 (by omega) hstable n h2 hn, htwo i, hids₀]

/-- Neighbours in a chain, by their places. -/
theorem rel_getD_of_isChain {R : App → App → Prop} {l : List App} (h : l.IsChain R) (d : App)
    {n : ℕ} (hn : n + 1 < l.length) : R (l.getD n d) (l.getD (n + 1) d) := by
  rw [List.getD_eq_getElem _ _ (Nat.lt_of_succ_lt hn), List.getD_eq_getElem _ _ hn]
  exact List.isChain_iff_getElem.mp h n hn

/-- A document `p` is delivered four times to a store with channels `x` and `y`: the first
delivery prunes both, the second stores `p`. -/
theorem models_of_redelivery_pruned : ∃ s : ℕ → App,
    (s 4).core.store.models = (s 3).core.store.models ∧
      ∀ i, i ∈ identifiers (s 2).core.store.models ↔ i ∈ ["p"] := by
  let p : Document := ⟨"p", [("name", .string "P")]⟩
  let s₀ : App := (run (step .inOrder) .empty [.channelsSnapshot
    [(⟨"x", [("name", .string "X")]⟩, 5), (⟨"y", [("name", .string "Y")]⟩, 5)], .next false,
    .next false, .saveBlock false, .saveBlock false, .merge [0, 1]]).get (by decide +kernel)
  let s₁ : App := (run (step .inOrder) s₀ [.channelsSnapshot [(p, 6)], .next false,
    .next false]).get (by decide +kernel)
  let s₂ : App := (run (step .inOrder) s₁ [.channelsSnapshot [(p, 7)], .next false,
    .saveBlock false, .merge [2]]).get (by decide +kernel)
  let s₃ : App := (run (step .inOrder) s₂ [.channelsSnapshot [(p, 8)]]).get
    (by decide +kernel)
  let s₄ : App := (run (step .inOrder) s₃ [.channelsSnapshot [(p, 9)]]).get
    (by decide +kernel)
  have h₀ : s₀.AtRest :=
    ⟨⟨by decide +kernel, by decide +kernel⟩, ⟨by decide +kernel, by decide +kernel⟩,
      by decide +kernel⟩
  have h₁ : s₁.AtRest :=
    ⟨⟨by decide +kernel, by decide +kernel⟩, ⟨by decide +kernel, by decide +kernel⟩,
      by decide +kernel⟩
  have h₂ : s₂.AtRest :=
    ⟨⟨by decide +kernel, by decide +kernel⟩, ⟨by decide +kernel, by decide +kernel⟩,
      by decide +kernel⟩
  have h₃ : s₃.AtRest :=
    ⟨⟨by decide +kernel, by decide +kernel⟩, ⟨by decide +kernel, by decide +kernel⟩,
      by decide +kernel⟩
  have h₄ : s₄.Settled := ⟨by decide +kernel, by decide +kernel⟩
  have d₀ : Redelivery .inOrder [p] s₀ s₁ := ⟨h₀, ⟨[(p, 6)], [.next false, .next false], rfl,
    by simp [Event.Finishes], (Option.some_get _).symm⟩, h₁.settled⟩
  have d₁ : Redelivery .inOrder [p] s₁ s₂ := ⟨h₁, ⟨[(p, 7)],
    [.next false, .saveBlock false, .merge [2]], rfl, by simp [Event.Finishes],
    (Option.some_get _).symm⟩, h₂.settled⟩
  have d₂ : Redelivery .inOrder [p] s₂ s₃ := ⟨h₂, ⟨[(p, 8)], [], rfl, by simp,
    (Option.some_get _).symm⟩, h₃.settled⟩
  have d₃ : Redelivery .inOrder [p] s₃ s₄ := ⟨h₃, ⟨[(p, 9)], [], rfl, by simp,
    (Option.some_get _).symm⟩, h₄⟩
  have hchain : [s₀, s₁, s₂, s₃, s₄].IsChain (Redelivery .inOrder [p]) :=
    .cons_cons d₀ (.cons_cons d₁ (.cons_cons d₂ (.cons_cons d₃ (.singleton s₄))))
  let s : ℕ → App := fun n => [s₀, s₁, s₂, s₃, s₄].getD n s₄
  have h : ∀ n < 4, Redelivery .inOrder [p] (s n) (s (n + 1)) :=
    fun n hn => rel_getD_of_isChain hchain s₄ (Nat.succ_lt_succ hn)
  obtain ⟨hsettles, htwo⟩ := models_of_redelivery (by decide) h
  exact ⟨s, hsettles 4 (by decide) (by decide),
    htwo (by decide +kernel) (by decide +kernel) 2 (by decide) (by decide)⟩

end App

end MessengerApp
