import Mathlib.Data.List.Induction
import MessengerApp.Library.RowBatch

/-!
# `FRCDelegate`

A fetched results controller reports, object by object, how its list has changed, and the
delegate turns each report into row operations between `beginUpdates` and `endUpdates`.

## Main definitions

* `Change`, `didChange`, `deliver` — a report, what the delegate does with it, and with all
  the reports of a step.
* `Describes` — the reports describe the step from one list to another.

## Main results

* `rows_eq_of_describes` — **the row operations agree with a reload.**
-/

namespace MessengerApp

inductive NSFetchedResultsChangeType
  | insert
  | delete
  | move
  | update
  deriving DecidableEq, Repr

/-- The arguments of `controller(_:didChange:at:for:newIndexPath:)`; there is one section. -/
structure Change (α : Type*) where
  anObject : α
  indexPath : Option ℕ
  type : NSFetchedResultsChangeType
  newIndexPath : Option ℕ
  deriving DecidableEq, Repr

namespace FRCDelegate

variable {α ρ : Type*}

/-- The row operations that one report adds. -/
def didChange (b : RowBatch) (c : Change α) : RowBatch :=
  match c.type with
  | .insert => c.newIndexPath.elim b b.insertRows
  | .update => c.indexPath.elim b b.reloadRows
  | .move =>
      let b' := c.indexPath.elim b b.deleteRows
      c.newIndexPath.elim b' b'.insertRows
  | .delete => c.indexPath.elim b b.deleteRows

/-- The operations between `beginUpdates` and `endUpdates`. -/
def deliver (report : List (Change α)) : RowBatch := report.foldl didChange .empty

/-! ### The reports of a step -/

/-- What a report says about the lists before and after the step. -/
def Holds (old new : List α) (c : Change α) : Prop :=
  match c.type with
  | .insert => c.anObject ∉ old ∧ c.newIndexPath.bind (new[·]?) = some c.anObject
  | .delete => c.anObject ∉ new ∧ c.indexPath.bind (old[·]?) = some c.anObject
  | .move => c.indexPath.bind (old[·]?) = some c.anObject ∧
      c.newIndexPath.bind (new[·]?) = some c.anObject
  | .update => c.anObject ∈ new ∧ c.indexPath.bind (old[·]?) = some c.anObject

/-- The object is in both lists and is not reported as moved. -/
def Remains (old new : List α) (report : List (Change α)) (object : α) : Prop :=
  object ∈ old ∧ object ∈ new ∧ ∀ c ∈ report, c.anObject = object → c.type ≠ .move

instance [DecidableEq α] (old new : List α) (report : List (Change α)) :
    DecidablePred (Remains old new report) := fun object =>
  inferInstanceAs (Decidable (object ∈ old ∧ object ∈ new ∧
    ∀ c ∈ report, c.anObject = object → c.type ≠ .move))

/-- The reports, in any order, describe the step from `old`, shown as `before`, to `new`,
shown as `after`. -/
structure Describes [DecidableEq α] (old new : List α) (before after : α → ρ)
    (report : List (Change α)) : Prop where
  once : (report.map Change.anObject).Nodup
  holds : ∀ c ∈ report, Holds old new c
  removed : ∀ object ∈ old, object ∉ new → ∃ c ∈ report, c.anObject = object
  added : ∀ object ∈ new, object ∉ old → ∃ c ∈ report, c.anObject = object
  /-- What remains keeps its order, -/
  order : old.filter (Remains old new report) = new.filter (Remains old new report)
  /-- and is reported as updated when it is shown differently. -/
  updated : ∀ object, Remains old new report object → before object ≠ after object →
    ∃ c ∈ report, c.anObject = object ∧ c.type = .update

/-! ### The operations collected -/

/-- The position that a report deletes. -/
def deleted (c : Change α) : Option ℕ :=
  if c.type = .delete ∨ c.type = .move then c.indexPath else none

def reloaded (c : Change α) : Option ℕ := if c.type = .update then c.indexPath else none

def inserted (c : Change α) : Option ℕ :=
  if c.type = .insert ∨ c.type = .move then c.newIndexPath else none

theorem didChange_eq (b : RowBatch) (c : Change α) : didChange b c =
    { deletes := b.deletes ++ (deleted c).toList
      reloads := b.reloads ++ (reloaded c).toList
      inserts := b.inserts ++ (inserted c).toList } := by
  obtain ⟨object, index, type, newIndex⟩ := c
  cases type <;> cases index <;> cases newIndex <;>
    simp [didChange, deleted, reloaded, inserted, RowBatch.deleteRows, RowBatch.reloadRows,
      RowBatch.insertRows]

theorem deliver_eq (report : List (Change α)) : deliver report =
    { deletes := report.filterMap deleted
      reloads := report.filterMap reloaded
      inserts := report.filterMap inserted } := by
  induction report using List.reverseRecOn with
  | nil => rfl
  | append_singleton report c ih =>
    rw [deliver, List.foldl_append, ← deliver, ih, List.foldl_cons, List.foldl_nil, didChange_eq]
    simp only [List.filterMap_append, List.filterMap_cons, List.filterMap_nil]
    cases deleted c <;> cases reloaded c <;> cases inserted c <;> rfl

/-! ### What the reports of a step delete and insert -/

theorem deleted_eq_some {c : Change α} {i : ℕ} : deleted c = some i ↔
    (c.type = .delete ∨ c.type = .move) ∧ c.indexPath = some i := Option.ite_none_right_eq_some

theorem reloaded_eq_some {c : Change α} {i : ℕ} : reloaded c = some i ↔
    c.type = .update ∧ c.indexPath = some i := Option.ite_none_right_eq_some

theorem inserted_eq_some {c : Change α} {j : ℕ} : inserted c = some j ↔
    (c.type = .insert ∨ c.type = .move) ∧ c.newIndexPath = some j := Option.ite_none_right_eq_some

variable {old new : List α} {c : Change α}

/-- A report other than an insertion has the old index. -/
theorem Holds.indexPath (h : Holds old new c) (htype : c.type ≠ .insert) :
    ∃ i, c.indexPath = some i ∧ old[i]? = some c.anObject := by
  apply Option.bind_eq_some_iff.mp
  unfold Holds at h
  cases hc : c.type <;> simp only [hc] at h htype
  · exact absurd rfl htype
  · exact h.2
  · exact h.1
  · exact h.2

/-- A report of an insertion or a move has the new index. -/
theorem Holds.newIndexPath (h : Holds old new c) (htype : c.type = .insert ∨ c.type = .move) :
    ∃ j, c.newIndexPath = some j ∧ new[j]? = some c.anObject := by
  apply Option.bind_eq_some_iff.mp
  unfold Holds at h
  rcases htype with hc | hc <;> simp only [hc] at h <;> exact h.2

theorem Holds.of_deleted (h : Holds old new c) {i : ℕ} (hi : deleted c = some i) :
    old[i]? = some c.anObject := by
  obtain ⟨htype, hindex⟩ := deleted_eq_some.mp hi
  obtain ⟨i', hindex', hi'⟩ := h.indexPath (by rcases htype with hc | hc <;> simp [hc])
  rwa [Option.some.inj (hindex.symm.trans hindex')]

theorem Holds.of_reloaded (h : Holds old new c) {i : ℕ} (hi : reloaded c = some i) :
    old[i]? = some c.anObject := by
  obtain ⟨htype, hindex⟩ := reloaded_eq_some.mp hi
  obtain ⟨i', hindex', hi'⟩ := h.indexPath (by simp [htype])
  rwa [Option.some.inj (hindex.symm.trans hindex')]

theorem Holds.of_inserted (h : Holds old new c) {j : ℕ} (hj : inserted c = some j) :
    new[j]? = some c.anObject := by
  obtain ⟨htype, hindex⟩ := inserted_eq_some.mp hj
  obtain ⟨j', hindex', hj'⟩ := h.newIndexPath htype
  rwa [Option.some.inj (hindex.symm.trans hindex')]

theorem Holds.notMem_old (h : Holds old new c) (htype : c.type = .insert) : c.anObject ∉ old := by
  simp only [Holds, htype] at h
  exact h.1

theorem Holds.notMem_new (h : Holds old new c) (htype : c.type = .delete) : c.anObject ∉ new := by
  simp only [Holds, htype] at h
  exact h.1

theorem Holds.mem_old (h : Holds old new c) (htype : c.type ≠ .insert) : c.anObject ∈ old := by
  obtain ⟨i, -, hi⟩ := h.indexPath htype
  exact List.mem_of_getElem? hi

theorem Holds.mem_new (h : Holds old new c) (htype : c.type ≠ .delete) : c.anObject ∈ new := by
  by_cases hupdate : c.type = .update
  · simp only [Holds, hupdate] at h
    exact h.1
  · have hc : c.type = .insert ∨ c.type = .move := by
      cases hc : c.type <;> simp_all
    obtain ⟨j, -, hj⟩ := h.newIndexPath hc
    exact List.mem_of_getElem? hj

/-- A position is that of one object only. -/
theorem index_unique {l : List α} (hl : l.Nodup) {i j : ℕ} {object : α}
    (hi : l[i]? = some object) (hj : l[j]? = some object) : i = j := by
  have hlt : i < l.length := (List.getElem?_eq_some_iff.mp hi).1
  exact (List.getElem?_inj hlt hl).mp (hi.trans hj.symm)

variable {report : List (Change α)}

/-- Positions read off reports are in range. -/
theorem lt_of_mem_filterMap {l : List α} {f : Change α → Option ℕ}
    (hf : ∀ c ∈ report, ∀ i, f c = some i → l[i]? = some c.anObject) :
    ∀ i ∈ report.filterMap f, i < l.length := by
  intro i hi
  obtain ⟨c, hc, hci⟩ := List.mem_filterMap.mp hi
  exact (List.getElem?_eq_some_iff.mp (hf c hc i hci)).1

variable [DecidableEq α] {before after : α → ρ}

/-- An object that does not remain although it is in both lists is reported as moved. -/
theorem exists_move_of_not_remains {object : α} (hold : object ∈ old) (hnew : object ∈ new)
    (h : ¬ Remains old new report object) :
    ∃ c ∈ report, c.anObject = object ∧ c.type = .move := by
  by_contra hnone
  push Not at hnone
  exact h ⟨hold, hnew, hnone⟩

theorem Describes.exists_delete (h : Describes old new before after report) {object : α}
    (hold : object ∈ old) (hnew : object ∉ new) :
    ∃ c ∈ report, c.anObject = object ∧ c.type = .delete := by
  obtain ⟨c, hc, rfl⟩ := h.removed object hold hnew
  refine ⟨c, hc, rfl, ?_⟩
  by_contra htype
  exact hnew ((h.holds c hc).mem_new htype)

theorem Describes.exists_insert (h : Describes old new before after report) {object : α}
    (hnew : object ∈ new) (hold : object ∉ old) :
    ∃ c ∈ report, c.anObject = object ∧ c.type = .insert := by
  obtain ⟨c, hc, rfl⟩ := h.added object hnew hold
  refine ⟨c, hc, rfl, ?_⟩
  by_contra htype
  exact hold ((h.holds c hc).mem_old htype)

/-- **Deleted are the rows** of the objects that do not remain, -/
theorem mem_deletes_iff (hold : old.Nodup) (h : Describes old new before after report) {i : ℕ}
    {object : α} (hi : old[i]? = some object) :
    i ∈ (deliver report).deletes ↔ ¬ Remains old new report object := by
  rw [deliver_eq, List.mem_filterMap]
  constructor
  · rintro ⟨c, hc, hdeleted⟩ ⟨-, hnew, hmove⟩
    have hobject : c.anObject = object :=
      Option.some.inj (((h.holds c hc).of_deleted hdeleted).symm.trans hi)
    rcases (deleted_eq_some.mp hdeleted).1 with hdelete | hmoved
    · exact (h.holds c hc).notMem_new hdelete (hobject ▸ hnew)
    · exact hmove c hc hobject hmoved
  · intro hremains
    have hmem : object ∈ old := List.mem_of_getElem? hi
    have hreport : ∃ c ∈ report, c.anObject = object ∧ (c.type = .delete ∨ c.type = .move) := by
      by_cases hnew : object ∈ new
      · obtain ⟨c, hc, hobject, hmoved⟩ := exists_move_of_not_remains hmem hnew hremains
        exact ⟨c, hc, hobject, .inr hmoved⟩
      · obtain ⟨c, hc, hobject, hdelete⟩ := h.exists_delete hmem hnew
        exact ⟨c, hc, hobject, .inl hdelete⟩
    obtain ⟨c, hc, rfl, htype⟩ := hreport
    have hne : c.type ≠ .insert := by
      rcases htype with htype | htype <;> simp [htype]
    obtain ⟨i', hindex, hi'⟩ := (h.holds c hc).indexPath hne
    refine ⟨c, hc, deleted_eq_some.mpr ⟨htype, ?_⟩⟩
    rw [hindex, index_unique hold hi hi']

/-- inserted are those of the objects that did not, -/
theorem mem_inserts_iff (hnew : new.Nodup) (h : Describes old new before after report) {j : ℕ}
    {object : α} (hj : new[j]? = some object) :
    j ∈ (deliver report).inserts ↔ ¬ Remains old new report object := by
  rw [deliver_eq, List.mem_filterMap]
  constructor
  · rintro ⟨c, hc, hinserted⟩ ⟨hold, -, hmove⟩
    have hobject : c.anObject = object :=
      Option.some.inj (((h.holds c hc).of_inserted hinserted).symm.trans hj)
    rcases (inserted_eq_some.mp hinserted).1 with hinsert | hmoved
    · exact (h.holds c hc).notMem_old hinsert (hobject ▸ hold)
    · exact hmove c hc hobject hmoved
  · intro hremains
    have hmem : object ∈ new := List.mem_of_getElem? hj
    have hreport : ∃ c ∈ report, c.anObject = object ∧ (c.type = .insert ∨ c.type = .move) := by
      by_cases hold : object ∈ old
      · obtain ⟨c, hc, hobject, hmoved⟩ := exists_move_of_not_remains hold hmem hremains
        exact ⟨c, hc, hobject, .inr hmoved⟩
      · obtain ⟨c, hc, hobject, hinsert⟩ := h.exists_insert hmem hold
        exact ⟨c, hc, hobject, .inl hinsert⟩
    obtain ⟨c, hc, rfl, htype⟩ := hreport
    obtain ⟨j', hindex, hj'⟩ := (h.holds c hc).newIndexPath htype
    refine ⟨c, hc, inserted_eq_some.mpr ⟨htype, ?_⟩⟩
    rw [hindex, index_unique hnew hj hj']

/-- and reloaded are those of the objects that remain and are shown differently. -/
theorem mem_reloads_or_eq (hold : old.Nodup) (h : Describes old new before after report) {i : ℕ}
    {object : α} (hi : old[i]? = some object) (hremains : Remains old new report object) :
    i ∈ (deliver report).reloads ∨ before object = after object := by
  rcases eq_or_ne (before object) (after object) with hsame | hdiffers
  · exact .inr hsame
  · obtain ⟨c, hc, rfl, hupdate⟩ := h.updated object hremains hdiffers
    obtain ⟨i', hindex, hi'⟩ := (h.holds c hc).indexPath (by simp [hupdate])
    rw [deliver_eq, List.mem_filterMap]
    refine .inl ⟨c, hc, reloaded_eq_some.mpr ⟨hupdate, ?_⟩⟩
    rw [hindex, index_unique hold hi hi']

/-! ### The batch is valid -/

/-- Positions read off reports of distinct objects are distinct. -/
theorem nodup_filterMap {l : List α} {f : Change α → Option ℕ}
    (h : Describes old new before after report)
    (hf : ∀ c ∈ report, ∀ i, f c = some i → l[i]? = some c.anObject) :
    (report.filterMap f).Nodup := by
  have hdistinct : report.Pairwise fun c d => c.anObject ≠ d.anObject :=
    List.pairwise_map.mp h.once
  apply List.pairwise_filterMap.mpr
  apply hdistinct.imp_of_mem
  rintro c d hc hd hne i hi j hj rfl
  exact hne (Option.some.inj ((hf c hc i hi).symm.trans (hf d hd i hj)))

theorem valid_deliver (h : Describes old new before after report) :
    (deliver report).Valid old.length new.length := by
  have hdeleted : ∀ c ∈ report, ∀ i, deleted c = some i → old[i]? = some c.anObject :=
    fun c hc _ hi => (h.holds c hc).of_deleted hi
  have hreloaded : ∀ c ∈ report, ∀ i, reloaded c = some i → old[i]? = some c.anObject :=
    fun c hc _ hi => (h.holds c hc).of_reloaded hi
  have hinserted : ∀ c ∈ report, ∀ j, inserted c = some j → new[j]? = some c.anObject :=
    fun c hc _ hj => (h.holds c hc).of_inserted hj
  rw [deliver_eq]
  refine ⟨lt_of_mem_filterMap hdeleted, lt_of_mem_filterMap hreloaded,
    lt_of_mem_filterMap hinserted, nodup_filterMap h hdeleted, nodup_filterMap h hinserted, ?_⟩
  -- A row that is deleted and reloaded has two reports, of one object.
  intro i hi hi'
  obtain ⟨c, hc, hci⟩ := List.mem_filterMap.mp hi
  obtain ⟨d, hd, hdi⟩ := List.mem_filterMap.mp hi'
  have hobject : c.anObject = d.anObject :=
    Option.some.inj ((hreloaded c hc i hci).symm.trans (hdeleted d hd i hdi))
  obtain rfl : c = d := List.inj_on_of_nodup_map h.once hc hd hobject
  have hupdate := (reloaded_eq_some.mp hci).1
  rcases (deleted_eq_some.mp hdi).1 with hc | hc <;> simp [hupdate] at hc

/-- The order of the reports does not matter. -/
theorem Describes.perm (h : Describes old new before after report) {delivered : List (Change α)}
    (hperm : delivered.Perm report) : Describes old new before after delivered := by
  have hremains (object : α) :
      Remains old new delivered object ↔ Remains old new report object := by
    simp only [Remains, hperm.mem_iff]
  constructor
  · exact (hperm.map _).nodup_iff.mpr h.once
  · exact fun c hc => h.holds c (hperm.mem_iff.mp hc)
  · simpa only [hperm.mem_iff] using h.removed
  · simpa only [hperm.mem_iff] using h.added
  · simpa only [hremains] using h.order
  · simpa only [hperm.mem_iff, hremains] using h.updated

/-- **The row operations agree with a reload**: whatever the order in which the reports are
delivered, a table with the rows of `old` becomes one with exactly those of `new`. -/
theorem rows_eq_of_describes (hold : old.Nodup) (hnew : new.Nodup)
    (hreport : Describes old new before after report) {delivered : List (Change α)}
    (hperm : delivered.Perm report) :
    (deliver delivered).endUpdates (old.map before) (new.map after) = some (new.map after) := by
  have h : Describes old new before after delivered := hreport.perm hperm
  have hkept (object : α) : decide (Remains old new delivered object) = false ↔
      ¬ Remains old new delivered object := decide_eq_false_iff_not
  refine RowBatch.endUpdates_eq_map (valid_deliver h) ?_ ?_ ?_ h.order
  · intro i object hi
    rw [hkept, mem_deletes_iff hold h hi]
  · intro j object hj
    rw [hkept, mem_inserts_iff hnew h hj]
  · intro i object hi hremains
    exact mem_reloads_or_eq hold h hi (of_decide_eq_true hremains)

/-- In one step `2` is removed, `5` added, `1` moved and `4` shown differently. -/
theorem rows_eq_of_four_changes :
    (deliver [⟨4, some 3, .update, none⟩, ⟨5, none, .insert, some 2⟩, ⟨1, some 0, .move, some 1⟩,
        ⟨2, some 1, .delete, none⟩]).endUpdates [1, 2, 3, 4] [3, 1, 5, 40] =
      some [3, 1, 5, 40] := by
  have h : Describes [1, 2, 3, 4] [3, 1, 5, 4] id (fun n => if n = 4 then 40 else n)
      [⟨2, some 1, .delete, none⟩, ⟨5, none, .insert, some 2⟩, ⟨1, some 0, .move, some 1⟩,
        ⟨4, some 3, .update, none⟩] := by
    constructor
    · decide
    · simp [Holds]
    · decide
    · decide
    · decide
    · intro object _ hne
      have hfour : object = 4 := by
        by_contra hother
        simp [hother] at hne
      subst hfour
      exact ⟨⟨4, some 3, .update, none⟩, by simp, rfl, rfl⟩
  exact rows_eq_of_describes (by decide) (by decide) h (by decide)

end FRCDelegate

end MessengerApp
