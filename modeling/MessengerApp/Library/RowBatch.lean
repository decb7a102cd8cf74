import Mathlib.Data.List.Forall2
import Mathlib.Data.List.Nodup

/-!
# Batches of row operations

A table is told which rows to delete, which to reload and which to insert, and performs all
of it at once: deletions and reloads refer to the positions before the batch, insertions to
the positions after it.  The contents of inserted and reloaded rows are asked of the data
source.

## Main definitions

* `RowBatch`, `RowBatch.Valid` — the operations collected, and what a table requires of them.
* `entries`, `assemble` — the rows that stay, and the rows after the batch.
* `RowBatch.endUpdates` — performing a batch.

## Main results

* `forall₂_entries` — the rows that stay are those of the objects that remain.
* `assemble_eq_map` — with the new rows between them, they are the new list.
* `endUpdates_eq_map` — **a batch that deletes and inserts what does not remain, and reloads
  what changes, performs the step from one list to the other.**
-/

/-- The operations of a batch, each a list of row numbers. -/
structure RowBatch where
  deletes : List ℕ
  reloads : List ℕ
  inserts : List ℕ
  deriving DecidableEq, Repr

namespace RowBatch

variable {α ρ : Type*}

/-- No operation yet. -/
def empty : RowBatch where
  deletes := []
  reloads := []
  inserts := []

def deleteRows (b : RowBatch) (i : ℕ) : RowBatch := { b with deletes := b.deletes ++ [i] }

def reloadRows (b : RowBatch) (i : ℕ) : RowBatch := { b with reloads := b.reloads ++ [i] }

def insertRows (b : RowBatch) (j : ℕ) : RowBatch := { b with inserts := b.inserts ++ [j] }

/-- What a table that has `before` rows, and will have `after` rows, requires of a batch. -/
structure Valid (b : RowBatch) (before after : ℕ) : Prop where
  deletes_lt : ∀ i ∈ b.deletes, i < before
  reloads_lt : ∀ i ∈ b.reloads, i < before
  inserts_lt : ∀ j ∈ b.inserts, j < after
  deletes_nodup : b.deletes.Nodup
  inserts_nodup : b.inserts.Nodup
  /-- A row is not both deleted and reloaded. -/
  disjoint : ∀ i ∈ b.reloads, i ∉ b.deletes

instance (b : RowBatch) (before after : ℕ) : Decidable (b.Valid before after) :=
  decidable_of_iff ((∀ i ∈ b.deletes, i < before) ∧ (∀ i ∈ b.reloads, i < before) ∧
      (∀ j ∈ b.inserts, j < after) ∧ b.deletes.Nodup ∧ b.inserts.Nodup ∧
      ∀ i ∈ b.reloads, i ∉ b.deletes)
    ⟨fun ⟨h₁, h₂, h₃, h₄, h₅, h₆⟩ => ⟨h₁, h₂, h₃, h₄, h₅, h₆⟩,
      fun ⟨h₁, h₂, h₃, h₄, h₅, h₆⟩ => ⟨h₁, h₂, h₃, h₄, h₅, h₆⟩⟩

/-- The rows from the `i`th on that stay; `none` stands for one that is reloaded. -/
def entries (b : RowBatch) (i : ℕ) : List ρ → List (Option ρ)
  | [] => []
  | row :: rows =>
      if i ∈ b.deletes then entries b (i + 1) rows
      else (if i ∈ b.reloads then none else some row) :: entries b (i + 1) rows

/-- The rows from the `j`th on after the batch, whose contents the data source has as
`source`, when `kept` are the rows that are still to come.  There is no result when the
numbers do not come out. -/
def assemble (b : RowBatch) (j : ℕ) : List ρ → List (Option ρ) → Option (List ρ)
  | [], [] => some []
  | [], _ :: _ => none
  | new :: source, kept =>
      if j ∈ b.inserts then (assemble b (j + 1) source kept).map (new :: ·)
      else
        match kept with
        | [] => none
        | entry :: kept => (assemble b (j + 1) source kept).map (entry.getD new :: ·)

/-- The rows after the batch; a batch that is not valid raises an exception. -/
def endUpdates (b : RowBatch) (rows source : List ρ) : Option (List ρ) :=
  if b.Valid rows.length source.length then b.assemble 0 source (b.entries 0 rows) else none

variable {b : RowBatch} {kept : α → Bool} {before after : α → ρ}

theorem assemble_of_insert {j : ℕ} (h : j ∈ b.inserts) (new : ρ) (source : List ρ)
    (entries : List (Option ρ)) : b.assemble j (new :: source) entries =
      (b.assemble (j + 1) source entries).map (new :: ·) := by
  cases entries <;> exact if_pos h

theorem assemble_of_stay {j : ℕ} (h : j ∉ b.inserts) (new : ρ) (source : List ρ)
    (entry : Option ρ) (entries : List (Option ρ)) :
    b.assemble j (new :: source) (entry :: entries) =
      (b.assemble (j + 1) source entries).map (entry.getD new :: ·) := if_neg h

/-- **The rows that stay** are those of the objects that remain, each with its new contents
or about to be reloaded. -/
theorem forall₂_entries : ∀ (old : List α) (i : ℕ),
    (∀ k object, old[k]? = some object → (i + k ∈ b.deletes ↔ kept object = false) ∧
      (kept object = true → i + k ∈ b.reloads ∨ before object = after object)) →
    List.Forall₂ (fun entry object => entry.getD (after object) = after object)
      (b.entries i (old.map before)) (old.filter kept) := by
  intro old
  induction old with
  | nil => exact fun _ _ => .nil
  | cons object old ih =>
    intro i h
    obtain ⟨hdelete, hreload⟩ := h 0 object rfl
    simp only [Nat.add_zero] at hdelete hreload
    have hrest := ih (i + 1) fun k next hnext => by
      have hsucc := h (k + 1) next hnext
      rwa [← Nat.add_assoc, Nat.add_right_comm] at hsucc
    rw [List.map_cons, entries]
    by_cases hkept : kept object = true
    · have hstays : i ∉ b.deletes := by simp [hdelete, hkept]
      rw [if_neg hstays, List.filter_cons_of_pos hkept]
      refine .cons ?_ hrest
      rcases hreload hkept with hi | hsame
      · rw [if_pos hi]
        rfl
      · split
        · rfl
        · exact hsame
    · have hgoes : i ∈ b.deletes := by simp [hdelete, hkept]
      rw [if_pos hgoes, List.filter_cons_of_neg hkept]
      exact hrest

/-- **With the new rows between them** the rows that stay are the new list. -/
theorem assemble_eq_map : ∀ (new : List α) (j : ℕ) (entries : List (Option ρ)),
    (∀ k object, new[k]? = some object → (j + k ∈ b.inserts ↔ kept object = false)) →
    List.Forall₂ (fun entry object => entry.getD (after object) = after object)
      entries (new.filter kept) →
    b.assemble j (new.map after) entries = some (new.map after) := by
  intro new
  induction new with
  | nil =>
    intro j entries _ hentries
    cases hentries
    rfl
  | cons object new ih =>
    intro j entries h hentries
    have hinsert := h 0 object rfl
    simp only [Nat.add_zero] at hinsert
    have hrest : ∀ k next, new[k]? = some next → (j + 1 + k ∈ b.inserts ↔ kept next = false) := by
      intro k next hnext
      have hsucc := h (k + 1) next hnext
      rwa [← Nat.add_assoc, Nat.add_right_comm] at hsucc
    rw [List.map_cons]
    by_cases hkept : kept object = true
    · have hstays : j ∉ b.inserts := by simp [hinsert, hkept]
      rw [List.filter_cons_of_pos hkept] at hentries
      cases hentries with
      | cons hentry hentries =>
        rw [assemble_of_stay hstays, ih (j + 1) _ hrest hentries, Option.map_some, hentry]
    · have hcomes : j ∈ b.inserts := by simp [hinsert, hkept]
      rw [List.filter_cons_of_neg hkept] at hentries
      rw [assemble_of_insert hcomes, ih (j + 1) _ hrest hentries, Option.map_some]

/-- **The batch performs the step** when it is valid, deletes and inserts exactly the rows of
what does not remain, and reloads the rows that change. -/
theorem endUpdates_eq_map {old new : List α} (hvalid : b.Valid old.length new.length)
    (hdeletes : ∀ i object, old[i]? = some object → (i ∈ b.deletes ↔ kept object = false))
    (hinserts : ∀ j object, new[j]? = some object → (j ∈ b.inserts ↔ kept object = false))
    (hreloads : ∀ i object, old[i]? = some object → kept object = true →
      i ∈ b.reloads ∨ before object = after object)
    (horder : old.filter kept = new.filter kept) :
    b.endUpdates (old.map before) (new.map after) = some (new.map after) := by
  have hentries : List.Forall₂ (fun entry object => entry.getD (after object) = after object)
      (b.entries 0 (old.map before)) (new.filter kept) := by
    rw [← horder]
    apply forall₂_entries
    intro k object hobject
    rw [Nat.zero_add]
    exact ⟨hdeletes k object hobject, hreloads k object hobject⟩
  unfold endUpdates
  rw [List.length_map, List.length_map, if_pos hvalid]
  apply assemble_eq_map new 0 _ _ hentries
  intro k object hobject
  rw [Nat.zero_add]
  exact hinserts k object hobject

end RowBatch
