import Mathlib.Data.List.Basic
import Mathlib.Data.List.Pairwise

/-!
# Tables under uniqueness constraints

A table is a list of rows no two of which conflict, for a relation `conflict`
that says when two rows violate a uniqueness constraint together.  New rows are
inserted in order; what becomes of the rows in conflict is the business of a
*resolution*.  The resolution developed in detail here keeps what is stored and
discards the newcomer; among newcomers the first one wins.

## Main definitions

* `Unique conflict t` — no two rows of `t` conflict.
* `insertRow`, `insertAll` — insertion that discards a row in conflict.
* `Resolution conflict` — any way of resolving conflicts that keeps one of the
  conflicting rows unchanged and discards the others.
* `keepStored` — the resolution `insertAll` computes.

## Main results

* `unique_insertAll`, `sublist_insertAll`, `exists_conflict_of_notMem` —
  `insertAll` is a resolution.
* `insertAll_append` — inserting in two batches is inserting in one.
* `filter_insertAll`, `filter_insertAll_of_not` — what insertion does to part of a table.
* `find?_insertAll_of_class` — what it does to rows that conflict with the same rows.
* `find?_insertAll`, `Unique.mem_iff_find?` — for the constraint that a key is unique,
  the rows that survive are the first ones with their key.
-/

namespace UniqueTable

variable {α β κ : Type*}

/-- No two rows of the table conflict. -/
def Unique (conflict : α → α → Prop) (t : List α) : Prop :=
  t.Pairwise fun r r' => ¬ conflict r r'

theorem unique_nil (conflict : α → α → Prop) : Unique conflict [] := List.Pairwise.nil

/-- Two rows of a table that conflict are the same row. -/
theorem Unique.eq_of_conflict {conflict : α → α → Prop}
    (hsymm : ∀ r r', conflict r r' → conflict r' r) {t : List α} (ht : Unique conflict t)
    {r r' : α} (hr : r ∈ t) (hr' : r' ∈ t) (h : conflict r r') : r = r' := by
  by_contra hne
  have : Std.Symm fun x y => ¬ conflict x y := ⟨fun x y hn hc => hn (hsymm y x hc)⟩
  exact List.Pairwise.forall ht hr hr' hne h

/-- Where at most one entry has a property, any two that have it are equal. -/
theorem eq_of_countP_le_one {p : α → Bool} {l : List α} (h : l.countP p ≤ 1) {a b : α}
    (ha : a ∈ l) (hb : b ∈ l) (hpa : p a = true) (hpb : p b = true) : a = b := by
  rw [List.countP_eq_length_filter] at h
  have ha' : a ∈ l.filter p := List.mem_filter.mpr ⟨ha, hpa⟩
  have hb' : b ∈ l.filter p := List.mem_filter.mpr ⟨hb, hpb⟩
  match hf : l.filter p with
  | [] => rw [hf] at ha'; exact absurd ha' List.not_mem_nil
  | [x] =>
    rw [hf, List.mem_singleton] at ha' hb'
    rw [ha', hb']
  | x :: y :: l' => rw [hf] at h; simp at h

section Insert

variable (conflict : α → α → Prop) [DecidableRel conflict]

/-- Insert a row, unless it conflicts with a row of the table. -/
def insertRow (t : List α) (r : α) : List α :=
  if ∃ r' ∈ t, conflict r' r then t else t ++ [r]

/-- Insert rows one after the other. -/
def insertAll (t rs : List α) : List α := rs.foldl (insertRow conflict) t

@[simp] theorem insertAll_nil (t : List α) : insertAll conflict t [] = t := rfl

@[simp] theorem insertAll_cons (t : List α) (r : α) (rs : List α) :
    insertAll conflict t (r :: rs) = insertAll conflict (insertRow conflict t r) rs := rfl

theorem insertAll_append (t rs rs' : List α) :
    insertAll conflict t (rs ++ rs') = insertAll conflict (insertAll conflict t rs) rs' :=
  List.foldl_append

theorem insertRow_of_conflict {t : List α} {r r' : α} (hr' : r' ∈ t) (h : conflict r' r) :
    insertRow conflict t r = t := if_pos ⟨r', hr', h⟩

theorem insertRow_of_free {t : List α} {r : α} (h : ∀ r' ∈ t, ¬ conflict r' r) :
    insertRow conflict t r = t ++ [r] := if_neg fun ⟨r', hr', hc⟩ => h r' hr' hc

theorem unique_insertRow {t : List α} (ht : Unique conflict t) (r : α) :
    Unique conflict (insertRow conflict t r) := by
  unfold insertRow
  split
  · exact ht
  · next h =>
    refine List.pairwise_append.mpr ⟨ht, List.pairwise_singleton _ _, ?_⟩
    intro r' hr' r'' hr'' hc
    rw [List.mem_singleton] at hr''
    exact h ⟨r', hr', hr'' ▸ hc⟩

theorem unique_insertAll : ∀ (rs t : List α), Unique conflict t →
    Unique conflict (insertAll conflict t rs) := by
  intro rs
  induction rs with
  | nil => intro t ht; exact ht
  | cons r rs ih => intro t ht; exact ih _ (unique_insertRow conflict ht r)

theorem sublist_insertRow (t : List α) (r : α) :
    (insertRow conflict t r).Sublist (t ++ [r]) := by
  unfold insertRow
  split
  · exact List.sublist_append_left t [r]
  · exact List.Sublist.refl _

/-- Insertion only drops rows. -/
theorem sublist_insertAll : ∀ (rs t : List α), (insertAll conflict t rs).Sublist (t ++ rs) := by
  intro rs
  induction rs with
  | nil => intro t; rw [insertAll_nil, List.append_nil]
  | cons r rs ih =>
    intro t
    rw [insertAll_cons, List.append_cons t r rs]
    exact (ih _).trans (List.Sublist.append (sublist_insertRow conflict t r) (List.Sublist.refl rs))

theorem prefix_insertRow (t : List α) (r : α) : t <+: insertRow conflict t r := by
  unfold insertRow
  split
  · exact List.prefix_rfl
  · exact List.prefix_append t [r]

/-- The rows already in the table stay where they are. -/
theorem prefix_insertAll : ∀ (rs t : List α), t <+: insertAll conflict t rs := by
  intro rs
  induction rs with
  | nil => intro t; exact List.prefix_rfl
  | cons r rs ih => intro t; exact (prefix_insertRow conflict t r).trans (ih _)

theorem mem_insertAll_of_mem {t : List α} (rs : List α) {r : α} (hr : r ∈ t) :
    r ∈ insertAll conflict t rs := (prefix_insertAll conflict rs t).subset hr

theorem mem_or_mem_of_mem_insertAll {t rs : List α} {r : α} (hr : r ∈ insertAll conflict t rs) :
    r ∈ t ∨ r ∈ rs := List.mem_append.mp ((sublist_insertAll conflict rs t).subset hr)

/-- A discarded row conflicts with one that was kept. -/
theorem exists_conflict_of_notMem : ∀ (rs t : List α) (r : α), r ∈ t ++ rs →
    r ∉ insertAll conflict t rs → ∃ r' ∈ insertAll conflict t rs, conflict r' r := by
  intro rs
  induction rs with
  | nil =>
    intro t r hr hn
    rw [List.append_nil] at hr
    exact absurd hr hn
  | cons x rs ih =>
    intro t r hr hn
    rw [insertAll_cons] at hn ⊢
    by_cases hx : r ∈ insertRow conflict t x ++ rs
    · exact ih _ r hx hn
    · -- `r` is neither stored nor still to come, so it is `x`, discarded just now
      rw [List.mem_append, not_or] at hx
      have hrt : r ∉ t := fun h => hx.1 ((prefix_insertRow conflict t x).subset h)
      have hrx : r = x := by simpa [hrt, hx.2] using hr
      subst hrx
      by_cases hc : ∃ r' ∈ t, conflict r' r
      · obtain ⟨r', hr', hc'⟩ := hc
        have hmem : r' ∈ insertRow conflict t r := (prefix_insertRow conflict t r).subset hr'
        exact ⟨r', mem_insertAll_of_mem conflict rs hmem, hc'⟩
      · exact absurd (by simp [insertRow, hc]) hx.1

/-- A row that gets into a table does not conflict with the rows that were there. -/
theorem mem_or_not_conflict : ∀ (rs t : List α) (z : α), z ∈ t →
    ∀ y ∈ insertAll conflict t rs, y ∈ t ∨ (y ∈ rs ∧ ¬ conflict z y) := by
  intro rs
  induction rs with
  | nil => exact fun t z _ y hy => Or.inl hy
  | cons r rs ih =>
    intro t z hz y hy
    rw [insertAll_cons] at hy
    rcases ih _ z ((prefix_insertRow conflict t r).subset hz) y hy with hy | ⟨hy, hnc⟩
    · by_cases hc : ∃ r' ∈ t, conflict r' r
      · obtain ⟨r', hr', hc⟩ := hc
        rw [insertRow_of_conflict conflict hr' hc] at hy
        exact Or.inl hy
      · have hfree : ∀ r' ∈ t, ¬ conflict r' r := fun r' hr' hc' => hc ⟨r', hr', hc'⟩
        rw [insertRow_of_free conflict hfree, List.mem_append, List.mem_singleton] at hy
        refine hy.imp id fun heq => ?_
        subst heq
        exact ⟨List.mem_cons_self, hfree z hz⟩
    · exact Or.inr ⟨List.mem_cons_of_mem r hy, hnc⟩

/-- Rows that all conflict with the table are all discarded. -/
theorem insertAll_eq_self : ∀ (rs : List α) {t : List α},
    (∀ r ∈ rs, ∃ r' ∈ t, conflict r' r) → insertAll conflict t rs = t := by
  intro rs
  induction rs with
  | nil => intro t _; rfl
  | cons r rs ih =>
    intro t h
    obtain ⟨r', hr', hc⟩ := h r List.mem_cons_self
    rw [insertAll_cons, insertRow_of_conflict conflict hr' hc]
    exact ih fun x hx => h x (List.mem_cons_of_mem r hx)

end Insert

/-! ### Part of a table -/

section Part

variable (conflict : α → α → Prop) [DecidableRel conflict] (part : α → Prop) [DecidablePred part]

/-- Rows of a part of the table that conflict with nothing outside it are inserted
as if the part were the whole table. -/
theorem filter_insertAll : ∀ (rs : List α) {t : List α}, (∀ r ∈ rs, part r) →
    (∀ r ∈ rs, ∀ r' ∈ t, conflict r' r → part r') →
      (insertAll conflict t rs).filter (part ·) = insertAll conflict (t.filter (part ·)) rs := by
  intro rs
  induction rs with
  | nil => intro t _ _; rfl
  | cons r rs ih =>
    intro t hpart hconf
    have hpart' : ∀ x ∈ rs, part x := fun x hx => hpart x (List.mem_cons_of_mem r hx)
    have hr : part r := hpart r List.mem_cons_self
    rw [insertAll_cons, insertAll_cons]
    by_cases h : ∃ r' ∈ t, conflict r' r
    · obtain ⟨r', hr', hc⟩ := h
      have hkept : r' ∈ t.filter (part ·) :=
        List.mem_filter.mpr ⟨hr', decide_eq_true (hconf r List.mem_cons_self r' hr' hc)⟩
      rw [insertRow_of_conflict conflict hr' hc, insertRow_of_conflict conflict hkept hc]
      exact ih hpart' fun x hx => hconf x (List.mem_cons_of_mem r hx)
    · have hfree : ∀ r' ∈ t, ¬ conflict r' r := fun r' hr' hc => h ⟨r', hr', hc⟩
      have hfilter : (t ++ [r]).filter (part ·) = t.filter (part ·) ++ [r] := by
        rw [List.filter_append, List.filter_cons_of_pos (by simpa using hr), List.filter_nil]
      rw [insertRow_of_free conflict hfree,
        insertRow_of_free conflict fun r' hr' => hfree r' (List.mem_filter.mp hr').1, ← hfilter]
      refine ih hpart' fun x hx r' hr' hc => ?_
      rcases List.mem_append.mp hr' with hr' | hr'
      · exact hconf x (List.mem_cons_of_mem r hx) r' hr' hc
      · exact List.mem_singleton.mp hr' ▸ hr

/-- Rows outside a part of the table, and rows that conflict with the table anyway,
leave the part as it is. -/
theorem filter_insertAll_of_not : ∀ (rs : List α) {t : List α},
    (∀ r ∈ rs, ¬ part r ∨ ∃ r' ∈ t, conflict r' r) →
      (insertAll conflict t rs).filter (part ·) = t.filter (part ·) := by
  intro rs
  induction rs with
  | nil => intro t _; rfl
  | cons r rs ih =>
    intro t h
    have htail : ∀ x ∈ rs, ¬ part x ∨ ∃ r' ∈ t ++ [r], conflict r' x := by
      intro x hx
      refine (h x (List.mem_cons_of_mem r hx)).imp id ?_
      rintro ⟨r', hr', hc⟩
      exact ⟨r', List.mem_append_left _ hr', hc⟩
    rw [insertAll_cons]
    by_cases hc : ∃ r' ∈ t, conflict r' r
    · obtain ⟨r', hr', hc⟩ := hc
      rw [insertRow_of_conflict conflict hr' hc]
      exact ih fun x hx => h x (List.mem_cons_of_mem r hx)
    · have hnot : ¬ part r := (h r List.mem_cons_self).resolve_right hc
      rw [insertRow_of_free conflict fun r' hr' hc' => hc ⟨r', hr', hc'⟩, ih htail,
        List.filter_append, List.filter_cons_of_neg (by simpa using hnot), List.filter_nil,
        List.append_nil]

end Part

/-! ### Rows that conflict with the same rows -/

section Class

variable (conflict : α → α → Prop) [DecidableRel conflict] (p : α → Bool)

/-- Where rows with a property conflict with the same rows, discarding the first of them
discards them all. -/
theorem find?_insertAll_of_class : ∀ (rs : List α) {t : List α},
    (∀ x ∈ rs, ∀ y ∈ rs, p x = true → p y = true → ∀ z, conflict z x → conflict z y) →
      (insertAll conflict t rs).find? p = (t ++ rs).find? p ∨
        (insertAll conflict t rs).find? p = none := by
  intro rs
  induction rs with
  | nil =>
    intro t _
    rw [insertAll_nil, List.append_nil]
    exact Or.inl rfl
  | cons r rs ih =>
    intro t hclass
    have htail : ∀ x ∈ rs, ∀ y ∈ rs, p x = true → p y = true →
        ∀ z, conflict z x → conflict z y := fun x hx y hy =>
      hclass x (List.mem_cons_of_mem r hx) y (List.mem_cons_of_mem r hy)
    rw [insertAll_cons]
    by_cases hfree : ∃ r' ∈ t, conflict r' r
    · obtain ⟨z, hz, hc⟩ := hfree
      rw [insertRow_of_conflict conflict hz hc]
      by_cases hr : p r = true
      · cases ht : t.find? p with
        | some y =>
          -- the table has one already, and it stays in front
          obtain ⟨rest, hrest⟩ := prefix_insertAll conflict rs t
          left
          rw [← hrest, List.find?_append, List.find?_append, ht, Option.some_or, Option.some_or]
        | none =>
          -- the row that `r` conflicts with also keeps the others out
          right
          rw [List.find?_eq_none]
          intro y hy hpy
          rcases mem_or_not_conflict conflict rs t z hz y hy with hyt | ⟨hyr, hnc⟩
          · exact List.find?_eq_none.mp ht y hyt hpy
          · exact hnc (hclass r List.mem_cons_self y (List.mem_cons_of_mem r hyr) hr hpy z hc)
      · rcases ih htail (t := t) with h | h
        · left
          rw [h, List.find?_append, List.find?_append, List.find?_cons_of_neg hr]
        · exact Or.inr h
    · rw [insertRow_of_free conflict fun r' hr' hc => hfree ⟨r', hr', hc⟩, List.append_cons t r rs]
      exact ih htail

end Class

/-! ### Rows and their images -/

theorem map_insertRow {conflict : α → α → Prop} [DecidableRel conflict]
    {conflict' : β → β → Prop} [DecidableRel conflict'] {f : α → β}
    (hf : ∀ r r', conflict r r' ↔ conflict' (f r) (f r')) (t : List α) (r : α) :
    (insertRow conflict t r).map f = insertRow conflict' (t.map f) (f r) := by
  have hex : (∃ r' ∈ t, conflict r' r) ↔ ∃ b ∈ t.map f, conflict' b (f r) := by
    simp only [List.mem_map, exists_exists_and_eq_and, hf]
  unfold insertRow
  by_cases h : ∃ r' ∈ t, conflict r' r
  · rw [if_pos h, if_pos (hex.mp h)]
  · rw [if_neg h, if_neg (mt hex.mpr h), List.map_append, List.map_singleton]

/-- Insertion only looks at what the constraint looks at. -/
theorem map_insertAll {conflict : α → α → Prop} [DecidableRel conflict]
    {conflict' : β → β → Prop} [DecidableRel conflict'] {f : α → β}
    (hf : ∀ r r', conflict r r' ↔ conflict' (f r) (f r')) : ∀ (rs t : List α),
    (insertAll conflict t rs).map f = insertAll conflict' (t.map f) (rs.map f) := by
  intro rs
  induction rs with
  | nil => intro t; rfl
  | cons r rs ih =>
    intro t
    rw [insertAll_cons, ih, map_insertRow hf, List.map_cons, insertAll_cons]

/-! ### A unique key -/

section Keyed

variable [DecidableEq κ] (key : α → κ)

/-- The constraint that no two rows have the same key. -/
abbrev SameKey (r r' : α) : Prop := key r = key r'

theorem find?_insertRow (t : List α) (r : α) (k : κ) :
    (insertRow (SameKey key) t r).find? (key · = k) = (t ++ [r]).find? (key · = k) := by
  unfold insertRow
  split
  · next h =>
    obtain ⟨r', hr', hk⟩ := h
    rw [List.find?_append]
    by_cases hrk : key r = k
    · have hsome : (t.find? (key · = k)).isSome := by
        rw [List.find?_isSome]
        exact ⟨r', hr', by simpa using hk.trans hrk⟩
      obtain ⟨x, hx⟩ := Option.isSome_iff_exists.mp hsome
      rw [hx, Option.some_or]
    · have hnone : [r].find? (key · = k) = none := by simp [hrk]
      rw [hnone, Option.or_none]
  · rfl

/-- The first row with a given key is the same before and after insertion. -/
theorem find?_insertAll : ∀ (rs t : List α) (k : κ),
    (insertAll (SameKey key) t rs).find? (key · = k) = (t ++ rs).find? (key · = k) := by
  intro rs
  induction rs with
  | nil => intro t k; rw [insertAll_nil, List.append_nil]
  | cons r rs ih =>
    intro t k
    rw [insertAll_cons, ih, List.find?_append, find?_insertRow, ← List.find?_append,
      ← List.append_cons]

/-- In a table with a unique key, the row with a key is the first one with it. -/
theorem Unique.mem_iff_find? {t : List α} (ht : Unique (SameKey key) t) (r : α) :
    r ∈ t ↔ t.find? (key · = key r) = some r := by
  constructor
  · intro hr
    have hsome : (t.find? (key · = key r)).isSome := by
      rw [List.find?_isSome]
      exact ⟨r, hr, by simp⟩
    obtain ⟨x, hx⟩ := Option.isSome_iff_exists.mp hsome
    have hkey : key x = key r := by simpa using List.find?_some hx
    rw [hx, ht.eq_of_conflict (fun _ _ h => h.symm) (List.mem_of_find?_eq_some hx) hr hkey]
  · exact List.mem_of_find?_eq_some

end Keyed

/-! ### Resolutions -/

/-- A way of resolving conflicts when `inserted` rows meet the `stored` ones: some
of the rows are kept, unchanged and in order, so that none of them conflict, and
a row is discarded only for one that conflicts with it. -/
structure Resolution (conflict : α → α → Prop) where
  /-- The rows that are kept. -/
  keep : List α → List α → List α
  sublist : ∀ stored inserted, (keep stored inserted).Sublist (stored ++ inserted)
  unique : ∀ stored inserted, Unique conflict stored → Unique conflict (keep stored inserted)
  resolves : ∀ stored inserted r, r ∈ stored ++ inserted → r ∉ keep stored inserted →
    ∃ r' ∈ keep stored inserted, conflict r' r

/-- The stored row is kept and the new one discarded; among new ones the first
inserted survives. -/
def keepStored (conflict : α → α → Prop) [DecidableRel conflict] : Resolution conflict where
  keep := insertAll conflict
  sublist := fun stored inserted => sublist_insertAll conflict inserted stored
  unique := fun stored inserted => unique_insertAll conflict inserted stored
  resolves := fun stored inserted => exists_conflict_of_notMem conflict inserted stored

/-- A row that conflicts with no other is kept, however conflicts are resolved. -/
theorem Resolution.mem_keep {conflict : α → α → Prop} (ρ : Resolution conflict)
    {stored inserted : List α} {r : α} (hr : r ∈ stored ++ inserted)
    (hfree : ∀ r' ∈ stored ++ inserted, conflict r' r → r' = r) :
    r ∈ ρ.keep stored inserted := by
  by_contra hn
  obtain ⟨r', hr', hc⟩ := ρ.resolves stored inserted r hr hn
  exact hn (hfree r' ((ρ.sublist stored inserted).subset hr') hc ▸ hr')

end UniqueTable
