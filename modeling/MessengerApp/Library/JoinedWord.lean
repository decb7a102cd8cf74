import MessengerApp.Library.Pattern

/-!
# Words of labels joined by separators

A label is a word that is not empty and has symbols of one class only; labels are joined by
single symbols of another class.  The classes may overlap, and then a word can be read in
several ways.

## Main definitions

* `JoinedWord p q x` — the word `x` is made of labels over `p`, joined by separators in `q`.
* `Pattern.joined` — the pattern of such words.

## Main results

* `Pattern.mem_joined` — the pattern describes them.
* `JoinedWord.normal` — the separators may be taken outside the class of the labels.
* `JoinedWord.split` — up to the first separator of another kind.
-/

variable {α : Type*}

/-- The word is made of labels over `p`, joined by separators in `q`. -/
inductive JoinedWord (p q : α → Bool) : List α → Prop
  | label {x : List α} : x ≠ [] → (∀ a ∈ x, p a = true) → JoinedWord p q x
  | cons {x y : List α} {a : α} : x ≠ [] → (∀ b ∈ x, p b = true) → q a = true →
      JoinedWord p q y → JoinedWord p q (x ++ a :: y)

namespace JoinedWord

variable {p q : α → Bool} {x y : List α} {a : α}

theorem mono {r : α → Bool} (hqr : ∀ a, q a = true → r a = true) (h : JoinedWord p q x) :
    JoinedWord p r x := by
  induction h with
  | label hne hx => exact .label hne hx
  | cons hne hx ha _ ih => exact .cons hne hx (hqr _ ha) ih

theorem append (hx : JoinedWord p q x) (ha : q a = true) (hy : JoinedWord p q y) :
    JoinedWord p q (x ++ a :: y) := by
  induction hx with
  | label hne hx => exact .cons hne hx ha hy
  | cons hne hx hb _ ih =>
    rw [List.append_assoc, List.cons_append]
    exact .cons hne hx hb ih

/-- A symbol is one of a label or a separator. -/
theorem forall_mem (h : JoinedWord p q x) : ∀ a ∈ x, p a = true ∨ q a = true := by
  induction h with
  | label _ hx => exact fun a ha => .inl (hx a ha)
  | cons _ hx ha _ ih =>
    refine List.forall_mem_append.mpr ⟨fun b hb => .inl (hx b hb), ?_⟩
    exact List.forall_mem_cons.mpr ⟨.inr ha, ih⟩

/-- A symbol of a label makes one label of its neighbours. -/
theorem merge (hne : x ≠ []) (hx : ∀ b ∈ x, p b = true) (ha : p a = true) (hy : JoinedWord p q y) :
    JoinedWord p q (x ++ a :: y) := by
  have hlong (z : List α) : x ++ a :: z ≠ [] := List.append_ne_nil_of_left_ne_nil hne _
  have hall {z : List α} (hz : ∀ b ∈ z, p b = true) : ∀ b ∈ x ++ a :: z, p b = true :=
    List.forall_mem_append.mpr ⟨hx, List.forall_mem_cons.mpr ⟨ha, hz⟩⟩
  cases hy with
  | label _ hy => exact .label (hlong y) (hall hy)
  | @cons z w b _ hz hb hw =>
    rw [← List.cons_append, ← List.append_assoc]
    exact .cons (hlong z) (hall hz) hb hw

/-- **The separators may be taken outside the labels**: those that are symbols of labels
belong to one. -/
theorem normal (h : JoinedWord p q x) : JoinedWord p (fun a => q a && !p a) x := by
  induction h with
  | label hne hx => exact .label hne hx
  | @cons x y a hne hx ha _ ih =>
    by_cases hp : p a = true
    · exact merge hne hx hp ih
    · exact .cons hne hx (by simp [ha, hp]) ih

/-- **Up to the first separator that is not in `r`**, if there is one, the separators
are. -/
theorem split (r : α → Bool) (h : JoinedWord p q x) : JoinedWord p (fun a => q a && r a) x ∨
    ∃ y a z, x = y ++ a :: z ∧ JoinedWord p (fun a => q a && r a) y ∧ q a = true ∧ r a = false ∧
      JoinedWord p q z := by
  induction h with
  | label hne hx => exact .inl (.label hne hx)
  | @cons x y a hne hx ha hy ih =>
    by_cases hr : r a = true
    · have hqr : (q a && r a) = true := by simp [ha, hr]
      rcases ih with hwhole | ⟨w, b, z, rfl, hw, hb, hrb, hz⟩
      · exact .inl (.cons hne hx hqr hwhole)
      · refine .inr ⟨x ++ a :: w, b, z, ?_, .cons hne hx hqr hw, hb, hrb, hz⟩
        rw [List.append_assoc, List.cons_append]
    · exact .inr ⟨x, a, y, rfl, .label hne hx, ha, eq_false_of_ne_true hr, hy⟩

end JoinedWord

namespace Pattern

variable {p q : α → Bool} {x : List α}

/-- The pattern of labels over `p` joined by separators in `q`. -/
def joined (p q : α → Bool) : Pattern α :=
  seq (repeated (char p)) (star (seq (char q) (repeated (char p))))

theorem mem_joined : x ∈ (joined p q).language ↔ JoinedWord p q x := by
  rw [joined, mem_seq]
  constructor
  · rintro ⟨y, hy, z, hz, rfl⟩
    obtain ⟨L, rfl, hL⟩ := mem_star.mp hz
    clear hz
    induction L generalizing y with
    | nil =>
      obtain ⟨hne, hy⟩ := mem_repeated_char.mp hy
      rw [List.flatten_nil, List.append_nil]
      exact .label hne hy
    | cons w L ih =>
      obtain ⟨_, ⟨a, ha, rfl⟩, w, hw, rfl⟩ := mem_seq.mp (hL _ List.mem_cons_self)
      have hL' : ∀ v ∈ L, v ∈ (seq (char q) (repeated (char p))).language :=
        fun v hv => hL v (List.mem_cons_of_mem _ hv)
      obtain ⟨hne, hy⟩ := mem_repeated_char.mp hy
      rw [List.flatten_cons, List.append_assoc]
      exact .cons hne hy ha (ih w hw hL')
  · intro h
    induction h with
    | @label x hne hx =>
      exact ⟨x, mem_repeated_char.mpr ⟨hne, hx⟩, [], Language.nil_mem_kstar _, List.append_nil x⟩
    | @cons x _ a hne hx ha _ ih =>
      obtain ⟨w, hw, z, hz, rfl⟩ := ih
      obtain ⟨L, rfl, hL⟩ := mem_star.mp hz
      refine ⟨x, mem_repeated_char.mpr ⟨hne, hx⟩, _, mem_star.mpr ⟨([a] ++ w) :: L, rfl, ?_⟩, ?_⟩
      · intro v hv
        rcases List.mem_cons.mp hv with rfl | hv
        · exact mem_seq.mpr ⟨[a], ⟨a, ha, rfl⟩, w, hw, rfl⟩
        · exact hL v hv
      · simp

end Pattern
