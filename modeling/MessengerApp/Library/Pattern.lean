import Mathlib.Computability.Language

/-!
# Patterns

Regular expressions whose atoms are predicates on symbols, so that a character class is one
atom, with the languages that they describe and a matcher for whole words.

## Main definitions

* `Pattern`, `Pattern.language` — the expressions and their meaning.
* `Pattern.optional`, `repeated`, `times`, `literal` — what is written `P?`, `P+`, `P{n}` and
  as itself.
* `Pattern.deriv`, `Pattern.accepts` — the derivative by a symbol, and the matcher.

## Main results

* `accepts_iff` — **the matcher accepts the words of the language.**
* `forall_mem_of_within` — what holds of every class holds of every symbol of a word.
* `mem_optional`, `mem_repeated_char`, `mem_optional_marked`, … — membership in the language,
  by the outermost operators.
-/

open scoped Computability

/-- A regular expression over predicates. -/
inductive Pattern (α : Type*)
  | empty
  | epsilon
  | char (p : α → Bool)
  | alt (P Q : Pattern α)
  | seq (P Q : Pattern α)
  | star (P : Pattern α)

namespace Pattern

variable {α : Type*}

/-- The words that match as a whole. -/
def language : Pattern α → Language α
  | empty => 0
  | epsilon => 1
  | char p => {x | ∃ a, p a = true ∧ x = [a]}
  | alt P Q => P.language + Q.language
  | seq P Q => P.language * Q.language
  | star P => P.language∗

/-- `P?` -/
def optional (P : Pattern α) : Pattern α := alt P epsilon

/-- `P+` -/
def repeated (P : Pattern α) : Pattern α := seq P (star P)

/-- `P{n}` -/
def times : ℕ → Pattern α → Pattern α
  | 0, _ => epsilon
  | n + 1, P => seq P (times n P)

/-- A word that stands for itself. -/
def literal [DecidableEq α] : List α → Pattern α
  | [] => epsilon
  | a :: x => seq (char fun b => b = a) (literal x)

/-! ### The matcher -/

/-- The empty word matches. -/
def nullable : Pattern α → Bool
  | empty => false
  | epsilon => true
  | char _ => false
  | alt P Q => P.nullable || Q.nullable
  | seq P Q => P.nullable && Q.nullable
  | star _ => true

/-- What a word must match that comes after `a`. -/
def deriv : Pattern α → α → Pattern α
  | empty, _ => empty
  | epsilon, _ => empty
  | char p, a => if p a then epsilon else empty
  | alt P Q, a => alt (P.deriv a) (Q.deriv a)
  | seq P Q, a =>
      if P.nullable then alt (seq (P.deriv a) Q) (Q.deriv a) else seq (P.deriv a) Q
  | star P, a => seq (P.deriv a) (star P)

/-- The word matches as a whole. -/
def accepts : Pattern α → List α → Bool
  | P, [] => P.nullable
  | P, a :: x => (P.deriv a).accepts x

variable {P Q : Pattern α} {a : α} {x : List α}

/-! ### Membership -/

theorem mem_char {p : α → Bool} : x ∈ (char p).language ↔ ∃ a, p a = true ∧ x = [a] := Iff.rfl

theorem mem_alt : x ∈ (alt P Q).language ↔ x ∈ P.language ∨ x ∈ Q.language := Iff.rfl

theorem mem_seq : x ∈ (seq P Q).language ↔ ∃ y ∈ P.language, ∃ z ∈ Q.language, y ++ z = x :=
  Language.mem_mul

theorem mem_star : x ∈ (star P).language ↔ ∃ L : List (List α), x = L.flatten ∧
    ∀ y ∈ L, y ∈ P.language := Language.mem_kstar

theorem mem_optional : x ∈ (optional P).language ↔ x ∈ P.language ∨ x = [] := Iff.rfl

theorem mem_literal [DecidableEq α] {y : List α} : x ∈ (literal y).language ↔ x = y := by
  induction y generalizing x with
  | nil => exact Language.mem_one x
  | cons b y ih =>
    rw [literal, mem_seq]
    constructor
    · rintro ⟨_, ⟨a, ha, rfl⟩, z, hz, rfl⟩
      rw [ih.mp hz, of_decide_eq_true ha]
      rfl
    · rintro rfl
      exact ⟨[b], ⟨b, decide_eq_true rfl, rfl⟩, y, ih.mpr rfl, rfl⟩

/-- A starred class is any number of its symbols, -/
theorem mem_star_char {p : α → Bool} : x ∈ (star (char p)).language ↔ ∀ a ∈ x, p a = true := by
  rw [mem_star]
  constructor
  · rintro ⟨L, rfl, hL⟩ a ha
    obtain ⟨y, hy, ha⟩ := List.mem_flatten.mp ha
    obtain ⟨b, hb, rfl⟩ := hL y hy
    rwa [List.mem_singleton.mp ha]
  · intro hx
    refine ⟨x.map ([·]), by simp [← List.flatMap_def], ?_⟩
    intro y hy
    obtain ⟨a, ha, rfl⟩ := List.mem_map.mp hy
    exact ⟨a, hx a ha, rfl⟩

/-- and a repeated one at least one of them. -/
theorem mem_repeated_char {p : α → Bool} :
    x ∈ (repeated (char p)).language ↔ x ≠ [] ∧ ∀ a ∈ x, p a = true := by
  rw [repeated, mem_seq]
  constructor
  · rintro ⟨_, ⟨a, ha, rfl⟩, z, hz, rfl⟩
    refine ⟨List.cons_ne_nil _ _, ?_⟩
    intro b hb
    rcases List.mem_cons.mp hb with rfl | hb
    · exact ha
    · exact mem_star_char.mp hz b hb
  · rintro ⟨hne, hx⟩
    cases x with
    | nil => exact absurd rfl hne
    | cons a x =>
      exact ⟨[a], ⟨a, hx a List.mem_cons_self, rfl⟩, x,
        mem_star_char.mpr fun b hb => hx b (List.mem_cons_of_mem a hb), rfl⟩

/-- A class that may be repeated and may be missing is any number of its symbols. -/
theorem mem_optional_repeated_char {p : α → Bool} :
    x ∈ (optional (repeated (char p))).language ↔ ∀ a ∈ x, p a = true := by
  rw [mem_optional, mem_repeated_char]
  constructor
  · rintro (⟨-, hx⟩ | rfl)
    · exact hx
    · simp
  · intro hx
    rcases eq_or_ne x [] with rfl | hne
    · exact .inr rfl
    · exact .inl ⟨hne, hx⟩

/-- A symbol with a repeated class behind it may be missing. -/
theorem mem_optional_marked [DecidableEq α] {p : α → Bool} :
    x ∈ (optional (seq (literal [a]) (repeated (char p)))).language ↔
      x = [] ∨ ∃ y, x = a :: y ∧ y ≠ [] ∧ ∀ b ∈ y, p b = true := by
  rw [mem_optional, mem_seq, or_comm]
  apply or_congr_right
  constructor
  · rintro ⟨_, hmark, y, hy, rfl⟩
    rw [mem_literal.mp hmark]
    exact ⟨y, rfl, mem_repeated_char.mp hy⟩
  · rintro ⟨y, rfl, hy⟩
    exact ⟨[a], mem_literal.mpr rfl, y, mem_repeated_char.mpr hy, rfl⟩

theorem mem_times_char {p : α → Bool} {n : ℕ} (h : x ∈ (times n (char p)).language) :
    x.length = n ∧ ∀ a ∈ x, p a = true := by
  induction n generalizing x with
  | zero =>
    obtain rfl : x = [] := h
    simp
  | succ n ih =>
    obtain ⟨_, ⟨a, ha, rfl⟩, y, hy, rfl⟩ := mem_seq.mp h
    obtain ⟨hlength, hy⟩ := ih hy
    simpa [hlength, ha] using hy

/-! ### The symbols of a word -/

/-- Every class of the pattern is within `q`. -/
def Within (q : α → Prop) : Pattern α → Prop
  | empty => True
  | epsilon => True
  | char p => ∀ a, p a = true → q a
  | alt P Q => P.Within q ∧ Q.Within q
  | seq P Q => P.Within q ∧ Q.Within q
  | star P => P.Within q

theorem within_literal [DecidableEq α] {q : α → Prop} {y : List α} (h : ∀ a ∈ y, q a) :
    (literal y).Within q := by
  induction y with
  | nil => trivial
  | cons b y ih =>
    refine ⟨fun a ha => ?_, ih fun a ha => h a (List.mem_cons_of_mem b ha)⟩
    rw [of_decide_eq_true ha]
    exact h b List.mem_cons_self

/-- Then so is every symbol of a word that matches. -/
theorem forall_mem_of_within {q : α → Prop} (hP : P.Within q) (hx : x ∈ P.language) :
    ∀ a ∈ x, q a := by
  induction P generalizing x with
  | empty => exact absurd hx (Language.notMem_zero x)
  | epsilon =>
    rw [(Language.mem_one x).mp hx]
    exact fun a ha => absurd ha List.not_mem_nil
  | char p =>
    obtain ⟨b, hb, rfl⟩ := mem_char.mp hx
    exact fun a ha => List.mem_singleton.mp ha ▸ hP b hb
  | alt P Q ihP ihQ =>
    exact (mem_alt.mp hx).elim (ihP hP.1) (ihQ hP.2)
  | seq P Q ihP ihQ =>
    obtain ⟨y, hy, z, hz, rfl⟩ := mem_seq.mp hx
    exact fun a ha => (List.mem_append.mp ha).elim (ihP hP.1 hy a) (ihQ hP.2 hz a)
  | star P ih =>
    obtain ⟨L, rfl, hL⟩ := mem_star.mp hx
    intro a ha
    obtain ⟨y, hy, ha⟩ := List.mem_flatten.mp ha
    exact ih hP (hL y hy) a ha

/-! ### The matcher is right -/

theorem nullable_iff : P.nullable = true ↔ [] ∈ P.language := by
  induction P with
  | empty => simp [nullable, language]
  | epsilon => simp [nullable, language]
  | char p => simp [nullable, mem_char]
  | alt P Q ihP ihQ => simp [nullable, mem_alt, ihP, ihQ]
  | seq P Q ihP ihQ => simp [nullable, mem_seq, ihP, ihQ]
  | star P _ => simp [nullable, language, Language.nil_mem_kstar]

/-- The first symbol of a word of a product is one of the first factor or, when that may be
empty, of the second. -/
theorem cons_mem_seq : a :: x ∈ (seq P Q).language ↔
    (∃ y, a :: y ∈ P.language ∧ ∃ z ∈ Q.language, y ++ z = x) ∨
      [] ∈ P.language ∧ a :: x ∈ Q.language := by
  rw [mem_seq]
  constructor
  · rintro ⟨y, hy, z, hz, hyz⟩
    cases y with
    | nil => exact .inr ⟨hy, hyz ▸ hz⟩
    | cons b y =>
      obtain ⟨rfl, rfl⟩ := List.cons.inj hyz
      exact .inl ⟨y, hy, z, hz, rfl⟩
  · rintro (⟨y, hy, z, hz, rfl⟩ | ⟨hnil, hx⟩)
    · exact ⟨a :: y, hy, z, hz, rfl⟩
    · exact ⟨[], hnil, a :: x, hx, rfl⟩

/-- The first symbol of a word of a star is one of a word that is not empty. -/
theorem cons_mem_star : a :: x ∈ (star P).language ↔
    ∃ y, a :: y ∈ P.language ∧ ∃ z ∈ (star P).language, y ++ z = x := by
  constructor
  · intro h
    obtain ⟨L, hx, hL⟩ := Language.mem_kstar_iff_exists_nonempty.mp h
    cases L with
    | nil => cases hx
    | cons y L =>
      obtain ⟨hy, hne⟩ := hL y List.mem_cons_self
      cases y with
      | nil => exact absurd rfl hne
      | cons b y =>
        obtain ⟨rfl, hyz⟩ := List.cons.inj hx
        refine ⟨y, hy, L.flatten, ?_, hyz.symm⟩
        exact mem_star.mpr ⟨L, rfl, fun w hw => (hL w (List.mem_cons_of_mem _ hw)).1⟩
  · rintro ⟨y, hy, z, hz, rfl⟩
    obtain ⟨L, rfl, hL⟩ := mem_star.mp hz
    refine mem_star.mpr ⟨(a :: y) :: L, rfl, ?_⟩
    intro w hw
    rcases List.mem_cons.mp hw with rfl | hw
    · exact hy
    · exact hL w hw

/-- The derivative has the words that `a` makes words of the pattern. -/
theorem mem_deriv : x ∈ (P.deriv a).language ↔ a :: x ∈ P.language := by
  induction P generalizing x with
  | empty => exact Iff.rfl
  | epsilon => simp [deriv, language]
  | char p =>
    rw [deriv, mem_char]
    split
    · next ha => simp [language, ha]
    · next ha => simp_all [language]
  | alt P Q ihP ihQ => rw [deriv, mem_alt, mem_alt, ihP, ihQ]
  | seq P Q ihP ihQ =>
    have hseq : x ∈ (seq (P.deriv a) Q).language ↔
        ∃ y, a :: y ∈ P.language ∧ ∃ z ∈ Q.language, y ++ z = x := by
      simp only [mem_seq, ihP]
    rw [deriv, cons_mem_seq, ← nullable_iff, ← hseq]
    split
    · next hnull => simp [mem_alt, ihQ, hnull]
    · next hnull => simp [hnull]
  | star P ih => simp only [deriv, cons_mem_star, mem_seq, ih]

/-- **The matcher accepts the words of the language.** -/
theorem accepts_iff : P.accepts x = true ↔ x ∈ P.language := by
  induction x generalizing P with
  | nil => exact nullable_iff
  | cons a x ih => rw [accepts, ih, mem_deriv]

end Pattern
