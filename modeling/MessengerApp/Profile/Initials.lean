import Mathlib.Data.List.Induction

/-!
# The initials of a name

`userNameToInitials` looks at the first scalar of each component of the name and keeps the
first two letters it finds.  The default "UP" is installed inside the loop, after the first
component that is no help, so a single letter found later only replaces its first half.

## Main definitions

* `Initials`, `turn`, `userNameToInitials` — the two accumulators with their flags, one
  turn of the loop, and the function.
* `initialLetters` — the letters that the components of a name begin with.
* `FromName` — the initials come from these letters.
* `startsWithLetter` — the first component begins with a letter.

## Main results

* `foldl_turn` — the accumulators after any number of components.
* `fromName_iff_startsWithLetter` — **when the initials come from the name.**
-/

namespace MessengerApp

/-- The variables of the loop. -/
structure Initials where
  firstInital : String
  secondInitial : String
  firstInitalFound : Bool
  secondInitialFound : Bool
  deriving DecidableEq, Repr

namespace Initials

/-- Before the loop. -/
def start : Initials where
  firstInital := ""
  secondInitial := ""
  firstInitalFound := false
  secondInitialFound := false

/-- A component begins with a letter. -/
def found (s : Initials) (char : Char) : Initials :=
  if s.firstInitalFound != true then
    { s with firstInital := .singleton char, firstInitalFound := true }
  else if s.secondInitialFound != true then
    { s with secondInitial := .singleton char, secondInitialFound := true }
  else s

/-- The loop over the scalars of a component, which is left after the first one. -/
def scan (letters : Char → Bool) (s : Initials) : List Char → Initials
  | [] => s
  | char :: _ => if letters char then s.found char else s

/-- The end of each turn. -/
def installDefault (s : Initials) : Initials :=
  if s.firstInital.isEmpty && s.secondInitial.isEmpty then
    { s with firstInital := "U", secondInitial := "P" }
  else s

def turn (letters : Char → Bool) (s : Initials) (item : List Char) : Initials :=
  (s.scan letters item).installDefault

end Initials

section Loop

variable (letters whitespacesAndNewlines : Char → Bool)

/-- `name.components(separatedBy:)`. -/
def components (name : String) : List (List Char) :=
  name.toList.splitOnP whitespacesAndNewlines

/-- `userNameToInitials`, with the two character sets it uses. -/
def userNameToInitials (name : String) : String :=
  let s := (components whitespacesAndNewlines name).foldl (Initials.turn letters) .start
  s.firstInital ++ s.secondInitial

/-- The letters that components begin with. -/
def initialLetters (words : List (List Char)) : List Char :=
  words.filterMap fun item => item.head?.filter letters

/-- The first component begins with a letter. -/
def startsWithLetter (words : List (List Char)) : Bool :=
  (words.head?.bind List.head?).any letters

/-- The initials are the first two letters, or the only one, and "UP" exactly when there are
none or they spell it. -/
def FromName (name : String) : Prop :=
  let found := initialLetters letters (components whitespacesAndNewlines name)
  (found ≠ [] →
      userNameToInitials letters whitespacesAndNewlines name = .ofList (found.take 2)) ∧
    (userNameToInitials letters whitespacesAndNewlines name = "UP" ↔
      found = [] ∨ found.take 2 = ['U', 'P'])

/-- The variables of the loop after some components. -/
def reached (words : List (List Char)) : Initials :=
  match initialLetters letters words with
  | [] => if words = [] then .start else ⟨"U", "P", false, false⟩
  | [first] =>
      ⟨.singleton first, if startsWithLetter letters words then "" else "P", true, false⟩
  | first :: second :: _ => ⟨.singleton first, .singleton second, true, true⟩

variable {letters whitespacesAndNewlines}

theorem initialLetters_snoc (words : List (List Char)) (item : List Char) :
    initialLetters letters (words ++ [item]) =
      initialLetters letters words ++ (item.head?.filter letters).toList := by
  unfold initialLetters
  rw [List.filterMap_append]
  cases h : item.head?.filter letters <;> simp [h]

theorem scan_eq (s : Initials) (item : List Char) :
    s.scan letters item = (item.head?.filter letters).elim s s.found := by
  cases item with
  | nil => rfl
  | cons char rest => by_cases h : letters char <;> simp [Initials.scan, h, Option.filter]

/-- Only the first component decides how a list of components starts. -/
theorem startsWithLetter_snoc {words : List (List Char)} (h : words ≠ []) (item : List Char) :
    startsWithLetter letters (words ++ [item]) = startsWithLetter letters words := by
  cases words with
  | nil => exact absurd rfl h
  | cons first words => rfl

theorem startsWithLetter_singleton {item : List Char} {char : Char}
    (h : item.head?.filter letters = some char) : startsWithLetter letters [item] = true := by
  obtain ⟨hhead, hletter⟩ := Option.filter_eq_some_iff.mp h
  simp [startsWithLetter, hhead, hletter]

theorem initialLetters_ne_nil {words : List (List Char)} (h : startsWithLetter letters words) :
    initialLetters letters words ≠ [] := by
  cases words with
  | nil => simp [startsWithLetter] at h
  | cons item words =>
    cases item with
    | nil => simp [startsWithLetter] at h
    | cons char rest =>
      have hletter : letters char = true := h
      simp [initialLetters, Option.filter, hletter]

/-- **One component more.** -/
theorem turn_reached (words : List (List Char)) (item : List Char) :
    (reached letters words).turn letters item = reached letters (words ++ [item]) := by
  unfold Initials.turn reached
  rw [scan_eq, initialLetters_snoc]
  cases hletters : initialLetters letters words with
  | nil =>
    by_cases hwords : words = []
    · -- the first component decides whether the default is installed
      subst hwords
      cases hfound : item.head?.filter letters with
      | none => rfl
      | some char =>
        have hstart := startsWithLetter_singleton hfound
        simp [Initials.start, Initials.found, Initials.installDefault, hstart]
    · have hstart : startsWithLetter letters words = false := by
        by_contra h
        exact initialLetters_ne_nil (by simpa using h) hletters
      cases hfound : item.head?.filter letters with
      | none => simp [hwords, Initials.installDefault]
      | some char =>
        simp [hwords, hstart, startsWithLetter_snoc hwords, Initials.found,
          Initials.installDefault]
  | cons first rest =>
    have hwords : words ≠ [] := by
      rintro rfl
      simp [initialLetters] at hletters
    cases hfound : item.head?.filter letters with
    | none => cases rest <;> simp [startsWithLetter_snoc hwords, Initials.installDefault]
    | some char => cases rest <;> simp [Initials.found, Initials.installDefault]

/-- **The variables after any number of components.** -/
theorem foldl_turn (words : List (List Char)) :
    words.foldl (Initials.turn letters) .start = reached letters words := by
  induction words using List.reverseRecOn with
  | nil => rfl
  | append_singleton words item ih =>
    rw [List.foldl_append, ih, List.foldl_cons, List.foldl_nil, turn_reached]

/-- The result, by the number of letters found. -/
theorem userNameToInitials_eq (name : String) :
    userNameToInitials letters whitespacesAndNewlines name =
      match initialLetters letters (components whitespacesAndNewlines name) with
      | [] => "UP"
      | [first] =>
          if startsWithLetter letters (components whitespacesAndNewlines name) then .ofList [first]
          else .ofList [first, 'P']
      | first :: second :: _ => .ofList [first, second] := by
  have hne : components whitespacesAndNewlines name ≠ [] := List.splitOnP_ne_nil _ _
  unfold userNameToInitials
  rw [foldl_turn, reached]
  cases initialLetters letters (components whitespacesAndNewlines name) with
  | nil => simp [hne]
  | cons first rest =>
    cases rest with
    | nil => cases startsWithLetter letters (components whitespacesAndNewlines name) <;> simp
    | cons second rest => simp

/-- **When the initials come from the name**: unless a single component begins with a letter,
and it is not the first. -/
theorem fromName_iff_startsWithLetter (letters whitespacesAndNewlines : Char → Bool)
    (name : String) :
    FromName letters whitespacesAndNewlines name ↔
      ((initialLetters letters (components whitespacesAndNewlines name)).length = 1 →
        startsWithLetter letters (components whitespacesAndNewlines name) = true) := by
  unfold FromName
  rw [userNameToInitials_eq]
  cases initialLetters letters (components whitespacesAndNewlines name) with
  | nil => simp
  | cons first rest =>
    cases rest with
    | nil =>
      cases startsWithLetter letters (components whitespacesAndNewlines name) with
      | true =>
        refine iff_of_true ⟨fun _ => rfl, ?_⟩ fun _ => rfl
        show String.ofList [first] = String.ofList ['U', 'P'] ↔ _
        rw [String.ofList_inj]
        simp
      | false =>
        -- the second half of the default is still there
        refine iff_of_false (fun h => ?_) (by simp)
        have htwo : String.ofList [first, 'P'] = String.ofList [first] := h.1 (by simp)
        rw [String.ofList_inj] at htwo
        simp at htwo
    | cons second rest =>
      refine iff_of_true ⟨fun _ => rfl, ?_⟩ (by simp)
      show String.ofList [first, second] = String.ofList ['U', 'P'] ↔ _
      rw [String.ofList_inj]
      simp

/-- **A blank in front of the name** leaves half of the default. -/
theorem exists_half_default :
    ¬ ∀ (letters whitespacesAndNewlines : Char → Bool) (name : String),
      FromName letters whitespacesAndNewlines name := by
  intro h
  obtain ⟨hfound, -⟩ := h Char.isAlpha Char.isWhitespace " Ann"
  exact absurd (hfound (by decide)) (by decide)

end Loop

end MessengerApp
