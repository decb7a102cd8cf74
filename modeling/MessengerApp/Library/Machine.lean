import Mathlib.Data.List.Basic
import Mathlib.Data.List.Induction

/-!
# Runs of a partial transition function

A system is a function `step : σ → ε → Option σ`: the state after an event, or
`none` when the event is not enabled.  A run performs a list of events and
fails as soon as one of them is not enabled, so a theorem about all runs is a
theorem about all orders in which the events can really occur.

## Main definitions

* `run step s es` — the state after the events `es`.
* `Meets step cond s es` — every step of the run satisfies `cond`, a condition
  on the state before the step and on its event.
* `Visits step s es t` — the run of `es` passes through the state `t`.
* `observe step obs s es` — what `obs` reads off the events of the run.
* `watch note step` — the system together with a variable that notes what happens.

## Main results

* `invariant_of_meets`, `invariant` — what every step preserves, a run preserves.
* `history_invariant` — the same for a property that also mentions the events
  performed so far.
* `forall_visits_iff_meets`, `forall_visits_iff_meets_of_invariant` — when the steps
  that preserve a property are exactly those that satisfy `cond`, the runs that never
  leave it are exactly those that meet `cond`.
-/

namespace Machine

variable {σ ε : Type*} (step : σ → ε → Option σ)

/-- The state after the events `es`, or `none` when one of them is not enabled. -/
def run : σ → List ε → Option σ
  | s, [] => some s
  | s, e :: es => (step s e).bind fun s' => run s' es

@[simp] theorem run_nil (s : σ) : run step s [] = some s := rfl

@[simp] theorem run_cons (s : σ) (e : ε) (es : List ε) :
    run step s (e :: es) = (step s e).bind fun s' => run step s' es := rfl

theorem run_append (s : σ) (es es' : List ε) :
    run step s (es ++ es') = (run step s es).bind fun s' => run step s' es' := by
  induction es generalizing s with
  | nil => rfl
  | cons e es ih =>
    rw [List.cons_append, run_cons, run_cons]
    cases step s e with
    | none => rfl
    | some s' => exact ih s'

theorem run_cons_eq_some {s t : σ} {e : ε} {es : List ε} :
    run step s (e :: es) = some t ↔ ∃ s', step s e = some s' ∧ run step s' es = some t := by
  rw [run_cons, Option.bind_eq_some_iff]

theorem run_append_eq_some {s t : σ} {es es' : List ε} :
    run step s (es ++ es') = some t ↔
      ∃ s', run step s es = some s' ∧ run step s' es' = some t := by
  rw [run_append, Option.bind_eq_some_iff]

theorem run_snoc_eq_some {s t : σ} {es : List ε} {e : ε} :
    run step s (es ++ [e]) = some t ↔ ∃ s', run step s es = some s' ∧ step s' e = some t := by
  rw [run_append_eq_some]
  simp only [run_cons_eq_some, run_nil, Option.some.injEq, exists_eq_right]

/-- Every step of the run of `es` from `s` satisfies `cond`. -/
def Meets (cond : σ → ε → Prop) : σ → List ε → Prop
  | _, [] => True
  | s, e :: es => cond s e ∧ ∀ s', step s e = some s' → Meets cond s' es

instance decidableMeets (cond : σ → ε → Prop) [∀ s, DecidablePred (cond s)] :
    ∀ (s : σ) (es : List ε), Decidable (Meets step cond s es)
  | _, [] => isTrue trivial
  | s, e :: es =>
      have : ∀ s', Decidable (Meets step cond s' es) := fun s' => decidableMeets cond s' es
      inferInstanceAs (Decidable (cond s e ∧ ∀ s' ∈ step s e, Meets step cond s' es))

theorem meets_congr {cond cond' : σ → ε → Prop} (h : ∀ s e, cond s e ↔ cond' s e) (s : σ)
    (es : List ε) : Meets step cond s es ↔ Meets step cond' s es := by
  have heq : cond = cond' := funext₂ fun s e => propext (h s e)
  rw [heq]

/-- The condition holds where the run has come to. -/
theorem cond_of_meets {cond : σ → ε → Prop} {t : σ} {e : ε} : ∀ (es : List ε) (s : σ),
    Meets step cond s (es ++ [e]) → run step s es = some t → cond t e := by
  intro es
  induction es with
  | nil =>
    rintro s ⟨hcond, -⟩ hrun
    exact Option.some.inj hrun ▸ hcond
  | cons e' es ih =>
    rintro s ⟨-, hmeets⟩ hrun
    obtain ⟨s', hs', hrun⟩ := (run_cons_eq_some step).mp hrun
    exact ih s' (hmeets s' hs') hrun

/-- The run of `es` from `s` passes through `t`. -/
def Visits (s : σ) (es : List ε) (t : σ) : Prop :=
  ∃ pre, pre <+: es ∧ run step s pre = some t

theorem visits_self (s : σ) (es : List ε) : Visits step s es s :=
  ⟨[], List.nil_prefix, rfl⟩

theorem visits_of_run {s t : σ} {es : List ε} (h : run step s es = some t) :
    Visits step s es t :=
  ⟨es, List.prefix_rfl, h⟩

theorem visits_cons_iff {s t : σ} {e : ε} {es : List ε} :
    Visits step s (e :: es) t ↔ t = s ∨ ∃ s', step s e = some s' ∧ Visits step s' es t := by
  constructor
  · rintro ⟨pre, hpre, hrun⟩
    cases pre with
    | nil => exact Or.inl (Option.some.inj hrun).symm
    | cons e' pre =>
      obtain ⟨rfl, htail⟩ := List.cons_prefix_cons.mp hpre
      obtain ⟨s', hs', hrun⟩ := (run_cons_eq_some step).mp hrun
      exact Or.inr ⟨s', hs', pre, htail, hrun⟩
  · rintro (rfl | ⟨s', hs', pre, hpre, hrun⟩)
    · exact visits_self step t _
    · exact ⟨e :: pre, List.cons_prefix_cons.mpr ⟨rfl, hpre⟩,
        (run_cons_eq_some step).mpr ⟨s', hs', hrun⟩⟩

/-- What `obs` reads off the events of the run of `es` from `s`, each in the state
before it. -/
def observe {β : Type*} (obs : σ → ε → Option β) : σ → List ε → List β
  | _, [] => []
  | s, e :: es => (obs s e).toList ++ (step s e).elim [] fun s' => observe obs s' es

theorem observe_cons {β : Type*} (obs : σ → ε → Option β) {s s' : σ} {e : ε}
    (h : step s e = some s') (es : List ε) :
    observe step obs s (e :: es) = (obs s e).toList ++ observe step obs s' es := by
  rw [observe, h]
  rfl

/-! ### Notes

A statement about what has happened so far is one about the state of a system
that takes notes. -/

section Watch

variable {η : Type*} (note : η → σ → ε → η)

/-- The system with a variable that notes each event, with the state before it, and
influences nothing. -/
def watch (p : σ × η) (e : ε) : Option (σ × η) := (step p.1 e).map fun s' => (s', note p.2 p.1 e)

theorem watch_eq_some {p p' : σ × η} {e : ε} :
    watch step note p e = some p' ↔ step p.1 e = some p'.1 ∧ p'.2 = note p.2 p.1 e := by
  unfold watch
  rw [Option.map_eq_some_iff]
  constructor
  · rintro ⟨s', hs', rfl⟩
    exact ⟨hs', rfl⟩
  · rintro ⟨hs', hnote⟩
    exact ⟨p'.1, hs', by rw [← hnote]⟩

theorem watch_eq_none {p : σ × η} {e : ε} : watch step note p e = none ↔ step p.1 e = none :=
  Option.map_eq_none_iff

end Watch

/-! ### From steps to runs -/

variable {step}

/-- **What every step under `cond` preserves holds in every state of a run that
meets `cond`.** -/
theorem invariant_of_meets (I : σ → Prop) (cond : σ → ε → Prop)
    (hstep : ∀ s e s', I s → cond s e → step s e = some s' → I s') :
    ∀ (es : List ε) (s t : σ), I s → Meets step cond s es → Visits step s es t → I t := by
  intro es
  induction es with
  | nil =>
    rintro s t hs - ⟨pre, hpre, hrun⟩
    obtain rfl := List.prefix_nil.mp hpre
    exact Option.some.inj hrun ▸ hs
  | cons e es ih =>
    rintro s t hs ⟨hcond, hmeets⟩ hvis
    rcases (visits_cons_iff step).mp hvis with rfl | ⟨s', hs', hvis⟩
    · exact hs
    · exact ih s' t (hstep s e s' hs hcond hs') (hmeets s' hs') hvis

theorem meets_of_forall_mem {allowed : ε → Prop} : ∀ (es : List ε) (s : σ),
    (∀ e ∈ es, allowed e) → Meets step (fun _ e => allowed e) s es := by
  intro es
  induction es with
  | nil => intro s _; trivial
  | cons e es ih =>
    intro s h
    refine ⟨h e List.mem_cons_self, fun s' _ => ih s' fun e' he' => ?_⟩
    exact h e' (List.mem_cons_of_mem _ he')

/-- What every allowed event preserves, a run of allowed events preserves. -/
theorem invariant (I : σ → Prop) (allowed : ε → Prop)
    (hstep : ∀ s e s', I s → allowed e → step s e = some s' → I s') {es : List ε} {s t : σ}
    (hes : ∀ e ∈ es, allowed e) (hs : I s) (hrun : run step s es = some t) : I t :=
  invariant_of_meets I _ hstep es s t hs (meets_of_forall_mem es s hes) (visits_of_run step hrun)

/-- The form for invariants that mention the history: the induction is on the
end of the list of events. -/
theorem history_invariant (I : List ε → σ → Prop)
    (hstep : ∀ es s e s', I es s → step s e = some s' → I (es ++ [e]) s') {s : σ}
    (hs : I [] s) : ∀ (es : List ε) (t : σ), run step s es = some t → I es t := by
  intro es
  induction es using List.reverseRecOn with
  | nil => intro t h; exact Option.some.inj h ▸ hs
  | append_singleton es e ih =>
    intro t h
    obtain ⟨s', hs', ht⟩ := (run_snoc_eq_some step).mp h
    exact hstep es s' e t (ih s' hs') ht

/-- Conditions that agree wherever an invariant holds are met by the same runs. -/
theorem meets_congr_of_invariant {J : σ → Prop} {cond cond' : σ → ε → Prop}
    (hinv : ∀ s e s', J s → step s e = some s' → J s')
    (hcongr : ∀ s e, J s → (cond s e ↔ cond' s e)) : ∀ (es : List ε) (s : σ), J s →
      (Meets step cond s es ↔ Meets step cond' s es) := by
  intro es
  induction es with
  | nil => exact fun _ _ => Iff.rfl
  | cons e es ih =>
    intro s hJ
    refine and_congr (hcongr s e hJ) (forall_congr' fun s' => imp_congr_right fun hs' => ?_)
    exact ih s' (hinv s e s' hJ hs')

/-- **The runs that never leave a property are those that meet the condition
under which a step keeps it**, beside an invariant `J` of the runs that never leave it. -/
theorem forall_visits_iff_meets_of_invariant {J I : σ → Prop} {cond : σ → ε → Prop}
    (hinv : ∀ s e s', J s → I s → step s e = some s' → J s')
    (hstep : ∀ s e s', J s → I s → step s e = some s' → (I s' ↔ cond s e))
    (hen : ∀ s e, step s e = none → cond s e) :
    ∀ (es : List ε) (s : σ), J s → I s →
      ((∀ t, Visits step s es t → I t) ↔ Meets step cond s es) := by
  intro es
  induction es with
  | nil =>
    intro s _ hs
    refine ⟨fun _ => trivial, fun _ t ht => ?_⟩
    obtain ⟨pre, hpre, hrun⟩ := ht
    obtain rfl := List.prefix_nil.mp hpre
    exact Option.some.inj hrun ▸ hs
  | cons e es ih =>
    intro s hJ hs
    constructor
    · intro hall
      have hnext : ∀ s', step s e = some s' → ∀ t, Visits step s' es t → I t := fun s' hs' t ht =>
        hall t ((visits_cons_iff step).mpr (Or.inr ⟨s', hs', ht⟩))
      have hcond : cond s e := by
        cases h : step s e with
        | none => exact hen s e h
        | some s' => exact (hstep s e s' hJ hs h).mp (hnext s' h s' (visits_self step s' es))
      refine ⟨hcond, fun s' hs' => ?_⟩
      have hI' := (hstep s e s' hJ hs hs').mpr hcond
      exact (ih s' (hinv s e s' hJ hs hs') hI').mp (hnext s' hs')
    · rintro ⟨hcond, hmeets⟩ t ht
      rcases (visits_cons_iff step).mp ht with rfl | ⟨s', hs', ht⟩
      · exact hs
      · have hI' := (hstep s e s' hJ hs hs').mpr hcond
        exact (ih s' (hinv s e s' hJ hs hs') hI').mpr (hmeets s' hs') t ht

/-- The same where no invariant is needed. -/
theorem forall_visits_iff_meets {I : σ → Prop} {cond : σ → ε → Prop}
    (hstep : ∀ s e s', I s → step s e = some s' → (I s' ↔ cond s e))
    (hen : ∀ s e, step s e = none → cond s e) (es : List ε) (s : σ) (hs : I s) :
    (∀ t, Visits step s es t → I t) ↔ Meets step cond s es :=
  forall_visits_iff_meets_of_invariant (J := fun _ => True) (fun _ _ _ _ _ _ => trivial)
    (fun s e s' _ h hs' => hstep s e s' h hs') hen es s trivial hs

end Machine
