import MessengerApp.Library.Machine

/-!
# Simulations between machines, and relations along a run

A state of one machine is often a state of another one with more in it: a part
of a larger system, or the same system seen at a finer grain.  A map `abs` of
the states is a simulation when every step is matched by one abstract step, or
by none if it does not show in the abstract state; which one, `obs` reads off
the event and the state before it.  The runs are then runs of the abstract
machine, and what is proved of those holds of the others.

A relation between states that every step stays within is one between any two
states of a run, if it is reflexive and transitive.

## Main definitions

* `Simulates step step' abs obs s e` — the step at `s` is matched.

## Main results

* `run_observe` — **a run is a run of the abstract machine.**
* `history_invariant_upTo` — what holds of the abstract machine and what it has done holds
  of the concrete one and what has been read off it.
* `observe_invariant` — the rule for invariants that mention what is read off a run.
* `mem_observe` — what is read off a run is read off one of its steps.
* `rel_of_meets` — what relates the states before and after every step relates
  the states before and after a run.
* `run_or_run_of_visits` — of two states of a run, one leads to the other.
-/

namespace Machine

variable {σ ε σ' ε' : Type*} (step : σ → ε → Option σ) (step' : σ' → ε' → Option σ')

/-! ### Simulations -/

section Simulation

variable (abs : σ → σ') (obs : σ → ε → Option ε')

/-- If the event is enabled, the abstract state makes the step that `obs` reads off it,
or stays as it is where `obs` reads off nothing. -/
def Simulates (s : σ) (e : ε) : Prop :=
  ∀ t, step s e = some t → run step' (abs s) (obs s e).toList = some (abs t)

variable {step step'}

/-- **A run is a run of the abstract machine**, if each of its steps is simulated. -/
theorem run_observe : ∀ (es : List ε) (s t : σ),
    Meets step (Simulates step step' abs obs) s es → run step s es = some t →
      run step' (abs s) (observe step obs s es) = some (abs t) := by
  intro es
  induction es with
  | nil =>
    rintro s t - hrun
    obtain rfl := Option.some.inj hrun
    rfl
  | cons e es ih =>
    rintro s t ⟨hsim, hmeets⟩ hrun
    obtain ⟨s', hs', hrun⟩ := (run_cons_eq_some step).mp hrun
    rw [observe_cons step obs hs', run_append_eq_some]
    exact ⟨abs s', hsim s' hs', ih s' t (hmeets s' hs') hrun⟩

theorem meets_of_forall {cond : σ → ε → Prop} {s : σ} (es : List ε) (h : ∀ s e, cond s e) :
    Meets step cond s es :=
  (meets_congr step (fun s e => iff_of_true (h s e) trivial) s es).mpr
    (meets_of_forall_mem es s fun _ _ => trivial)

/-- A weaker condition is met by more runs. -/
theorem Meets.imp {cond cond' : σ → ε → Prop} {es : List ε} {s : σ} (h : Meets step cond s es)
    (himp : ∀ s e, cond s e → cond' s e) : Meets step cond' s es := by
  induction es generalizing s with
  | nil => trivial
  | cons e es ih => exact ⟨himp s e h.1, fun s' hs' => ih (h.2 s' hs')⟩

/-- A condition on the events of one run, and then of another. -/
theorem Meets.append {cond : σ → ε → Prop} {es' : List ε} {t : σ} : ∀ {es : List ε} {s : σ},
    Meets step cond s es → run step s es = some t → Meets step cond t es' →
      Meets step cond s (es ++ es') := by
  intro es
  induction es with
  | nil =>
    intro s _ hrun h'
    obtain rfl := Option.some.inj hrun
    exact h'
  | cons e es ih =>
    intro s h hrun h'
    refine ⟨h.1, fun u hu => ?_⟩
    obtain ⟨v, hv, hrest⟩ := (run_cons_eq_some step).mp hrun
    obtain rfl := Option.some.inj (hu.symm.trans hv)
    exact ih (h.2 u hu) hrest h'

/-- An invariant holds wherever the condition is met. -/
theorem Meets.and_invariant {I : σ → Prop} {cond : σ → ε → Prop} {es : List ε} {s : σ}
    (h : Meets step cond s es)
    (hstep : ∀ s e t, I s → cond s e → step s e = some t → I t) (hs : I s) :
    Meets step (fun s e => I s ∧ cond s e) s es := by
  induction es generalizing s with
  | nil => trivial
  | cons e es ih => exact ⟨⟨hs, h.1⟩, fun t ht => ih (h.2 t ht) (hstep s e t hs h.1 ht)⟩

/-- Where the state does not matter, what is read off a run is read off its events. -/
theorem observe_eq_filterMap {β : Type*} (f : ε → Option β) : ∀ {es : List ε} {s t : σ},
    run step s es = some t → observe step (fun _ e => f e) s es = es.filterMap f := by
  intro es
  induction es with
  | nil => intro s t _; rfl
  | cons e es ih =>
    intro s t hrun
    obtain ⟨s', hs', hrun⟩ := (run_cons_eq_some step).mp hrun
    rw [observe_cons step _ hs', ih hrun]
    cases hf : f e <;> simp [hf]

/-- What is read off two runs, one after the other. -/
theorem observe_append {β : Type*} {obs : σ → ε → Option β} : ∀ {es : List ε} {s t : σ},
    run step s es = some t → ∀ es',
      observe step obs s (es ++ es') = observe step obs s es ++ observe step obs t es' := by
  intro es
  induction es with
  | nil =>
    intro s t hrun es'
    obtain rfl := Option.some.inj hrun
    rfl
  | cons e es ih =>
    intro s t hrun es'
    obtain ⟨s', hs', hrun⟩ := (run_cons_eq_some step).mp hrun
    rw [List.cons_append, observe_cons step obs hs', observe_cons step obs hs', ih hrun,
      List.append_assoc]

theorem observe_snoc {β : Type*} {obs : σ → ε → Option β} {es : List ε} {s t u : σ} {e : ε}
    (hrun : run step s es = some t) (h : step t e = some u) :
    observe step obs s (es ++ [e]) = observe step obs s es ++ (obs t e).toList := by
  rw [observe_append hrun, observe_cons step obs h, observe, List.append_nil]

/-- Reading something off what is read off is reading it off the events. -/
theorem filterMap_observe {β γ : Type*} {obs : σ → ε → Option β} (g : β → Option γ) :
    ∀ (es : List ε) (s : σ), (observe step obs s es).filterMap g =
      observe step (fun s e => (obs s e).bind g) s es := by
  intro es
  induction es with
  | nil => intro s; rfl
  | cons e es ih =>
    intro s
    rw [observe, observe, List.filterMap_append]
    congr 1
    · cases h : obs s e with
      | none => rfl
      | some b => cases hb : g b <;> simp [hb]
    · cases step s e with
      | none => rfl
      | some s' => exact ih s'

/-- **What is read off a run is read off one of its steps.** -/
theorem mem_observe {β : Type*} {obs : σ → ε → Option β} {b : β} : ∀ {es : List ε} {s t : σ},
    run step s es = some t → (b ∈ observe step obs s es ↔
      ∃ pre e post u v, es = pre ++ e :: post ∧ run step s pre = some u ∧ step u e = some v ∧
        run step v post = some t ∧ obs u e = some b) := by
  intro es s t hrun
  constructor
  · intro h
    induction es generalizing s with
    | nil => exact absurd h List.not_mem_nil
    | cons e es ih =>
      obtain ⟨s', hs', hrest⟩ := (run_cons_eq_some step).mp hrun
      rw [observe_cons step obs hs', List.mem_append, Option.mem_toList] at h
      rcases h with h | h
      · exact ⟨[], e, es, s, s', rfl, rfl, hs', hrest, h⟩
      · obtain ⟨pre, e', post, u, v, rfl, hpre, hstep, hpost, hobs⟩ := ih hrest h
        exact ⟨e :: pre, e', post, u, v, rfl, (run_cons_eq_some step).mpr ⟨s', hs', hpre⟩, hstep,
          hpost, hobs⟩
  · rintro ⟨pre, e, post, u, v, rfl, hpre, hstep, -, hobs⟩
    rw [observe_append hpre, observe_cons step obs hstep, hobs]
    exact List.mem_append_right _ (List.mem_append_left _ (List.mem_singleton.mpr rfl))

/-- **An invariant that mentions what is read off the run** follows from its steps. -/
theorem observe_invariant {β : Type*} {obs : σ → ε → Option β} (I : List β → σ → Prop)
    (cond : σ → ε → Prop)
    (hstep : ∀ bs s e t, I bs s → cond s e → step s e = some t → I (bs ++ (obs s e).toList) t) :
    ∀ (es : List ε) (bs : List β) (s t : σ), I bs s → Meets step cond s es →
      run step s es = some t → I (bs ++ observe step obs s es) t := by
  intro es
  induction es with
  | nil =>
    rintro bs s t hs - hrun
    obtain rfl := Option.some.inj hrun
    rwa [observe, List.append_nil]
  | cons e es ih =>
    rintro bs s t hs ⟨hcond, hmeets⟩ hrun
    obtain ⟨s', hs', hrun⟩ := (run_cons_eq_some step).mp hrun
    rw [observe_cons step obs hs', ← List.append_assoc]
    exact ih _ s' t (hstep bs s e s' hs hcond hs') (hmeets s' hs') hrun

variable {obs}

/-- **A history invariant of the abstract machine** is one of the concrete machine, also when
the abstract state is adjusted before a step in a way that keeps the invariant. -/
theorem history_invariant_upTo (I : List ε' → σ' → Prop) (adjusts : σ' → σ' → Prop)
    (hadjusts : ∀ es a b, adjusts a b → I es a → I es b)
    (hstep : ∀ es a e b, I es a → step' a e = some b → I (es ++ [e]) b)
    (hsim : ∀ s e t, step s e = some t →
      ∃ a, adjusts (abs s) a ∧ run step' a (obs s e).toList = some (abs t))
    {s : σ} (hs : I [] (abs s)) : ∀ (es : List ε) (t : σ), run step s es = some t →
      I (observe step obs s es) (abs t) := by
  intro es
  induction es using List.reverseRecOn with
  | nil =>
    intro t h
    exact Option.some.inj h ▸ hs
  | append_singleton es e ih =>
    intro t h
    obtain ⟨u, hu, ht⟩ := (run_snoc_eq_some step).mp h
    obtain ⟨a, hadj, hrun⟩ := hsim u e t ht
    have ha := hadjusts _ _ _ hadj (ih u hu)
    rw [observe_snoc hu ht]
    cases hobs : obs u e with
    | none =>
      rw [hobs] at hrun
      obtain rfl := Option.some.inj hrun
      rw [Option.toList_none, List.append_nil]
      exact ha
    | some e' =>
      rw [hobs, Option.toList_some, run_cons_eq_some] at hrun
      obtain ⟨b, hb, hrun⟩ := hrun
      obtain rfl := Option.some.inj hrun
      exact hstep _ a e' _ ha hb

end Simulation

/-! ### Two states of a run -/

variable {step}

/-- **What relates the states before and after every step relates those before and
after a run.** -/
theorem rel_of_meets {R : σ → σ → Prop} {cond : σ → ε → Prop} (hrefl : ∀ s, R s s)
    (htrans : ∀ s t u, R s t → R t u → R s u)
    (hstep : ∀ s e t, cond s e → step s e = some t → R s t) : ∀ (es : List ε) (s t : σ),
      Meets step cond s es → run step s es = some t → R s t := by
  intro es
  induction es with
  | nil =>
    rintro s t - hrun
    exact Option.some.inj hrun ▸ hrefl s
  | cons e es ih =>
    rintro s t ⟨hcond, hmeets⟩ hrun
    obtain ⟨s', hs', hrun⟩ := (run_cons_eq_some step).mp hrun
    exact htrans s s' t (hstep s e s' hcond hs') (ih s' t (hmeets s' hs') hrun)

/-- The form without a condition. -/
theorem rel_of_run {R : σ → σ → Prop} (hrefl : ∀ s, R s s)
    (htrans : ∀ s t u, R s t → R t u → R s u) (hstep : ∀ s e t, step s e = some t → R s t)
    {es : List ε} {s t : σ} (hrun : run step s es = some t) : R s t :=
  rel_of_meets hrefl htrans (fun s e t _ => hstep s e t) es s t
    (meets_of_forall es fun _ _ => trivial) hrun

/-- **Of two states of a run, one leads to the other.** -/
theorem run_or_run_of_visits {s t u : σ} {es : List ε} (ht : Visits step s es t)
    (hu : Visits step s es u) :
    (∃ es', run step t es' = some u) ∨ ∃ es', run step u es' = some t := by
  obtain ⟨pre, hpre, hrun⟩ := ht
  obtain ⟨pre', hpre', hrun'⟩ := hu
  rcases List.prefix_or_prefix_of_prefix hpre hpre' with ⟨rest, rfl⟩ | ⟨rest, rfl⟩
  · obtain ⟨t', ht', hrest⟩ := (run_append_eq_some step).mp hrun'
    exact Or.inl ⟨rest, Option.some.inj (ht'.symm.trans hrun) ▸ hrest⟩
  · obtain ⟨u', hu', hrest⟩ := (run_append_eq_some step).mp hrun
    exact Or.inr ⟨rest, Option.some.inj (hu'.symm.trans hrun') ▸ hrest⟩

end Machine
