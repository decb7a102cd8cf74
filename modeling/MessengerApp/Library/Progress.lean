import MessengerApp.Library.Machine

/-!
# Machines that run out of work

Some machines only ever finish what has been started: each of their steps is a unit of the
work that is left, or does nothing for it, and while work is left there is a step that does
some.  Such a machine never stalls, and it has finished after a number of units that is known
from the start, whatever the order of its steps.

## Main definitions

* `Progresses step I allowed work unit` — `work s` is what is left to be done at `s`, and
  `unit` says which events do some of it.

## Main results

* `Progresses.work_of_run` — the work that a run has done.
* `Progresses.exists_run` — **the work can be finished.**
* `Progresses.finished_iff` — **when it is finished.**
-/

namespace Machine

variable {σ ε : Type*} (step : σ → ε → Option σ)

/-- At the states with `I`, the allowed events do the work that is left. -/
structure Progresses (I : σ → Prop) (allowed : ε → Prop) (work : σ → ℕ) (unit : ε → Bool) :
    Prop where
  /-- A unit is one less to do; other events change nothing. -/
  takes : ∀ s e t, I s → allowed e → step s e = some t → I t ∧ work t + (unit e).toNat = work s
  /-- While there is work left, an event that does some is enabled. -/
  enabled : ∀ s, I s → work s ≠ 0 → ∃ e, allowed e ∧ unit e = true ∧ (step s e).isSome

namespace Progresses

variable {step} {I : σ → Prop} {allowed : ε → Prop} {work : σ → ℕ} {unit : ε → Bool}

/-- **The work that a run has done.** -/
theorem work_of_run (h : Progresses step I allowed work unit) : ∀ (es : List ε) (s t : σ), I s →
    (∀ e ∈ es, allowed e) → run step s es = some t → I t ∧ work t + es.countP unit = work s := by
  intro es
  induction es with
  | nil =>
    rintro s t hs - hrun
    obtain rfl := Option.some.inj hrun
    exact ⟨hs, rfl⟩
  | cons e es ih =>
    intro s t hs hes hrun
    obtain ⟨s', hs', hrun⟩ := (run_cons_eq_some step).mp hrun
    obtain ⟨hI, hwork⟩ := h.takes s e s' hs (hes e List.mem_cons_self) hs'
    obtain ⟨ht, hrest⟩ := ih s' t hI (fun x hx => hes x (List.mem_cons_of_mem e hx)) hrun
    refine ⟨ht, ?_⟩
    rw [List.countP_cons]
    cases hu : unit e <;> simp [hu] at hwork ⊢ <;> omega

/-- **The work can be finished**, by events that do some of it. -/
theorem exists_run (h : Progresses step I allowed work unit) : ∀ (n : ℕ) (s : σ), I s →
    work s = n → ∃ es t, (∀ e ∈ es, allowed e) ∧ run step s es = some t ∧ work t = 0 := by
  intro n
  induction n with
  | zero => exact fun s _ hwork => ⟨[], s, fun _ he => absurd he List.not_mem_nil, rfl, hwork⟩
  | succ n ih =>
    intro s hs hwork
    obtain ⟨e, hallowed, hunit, hsome⟩ := h.enabled s hs (by omega)
    obtain ⟨s', hs'⟩ := Option.isSome_iff_exists.mp hsome
    obtain ⟨hI, hless⟩ := h.takes s e s' hs hallowed hs'
    have hn : work s' = n := by
      rw [hunit, Bool.toNat_true] at hless
      omega
    obtain ⟨es, t, hes, hrun, ht⟩ := ih s' hI hn
    refine ⟨e :: es, t, fun x hx => ?_, (run_cons_eq_some step).mpr ⟨s', hs', hrun⟩, ht⟩
    exact (List.mem_cons.mp hx).elim (fun heq => heq ▸ hallowed) (hes x)

/-- **When the work is finished**: after as many units as there were, whatever the order. -/
theorem finished_iff (h : Progresses step I allowed work unit) {es : List ε} {s t : σ} (hs : I s)
    (hes : ∀ e ∈ es, allowed e) (hrun : run step s es = some t) :
    es.countP unit ≤ work s ∧ (work t = 0 ↔ es.countP unit = work s) := by
  have hwork := (h.work_of_run es s t hs hes hrun).2
  omega

end Progresses

end Machine
