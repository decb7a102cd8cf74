import MessengerApp.Launches
import MessengerApp.Library.Progress

/-!
# The app settles

A listener makes its calls one after the other, and each save that it calls for schedules a
block of its own.  So every call and every block is one of a number of things to do that is
known beforehand, in every launch of the app; the main queue and the background queue may take
turns in any way, and blocks and deletions may fail, but nothing is ever done twice and nothing
ever waits for something that does not come.

## Main definitions

* `Event.Continues`, `Event.isWork` — what goes on without a new snapshot or the user.
* `App.work` — the calls to be made and the blocks to be run.

## Main results

* `progresses` — a call or a block is a unit of the work, and one of them is always enabled.
* `settles_of_run` — **from every reachable state the app settles, after that many calls and
  blocks in any order.**
-/

namespace MessengerApp

open Machine CoreDataManager

/-- What goes on by itself: calls of the running listener, blocks, and merges. -/
def Event.Continues : Event → Prop
  | .next _ | .saveBlock _ | .merge _ => True
  | _ => False

/-- A call of the running listener or a block. -/
def Event.isWork : Event → Bool
  | .next _ | .saveBlock _ => true
  | _ => false

namespace App

variable {cd : CoreData} {s s' : App}

/-- A call that schedules a block. -/
def schedules : Call → Bool
  | .deleteChannel _ => false
  | _ => true

/-- The calls to be made, the blocks they will schedule, and those that are scheduled. -/
def work (s : App) : ℕ :=
  s.main.length + s.main.countP schedules + (s.core.issued - s.core.ran)

theorem perform_issued (cd : CoreData) (m : CoreDataManager) (c : Call) (fails : Bool) :
    (m.perform cd fails c).issued = m.issued + (schedules c).toNat ∧
      (m.perform cd fails c).ran = m.ran := by
  cases c with
  | saveChannel channel => exact ⟨rfl, rfl⟩
  | saveMessage message identifier => exact ⟨rfl, rfl⟩
  | deleteChannel object => cases fails <;> exact ⟨rfl, rfl⟩

theorem work_eq_zero_iff (hs : s.core.Scheduled) : s.work = 0 ↔ s.Settled := by
  have hle := hs.1
  unfold work Settled
  rw [← List.length_eq_zero_iff]
  constructor
  · intro h
    omega
  · rintro ⟨hmain, hran⟩
    rw [List.length_eq_zero_iff] at hmain
    simp [hmain, hran]

/-- A call makes one call less, and its block is scheduled in exchange for being expected. -/
theorem work_of_next {fails : Bool} (hs : s.core.Scheduled)
    (h : s.step cd (.next fails) = some s') : s'.work + 1 = s.work := by
  obtain ⟨c, cs, hmain, rfl⟩ := step_next.mp h
  obtain ⟨hissued, hran⟩ := perform_issued cd s.core c fails
  have hle := hs.1
  show cs.length + cs.countP schedules + ((s.core.perform cd fails c).issued -
    (s.core.perform cd fails c).ran) + 1 = _
  rw [hissued, hran, work, hmain, List.length_cons, List.countP_cons]
  cases schedules c <;> simp <;> omega

theorem work_of_saveBlock {fails : Bool} (h : s.step cd (.saveBlock fails) = some s') :
    s'.work + 1 = s.work := by
  obtain ⟨core, hblock, rfl⟩ := step_saveBlock.mp h
  have hlt := (runSaveBlock_cases hblock).1
  obtain ⟨-, hran, hissued, -⟩ := hasChanges_of_block hblock
  show s.main.length + s.main.countP schedules + (core.issued - core.ran) + 1 = _
  rw [hran, hissued, work]
  omega

/-- **Calls and blocks are the work that is left, and one of them is always enabled**, whether
they may fail or not. -/
theorem progresses (cd : CoreData) {allowed : Event → Prop}
    (hcontinues : ∀ e, allowed e → e.Continues) (hfinishes : ∀ e, e.Finishes → allowed e) :
    Progresses (step cd) (fun s => s.core.Scheduled) allowed work Event.isWork where
  takes := by
    intro s e s' hs he h
    refine ⟨scheduled_of_appStep hs h, ?_⟩
    cases e with
    | next fails => exact work_of_next hs h
    | saveBlock fails => exact work_of_saveBlock h
    | merge objects =>
      obtain ⟨-, rfl⟩ := step_merge.mp h
      rfl
    | channelsSnapshot snap => exact absurd (hcontinues _ he) id
    | messagesSnapshot c snap => exact absurd (hcontinues _ he) id
    | deleteChannel object fails => exact absurd (hcontinues _ he) id
  enabled := by
    intro s hs hwork
    cases hmain : s.main with
    | cons c cs => exact ⟨.next false, hfinishes _ rfl, rfl, by simp [step, hmain]⟩
    | nil =>
      have hlt : s.core.ran < s.core.issued := by
        unfold work at hwork
        simp only [hmain, List.length_nil, List.countP_nil] at hwork
        omega
      exact ⟨.saveBlock false, hfinishes _ rfl, rfl, by simp [step, runSaveBlock, hlt]⟩

theorem continues_of_finishes {e : Event} (he : e.Finishes) : e.Continues := by
  cases e with
  | next fails => trivial
  | saveBlock fails => trivial
  | merge objects => trivial
  | _ => exact he

/-- **From every reachable state the app settles**: without a new snapshot or deletion it can
always come to rest, it makes no more than `work` calls and blocks, and it has come to rest as
soon as it has made that many, whatever their order and however many of them fail. -/
theorem settles_of_run {es : List Life} (hrun : run (lifeStep cd) .empty es = some s) :
    (∃ es' s', (∀ e ∈ es', e.Continues) ∧ run (step cd) s es' = some s' ∧ s'.Settled) ∧
      ∀ es' s', (∀ e ∈ es', e.Continues) → run (step cd) s es' = some s' →
        es'.countP Event.isWork ≤ s.work ∧
          (s'.Settled ↔ es'.countP Event.isWork = s.work) := by
  have hs : s.core.Scheduled := scheduled_of_life hrun
  have hprogresses := progresses cd (fun _ he => he) fun _ he => continues_of_finishes he
  constructor
  · obtain ⟨es', s', hes', hrun', hwork⟩ := hprogresses.exists_run _ s hs rfl
    exact ⟨es', s', hes', hrun', (work_eq_zero_iff (scheduled_of_run hs hrun')).mp hwork⟩
  · intro es' s' hes' hrun'
    obtain ⟨hle, hiff⟩ := hprogresses.finished_iff hs hes' hrun'
    exact ⟨hle, (work_eq_zero_iff (scheduled_of_run hs hrun')).symm.trans hiff⟩

/-- Two channels are listed and one call is made, in the second launch: three more calls and
blocks are to come. -/
theorem settles_of_run_listed : ∃ (es : List Life) (s : App),
    run (lifeStep .inOrder) .empty es = some s ∧ s.work = 3 ∧
      (∃ es' s', (∀ e ∈ es', e.Continues) ∧ run (step .inOrder) s es' = some s' ∧
        s'.Settled) ∧
      ∀ es' s', (∀ e ∈ es', e.Continues) → run (step .inOrder) s es' = some s' →
        es'.countP Event.isWork ≤ s.work ∧
          (s'.Settled ↔ es'.countP Event.isWork = s.work) := by
  let listing : List Life := [.channelsSnapshot [(⟨"a", []⟩, 5), (⟨"b", []⟩, 5)],
    .next false].map .event
  let es : List Life := listing ++ .launch :: listing
  let s := (run (lifeStep .inOrder) .empty es).get (by decide +kernel)
  have hrun : run (lifeStep .inOrder) .empty es = some s := (Option.some_get _).symm
  exact ⟨es, s, hrun, by decide +kernel, settles_of_run hrun⟩

end App

end MessengerApp
