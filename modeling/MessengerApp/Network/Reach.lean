import MessengerApp.Network.Agreement
import MessengerApp.Settling

/-!
# Within reach

Saves fail, the app is ended in the middle of them, listeners are handed part of what was sent:
and still nothing is lost for good as long as the row of the channel stays.  From every state
of the network in which a device listens to the channel there is a way, by events of its app
alone, to a state in which it shows everything that has been sent.

* `App.Keeps` — the row is stored, and is not about to be deleted.
* `exists_run_app` — the app of a device may go on as it does alone.
* `exists_run_shown_perm_sent` — **what has been sent is within reach.**
-/

namespace MessengerApp

open Machine CoreDataManager

namespace App

variable {F : Fetch} {s s' : App} {r : DBChannel}

/-- The row is stored, and the running listener does not delete it. -/
def Keeps (r : DBChannel) (s : App) : Prop :=
  r ∈ s.core.store.channels ∧ .deleteChannel r.objectID ∉ s.main

/-- It is kept by what finishes the running listener. -/
theorem keeps_of_finishes (hs : Keeps r s) {e : Event} (he : e.Finishes)
    (h : s.step (.propertyStoreTrump F) e = some s') : Keeps r s' := by
  obtain ⟨hr, hqueue⟩ := hs
  cases e with
  | next fails =>
    obtain ⟨c, cs, hmain, rfl⟩ := step_next.mp h
    rw [hmain, List.mem_cons, not_or] at hqueue
    refine ⟨?_, hqueue.2⟩
    cases c with
    | saveChannel channel => exact hr
    | saveMessage message identifier => exact hr
    | deleteChannel object =>
      obtain rfl : fails = false := he
      have hne : r.objectID ≠ object := fun heq => hqueue.1 (heq ▸ rfl)
      exact List.mem_filter.mpr ⟨hr, by simpa using hne⟩
  | saveBlock fails =>
    obtain ⟨core, hcore, rfl⟩ := step_saveBlock.mp h
    refine ⟨?_, hqueue⟩
    obtain ⟨-, ⟨-, rfl⟩ | ⟨-, -, rfl⟩ | ⟨-, -, rfl⟩⟩ := runSaveBlock_cases hcore
    · exact hr
    · exact hr
    · exact PersistentStore.mem_save_channels_of_mem _ _ hr
  | merge objects =>
    obtain ⟨-, rfl⟩ := step_merge.mp h
    exact ⟨hr, hqueue⟩
  | channelsSnapshot snap => exact absurd he id
  | messagesSnapshot c snap => exact absurd he id
  | deleteChannel object fails => exact absurd he id

/-- What has been started can be finished. -/
theorem exists_run_settled (cd : CoreData) (hs : s.core.Scheduled) : ∃ es s',
    (∀ e ∈ es, e.Finishes) ∧ run (step cd) s es = some s' ∧ s'.Settled := by
  obtain ⟨es, s', hes, hrun, hwork⟩ := (progresses cd (fun _ he => continues_of_finishes he)
    fun _ he => he).exists_run _ s hs rfl
  exact ⟨es, s', hes, hrun, (work_eq_zero_iff (scheduled_of_run hs hrun)).mp hwork⟩

end App

namespace Network

variable {F : Fetch} {ι δ : Type*} [DecidableEq ι] {P : Platform ι δ} {n : Network ι δ}
  {file : ι → Option δ} {es : List (ι × DeviceEvent δ)} {i : ι} {r : DBChannel}

/-- The events of the app on a device. -/
def appEvents (i : ι) (es : List Event) : List (ι × DeviceEvent δ) :=
  es.map fun e => (i, .screen (.app e))

/-- An event of the app alone is one of the network, if a listener can be handed its snapshot. -/
theorem exists_step_app {e : Event} {app : App}
    (happ : (n.device i).screens.app.step P.cd e = some app)
    (huser : ∀ object fails, e ≠ .deleteChannel object fails)
    (hdel : ∀ x ∈ received (.screen (.app e) : DeviceEvent δ), n.Delivers i x) :
    ∃ n', n.step P (i, .screen (.app e)) = some n' ∧ (n'.device i).screens.app = app ∧
      (n'.device i).listening = (n.device i).listening ∧ n'.database = n.database := by
  refine ⟨_, step_eq_some.mpr ⟨hdel, _, n.database, Device.step_screen.mpr
    ⟨_, Screens.step_app.mpr ⟨huser, app, happ, rfl⟩, rfl⟩, rfl, rfl⟩, ?_, ?_, rfl⟩
  · show (Function.update n.device i _ i).screens.app = app
    rw [Function.update_self, Device.visit_screens]
  · show (Function.update n.device i _ i).listening = _
    rw [Function.update_self]
    rfl

/-- **What has been started on a device can go on as it does in the app alone**, and keeps the
rows that are not about to be deleted. -/
theorem exists_run_app (hcd : P.cd = .propertyStoreTrump F) : ∀ (fs : List Event)
    (n : Network ι δ) (app : App), (∀ e ∈ fs, e.Finishes) → (n.device i).screens.app.Keeps r →
    run (App.step P.cd) (n.device i).screens.app fs = some app →
      ∃ n', run (step P) n (appEvents i fs) = some n' ∧ (n'.device i).screens.app = app ∧
        (n'.device i).listening = (n.device i).listening ∧ n'.database = n.database ∧
        Meets (step P) (KeepsRow P i r.identifier) n (appEvents i fs) ∧ app.Keeps r := by
  intro fs
  induction fs with
  | nil =>
    intro n app _ hkeeps hrun
    obtain rfl := Option.some.inj hrun
    exact ⟨n, rfl, rfl, rfl, rfl, trivial, hkeeps⟩
  | cons e fs ih =>
    intro n app hfs hkeeps hrun
    obtain ⟨app₁, hstep, hrest⟩ := (run_cons_eq_some _).mp hrun
    have he := hfs e List.mem_cons_self
    obtain ⟨n₁, hn₁, happ₁, hlistening₁, hdatabase₁⟩ := exists_step_app hstep
      (by rintro object fails rfl; exact he)
      (fun x hx => by cases e with
        | channelsSnapshot snap => exact absurd he id
        | messagesSnapshot c snap => exact absurd he id
        | _ => cases hx)
    have hkeeps₁ : app₁.Keeps r := App.keeps_of_finishes hkeeps he (hcd ▸ hstep)
    rw [← happ₁] at hrest hkeeps₁
    obtain ⟨n', hn', happ', hlistening', hdatabase', hmeets, hkeeps'⟩ :=
      ih n₁ app (fun e he => hfs e (List.mem_cons_of_mem _ he)) hkeeps₁ hrest
    refine ⟨n', (run_cons_eq_some _).mpr ⟨n₁, hn₁, hn'⟩, happ', hlistening'.trans hlistening₁,
      hdatabase'.trans hdatabase₁, ⟨?_, ?_⟩, hkeeps'⟩
    · -- the only row of the channel is the one that is kept
      intro u hu r' hr' hid
      obtain rfl := Option.some.inj (hn₁.symm.trans hu)
      obtain rfl := PersistentStore.eq_of_identifier hr' hkeeps.1 hid
      exact hkeeps₁.1
    · intro u hu
      obtain rfl := Option.some.inj (hn₁.symm.trans hu)
      exact hmeets

/-- The app sends nothing by itself. -/
theorem sentMessages_appEvents (hrun : run (step P) (initial file) es = some n) {fs : List Event}
    {n' : Network ι δ} (hrun' : run (step P) n (appEvents i fs) = some n') :
    sentMessages P file (es ++ appEvents i fs) = sentMessages P file es := by
  have hnone : observe (step P) (sent P) n (appEvents i fs) = [] := by
    refine List.eq_nil_iff_forall_not_mem.mpr fun x hx => ?_
    obtain ⟨pre, e, post, u, v, hfs, -, -, -, hsent⟩ := (mem_observe hrun').mp hx
    have he : e ∈ appEvents i fs := hfs ▸ List.mem_append_right _ List.mem_cons_self
    obtain ⟨e', -, rfl⟩ := List.mem_map.mp he
    cases hsent
  rw [sentMessages, observe_append hrun, hnone, List.append_nil, sentMessages]

/-- **What has been sent is within reach**: if a fetch finds a stored channel before a pending
one, no two messages sent so far have the same text, and a device listens to a channel whose row
has never been removed there and is not about to be, then by events of its app alone it can come
to show just what has been sent to the channel, whatever has failed or has been cut off before. -/
theorem exists_run_shown_perm_sent (hcd : P.cd = .propertyStoreTrump F) (hF : F.TakesFirst)
    (hrun : run (step P) (initial file) es = some n)
    (htexts : ((sentMessages P file es).map fun x => x.2.2.content).Nodup)
    (hkeeps : (n.device i).screens.app.Keeps r)
    (hkept : Meets (step P) (KeepsRow P i r.identifier) (initial file) es)
    (hlistening : r.identifier ∈ (n.device i).listening) :
    ∃ fs n', run (step P) n (appEvents i fs) = some n' ∧ (n'.device i).screens.app.Settled ∧
      (shownMessages r.identifier (n'.device i).screens.app.core.store).Perm
        ((sentMessages P file es).filterMap (toChannel r.identifier)) := by
  have hscheduled : ∀ {es n}, run (step P) (initial file) es = some n →
      (n.device i).screens.app.core.Scheduled := fun hrun =>
    app_history_invariant (fun _ a => a.core.Scheduled) (fun _ _ _ h ha => h.scheduled ha)
      (fun _ _ _ _ h hstep => App.scheduled_of_appStep h hstep) scheduled_empty hrun i
  -- what is under way is finished first
  obtain ⟨fs, app₁, hfs, happ₁, hsettled⟩ := App.exists_run_settled P.cd (hscheduled hrun)
  obtain ⟨n₁, hn₁, rfl, hlistening₁, hdatabase₁, hmeets₁, hkeeps₁⟩ :=
    exists_run_app hcd fs n app₁ hfs hkeeps happ₁
  have hrun₁ : run (step P) (initial file) (es ++ appEvents i fs) = some n₁ :=
    (run_append_eq_some _).mpr ⟨n, hrun, hn₁⟩
  have hsame := sentMessages_appEvents hrun hn₁
  -- then the whole collection is delivered
  let snap : Snapshot := (n₁.database.messages r.identifier).added.map fun d => (d, 0)
  have hdelivers : (n₁.database.messages r.identifier).Delivers snap := by
    constructor
    · rw [List.map_map]
      exact (n₁.database.messages r.identifier).ids_nodup
    · intro d hd
      obtain ⟨d', hd', rfl⟩ := List.mem_map.mp hd
      exact hd'
  have hall : ∀ d ∈ (n₁.database.messages r.identifier).added, d ∈ snap.map Prod.fst :=
    fun d hd => List.mem_map_of_mem (f := Prod.fst) (List.mem_map_of_mem hd)
  obtain ⟨n₂, hn₂, happ₂, -, -⟩ := exists_step_app (P := P) (i := i) (n := n₁)
    (App.step_messagesSnapshot.mpr ⟨hsettled.1, rfl⟩)
    (by rintro object fails heq; cases heq) (e := .messagesSnapshot r.identifier snap)
    (fun x hx => by
      obtain rfl := Option.some.inj hx
      exact ⟨hlistening₁ ▸ hlistening, hdelivers⟩)
  have hkeeps₂ : (n₂.device i).screens.app.Keeps r := by
    rw [happ₂]
    refine ⟨hkeeps₁.1, fun hc => ?_⟩
    obtain ⟨message, -, heq⟩ := mem_checkingTheMessages hc
    cases heq
  have hrun₂ := (run_snoc_eq_some _).mpr ⟨n₁, hrun₁, hn₂⟩
  -- and what it starts is finished
  obtain ⟨gs, app₃, hgs, happ₃, hdone⟩ := App.exists_run_settled P.cd (hscheduled hrun₂)
  obtain ⟨n₃, hn₃, rfl, -⟩ := exists_run_app hcd gs n₂ app₃ hgs hkeeps₂ happ₃
  have hrun₃ : run (step P) n₁ ((i, .screen (.app (.messagesSnapshot r.identifier snap))) ::
      appEvents i gs) = some n₃ := (run_cons_eq_some _).mpr ⟨n₂, hn₂, hn₃⟩
  refine ⟨fs ++ .messagesSnapshot r.identifier snap :: gs, n₃, ?_, hdone, ?_⟩
  · rw [appEvents, List.map_append]
    exact (run_append_eq_some _).mpr ⟨n₁, hn₁, hrun₃⟩
  · have hcan := canCatchUp_of_kept hcd hF hrun₁ (hsame ▸ htexts) hkeeps₁.1
      (hkept.append hrun hmeets₁) hsettled
    rw [← hsame]
    refine shown_perm_sent_of_canCatchUp hcd hF.succeeds hrun₁ (hsame ▸ htexts) hcan hall ?_ hrun₃
      hdone
    intro e he _
    obtain ⟨e', he', rfl⟩ := List.mem_map.mp he
    exact ⟨e', rfl, hgs e' he'⟩

/-- On the second device the save of the first of two messages has failed, and the listener is
still to save the other: from there both can be reached. -/
theorem exists_run_shown_perm_sent_conversation :
    ∃ (es : List (Bool × DeviceEvent Keyed)) (n n' : Network Bool Keyed)
      (fs : List Event), run (step twoDevices) (initial fun _ => none) es = some n ∧
        shownMessages "a" (n.device true).screens.app.core.store = [] ∧
        run (step twoDevices) n (appEvents true fs) = some n' ∧
        (n'.device true).screens.app.Settled ∧
        (shownMessages "a" (n'.device true).screens.app.core.store).Perm
          [⟨"hi", 7, "X", "Ann"⟩, ⟨"yes", 8, "Y", "User Name"⟩] := by
  let hi := addDocument "m" (Message.toDict ⟨"hi", 7, "X", "Ann"⟩)
  let yes := addDocument "n" (Message.toDict ⟨"yes", 8, "Y", "User Name"⟩)
  let r : DBChannel := ⟨0, "a", "News", some "Last Message", some 6⟩
  let es := conversation.take 25 ++ appEvents true
    [.messagesSnapshot "a" [(yes, 9), (hi, 9)], .next false, .saveBlock true]
  let n := (run (step twoDevices) (initial fun _ => none) es).get (by decide +kernel)
  have hrun : run (step twoDevices) (initial fun _ => none) es = some n :=
    (Option.some_get _).symm
  have hkeeps : App.Keeps r (n.device true).screens.app :=
    ⟨by decide +kernel, by decide +kernel⟩
  have hsent : (sentMessages twoDevices (fun _ => none) es).filterMap (toChannel "a") =
      [⟨"hi", 7, "X", "Ann"⟩, ⟨"yes", 8, "Y", "User Name"⟩] := by decide +kernel
  obtain ⟨fs, n', hrun', hsettled, hperm⟩ := exists_run_shown_perm_sent rfl Fetch.takesFirst_inOrder
    hrun
    (by decide +kernel) hkeeps (by decide +kernel) (by decide +kernel)
  exact ⟨es, n, n', fs, hrun, by decide +kernel, hrun', hsettled, hsent ▸ hperm⟩

end Network

end MessengerApp
