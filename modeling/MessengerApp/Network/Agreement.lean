import MessengerApp.Messages.CatchUp
import MessengerApp.Messages.Tracking
import MessengerApp.Network.Messages

/-!
# Agreement

What is sent to a channel reaches every device that listens to it, provided that no two
messages in the network have the same text, no row of the channel has been removed from the
device, and a fetch on it finds a stored channel before a pending one: once a snapshot of the
whole collection has gone through, the device shows what was sent to the channel until then,
whatever else happens in the network in the meantime. The messages of which the save before
failed, or was cut off when the app was ended, are no exception: they are stored, or linked to
their channel, when the snapshot is handled.

* `messages_eq_sent` — the collection of a channel is the list of what was sent to it.
* `tracks_of_run` — a device tracks every channel of which it removes no row.
* `CanCatchUp` — a device that has lost nothing.
* `shown_perm_sent_of_delivery` — **what is sent arrives.**
-/

namespace MessengerApp

open Machine CoreDataManager

/-! ### A device that tracks a channel -/

/-- The device tracks the channel, and listens to it only while it has a row. -/
structure Device.Tracks {δ : Type*} (c : String) (es : List Event) (d : Device δ) : Prop where
  app : App.Tracks c es d.screens.app
  listening : c ∈ d.listening → d.screens.app.Stores c

theorem Device.tracks_initial {δ : Type*} (c : String) (file : Option δ) :
    (Device.initial file).Tracks c [] :=
  ⟨App.tracks_empty c, fun h => absurd h List.not_mem_nil⟩

theorem Device.tracks_of_step {F : Fetch} {ι δ : Type*} {P : Platform ι δ}
    (hcd : P.cd = .propertyStoreTrump F) (hF : F.TakesFirst) {c : String} {es : List Event}
    {d d' : Device δ} {e : DeviceEvent δ} (hd : d.Tracks c es)
    (hkept : ∀ r ∈ d.screens.app.core.store.channels, r.identifier = c →
      r ∈ d'.screens.app.core.store.channels)
    (hsnap : ∀ snap, e = .screen (.app (.messagesSnapshot c snap)) → c ∈ d.listening)
    (h : d.step P e = some d') : d'.Tracks c (es ++ (d.appEvent e).toList) := by
  constructor
  · obtain ⟨⟨app, hloses, hrun⟩, -⟩ := step_parts h
    have happ := hd.app.loses hloses
    cases hobs : d.appEvent e with
    | none =>
      rw [hobs] at hrun
      obtain rfl := Option.some.inj hrun
      rw [Option.toList_none, List.append_nil]
      exact happ
    | some e' =>
      rw [hobs, Option.toList_some, run_cons_eq_some] at hrun
      obtain ⟨app', hstep, hrun⟩ := hrun
      obtain rfl := Option.some.inj hrun
      rw [hcd] at hstep
      refine App.tracks_of_step hF happ (hloses.store ▸ hkept) ?_ hstep
      rintro snap rfl
      rcases appEvent_cases hobs with he | ⟨object, fails, heq⟩
      · obtain ⟨r, hr, hid⟩ := hd.listening (hsnap snap he)
        exact ⟨r, hloses.store ▸ hr, hid⟩
      · cases heq
  · intro hc
    rcases listening_of_step h hc with hc | ⟨x, hx, hid⟩
    · obtain ⟨r, hr, hid⟩ := hd.listening hc
      exact ⟨r, hkept r hr hid, hid⟩
    · exact ⟨x, hkept x (hd.app.fetchedObjects hx) hid, hid⟩

namespace Network

variable {F : Fetch} {ι δ : Type*} [DecidableEq ι] {P : Platform ι δ} {n n' : Network ι δ}
  {file : ι → Option δ} {es post : List (ι × DeviceEvent δ)}

/-- Of the messages sent, those to a channel. -/
def toChannel (c : String) (x : ι × String × Message) : Option Message :=
  if x.2.1 = c then some x.2.2 else none

omit [DecidableEq ι] in
/-- What an event sends to a channel is what it adds to the channel's messages. -/
theorem messageTo_write (c : String) (n : Network ι δ) (e : ι × DeviceEvent δ) :
    ((n.write P e).bind fun w => (w.messageTo c).map fun d => decodeMessage d 0) =
      (n.sent P e).bind (toChannel c) := by
  obtain ⟨i, e⟩ := e
  have hsends : ∀ documentID, (((n.device i).sends P i e).map
      fun m => addMessageToFirebase m.2 m.1 documentID).bind
        (fun w => (w.messageTo c).map fun d => decodeMessage d 0) =
      (n.sent P (i, e)).bind (toChannel c) := by
    intro documentID
    unfold sent
    cases (n.device i).sends P i e with
    | none => rfl
    | some m =>
      by_cases hc : m.1 = c
      · simp [addMessageToFirebase, Write.messageTo, toChannel, hc, decodeMessage_addDocument]
      · simp [addMessageToFirebase, Write.messageTo, toChannel, hc]
  cases e with
  | sendMessage now documentID => exact hsends documentID
  | sendImage imageURL now documentID => exact hsends documentID
  | createAChannel now documentID =>
    cases h : (n.device i).creates (.createAChannel now documentID) with
    | none => simp [write, Device.write, sent, Device.sends, h]
    | some c' => simp [write, Device.write, sent, Device.sends, h, addChannelToFirebase,
        Write.messageTo]
  | screen e =>
    cases h : (n.device i).deletes (.screen e) with
    | none => simp [write, Device.write, sent, Device.sends, h]
    | some identifier => simp [write, Device.write, sent, Device.sends, h, Write.messageTo]
  | profile _ => rfl
  | present _ => rfl
  | textDidChange _ => rfl
  | dismiss => rfl
  | relaunch => rfl

/-- **The collection of a channel is the list of what was sent to it**, in this order. -/
theorem messages_eq_sent (hrun : run (step P) (initial file) es = some n) (c : String) :
    (n.database.messages c).added.map (fun d => decodeMessage d 0) =
      (sentMessages P file es).filterMap (toChannel c) := by
  rw [(Database.added_of_run (database_of_run hrun)).2 c, List.map_filterMap, sentMessages,
    filterMap_observe, filterMap_observe]
  congr 1
  funext n e
  exact messageTo_write c n e

/-! ### A device alone -/

/-- On the device, the events only finish what has been started; elsewhere anything happens. -/
def FinishesOn (i : ι) (e : ι × DeviceEvent δ) : Prop :=
  e.1 = i → ∃ e', e.2 = .screen (.app e') ∧ e'.Finishes

/-- An event of the app, and events that finish it, are a run of the app of the device. -/
theorem app_of_delivery {i : ι} {delivery : Event} (hpost : ∀ e ∈ post, FinishesOn i e)
    (hrun : run (step P) n ((i, .screen (.app delivery)) :: post) = some n') :
    ∃ finishing : List Event, (∀ e ∈ finishing, e.Finishes) ∧
      run (App.step P.cd) (n.device i).screens.app (delivery :: finishing) =
        some (n'.device i).screens.app := by
  have hobs : ∀ (n : Network ι δ) e e', e.1 = i → e.2 = .screen (.app e') →
      appEvent i n e = some e' := by
    rintro n ⟨j, e⟩ e' rfl rfl
    exact if_pos rfl
  have hsim : ∀ e, (e.1 = i → ∃ e', e.2 = .screen (.app e')) → ∀ n : Network ι δ,
      Simulates (step P) (App.step P.cd) (fun n => (n.device i).screens.app) (appEvent i) n e := by
    intro e he n n' h
    show run (App.step P.cd) (n.device i).screens.app (appEvent i n e).toList =
      some (n'.device i).screens.app
    rcases device_of_step h i with ⟨hi, hdevice⟩ | ⟨hne, heq⟩
    · obtain ⟨e', he'⟩ := he hi
      rw [hobs n e e' hi he']
      rw [he'] at hdevice
      obtain ⟨screens, hs, heq⟩ := Device.step_screen.mp hdevice
      obtain ⟨-, app, happ, rfl⟩ := Screens.step_app.mp hs
      rw [← heq, Device.visit_screens]
      simp [happ]
    · rw [appEvent, if_neg hne, heq]
      rfl
  have hmeets : Meets (step P) (Simulates (step P) (App.step P.cd)
      (fun n => (n.device i).screens.app) (appEvent i)) n
      ((i, .screen (.app delivery)) :: post) := by
    refine ⟨hsim _ (fun _ => ⟨_, rfl⟩) n, fun v _ => ?_⟩
    refine (meets_of_forall_mem post v hpost).imp fun s e he => ?_
    exact hsim e (fun hi => (he hi).imp fun _ h => h.1) s
  obtain ⟨v, hv, hrest⟩ := (run_cons_eq_some _).mp hrun
  refine ⟨observe (step P) (appEvent i) v post, fun e he => ?_, ?_⟩
  · obtain ⟨pre, e', rest, u, w, rfl, -, -, -, hobs'⟩ := (mem_observe hrest).mp he
    obtain ⟨hi, -⟩ := Option.ite_none_right_eq_some.mp hobs'
    obtain ⟨e'', he'', hfin⟩ := hpost e' (List.mem_append_right _ List.mem_cons_self) hi
    rw [hobs u e' e'' hi he''] at hobs'
    exact Option.some.inj hobs' ▸ hfin
  · have happ := run_observe _ _ _ n n' hmeets hrun
    rw [observe_cons _ _ hv, hobs n _ delivery rfl rfl] at happ
    exact happ

/-! ### A device that keeps a channel -/

/-- The event removes no row of the channel from the device. -/
def KeepsRow (P : Platform ι δ) (i : ι) (c : String) (n : Network ι δ) (e : ι × DeviceEvent δ) :
    Prop :=
  ∀ n' ∈ n.step P e, ∀ r ∈ (n.device i).screens.app.core.store.channels, r.identifier = c →
    r ∈ (n'.device i).screens.app.core.store.channels

instance (i : ι) (c : String) (n : Network ι δ) : DecidablePred (KeepsRow P i c n) := fun e =>
  inferInstanceAs (Decidable (∀ n' ∈ n.step P e,
    ∀ r ∈ (n.device i).screens.app.core.store.channels, r.identifier = c →
      r ∈ (n'.device i).screens.app.core.store.channels))

/-- **A device tracks every channel of which it removes no row.** -/
theorem tracks_of_run (hcd : P.cd = .propertyStoreTrump F) (hF : F.TakesFirst)
    (hrun : run (step P) (initial file) es = some n) {i : ι} {c : String}
    (hkept : Meets (step P) (KeepsRow P i c) (initial file) es) :
    (n.device i).Tracks c (observe (step P) (appEvent i) (initial file) es) := by
  refine observe_invariant (fun es (n : Network ι δ) => (n.device i).Tracks c es)
    (KeepsRow P i c) ?_ es [] (initial file) n (Device.tracks_initial c (file i)) hkept hrun
  intro bs n e n' hn hkept h
  rcases device_of_step h i with ⟨hi, hdevice⟩ | ⟨hne, heq⟩
  · rw [appEvent, if_pos hi]
    refine Device.tracks_of_step hcd hF hn (hkept n' h) (fun snap he => ?_) hdevice
    have hdel := (step_eq_some.mp h).1 (some c, snap) (by rw [he]; rfl)
    exact hi ▸ hdel.1
  · rw [appEvent, if_neg hne, heq, Option.toList_none, List.append_nil]
    exact hn

/-! ### Catching up -/

/-- The device can catch up with the channel of the row `r`: nothing is under way, the row is
stored, and whatever was sent to the channel and is stored is linked to it. -/
structure CanCatchUp (P : Platform ι δ) (file : ι → Option δ) (es : List (ι × DeviceEvent δ))
    (i : ι) (r : DBChannel) (n : Network ι δ) : Prop where
  settled : (n.device i).screens.app.Settled
  stored : r ∈ (n.device i).screens.app.core.store.channels
  attached : ∀ p ∈ (n.device i).screens.app.core.store.messages, ∀ j,
    (j, r.identifier, p.message) ∈ sentMessages P file es → p.channel = some r.objectID

/-- A snapshot of the whole collection lists what was sent to the channel. -/
theorem channelMessages_perm_sent (hrun : run (step P) (initial file) es = some n) {c : String}
    {snap : Snapshot} (hdel : (n.database.messages c).Delivers snap)
    (hall : ∀ d ∈ (n.database.messages c).added, d ∈ snap.map Prod.fst) :
    (channelMessages snap).Perm ((sentMessages P file es).filterMap (toChannel c)) := by
  have hids : (snap.map Prod.fst).Nodup := by
    have h : ((snap.map Prod.fst).map Document.documentID).Nodup := by
      rw [List.map_map]
      exact hdel.1
    exact List.Nodup.of_map _ h
  have hdocs : (snap.map Prod.fst).Perm (n.database.messages c).added := by
    rw [List.perm_ext_iff_of_nodup hids (List.Nodup.of_map _ (n.database.messages c).ids_nodup)]
    refine fun d => ⟨fun hd => ?_, hall d⟩
    obtain ⟨x, hx, rfl⟩ := List.mem_map.mp hd
    exact hdel.2 x hx
  have hdecode : channelMessages snap = (snap.map Prod.fst).map fun d => decodeMessage d 0 := by
    rw [List.map_map]
    refine List.map_congr_left fun x hx => ?_
    obtain ⟨j, m, documentID, -, hdoc⟩ := sent_of_mem_messages hrun (hdel.2 x hx)
    show decodeMessage x.1 x.2 = decodeMessage x.1 0
    rw [hdoc, decodeMessage_addDocument, decodeMessage_addDocument]
  rw [hdecode, ← messages_eq_sent hrun c]
  exact hdocs.map _

/-- **A device that can catch up shows what was sent**, once a snapshot of the whole collection has
gone through. -/
theorem shown_perm_sent_of_canCatchUp (hcd : P.cd = .propertyStoreTrump F) (hF : F.Succeeds)
    (hrun : run (step P) (initial file) es = some n)
    (htexts : ((sentMessages P file es).map fun x => x.2.2.content).Nodup) {i : ι} {r : DBChannel}
    (hcan : CanCatchUp P file es i r n) {snap : Snapshot}
    (hall : ∀ d ∈ (n.database.messages r.identifier).added, d ∈ snap.map Prod.fst)
    (hpost : ∀ e ∈ post, FinishesOn i e)
    (hrun' : run (step P) n
      ((i, .screen (.app (.messagesSnapshot r.identifier snap))) :: post) = some n')
    (hdone : (n'.device i).screens.app.Settled) :
    (shownMessages r.identifier (n'.device i).screens.app.core.store).Perm
      ((sentMessages P file es).filterMap (toChannel r.identifier)) := by
  obtain ⟨v, hv, -⟩ := (run_cons_eq_some _).mp hrun'
  have hdel := ((step_eq_some.mp hv).1 _ rfl).2
  have hsnap := channelMessages_perm_sent hrun hdel hall
  have hmem : ∀ {message : Message}, message ∈ channelMessages snap ↔
      ∃ j, (j, r.identifier, message) ∈ sentMessages P file es := by
    intro message
    rw [hsnap.mem_iff, List.mem_filterMap]
    constructor
    · rintro ⟨⟨j, c, m⟩, hx, heq⟩
      obtain ⟨rfl, heq⟩ := Option.ite_none_right_eq_some.mp heq
      exact ⟨j, Option.some.inj heq ▸ hx⟩
    · exact fun ⟨j, hj⟩ => ⟨_, hj, if_pos rfl⟩
  have hcurrent : (n.device i).screens.app.Current r snap :=
    { settled := hcan.settled
      scheduled := app_history_invariant (fun _ a => a.core.Scheduled)
        (fun _ _ _ h ha => h.scheduled ha)
        (fun _ _ _ _ h hstep => App.scheduled_of_appStep h hstep) scheduled_empty hrun i
      stored := hcan.stored
      nodup := by
        rw [(hsnap.map _).nodup_iff]
        refine List.pairwise_map.mpr (List.pairwise_filterMap.mpr ?_)
        refine (List.pairwise_map.mp htexts).imp fun {x x'} hne m hm m' hm' => ?_
        obtain ⟨-, hm⟩ := Option.ite_none_right_eq_some.mp hm
        obtain ⟨-, hm'⟩ := Option.ite_none_right_eq_some.mp hm'
        rw [← Option.some.inj hm, ← Option.some.inj hm']
        exact hne
      kept := by
        intro p hp message hmessage hcontent
        obtain ⟨c, hc⟩ := (app_history_invariant App.Received (fun _ _ _ h ha => ha.loses h)
          (fun _ _ _ _ h hstep => App.received_of_step h hstep)
          App.received_empty hrun i).2 p (List.mem_append_left _ hp)
        obtain ⟨j, hj⟩ := sent_of_delivered hrun hc
        obtain ⟨j', hj'⟩ := hmem.mp hmessage
        have heq := List.inj_on_of_nodup_map htexts hj hj' hcontent
        obtain ⟨rfl, rfl, rfl⟩ : j = j' ∧ c = r.identifier ∧ p.message = message := by
          simpa using heq
        exact ⟨rfl, hcan.attached p hp j hj⟩
      listed := fun message hmessage => hmem.mpr (sent_of_mem_shown hrun hmessage) }
  obtain ⟨finishing, hfin, happ⟩ := app_of_delivery hpost hrun'
  rw [hcd] at happ
  exact (App.shownMessages_perm_of_delivery hF hcurrent hfin happ hdone).trans hsnap

/-- A device that has kept the channel has lost none of its messages. -/
theorem canCatchUp_of_kept (hcd : P.cd = .propertyStoreTrump F) (hF : F.TakesFirst)
    (hrun : run (step P) (initial file) es = some n)
    (htexts : ((sentMessages P file es).map fun x => x.2.2.content).Nodup) {i : ι} {r : DBChannel}
    (hr : r ∈ (n.device i).screens.app.core.store.channels)
    (hkept : Meets (step P) (KeepsRow P i r.identifier) (initial file) es)
    (hsettled : (n.device i).screens.app.Settled) : CanCatchUp P file es i r n where
  settled := hsettled
  stored := hr
  attached := by
    intro p hp j hj
    obtain ⟨c, hdelivered, hlink⟩ :=
      (tracks_of_run hcd hF hrun hkept).app.core p (List.mem_append_left _ hp)
    -- it was delivered for the one channel to which a message with its text was sent
    obtain ⟨j', hj'⟩ := sent_of_delivered hrun hdelivered
    have hsame := List.inj_on_of_nodup_map htexts hj hj' rfl
    obtain ⟨-, rfl⟩ : j = j' ∧ r.identifier = c := by simpa using hsame
    obtain ⟨r', hr', hid, hchan⟩ := hlink rfl
    exact PersistentStore.eq_of_identifier hr' hr hid ▸ hchan

/-- **What is sent arrives**: if a fetch finds a stored channel before a pending one, no two
messages sent so far have the same text, and no row of the channel has been removed from the
device, then once a snapshot of the whole collection has gone through, without a save failing,
the device shows just what had been sent to the channel when it was delivered: whatever the other
devices do in the meantime, and whatever has happened before, also if saves have failed or the
app has been ended in the middle of them. -/
theorem shown_perm_sent_of_delivery (hcd : P.cd = .propertyStoreTrump F) (hF : F.TakesFirst)
    (hrun : run (step P) (initial file) es = some n)
    (htexts : ((sentMessages P file es).map fun x => x.2.2.content).Nodup) {i : ι} {r : DBChannel}
    (hr : r ∈ (n.device i).screens.app.core.store.channels)
    (hkept : Meets (step P) (KeepsRow P i r.identifier) (initial file) es)
    (hsettled : (n.device i).screens.app.Settled) {snap : Snapshot}
    (hall : ∀ d ∈ (n.database.messages r.identifier).added, d ∈ snap.map Prod.fst)
    (hpost : ∀ e ∈ post, FinishesOn i e)
    (hrun' : run (step P) n
      ((i, .screen (.app (.messagesSnapshot r.identifier snap))) :: post) = some n')
    (hdone : (n'.device i).screens.app.Settled) :
    (shownMessages r.identifier (n'.device i).screens.app.core.store).Perm
      ((sentMessages P file es).filterMap (toChannel r.identifier)) :=
  shown_perm_sent_of_canCatchUp hcd hF.succeeds hrun htexts
    (canCatchUp_of_kept hcd hF hrun htexts hr hkept hsettled) hall hpost hrun' hdone

/-- The app on the second device is ended when it has stored one of two messages; it catches up
in its next launch, while the first device sends another one. -/
theorem shown_perm_sent_of_delivery_conversation :
    ∃ (es : List (Bool × DeviceEvent Keyed)) (n n' : Network Bool Keyed),
      run (step twoDevices) (initial fun _ => none) es = some n ∧
        (shownMessages "a" (n.device true).screens.app.core.store) =
          [⟨"yes", 8, "Y", "User Name"⟩] ∧
        (shownMessages "a" (n'.device true).screens.app.core.store).Perm
          ((sentMessages twoDevices (fun _ => none) es).filterMap (toChannel "a")) ∧
        shownMessages "a" (n'.device true).screens.app.core.store =
          [⟨"hi", 7, "X", "Ann"⟩, ⟨"yes", 8, "Y", "User Name"⟩] := by
  let hi := addDocument "m" (Message.toDict ⟨"hi", 7, "X", "Ann"⟩)
  let yes := addDocument "n" (Message.toDict ⟨"yes", 8, "Y", "User Name"⟩)
  let snap : Snapshot := [(yes, 9), (hi, 9)]
  let r : DBChannel := ⟨0, "a", "News", some "Last Message", some 6⟩
  let interrupted : List (Bool × DeviceEvent Keyed) :=
    [(true, .screen (.app (.messagesSnapshot "a" snap))), (true, .screen (.app (.next false))),
      (true, .screen (.app (.saveBlock false))), (true, .screen (.app (.next false))),
      (true, .relaunch), (true, .screen .reloadChannels), (true, .screen (.channelCell 0)),
      (true, .screen (.select 0))]
  let es := conversation.take 25 ++ interrupted
  let steps : List Event := [.next false, .saveBlock false, .next false, .saveBlock false]
  let post : List (Bool × DeviceEvent Keyed) := (false, .sendImage "ho" 9 "o") ::
    steps.map fun e => (true, .screen (.app e))
  let n := (run (step twoDevices) (initial fun _ => none) es).get (by decide +kernel)
  let n' := (run (step twoDevices) n
    ((true, .screen (.app (.messagesSnapshot "a" snap))) :: post)).get (by decide +kernel)
  have hrun : run (step twoDevices) (initial fun _ => none) es = some n :=
    (Option.some_get _).symm
  have hrun' : run (step twoDevices) n _ = some n' := (Option.some_get _).symm
  have hr : r ∈ (n.device true).screens.app.core.store.channels := by decide +kernel
  have hpost : ∀ e ∈ post, FinishesOn true e := by
    intro e he hi
    rcases List.mem_cons.mp he with rfl | he
    · exact absurd hi (by decide)
    · obtain ⟨e', he', rfl⟩ := List.mem_map.mp he
      refine ⟨e', rfl, ?_⟩
      revert e'
      simp [steps, Event.Finishes]
  have hperm := shown_perm_sent_of_delivery rfl Fetch.takesFirst_inOrder hrun
    (by decide +kernel) hr (by decide +kernel) ⟨by decide +kernel, by decide +kernel⟩
    (by decide +kernel) hpost hrun' ⟨by decide +kernel, by decide +kernel⟩
  exact ⟨es, n, n', hrun, by decide +kernel, hperm, by decide +kernel⟩

end Network

end MessengerApp
