import MessengerApp.Messages.Sync

/-!
# Messages of other channels

All channels share one table of messages in which a content may occur once, so a
message of one channel can keep a message of another out.  Where that does not
happen, what a channel shows depends on its own snapshots and on what the count
check says about each of them only.

## Main definitions

* `snapshotsFor` — the snapshots delivered for a channel.
* `App.Undisturbed` — the condition on a step: a snapshot of the channel that is
  saved meets no content that another channel has brought in.
* `App.verdicts` — whether each of the snapshots of the channel adds something.
* `App.ownPart` — the part of the table that does not depend on other channels.

## Main results

* `ownPart_of_step`, `ownPart_of_run` — how that part develops.
* `shownMessages_eq_of_undisturbed` — **two undisturbed runs with the same snapshots
  and verdicts for a channel show the same messages in it.**
-/

namespace MessengerApp

open Machine UniqueTable CoreDataManager

/-- The snapshots that the events deliver for a channel. -/
def snapshotsFor (channelIdentifier : String) : List Event → List Snapshot :=
  List.filterMap fun
    | .messagesSnapshot c snap => if c = channelIdentifier then some snap else none
    | _ => none

/-- The snapshots with a positive verdict. -/
def added (snaps : List Snapshot) (verdicts : List Bool) : List Snapshot :=
  ((snaps.zip verdicts).filter Prod.snd).map Prod.fst

theorem added_append {snaps snaps' : List Snapshot} {verdicts verdicts' : List Bool}
    (h : snaps.length = verdicts.length) :
    added (snaps ++ snaps') (verdicts ++ verdicts') =
      added snaps verdicts ++ added snaps' verdicts' := by
  unfold added
  rw [List.zip_append h, List.filter_append, List.map_append]

/-- The rows that a snapshot of the channel of `r` brings along. -/
def ownRows (r : DBChannel) (snap : Snapshot) : List DBMessage :=
  (channelMessages snap).map fun message => message.row (some r.objectID)

namespace App

/-- The first stored or pending object with the content of a message. -/
def holder (u : App) (message : Message) : Option DBMessage :=
  u.core.messageObjects.find? (·.content = message.content)

/-- When a snapshot of the channel is longer than what is stored for it, the contents of
its messages are held, if at all, by messages of the channel or by messages that
were stored in `st`, at the start. -/
def Undisturbed (channelIdentifier : String) (st : PersistentStore) (u : App) : Event → Prop
  | .messagesSnapshot c snap => c = channelIdentifier →
      (fetchedResult channelIdentifier u.core.store).length < snap.length →
        ∀ message ∈ channelMessages snap, ∀ p ∈ u.holder message,
          p ∈ st.messages ∨ BelongsTo u.core.store channelIdentifier p
  | _ => True

instance (channelIdentifier : String) (st : PersistentStore) (u : App) :
    DecidablePred (Undisturbed channelIdentifier st u) := fun e =>
  match e with
  | .messagesSnapshot c snap => inferInstanceAs (Decidable (c = channelIdentifier →
      (fetchedResult channelIdentifier u.core.store).length < snap.length →
        ∀ message ∈ channelMessages snap, ∀ p ∈ u.holder message,
          p ∈ st.messages ∨ BelongsTo u.core.store channelIdentifier p))
  | .channelsSnapshot _ | .next _ | .saveBlock _ | .deleteChannel _ _ | .merge _ => isTrue trivial

/-- The snapshot is longer than what is stored for the channel, and the content of one of
its messages is held by nothing yet. -/
def Adds (channelIdentifier : String) (u : App) (snap : Snapshot) : Prop :=
  (fetchedResult channelIdentifier u.core.store).length < snap.length ∧
    ∃ message ∈ channelMessages snap, u.holder message = none

instance (channelIdentifier : String) (u : App) :
    DecidablePred (Adds channelIdentifier u) := fun snap =>
  inferInstanceAs (Decidable
    ((fetchedResult channelIdentifier u.core.store).length < snap.length ∧
      ∃ message ∈ channelMessages snap, u.holder message = none))

/-- Whether a snapshot of the channel, when it is delivered, adds something. -/
def verdict (channelIdentifier : String) (u : App) : Event → Option Bool
  | .messagesSnapshot c snap =>
      if c = channelIdentifier then some (decide (u.Adds channelIdentifier snap)) else none
  | _ => none

/-- The same for all snapshots delivered for the channel in a run. -/
def verdicts (F : Fetch) (channelIdentifier : String) (s : App) (es : List Event) : List Bool :=
  observe (step (.propertyStoreTrump F)) (verdict channelIdentifier) s es

/-- A message stored at the start, or attached to the channel. -/
def Own (r : DBChannel) (st : PersistentStore) (p : DBMessage) : Prop :=
  p ∈ st.messages ∨ p.channel = some r.objectID

instance (r : DBChannel) (st : PersistentStore) : DecidablePred (Own r st) := fun p =>
  inferInstanceAs (Decidable (p ∈ st.messages ∨ p.channel = some r.objectID))

/-- What is promised of the channel's own messages. -/
def ownPart (F : Fetch) (r : DBChannel) (st : PersistentStore) (s : App) : List DBMessage :=
  (s.promisedMessages F).filter (Own r st ·)

variable {F : Fetch} {r : DBChannel} {st : PersistentStore} {rows : List DBChannel} {s s' : App}
  {e : Event}

theorem snapshotRows_own (hF : F.Succeeds) (hs : s.Messaging rows) (hr : r ∈ rows)
    (snap : Snapshot) : snapshotRows F s.core r.identifier snap = ownRows r snap := by
  unfold snapshotRows ownRows
  rw [fetchChannel_of_messaging hF hs hr]
  rfl

/-! ### One event -/

/-- What is found under the content of a message is the row that will be stored under it. -/
theorem holder_eq_some (hmain : s.main = []) {message : Message} {p : DBMessage}
    (h : s.holder message = some p) : p ∈ s.promisedMessages F ∧ p.content = message.content := by
  rw [holder, ← find?_promisedMessages (F := F) hmain] at h
  exact ⟨List.mem_of_find?_eq_some h, by simpa using List.find?_some h⟩

/-- In an undisturbed step, a snapshot that is long enough meets the channel's own rows only. -/
theorem own_of_undisturbed {snap : Snapshot} (hs : s.Messaging rows) (hr : r ∈ rows)
    (hmain : s.main = []) (hu : s.Undisturbed r.identifier st (.messagesSnapshot r.identifier snap))
    (hlt : (fetchedResult r.identifier s.core.store).length < snap.length)
    {message : Message} (hm : message ∈ channelMessages snap) {p : DBMessage}
    (hp : p ∈ s.promisedMessages F) (hc : p.content = message.content) : Own r st p := by
  cases hholder : s.holder message with
  | none =>
    rw [holder, ← find?_promisedMessages (F := F) hmain] at hholder
    have hn := List.find?_eq_none.mp hholder p hp
    exact absurd (by simpa using hc) hn
  | some q =>
    obtain ⟨hq, hqc⟩ := holder_eq_some (F := F) hmain hholder
    obtain rfl : p = q := s.promisedMessages_unique.eq_of_conflict (fun _ _ h => h.symm) hp hq
      (hc.trans hqc.symm)
    have hr' : r ∈ s.core.store.channels := hs.channels ▸ hr
    exact (hu rfl hlt message hm p hholder).imp id (belongsTo_iff hr' p).mp

/-- A snapshot of the channel, in an undisturbed step, adds its messages to the part,
unless it adds nothing. -/
theorem ownPart_of_own (hF : F.Succeeds) {snap : Snapshot} (hs : s.Messaging rows) (hr : r ∈ rows)
    (hu : s.Undisturbed r.identifier st (.messagesSnapshot r.identifier snap))
    (h : s.step (.propertyStoreTrump F) (.messagesSnapshot r.identifier snap) = some s') :
    s'.ownPart F r st =
      if s.Adds r.identifier snap then
        insertAll DBMessage.Conflicts (s.ownPart F r st) (ownRows r snap)
      else s.ownPart F r st := by
  have hmain := (step_messagesSnapshot.mp h).1
  unfold ownPart
  rw [promisedMessages_of_snapshot h, snapshotRows_own hF hs hr]
  by_cases hlt : (fetchedResult r.identifier s.core.store).length < snap.length
  · have hown : ∀ message ∈ channelMessages snap, ∀ p ∈ s.promisedMessages F,
        p.content = message.content → Own r st p := fun _ hm _ hp hc =>
      own_of_undisturbed hs hr hmain hu hlt hm hp hc
    rw [if_pos hlt, filter_insertAll]
    · split
      · rfl
      · next hadds =>
        -- every content of the snapshot is held, by a row of the part
        apply insertAll_eq_self
        intro q hq
        obtain ⟨message, hm, rfl⟩ := List.mem_map.mp hq
        have hsome : s.holder message ≠ none := fun hnone => hadds ⟨hlt, message, hm, hnone⟩
        obtain ⟨p, hholder⟩ := Option.ne_none_iff_exists'.mp hsome
        obtain ⟨hp, hc⟩ := holder_eq_some (F := F) hmain hholder
        exact ⟨p, List.mem_filter.mpr ⟨hp, decide_eq_true (hown message hm p hp hc)⟩, hc⟩
    · intro q hq
      obtain ⟨message, -, rfl⟩ := List.mem_map.mp hq
      exact Or.inr rfl
    · intro q hq p hp hc
      obtain ⟨message, hm, rfl⟩ := List.mem_map.mp hq
      exact hown message hm p hp hc
  · have hadds : ¬ s.Adds r.identifier snap := fun hadds => hlt hadds.1
    rw [if_neg hlt, if_neg hadds]

/-- A snapshot of another channel leaves the part alone. -/
theorem ownPart_of_other {c : String} {snap : Snapshot} (hs : s.Messaging rows) (hr : r ∈ rows)
    (hst : ∀ p ∈ st.messages, p ∈ s.promisedMessages F) (hc : c ≠ r.identifier)
    (h : s.step (.propertyStoreTrump F) (.messagesSnapshot c snap) = some s') :
    s'.ownPart F r st = s.ownPart F r st := by
  unfold ownPart
  rw [promisedMessages_of_snapshot h]
  split
  · apply filter_insertAll_of_not
    intro q hq
    by_cases hown : Own r st q
    · refine Or.inr ⟨q, ?_, rfl⟩
      rcases hown with hq' | hlink
      · exact hst q hq'
      · -- the row of another channel has another identity
        obtain ⟨message, -, rfl⟩ := List.mem_map.mp hq
        obtain ⟨r', hfetch, ho⟩ := Option.map_eq_some_iff.mp hlink
        obtain ⟨hr', hid⟩ := fetchChannel_eq_some hfetch
        have hobj : r ∈ s.core.channelObjects := List.mem_append_left _ (hs.channels ▸ hr)
        rw [eq_of_objectID hr' hobj ho] at hid
        exact absurd hid.symm hc
    · exact Or.inl hown
  · rfl

/-- **One undisturbed event**: the part grows by the snapshot it delivers, if that adds
something. -/
theorem ownPart_of_step (hF : F.Succeeds) (hs : s.Messaging rows) (hr : r ∈ rows)
    (hst : ∀ p ∈ st.messages, p ∈ s.promisedMessages F) (he : e.Messaging)
    (hu : s.Undisturbed r.identifier st e) (h : s.step (.propertyStoreTrump F) e = some s') :
    (snapshotsFor r.identifier [e]).length = (s.verdict r.identifier e).toList.length ∧
      s'.ownPart F r st = insertAll DBMessage.Conflicts (s.ownPart F r st)
        ((added (snapshotsFor r.identifier [e])
          (s.verdict r.identifier e).toList).flatMap (ownRows r)) := by
  obtain ⟨c, ⟨snap, rfl⟩ | he⟩ := he
  · by_cases hc : c = r.identifier
    · subst hc
      rw [ownPart_of_own hF hs hr hu h]
      by_cases hadds : s.Adds r.identifier snap <;> simp [snapshotsFor, verdict, added, hadds]
    · rw [ownPart_of_other hs hr hst hc h]
      simp [snapshotsFor, verdict, added, hc]
  · rw [ownPart, promisedMessages_of_step hs he h]
    cases e with
    | messagesSnapshot _ _ => exact absurd he not_false
    | channelsSnapshot _ => exact ⟨rfl, rfl⟩
    | next _ => exact ⟨rfl, rfl⟩
    | saveBlock _ => exact ⟨rfl, rfl⟩
    | deleteChannel _ _ => exact ⟨rfl, rfl⟩
    | merge _ => exact ⟨rfl, rfl⟩

/-! ### A run -/

theorem ownPart_of_run (hF : F.Succeeds) (hr : r ∈ rows) : ∀ (es : List Event) (s t : App),
    s.Messaging rows →
    (∀ p ∈ st.messages, p ∈ s.ownPart F r st) → (∀ e ∈ es, e.Messaging) →
    Meets (step (.propertyStoreTrump F)) (Undisturbed r.identifier st) s es →
    run (step (.propertyStoreTrump F)) s es = some t →
    t.Messaging rows ∧ t.ownPart F r st = insertAll DBMessage.Conflicts (s.ownPart F r st)
      ((added (snapshotsFor r.identifier es) (s.verdicts F r.identifier es)).flatMap
        (ownRows r)) := by
  intro es
  induction es with
  | nil =>
    intro s t hs _ _ _ hrun
    obtain rfl := Option.some.inj hrun
    exact ⟨hs, rfl⟩
  | cons e es ih =>
    intro s t hs hst hes hmeets hrun
    obtain ⟨s₁, hstep, hrest⟩ := (run_cons_eq_some _).mp hrun
    obtain ⟨hu, hmeets'⟩ := hmeets
    have he := hes e List.mem_cons_self
    have hs₁ := messaging_of_step hs he hstep
    have hes' : ∀ e' ∈ es, e'.Messaging := fun e' he' => hes e' (List.mem_cons_of_mem e he')
    have hst' : ∀ p ∈ st.messages, p ∈ s.promisedMessages F := fun p hp =>
      (List.mem_filter.mp (hst p hp)).1
    obtain ⟨hlength, hpart⟩ := ownPart_of_step hF hs hr hst' he hu hstep
    have hst₁ : ∀ p ∈ st.messages, p ∈ s₁.ownPart F r st := fun p hp =>
      hpart ▸ mem_insertAll_of_mem _ _ (hst p hp)
    obtain ⟨ht, hfinal⟩ := ih s₁ t hs₁ hst₁ hes' (hmeets' s₁ hstep) hrest
    refine ⟨ht, ?_⟩
    have hcons : snapshotsFor r.identifier (e :: es) =
        snapshotsFor r.identifier [e] ++ snapshotsFor r.identifier es := by
      rw [snapshotsFor, ← List.filterMap_append, List.singleton_append]
    have hverdicts : s.verdicts F r.identifier (e :: es) =
        (s.verdict r.identifier e).toList ++ s₁.verdicts F r.identifier es :=
      observe_cons _ _ hstep es
    rw [hfinal, hpart, hcons, hverdicts, added_append hlength, List.flatMap_append,
      insertAll_append]

/-- A run of deliveries, all of which go through. -/
structure GoesThrough (F : Fetch) (s₀ : App) (es : List Event) (t : App) : Prop where
  start : s₀.Settled
  scheduled : s₀.core.Scheduled
  deliveries : ∀ e ∈ es, e.Messaging
  run : run (step (.propertyStoreTrump F)) s₀ es = some t
  settled : t.Settled

/-- What the channel shows after an undisturbed run, in terms of its own snapshots. -/
theorem fetchedResult_of_undisturbed (hF : F.Succeeds) {s₀ t : App} {es : List Event}
    (h : GoesThrough F s₀ es t) (hr : r ∈ s₀.core.store.channels)
    (hu : Meets (step (.propertyStoreTrump F)) (Undisturbed r.identifier s₀.core.store) s₀ es) :
    fetchedResult r.identifier t.core.store =
      ((insertAll DBMessage.Conflicts s₀.core.store.messages
        ((added (snapshotsFor r.identifier es) (s₀.verdicts F r.identifier es)).flatMap
          (ownRows r))).filter (·.channel = some r.objectID)).insertionSort
            fun p p' => p.created ≤ p'.created := by
  obtain ⟨hstart, hsched, hes, hrun, hsettled⟩ := h
  have hpart₀ : s₀.ownPart F r s₀.core.store = s₀.core.store.messages := by
    rw [ownPart, promisedMessages_of_settled hstart hsched, List.filter_eq_self]
    exact fun p hp => decide_eq_true (Or.inl hp)
  obtain ⟨ht, hfinal⟩ := ownPart_of_run hF hr es s₀ t (messaging_of_settled hstart hsched)
    (fun p hp => hpart₀ ▸ hp) hes hu hrun
  have hsched' := scheduled_of_run hsched hrun
  rw [hpart₀, ownPart, promisedMessages_of_settled hsettled hsched'] at hfinal
  have hfilter : (t.core.store.messages.filter (BelongsTo t.core.store r.identifier ·)) =
      (t.core.store.messages.filter (Own r s₀.core.store ·)).filter
        (·.channel = some r.objectID) := by
    rw [List.filter_filter]
    refine List.filter_congr fun p _ => ?_
    rw [← Bool.decide_and, decide_eq_decide, belongsTo_iff (ht.channels ▸ hr)]
    exact ⟨fun hlink => ⟨hlink, Or.inr hlink⟩, fun hp => hp.1⟩
  unfold fetchedResult
  rw [hfilter, hfinal]

/-- **Undisturbed channels do not interfere**, as long as fetches succeed and the verdicts on
the snapshots are the same in both runs. -/
theorem shownMessages_eq_of_undisturbed (hF : F.Succeeds) {b : String} {s₀ t₁ t₂ : App}
    {es₁ es₂ : List Event} (h₁ : GoesThrough F s₀ es₁ t₁) (h₂ : GoesThrough F s₀ es₂ t₂)
    (hsame : snapshotsFor b es₁ = snapshotsFor b es₂)
    (hu₁ : Meets (step (.propertyStoreTrump F)) (Undisturbed b s₀.core.store) s₀ es₁)
    (hu₂ : Meets (step (.propertyStoreTrump F)) (Undisturbed b s₀.core.store) s₀ es₂)
    (hverdicts : s₀.verdicts F b es₁ = s₀.verdicts F b es₂) :
    shownMessages b t₁.core.store = shownMessages b t₂.core.store := by
  unfold shownMessages
  by_cases hb : ∃ r ∈ s₀.core.store.channels, r.identifier = b
  · obtain ⟨r, hr, rfl⟩ := hb
    rw [fetchedResult_of_undisturbed hF h₁ hr hu₁, fetchedResult_of_undisturbed hF h₂ hr hu₂,
      hsame, hverdicts]
  · have hnone : ∀ {es : List Event} {t : App}, GoesThrough F s₀ es t →
        fetchedResult b t.core.store = [] := by
      intro es t h
      have ht := messaging_of_run (messaging_of_settled h.start h.scheduled) h.deliveries h.run
      apply fetchedResult_of_notStored
      intro r hr hid
      exact hb ⟨r, ht.channels ▸ hr, hid⟩
    rw [hnone h₁, hnone h₂]

/-- Two undisturbed runs: a message for `b` arrives before, or without, one for `a`; and a
later snapshot for `b` is too short to be saved. -/
theorem shownMessages_eq_of_undisturbed_two : ∃ (s₀ t₁ t₂ : App) (es₁ es₂ : List Event),
    GoesThrough .inOrder s₀ es₁ t₁ ∧ GoesThrough .inOrder s₀ es₂ t₂ ∧ es₁ ≠ es₂ ∧
      shownMessages "b" t₁.core.store = shownMessages "b" t₂.core.store := by
  let hi : Document := ⟨"m", Message.toDict ⟨"hi", 3, "u", "U"⟩⟩
  let ho : Document := ⟨"n", Message.toDict ⟨"ho", 4, "v", "V"⟩⟩
  let hu : Document := ⟨"k", Message.toDict ⟨"hu", 5, "u", "U"⟩⟩
  let s₀ : App := (run (step .inOrder) .empty [.channelsSnapshot
    [(⟨"a", [("name", .string "A")]⟩, 5), (⟨"b", [("name", .string "B")]⟩, 5)], .next false,
    .next false, .saveBlock false, .saveBlock false, .merge [0, 1]]).get (by decide +kernel)
  let es₁ : List Event := [.messagesSnapshot "b" [(hi, 6)], .next false, .saveBlock false,
    .messagesSnapshot "a" [(ho, 7)], .next false, .saveBlock false,
    .messagesSnapshot "b" [(hu, 8)]]
  let es₂ : List Event := [.messagesSnapshot "b" [(hi, 6)], .next false, .saveBlock false,
    .messagesSnapshot "b" [(hu, 8)]]
  have h₁ : GoesThrough .inOrder s₀ es₁ ((run (step .inOrder) s₀ es₁).get (by decide +kernel)) :=
    { start := ⟨rfl, rfl⟩
      scheduled := ⟨by decide, by decide⟩
      deliveries := by simp [es₁, Event.Messaging, Event.DeliversTo, Event.Finishes]
      run := (Option.some_get _).symm
      settled := ⟨by decide +kernel, by decide +kernel⟩ }
  have h₂ : GoesThrough .inOrder s₀ es₂ ((run (step .inOrder) s₀ es₂).get (by decide +kernel)) :=
    { start := ⟨rfl, rfl⟩
      scheduled := ⟨by decide, by decide⟩
      deliveries := by simp [es₂, Event.Messaging, Event.DeliversTo, Event.Finishes]
      run := (Option.some_get _).symm
      settled := ⟨by decide +kernel, by decide +kernel⟩ }
  exact ⟨s₀, _, _, es₁, es₂, h₁, h₂, by simp [es₁, es₂],
    shownMessages_eq_of_undisturbed Fetch.succeeds_inOrder h₁ h₂ (by decide)
      (by decide +kernel) (by decide +kernel) (by decide +kernel)⟩

/-- **A message of one channel keeps that of another out.**  In the first run `hi` is
sent to `a` before it is sent to `b`; in the second it is sent to `b` only. -/
theorem exists_interference : ¬ ∀ (b : String) (s₀ t₁ t₂ : App) (es₁ es₂ : List Event),
    GoesThrough .inOrder s₀ es₁ t₁ → GoesThrough .inOrder s₀ es₂ t₂ →
      snapshotsFor b es₁ = snapshotsFor b es₂ →
      shownMessages b t₁.core.store = shownMessages b t₂.core.store := by
  intro h
  let hi : Document := ⟨"m", Message.toDict ⟨"hi", 3, "u", "U"⟩⟩
  let hi' : Document := ⟨"n", Message.toDict ⟨"hi", 4, "v", "V"⟩⟩
  let s₀ : App := (run (step .inOrder) .empty [.channelsSnapshot
    [(⟨"a", [("name", .string "A")]⟩, 5), (⟨"b", [("name", .string "B")]⟩, 5)], .next false,
    .next false, .saveBlock false, .saveBlock false, .merge [0, 1]]).get (by decide +kernel)
  let es₁ : List Event := [.messagesSnapshot "a" [(hi, 6)], .next false, .saveBlock false,
    .messagesSnapshot "b" [(hi', 7)], .next false, .saveBlock false]
  let es₂ : List Event := [.messagesSnapshot "b" [(hi', 7)], .next false, .saveBlock false]
  let t₁ : App := (run (step .inOrder) s₀ es₁).get (by decide +kernel)
  let t₂ : App := (run (step .inOrder) s₀ es₂).get (by decide +kernel)
  have h₁ : GoesThrough .inOrder s₀ es₁ t₁ :=
    { start := ⟨rfl, rfl⟩
      scheduled := ⟨by decide, by decide⟩
      deliveries := by simp [es₁, Event.Messaging, Event.DeliversTo, Event.Finishes]
      run := (Option.some_get _).symm
      settled := ⟨by decide +kernel, by decide +kernel⟩ }
  have h₂ : GoesThrough .inOrder s₀ es₂ t₂ :=
    { start := ⟨rfl, rfl⟩
      scheduled := ⟨by decide, by decide⟩
      deliveries := by simp [es₂, Event.Messaging, Event.DeliversTo, Event.Finishes]
      run := (Option.some_get _).symm
      settled := ⟨by decide +kernel, by decide +kernel⟩ }
  have hshown := h "b" s₀ t₁ t₂ es₁ es₂ h₁ h₂ (by decide)
  exact absurd hshown (by decide +kernel)

end App

end MessengerApp
