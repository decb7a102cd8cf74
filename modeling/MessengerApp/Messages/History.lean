import MessengerApp.Launches

/-!
# What a device remembers of a message

Rows of messages are only ever added.  A stored row keeps its place and its
values for good, however the app goes on and however often it is launched, and
of its channel it can only be deprived: no save attaches a stored message, and a
channel that is stored again after its deletion has a new identity, to which no
old message is linked.  As contents are unique, the row of a text is also the
last one the device stores for it.

## Main definitions

* `DBMessage.Continues` — a row and what has become of it.
* `CoreDataManager.Evolves` — the manager at two points of a run.

## Main results

* `evolves_of_step`, `evolves_of_run` — what relates any two states of a run.
* `message_permanent_of_run` — **stored messages are permanent.**
* `not_shown_of_removed` — **the messages of a channel whose row is removed are
  never shown again.**
* `eq_of_shown` — **over the history of a device a text is one message of one channel.**
-/

namespace MessengerApp

open Machine UniqueTable CoreDataManager

/-- The row `p'` is the row `p` at a later time: the same message, in the same channel or
in none. -/
structure DBMessage.Continues (p p' : DBMessage) : Prop where
  message : p'.message = p.message
  channel : ∀ o, p'.channel = some o → p.channel = some o

theorem DBMessage.Continues.refl (p : DBMessage) : p.Continues p := ⟨rfl, fun _ h => h⟩

theorem DBMessage.Continues.trans {p p' p'' : DBMessage} (h : p.Continues p')
    (h' : p'.Continues p'') : p.Continues p'' :=
  ⟨h'.message.trans h.message, fun o ho => h.channel o (h'.channel o ho)⟩

theorem DBMessage.continues_nullify (rows : List DBChannel) (p : DBMessage) :
    p.Continues (p.nullify rows) :=
  ⟨rfl, fun _ ho => (DBMessage.channel_nullify_eq_some.mp ho).1⟩

theorem DBMessage.Continues.content {p p' : DBMessage} (h : p.Continues p') :
    p'.content = p.content := congrArg Message.content h.message

namespace CoreDataManager

/-- The manager earlier and later in a run: stored messages have stayed in their places,
and whatever channel object was not known then is newer than all that were. -/
structure Evolves (m m' : CoreDataManager) : Prop where
  nextID : m.nextID ≤ m'.nextID
  channelObjects : ∀ r ∈ m'.channelObjects, r ∈ m.channelObjects ∨ m.nextID ≤ r.objectID
  messages : ∀ (i : ℕ) (p : DBMessage), m.store.messages[i]? = some p →
    ∃ p', m'.store.messages[i]? = some p' ∧ p.Continues p'

theorem Evolves.refl (m : CoreDataManager) : m.Evolves m :=
  ⟨Nat.le_refl _, fun _ hr => Or.inl hr, fun _ p hp => ⟨p, hp, .refl p⟩⟩

theorem Evolves.trans {m m' m'' : CoreDataManager} (h : m.Evolves m') (h' : m'.Evolves m'') :
    m.Evolves m'' where
  nextID := h.nextID.trans h'.nextID
  channelObjects := by
    intro r hr
    rcases h'.channelObjects r hr with hr | hnew
    · exact h.channelObjects r hr
    · exact Or.inr (h.nextID.trans hnew)
  messages := by
    intro i p hp
    obtain ⟨p', hp', hcont⟩ := h.messages i p hp
    obtain ⟨p'', hp'', hcont'⟩ := h'.messages i p' hp'
    exact ⟨p'', hp'', hcont.trans hcont'⟩

/-- A stored message is still stored. -/
theorem Evolves.exists_continues {m m' : CoreDataManager} (h : m.Evolves m') {p : DBMessage}
    (hp : p ∈ m.store.messages) : ∃ p' ∈ m'.store.messages, p.Continues p' := by
  obtain ⟨i, hi⟩ := List.mem_iff_getElem?.mp hp
  obtain ⟨p', hp', hcont⟩ := h.messages i p hi
  exact ⟨p', List.mem_of_getElem? hp', hcont⟩

/-- It is the only one with its content. -/
theorem Evolves.continues {m m' : CoreDataManager} (h : m.Evolves m') {p p' : DBMessage}
    (hp : p ∈ m.store.messages) (hp' : p' ∈ m'.store.messages) (hc : p'.content = p.content) :
    p.Continues p' := by
  obtain ⟨q, hq, hcont⟩ := h.exists_continues hp
  have hqp : p' = q := m'.store.messages_unique.eq_of_conflict (fun _ _ h => h.symm) hp' hq
    (hc.trans hcont.content.symm)
  exact hqp ▸ hcont

/-- A channel object with an identity that was in use is the one that had it. -/
theorem Evolves.mem_channelObjects {m m' : CoreDataManager} (h : m.Evolves m') {r : DBChannel}
    (hr : r ∈ m'.channelObjects) (hlt : r.objectID < m.nextID) : r ∈ m.channelObjects := by
  rcases h.channelObjects r hr with hr | hnew
  · exact hr
  · exact absurd hlt (Nat.not_lt.mpr hnew)

variable {F : Fetch} {m m' : CoreDataManager} {op : Op}

theorem nextID_le_of_step {cd : CoreData} (h : m.step cd op = some m') : m.nextID ≤ m'.nextID := by
  cases op with
  | call c fails =>
    obtain rfl := Option.some.inj h
    cases c with
    | saveChannel channel => exact Nat.le_succ _
    | saveMessage message identifier => exact Nat.le_refl _
    | deleteChannel object => cases fails <;> exact Nat.le_refl _
  | saveBlock fails =>
    obtain ⟨-, -, -, hnext⟩ := hasChanges_of_block h
    exact Nat.le_of_eq hnext.symm

theorem messages_of_step (h : m.step (.propertyStoreTrump F) op = some m') {i : ℕ} {p : DBMessage}
    (hp : m.store.messages[i]? = some p) :
    ∃ p', m'.store.messages[i]? = some p' ∧ p.Continues p' := by
  have hsame : m'.store = m.store →
      ∃ p', m'.store.messages[i]? = some p' ∧ p.Continues p' := fun heq =>
    ⟨p, by rw [heq, hp], .refl p⟩
  cases op with
  | call c fails =>
    obtain rfl := Option.some.inj h
    cases c with
    | saveChannel channel => exact hsame rfl
    | saveMessage message identifier => exact hsame rfl
    | deleteChannel object =>
      cases fails with
      | true => exact hsame rfl
      | false =>
        refine ⟨p.nullify (m.store.channels.filter (·.objectID ≠ object)), ?_,
          DBMessage.continues_nullify _ p⟩
        show (m.store.delete object).messages[i]? = _
        rw [PersistentStore.delete_messages, List.getElem?_map, hp, Option.map_some]
  | saveBlock fails =>
    obtain ⟨-, ⟨-, rfl⟩ | ⟨-, -, rfl⟩ | ⟨-, -, rfl⟩⟩ := runSaveBlock_cases h
    · exact hsame rfl
    · exact hsame rfl
    · obtain ⟨rest, hrest⟩ := m.store.messages_prefix_save m.insertedChannels m.insertedMessages
      refine ⟨p, ?_, .refl p⟩
      show (m.store.save .propertyStoreTrump m.insertedChannels m.insertedMessages).messages[i]? = _
      rw [← hrest]
      exact List.getElem?_append_left (List.getElem?_eq_some_iff.mp hp).1 ▸ hp

/-- **One operation.** -/
theorem evolves_of_step (h : m.step (.propertyStoreTrump F) op = some m') : m.Evolves m' where
  nextID := nextID_le_of_step h
  channelObjects := fun _ hr =>
    (channelObject_of_step h hr).imp id fun hnew => Nat.le_of_eq hnew.symm
  messages := fun _ _ hp => messages_of_step h hp

/-- **A new launch** only forgets what is pending. -/
theorem evolves_relaunch (m : CoreDataManager) : m.Evolves m.relaunch where
  nextID := Nat.le_refl _
  channelObjects := fun _ hr => Or.inl (List.mem_append_left _ (m.relaunch_channelObjects ▸ hr))
  messages := fun _ p hp => ⟨p, hp, .refl p⟩

end CoreDataManager

namespace App

variable {F : Fetch} {s t u : App} {es es' : List Life}

/-- **Any two states of a run.** -/
theorem evolves_of_run (hrun : run (lifeStep (.propertyStoreTrump F)) s es = some t) :
    s.core.Evolves t.core := by
  refine rel_of_run (R := fun s t => s.core.Evolves t.core) (fun s => .refl s.core)
    (fun _ _ _ h h' => h.trans h') (fun s e t h => ?_) hrun
  cases e with
  | event e =>
    rcases step_core h with ⟨-, hcore⟩ | ⟨op, -, hop⟩
    · exact hcore ▸ .refl s.core
    · exact evolves_of_step hop
  | launch =>
    obtain rfl := Option.some.inj h
    exact evolves_relaunch s.core

/-- **Stored messages are permanent.**  However the app goes on and however often it is
launched, the row at each place of the store keeps its values, keeps its channel or loses it,
and stays the only one with its content. -/
theorem message_permanent_of_run (hrun : run (lifeStep (.propertyStoreTrump F)) s es = some t)
    {i : ℕ} {p : DBMessage} (hp : s.core.store.messages[i]? = some p) :
    ∃ p', t.core.store.messages[i]? = some p' ∧ p'.message = p.message ∧
      (p'.channel = p.channel ∨ p'.channel = none) ∧
      ∀ q ∈ t.core.store.messages, q.content = p.content → q = p' := by
  obtain ⟨p', hp', hcont⟩ := (evolves_of_run hrun).messages i p hp
  refine ⟨p', hp', hcont.message, ?_, fun q hq hc => ?_⟩
  · cases ho : p'.channel with
    | none => exact Or.inr rfl
    | some o => exact Or.inl (hcont.channel o ho).symm
  · exact t.core.store.messages_unique.eq_of_conflict (fun _ _ h => h.symm) hq
      (List.mem_of_getElem? hp') (hc.trans hcont.content.symm)

/-- A deletion takes the channel from the row and nothing else, and the app is launched again. -/
theorem message_permanent_of_run_delete : ∃ s t : App, ∃ p p' : DBMessage,
    s.core.store.messages[0]? = some p ∧ t.core.store.messages[0]? = some p' ∧
      p'.message = p.message ∧ (p'.channel = p.channel ∨ p'.channel = none) ∧
      p'.channel = none ∧ ∀ q ∈ t.core.store.messages, q.content = p.content → q = p' := by
  let a : Document := ⟨"a", [("name", .string "A")]⟩
  let hi : Document := ⟨"m", [("content", .string "hi"), ("created", .timestamp ⟨3⟩),
    ("senderid", .string "u"), ("senderName", .string "U")]⟩
  let s : App := (run (lifeStep .inOrder) .empty ([.channelsSnapshot [(a, 5)],
    .next false, .saveBlock false, .messagesSnapshot "a" [(hi, 6)], .next false,
    .saveBlock false].map .event)).get (by decide +kernel)
  have hp : s.core.store.messages[0]? = some ⟨"hi", 3, "u", "U", some 0⟩ := rfl
  have hsome : (run (lifeStep .inOrder) s
    [.event (.deleteChannel 0 false), .launch]).isSome := rfl
  obtain ⟨p', hp', hmsg, hchan, honly⟩ :=
    message_permanent_of_run (Option.some_get hsome).symm hp
  have hnone : p'.channel = none := by
    have hrow := Option.some.inj (hp'.symm.trans (show _ = some ⟨"hi", 3, "u", "U", none⟩ from rfl))
    rw [hrow]
  exact ⟨s, _, _, p', hp, hp', hmsg, hchan, hnone, honly⟩

/-- A message that is shown was already shown, in the same channel, whenever its text
was stored earlier. -/
theorem shown_of_shown_later (hrun : run (lifeStep (.propertyStoreTrump F)) s es = some t)
    {c : String} {p p' : DBMessage} (hp : p ∈ s.core.store.messages)
    (hp' : p' ∈ fetchedResult c t.core.store) (hcontent : p'.content = p.content) :
    p'.message = p.message ∧ ∃ r ∈ s.core.channelObjects, p.channel = some r.objectID ∧
      r.identifier = c ∧ r ∈ t.core.store.channels := by
  have hevolves := evolves_of_run hrun
  obtain ⟨hmem, r, hr, hchan, hid⟩ := mem_fetchedResult.mp hp'
  have hlink := (PersistentStore.channelOf_eq_some hchan).2
  have hcont := hevolves.continues hp hmem hcontent
  have hlink₀ := hcont.channel _ hlink
  -- the link was there before, so its identity was in use and still is that of the same row
  have hlt := s.core.links_lt p (List.mem_append_left _ hp) _ hlink₀
  have hr₀ := hevolves.mem_channelObjects (List.mem_append_left _ hr) hlt
  exact ⟨hcont.message, r, hr₀, hlink₀, hid, hr⟩

/-- **The messages of a channel whose row has been removed**, by a swipe or by the sync,
**are never shown again**, whether or not the channel and its messages are delivered again. -/
theorem not_shown_of_removed (hrun : run (lifeStep (.propertyStoreTrump F)) s es = some t)
    (hrun' : run (lifeStep (.propertyStoreTrump F)) t es' = some u) {r : DBChannel}
    (hr : r ∈ s.core.store.channels) (hgone : r ∉ t.core.store.channels) {message : Message}
    (hm : message ∈ shownMessages r.identifier s.core.store) (c : String) :
    ∀ message' ∈ shownMessages c u.core.store, message'.content ≠ message.content := by
  intro message' hm' hcontent
  obtain ⟨p, hp, rfl⟩ := List.mem_map.mp hm
  obtain ⟨p', hp', rfl⟩ := List.mem_map.mp hm'
  obtain ⟨hstored, r₀, hr₀, hchan, hid⟩ := mem_fetchedResult.mp hp
  obtain rfl : r₀ = r := PersistentStore.eq_of_identifier hr₀ hr hid
  have hlink := (PersistentStore.channelOf_eq_some hchan).2
  obtain ⟨q, hq, hcont⟩ := (evolves_of_run hrun).exists_continues hstored
  obtain ⟨-, r', hr', hlink', -, -⟩ := shown_of_shown_later hrun' hq hp'
    (hcontent.trans hcont.content.symm)
  -- the row it hangs on now hung on it before, so it is the removed one and not just pending
  have hkept := hcont.channel _ hlink'
  have hlt := s.core.ids_lt r₀ (List.mem_append_left _ hr)
  have ho : r₀.objectID = r'.objectID := Option.some.inj (hlink.symm.trans hkept)
  obtain ⟨r'', hr'', hro⟩ := t.core.store.channel_stored q hq _ hlink'
  have hold := (evolves_of_run hrun).mem_channelObjects (List.mem_append_left _ hr'')
    (hro.trans ho.symm ▸ hlt)
  have heq : r'' = r₀ :=
    eq_of_objectID hold (List.mem_append_left _ hr) (hro.trans ho.symm)
  exact hgone (heq ▸ hr'')

/-- The channel is deleted, and after another launch stored and its message delivered again. -/
theorem not_shown_of_removed_again : ∃ (es es' : List Life) (s t u : App) (r : DBChannel),
    run (lifeStep .inOrder) s es = some t ∧
      run (lifeStep .inOrder) t es' = some u ∧ r ∈ s.core.store.channels ∧
      ⟨"hi", 3, "u", "U"⟩ ∈ shownMessages r.identifier s.core.store ∧
      (∃ r' ∈ u.core.store.channels, r'.identifier = r.identifier) ∧
      ∀ message' ∈ shownMessages r.identifier u.core.store, message'.content ≠ "hi" := by
  let a : Document := ⟨"a", [("name", .string "A")]⟩
  let hi : Document := ⟨"m", [("content", .string "hi"), ("created", .timestamp ⟨3⟩),
    ("senderid", .string "u"), ("senderName", .string "U")]⟩
  let r : DBChannel := ⟨0, "a", "A", some "Last Message", some 5⟩
  let s : App := (run (lifeStep .inOrder) .empty ([.channelsSnapshot [(a, 5)],
    .next false, .saveBlock false, .messagesSnapshot "a" [(hi, 6)], .next false,
    .saveBlock false].map .event)).get (by decide +kernel)
  let t : App := (run (lifeStep .inOrder) s [.event (.deleteChannel 0 false)]).get
    (by decide +kernel)
  let u : App := (run (lifeStep .inOrder) t (.launch :: [.channelsSnapshot [(a, 8)],
    .next false, .saveBlock false, .messagesSnapshot "a" [(hi, 9)], .next false,
    .saveBlock false].map .event)).get (by decide +kernel)
  have hrun : run (lifeStep .inOrder) s _ = some t := (Option.some_get _).symm
  have hrun' : run (lifeStep .inOrder) t _ = some u := (Option.some_get _).symm
  have hr : r ∈ s.core.store.channels := by decide +kernel
  have hgone : r ∉ t.core.store.channels := by decide +kernel
  have hm : ⟨"hi", 3, "u", "U"⟩ ∈ shownMessages r.identifier s.core.store := by decide +kernel
  have hback : ∃ r' ∈ u.core.store.channels, r'.identifier = r.identifier := by decide +kernel
  exact ⟨_, _, s, t, u, r, hrun, hrun', hr, hm, hback,
    not_shown_of_removed hrun hrun' hr hgone hm r.identifier⟩

/-- **A text is one message of one channel**: whatever a device shows at any two times of a run,
equal contents are one message in one conversation. -/
theorem eq_of_shown {s₀ : App} (hs : Visits (lifeStep (.propertyStoreTrump F)) s₀ es s)
    (ht : Visits (lifeStep (.propertyStoreTrump F)) s₀ es t) {c c' : String}
    {message message' : Message}
    (hm : message ∈ shownMessages c s.core.store)
    (hm' : message' ∈ shownMessages c' t.core.store)
    (hcontent : message'.content = message.content) : message' = message ∧ c' = c := by
  obtain ⟨p, hp, rfl⟩ := List.mem_map.mp hm
  obtain ⟨p', hp', rfl⟩ := List.mem_map.mp hm'
  -- whichever was shown later was, in the same channel, stored before
  have hlater : ∀ {s t : App} {es : List Life} {c c' : String} {p p' : DBMessage},
      run (lifeStep (.propertyStoreTrump F)) s es = some t → p ∈ fetchedResult c s.core.store →
        p' ∈ fetchedResult c' t.core.store → p'.content = p.content →
          p'.message = p.message ∧ c' = c := by
    intro s t es c c' p p' hrun hp hp' hcontent
    obtain ⟨hstored, r, hr, hchan, rfl⟩ := mem_fetchedResult.mp hp
    obtain ⟨hmsg, r', hr', hlink', rfl, -⟩ := shown_of_shown_later hrun hstored hp' hcontent
    have hlink := (PersistentStore.channelOf_eq_some hchan).2
    have ho : r'.objectID = r.objectID := Option.some.inj (hlink'.symm.trans hlink)
    exact ⟨hmsg, by rw [eq_of_objectID hr' (List.mem_append_left _ hr) ho]⟩
  rcases run_or_run_of_visits hs ht with ⟨es', hrun⟩ | ⟨es', hrun⟩
  · exact hlater hrun hp hp' hcontent
  · obtain ⟨hmsg, hid⟩ := hlater hrun hp' hp hcontent.symm
    exact ⟨hmsg.symm, hid.symm⟩

/-- In another launch, a message with the same text is delivered for another channel. -/
theorem eq_of_shown_twice : ∃ (es : List Life) (s t : App) (c c' : String)
    (message message' : Message), Visits (lifeStep .inOrder) .empty es s ∧
      Visits (lifeStep .inOrder) .empty es t ∧
      message ∈ shownMessages c s.core.store ∧ message' ∈ shownMessages c' t.core.store ∧
      message' = message ∧ c' = c := by
  let a : Document := ⟨"a", [("name", .string "A")]⟩
  let b : Document := ⟨"b", [("name", .string "B")]⟩
  let hi : Document := ⟨"m", [("content", .string "hi"), ("created", .timestamp ⟨3⟩),
    ("senderid", .string "u"), ("senderName", .string "U")]⟩
  let hi' : Document := ⟨"n", [("content", .string "hi"), ("created", .timestamp ⟨4⟩),
    ("senderid", .string "v"), ("senderName", .string "V")]⟩
  let pre : List Life := [.channelsSnapshot [(a, 5), (b, 5)], .next false, .next false,
    .saveBlock false, .messagesSnapshot "a" [(hi, 6)], .next false, .saveBlock false].map .event
  let post : List Life := .launch ::
    [.messagesSnapshot "b" [(hi', 7)], .next false, .saveBlock false].map .event
  let s : App := (run (lifeStep .inOrder) .empty pre).get (by decide +kernel)
  let t : App := (run (lifeStep .inOrder) .empty (pre ++ post)).get (by decide +kernel)
  have hs : Visits (lifeStep .inOrder) .empty (pre ++ post) s :=
    ⟨pre, List.prefix_append _ _, (Option.some_get _).symm⟩
  have ht : Visits (lifeStep .inOrder) .empty (pre ++ post) t :=
    visits_of_run _ (Option.some_get _).symm
  have hm : ⟨"hi", 3, "u", "U"⟩ ∈ shownMessages "a" s.core.store := by decide +kernel
  have hm' : ⟨"hi", 3, "u", "U"⟩ ∈ shownMessages "a" t.core.store := by decide +kernel
  exact ⟨_, s, t, _, _, _, _, hs, ht, hm, hm', eq_of_shown hs ht hm hm' rfl⟩

end App

end MessengerApp
