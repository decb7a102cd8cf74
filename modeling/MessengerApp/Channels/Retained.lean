import MessengerApp.App

/-!
# What channel sync leaves alone

Every growing snapshot inserts a second object for each channel that is already
stored, and every shrinking one deletes rows.  Neither touches the row of a
channel that all these snapshots list: its duplicates lose against it at the
next save, and pruning only names rows that the snapshot does not list.

## Main definitions

* `Event.IsSync`, `Event.Lists` — the events of channel sync, and those that do not
  leave a channel out.
* `App.Syncing` — what holds of the app while it only syncs channels.
* `App.Retained` — a row is stored, with its messages, and no deletion of it is
  under way.
* `App.FirstCommitted` — the run after which an identifier is first stored.

## Main results

* `syncing_of_step`, `retained_of_step` — one event.
* `retained_of_run` — **a channel that every later snapshot lists keeps its row
  and its messages.**
-/

namespace MessengerApp

open Machine UniqueTable CoreDataManager

/-- The events of channel sync: snapshots of the channels, and what follows from them. -/
def Event.IsSync : Event → Prop
  | .messagesSnapshot _ _ => False
  | .deleteChannel _ _ => False
  | _ => True

/-- The event is not a snapshot of the channels that leaves `identifier` out. -/
def Event.Lists (identifier : String) : Event → Prop
  | .channelsSnapshot snap => identifier ∈ snap.map (·.1.documentID)
  | _ => True

instance (identifier : String) : DecidablePred (Event.Lists identifier) := fun e =>
  match e with
  | .channelsSnapshot snap =>
      inferInstanceAs (Decidable (identifier ∈ snap.map (·.1.documentID)))
  | .messagesSnapshot _ _ | .next _ | .saveBlock _ | .deleteChannel _ _ | .merge _ => isTrue trivial

namespace App

/-- While the app only syncs channels, no message is pending or about to be saved,
and no row is both pending and about to be deleted. -/
structure Syncing (s : App) : Prop where
  insertedMessages : s.core.insertedMessages = []
  main : ∀ message identifier, .saveMessage message identifier ∉ s.main
  deletions : ∀ o, .deleteChannel o ∈ s.main →
    o < s.core.nextID ∧ ∀ r ∈ s.core.insertedChannels, r.objectID ≠ o

/-- The row is stored with the messages `ms`, and is not about to be deleted. -/
structure Retained (r : DBChannel) (ms : List DBMessage) (s : App) : Prop where
  stored : r ∈ s.core.store.channels
  attached : s.core.store.attached r = ms
  main : .deleteChannel r.objectID ∉ s.main

variable {F : Fetch} {s s' : App} {r : DBChannel} {ms : List DBMessage} {e : Event}

theorem syncing_of_idle (hmain : s.main = []) (hins : s.core.insertedMessages = []) :
    s.Syncing where
  insertedMessages := hins
  main := by simp [hmain]
  deletions := by simp [hmain]

/-! ### One event -/

/-- A call adds no row to the store. -/
theorem channels_perform_sublist (cd : CoreData) (m : CoreDataManager) (fails : Bool) (c : Call) :
    (m.perform cd fails c).store.channels.Sublist m.store.channels := by
  cases c with
  | saveChannel channel => exact List.Sublist.refl _
  | saveMessage message identifier => exact List.Sublist.refl _
  | deleteChannel object =>
    cases fails with
    | true => exact List.Sublist.refl _
    | false => exact List.filter_sublist

theorem syncing_of_step (hs : s.Syncing) (he : e.IsSync)
    (h : s.step (.propertyStoreTrump F) e = some s') : s'.Syncing := by
  cases e with
  | channelsSnapshot snap =>
    obtain ⟨-, rfl⟩ := step_channelsSnapshot.mp h
    refine ⟨hs.insertedMessages, ?_, ?_⟩
    · intro message identifier hc
      rcases mem_checkingTheRelevance hc with ⟨r, -, -, heq⟩ | ⟨channel, -, heq⟩
      · exact absurd heq (by simp)
      · exact absurd heq (by simp)
    · intro o hc
      rcases mem_checkingTheRelevance hc with ⟨r, hr, -, heq⟩ | ⟨channel, -, heq⟩
      · -- the row is stored, so its identity is taken and no pending row has it
        have ho : o = r.objectID := by simpa using heq
        subst ho
        refine ⟨s.core.ids_lt r (List.mem_append_left _ hr), fun p hp hpr => ?_⟩
        have hnodup := s.core.ids_nodup
        rw [List.map_append, List.nodup_append] at hnodup
        exact hnodup.2.2 _ (List.mem_map_of_mem hr) _ (List.mem_map_of_mem hp) hpr.symm
      · exact absurd heq (by simp)
  | messagesSnapshot channelIdentifier snap => exact absurd he not_false
  | next fails =>
    obtain ⟨c, cs, hmain, rfl⟩ := step_next.mp h
    have hsub : ∀ c' ∈ cs, c' ∈ s.main := fun c' hc' => hmain ▸ List.mem_cons_of_mem c hc'
    cases c with
    | saveChannel channel =>
      refine ⟨hs.insertedMessages, fun message id hc => hs.main message id (hsub _ hc), ?_⟩
      intro o hc
      obtain ⟨hlt, hne⟩ := hs.deletions o (hsub _ hc)
      refine ⟨Nat.lt_succ_of_lt hlt, fun p hp => ?_⟩
      rcases List.mem_append.mp hp with hp | hp
      · exact hne p hp
      · rw [List.mem_singleton.mp hp]
        exact Nat.ne_of_gt hlt
    | saveMessage message identifier =>
      exact absurd (hmain ▸ List.mem_cons_self) (hs.main message identifier)
    | deleteChannel object =>
      refine ⟨?_, fun message id hc => hs.main message id (hsub _ hc), fun o hc => ?_⟩
      · exact (deleteChannel_insertedMessages _ object fails).trans hs.insertedMessages
      · have hprev := hs.deletions o (hsub _ hc)
        cases fails <;> exact hprev
  | saveBlock fails =>
    obtain ⟨core, hcore, rfl⟩ := step_saveBlock.mp h
    obtain ⟨hch, -, -, hnext⟩ := hasChanges_of_block hcore
    obtain ⟨hchan, hmsg⟩ := hasChanges_eq_false_iff.mp hch
    refine ⟨hmsg, hs.main, fun o hc => ?_⟩
    show o < core.nextID ∧ ∀ r ∈ core.insertedChannels, r.objectID ≠ o
    rw [hchan, hnext]
    exact ⟨(hs.deletions o hc).1, by simp⟩
  | deleteChannel object fails => exact absurd he not_false
  | merge objects =>
    obtain ⟨-, rfl⟩ := step_merge.mp h
    exact ⟨hs.insertedMessages, hs.main, hs.deletions⟩

/-- **One event of channel sync that does not leave the channel out keeps its row
and its messages.** -/
theorem retained_of_step (hs : s.Syncing) (hr : Retained r ms s) (he : e.IsSync)
    (hlist : e.Lists r.identifier) (h : s.step (.propertyStoreTrump F) e = some s') :
    Retained r ms s' := by
  obtain ⟨hstored, hatt, hmain⟩ := hr
  cases e with
  | channelsSnapshot snap =>
    obtain ⟨-, rfl⟩ := step_channelsSnapshot.mp h
    refine ⟨hstored, hatt, fun hc => ?_⟩
    rcases mem_checkingTheRelevance hc with ⟨r', hr', hid, heq⟩ | ⟨channel, -, heq⟩
    · -- a row with that identity would be the listed row itself
      have ho : r.objectID = r'.objectID := by simpa using heq
      rw [List.inj_on_of_nodup_map s.core.stored_ids_nodup hstored hr' ho] at hlist
      rw [map_identifier_actualChannels] at hid
      exact hid hlist
    · exact absurd heq (by simp)
  | messagesSnapshot channelIdentifier snap => exact absurd he not_false
  | next fails =>
    obtain ⟨c, cs, hcs, rfl⟩ := step_next.mp h
    have hmain' : .deleteChannel r.objectID ∉ cs := fun hc =>
      hmain (hcs ▸ List.mem_cons_of_mem c hc)
    cases c with
    | saveChannel channel => exact ⟨hstored, hatt, hmain'⟩
    | saveMessage message identifier => exact ⟨hstored, hatt, hmain'⟩
    | deleteChannel object =>
      cases fails with
      | true => exact ⟨hstored, hatt, hmain'⟩
      | false =>
        have hne : r.objectID ≠ object := fun ho => hmain (hcs ▸ ho ▸ List.mem_cons_self)
        refine ⟨List.mem_filter.mpr ⟨hstored, by simpa using hne⟩, ?_, hmain'⟩
        exact (PersistentStore.attached_delete hstored hne).trans hatt
  | saveBlock fails =>
    obtain ⟨core, hcore, rfl⟩ := step_saveBlock.mp h
    obtain ⟨-, ⟨-, rfl⟩ | ⟨-, -, rfl⟩ | ⟨-, -, rfl⟩⟩ := runSaveBlock_cases hcore
    · exact ⟨hstored, hatt, hmain⟩
    · exact ⟨hstored, hatt, hmain⟩
    · refine ⟨PersistentStore.mem_save_channels_of_mem _ _ hstored, ?_, hmain⟩
      have hmsgs : (s.core.commit (.propertyStoreTrump F)).store.messages =
          s.core.store.messages := by
        show (s.core.store.save .propertyStoreTrump _ s.core.insertedMessages).messages = _
        rw [hs.insertedMessages, PersistentStore.save_messages_nil]
      show (s.core.commit (.propertyStoreTrump F)).store.attached r = ms
      rw [← hatt, PersistentStore.attached, hmsgs]
      rfl
  | deleteChannel object fails => exact absurd he not_false
  | merge objects =>
    obtain ⟨-, rfl⟩ := step_merge.mp h
    exact ⟨hstored, hatt, hmain⟩

/-! ### A run -/

/-- The events `pre` lead to the first state in which a row with the identifier of
`r` is stored, and `r` is that row. -/
structure FirstCommitted (F : Fetch) (s₀ : App) (pre : List Event) (r : DBChannel) (s : App) :
    Prop where
  run : run (step (.propertyStoreTrump F)) s₀ pre = some s
  stored : r ∈ s.core.store.channels
  first : ∀ pre', pre' <+: pre → pre' ≠ pre → ∀ u,
    Machine.run (step (.propertyStoreTrump F)) s₀ pre' = some u →
      ∀ r' ∈ u.core.store.channels, r'.identifier ≠ r.identifier

/-- A row gets into the store only when a block commits it. -/
theorem stored_or_inserted_of_step {cd : CoreData} (h : s.step cd e = some s')
    (hr : r ∈ s'.core.store.channels) :
    r ∈ s.core.store.channels ∨ (r ∈ s.core.insertedChannels ∧ s'.main = s.main) := by
  rcases step_core h with ⟨-, hcore⟩ | ⟨op, hop, hstep⟩
  · exact Or.inl (hcore ▸ hr)
  · cases op with
    | call c fails =>
      have hcall := Option.some.inj hstep
      exact Or.inl ((channels_perform_sublist cd s.core fails c).subset (hcall ▸ hr))
    | saveBlock fails =>
      have hmain : s'.main = s.main := by
        cases e with
        | saveBlock fails' =>
          obtain ⟨core, -, rfl⟩ := step_saveBlock.mp h
          rfl
        | next fails' =>
          obtain ⟨c, -, heq⟩ := Option.map_eq_some_iff.mp hop
          exact absurd heq (by simp)
        | channelsSnapshot _ => exact absurd hop (by simp [App.op])
        | messagesSnapshot _ _ => exact absurd hop (by simp [App.op])
        | deleteChannel _ _ => exact absurd hop (by simp [App.op])
        | merge _ => exact absurd hop (by simp [App.op])
      obtain ⟨-, ⟨-, hcore⟩ | ⟨-, -, hcore⟩ | ⟨-, -, hcore⟩⟩ := runSaveBlock_cases hstep
      · rw [hcore] at hr
        exact Or.inl hr
      · rw [hcore] at hr
        exact Or.inl hr
      · rw [hcore] at hr
        have hmem := (PersistentStore.save_channels_sublist cd.toMergePolicy _ _ _).subset hr
        exact (List.mem_append.mp hmem).imp id fun hins => ⟨hins, hmain⟩

/-- A row that has just been committed was pending before, so no deletion of it is
under way. -/
theorem retained_of_firstCommitted {s₀ : App} {pre : List Event} (hmain : s₀.main = [])
    (hins : s₀.core.insertedMessages = []) (hpre : ∀ e ∈ pre, e.IsSync)
    (h : FirstCommitted F s₀ pre r s) : s.Syncing ∧ Retained r (s.core.store.attached r) s := by
  obtain ⟨hrun, hstored, hfirst⟩ := h
  have hinv : ∀ {es : List Event} {t : App}, (∀ e ∈ es, e.IsSync) →
      Machine.run (step (.propertyStoreTrump F)) s₀ es = some t → t.Syncing := by
    intro es t hes hrun
    exact invariant Syncing Event.IsSync (fun _ _ _ hI ha hstep => syncing_of_step hI ha hstep)
      hes (syncing_of_idle hmain hins) hrun
  refine ⟨hinv hpre hrun, hstored, rfl, ?_⟩
  rcases List.eq_nil_or_concat' pre with rfl | ⟨pre', e, rfl⟩
  · obtain rfl := Option.some.inj hrun
    rw [hmain]
    exact List.not_mem_nil
  · obtain ⟨u, hu, hstep⟩ := (run_snoc_eq_some _).mp hrun
    have hu' : u.Syncing := hinv (fun e he => hpre e (List.mem_append_left _ he)) hu
    rcases stored_or_inserted_of_step hstep hstored with hr | ⟨hr, hmain'⟩
    · exact absurd rfl (hfirst pre' (List.prefix_append _ _) (by simp) u hu r hr)
    · rw [hmain']
      exact fun hdel => (hu'.deletions _ hdel).2 r hr rfl

/-- **Channel sync never damages a retained channel.**  From the state in which a
channel was first committed on, as long as every snapshot lists it, its row stays
stored and keeps the messages attached to it. -/
theorem retained_of_run {s₀ t : App} {pre post : List Event} (hmain : s₀.main = [])
    (hins : s₀.core.insertedMessages = []) (hsync : ∀ e ∈ pre ++ post, e.IsSync)
    (hcommit : FirstCommitted F s₀ pre r s) (hlist : ∀ e ∈ post, e.Lists r.identifier)
    (hvisits : Visits (step (.propertyStoreTrump F)) s post t) :
    r ∈ t.core.store.channels ∧ t.core.store.attached r = s.core.store.attached r := by
  have hstart := retained_of_firstCommitted hmain hins
    (fun e he => hsync e (List.mem_append_left _ he)) hcommit
  have hinv : t.Syncing ∧ Retained r (s.core.store.attached r) t :=
    invariant_of_meets (fun u => u.Syncing ∧ Retained r (s.core.store.attached r) u)
      (fun _ e => e.IsSync ∧ e.Lists r.identifier)
      (fun _ _ _ hI he hstep => ⟨syncing_of_step hI.1 he.1 hstep,
        retained_of_step hI.1 hI.2 he.1 he.2 hstep⟩)
      post s t hstart
      (meets_of_forall_mem post s fun e he =>
        ⟨hsync e (List.mem_append_right _ he), hlist e he⟩)
      hvisits
  exact ⟨hinv.2.stored, hinv.2.attached⟩

/-- Channel `a` and its message stay while `b` comes and goes. -/
theorem retained_of_run_growing : ∃ s t : App,
    FirstCommitted .inOrder s [] ⟨0, "a", "A", some "Last Message", some 5⟩ s ∧
      s.core.store.attached ⟨0, "a", "A", some "Last Message", some 5⟩ =
        [⟨"hi", 3, "u", "U", some 0⟩] ∧
      ⟨0, "a", "A", some "Last Message", some 5⟩ ∈ t.core.store.channels ∧
      t.core.store.attached ⟨0, "a", "A", some "Last Message", some 5⟩ =
        s.core.store.attached ⟨0, "a", "A", some "Last Message", some 5⟩ := by
  let a : Document := ⟨"a", [("name", .string "A")]⟩
  let b : Document := ⟨"b", [("name", .string "B")]⟩
  let hi : Document := ⟨"m", [("content", .string "hi"), ("created", .timestamp ⟨3⟩),
    ("senderid", .string "u"), ("senderName", .string "U")]⟩
  let s : App := (run (step .inOrder) .empty [.channelsSnapshot [(a, 5)], .next false,
    .saveBlock false, .messagesSnapshot "a" [(hi, 6)], .next false, .saveBlock false,
    .merge [0]]).get rfl
  have hfirst : FirstCommitted .inOrder s [] ⟨0, "a", "A", some "Last Message", some 5⟩ s :=
    { run := rfl
      stored := by decide
      first := fun pre' hpre hne => absurd (List.prefix_nil.mp hpre) hne }
  have hsome : (run (step .inOrder) s [.channelsSnapshot [(a, 7), (b, 7)],
    .next false, .next false, .saveBlock false, .saveBlock true, .merge [2],
    .channelsSnapshot [(a, 8)], .next false]).isSome := by decide +kernel
  have hlist : ∀ e ∈ [.channelsSnapshot [(a, 7), (b, 7)], .next false, .next false,
      .saveBlock false, .saveBlock true, .merge [2], .channelsSnapshot [(a, 8)], .next false],
      Event.Lists "a" e := by decide
  have hkeep := retained_of_run rfl rfl (by simp [Event.IsSync]) hfirst hlist
    (visits_of_run _ (Option.some_get hsome).symm)
  exact ⟨s, _, hfirst, rfl, hkeep⟩

end App

end MessengerApp
