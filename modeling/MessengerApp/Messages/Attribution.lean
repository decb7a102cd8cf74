import MessengerApp.App

/-!
# Whose messages a channel shows

A message object gets its channel once, from the fetch made at its insert, and
after that can only lose it.  As identities are never used twice, the row it
leads to is the row that was fetched, so its identifier is that of the listener
that saved the message.

## Main definitions

* `Delivered` — a message was decoded from a snapshot delivered for an identifier.
* `CoreDataManager.Attributed` — every link, stored or pending, leads to a channel
  that the message was delivered for.
* `CoreDataManager.Removes` — the operations that take a channel object away.
* `CoreDataManager.Becomes` — a message object before and after an operation.

## Main results

* `channelObject_of_step`, `messageObject_of_step` — what one operation makes of the objects.
* `attributed_of_step` — it keeps links right.
* `attributed_of_run` — every reachable state.
* `count_shownMessages_le` — **a channel shows only messages delivered for it, and
  none of them more often than a snapshot lists it.**
-/

namespace MessengerApp

open Machine UniqueTable CoreDataManager

/-- Some snapshot among the events delivered the message for the identifier. -/
def Delivered (es : List Event) (identifier : String) (message : Message) : Prop :=
  ∃ snap, .messagesSnapshot identifier snap ∈ es ∧ message ∈ channelMessages snap

theorem Delivered.append {es : List Event} {identifier : String} {message : Message}
    (h : Delivered es identifier message) (e : Event) :
    Delivered (es ++ [e]) identifier message := by
  obtain ⟨snap, hsnap, hm⟩ := h
  exact ⟨snap, List.mem_append_left _ hsnap, hm⟩

namespace CoreDataManager

variable {cd : CoreData} {m m' : CoreDataManager} {op : Op}

/-- Every link leads to a channel that, as `D` says, the message belongs to. -/
def Attributed (D : String → Message → Prop) (m : CoreDataManager) : Prop :=
  ∀ p ∈ m.messageObjects, ∀ r ∈ m.channelObjects, p.channel = some r.objectID →
    D r.identifier p.message

/-- **Where a channel object comes from**: it was there before, or its identity is new. -/
theorem channelObject_of_step (h : m.step cd op = some m') {r : DBChannel}
    (hr : r ∈ m'.channelObjects) : r ∈ m.channelObjects ∨ r.objectID = m.nextID := by
  cases op with
  | call c fails =>
    obtain rfl := Option.some.inj h
    cases c with
    | saveChannel channel =>
      rcases List.mem_append.mp hr with hr | hr
      · exact Or.inl (List.mem_append_left _ hr)
      · rcases List.mem_append.mp hr with hr | hr
        · exact Or.inl (List.mem_append_right _ hr)
        · rw [List.mem_singleton.mp hr]
          exact Or.inr rfl
    | saveMessage message identifier => exact Or.inl hr
    | deleteChannel object =>
      cases fails with
      | true => exact Or.inl hr
      | false =>
        have hsub : (m.store.channels.filter (·.objectID ≠ object) ++ m.insertedChannels).Sublist
            m.channelObjects := List.filter_sublist.append (List.Sublist.refl _)
        exact Or.inl (hsub.subset hr)
  | saveBlock fails =>
    rw [(objects_eq_store_of_block h).1] at hr
    obtain ⟨-, ⟨-, rfl⟩ | ⟨-, -, rfl⟩ | ⟨-, -, rfl⟩⟩ := runSaveBlock_cases h
    · exact Or.inl (List.mem_append_left _ hr)
    · exact Or.inl (List.mem_append_left _ hr)
    · exact Or.inl ((m.store.save_channels_sublist cd.toMergePolicy _ _).subset hr)

/-- What a new channel object is: the row of the channel that has just been saved. -/
theorem channelObject_origin (h : m.step cd op = some m') {r : DBChannel}
    (hr : r ∈ m'.channelObjects) :
    r ∈ m.channelObjects ∨
      ∃ channel fails, op = .call (.saveChannel channel) fails ∧ r = channel.row m.nextID := by
  -- only an insert uses the next identity up
  have hold : m'.nextID = m.nextID → r ∈ m.channelObjects := by
    intro hnext
    have hlt : r.objectID < m'.nextID := m'.ids_lt r hr
    rcases channelObject_of_step h hr with hr | hnew
    · exact hr
    · rw [hnext, hnew] at hlt
      exact absurd hlt (Nat.lt_irrefl _)
  cases op with
  | call c fails =>
    obtain rfl := Option.some.inj h
    cases c with
    | saveChannel channel =>
      rcases List.mem_append.mp hr with hr | hr
      · exact Or.inl (List.mem_append_left _ hr)
      · rcases List.mem_append.mp hr with hr | hr
        · exact Or.inl (List.mem_append_right _ hr)
        · exact Or.inr ⟨channel, fails, rfl, List.mem_singleton.mp hr⟩
    | saveMessage message identifier => exact Or.inl (hold rfl)
    | deleteChannel object => cases fails <;> exact Or.inl (hold rfl)
  | saveBlock fails => exact Or.inl (hold (hasChanges_of_block h).2.2.2)

/-- What takes a channel object away from the messages that are attached to it. -/
inductive Removes (cd : CoreData) (m : CoreDataManager) (r : DBChannel) : Op → Prop
  /-- Its row is deleted, by a swipe or by pruning. -/
  | deleted (hr : r ∈ m.store.channels) :
      Removes cd m r (.call (.deleteChannel r.objectID) false)
  /-- A save keeps an object that conflicts with it, and not the object itself. -/
  | discarded {r' : DBChannel} (hr : r ∈ m.channelObjects)
      (hr' : r' ∈ cd.channels.keep m.store.channels m.insertedChannels)
      (hconflict : r'.Conflicts r)
      (hlost : r ∉ cd.channels.keep m.store.channels m.insertedChannels) :
      Removes cd m r (.saveBlock false)

/-- An object that is removed is gone. -/
theorem Removes.notMem {r : DBChannel} (hr : Removes cd m r op) (h : m.step cd op = some m') :
    r ∉ m'.channelObjects := by
  cases hr with
  | deleted hr =>
    obtain rfl := Option.some.inj h
    intro hmem
    rcases List.mem_append.mp hmem with hmem | hmem
    · simpa using (List.mem_filter.mp hmem).2
    · -- no object is both stored and pending
      have hnodup := m.ids_nodup
      rw [List.map_append, List.nodup_append] at hnodup
      exact hnodup.2.2 _ (List.mem_map_of_mem hr) _ (List.mem_map_of_mem hmem) rfl
  | @discarded r' hr hr' hconflict hlost =>
    rw [(objects_eq_store_of_block h).1]
    obtain ⟨-, ⟨hch, rfl⟩ | ⟨-, hf, -⟩ | ⟨-, -, rfl⟩⟩ := runSaveBlock_cases h
    · -- where nothing is pending, nothing conflicts
      rw [(hasChanges_eq_false_iff.mp hch).1] at hr' hlost
      have hstored' : r' ∈ m.store.channels := by
        simpa using (cd.channels.sublist _ _).subset hr'
      intro hstored
      have heq : r' = r := m.store.channels_unique.eq_of_conflict
        (fun _ _ h => h.imp Eq.symm Eq.symm) hstored' hstored hconflict
      exact hlost (heq ▸ hr')
    · exact absurd hf (by simp)
    · exact hlost

/-- The message object `p` is what the operation makes of `p₀`: its link is as it was, unless the
operation removes what it leads to. -/
structure Becomes (cd : CoreData) (m m' : CoreDataManager) (op : Op) (p₀ p : DBMessage) :
    Prop where
  message : p₀.message = p.message
  link : ∀ o, p.channel = some o → p₀.channel = some o
  kept : ∀ r ∈ m.channelObjects, p₀.channel = some r.objectID →
    (r ∈ m'.channelObjects ∧ p.channel = some r.objectID) ∨ Removes cd m r op

/-- A message object that stays as it is. -/
theorem becomes_self {p : DBMessage} (h : ∀ r ∈ m.channelObjects, p.channel = some r.objectID →
    r ∈ m'.channelObjects ∨ Removes cd m r op) : Becomes cd m m' op p p where
  message := rfl
  link := fun _ ho => ho
  kept := fun r hr hlink => (h r hr hlink).imp (fun hr' => ⟨hr', hlink⟩) id

/-- A message object whose link survives to what is stored afterwards. -/
theorem becomes_nullify {p : DBMessage} (h : ∀ r ∈ m.channelObjects,
    p.channel = some r.objectID → r ∈ m'.store.channels ∨ Removes cd m r op) :
    Becomes cd m m' op p (p.nullify m'.store.channels) where
  message := rfl
  link := fun _ ho => (DBMessage.channel_nullify_eq_some.mp ho).1
  kept := fun r hr hlink => (h r hr hlink).imp (fun hr' => ⟨List.mem_append_left _ hr',
    DBMessage.channel_nullify_eq_some.mpr ⟨hlink, r, hr', rfl⟩⟩) id

/-- What a deletion makes of a message object. -/
theorem becomes_of_delete {object : ObjectID} {p : DBMessage}
    (hp : p ∈ (m.deleteChannel object false).messageObjects) :
    ∃ p₀ ∈ m.messageObjects, Becomes cd m (m.deleteChannel object false)
      (.call (.deleteChannel object) false) p₀ p := by
  have hkept : ∀ r ∈ m.store.channels, r ∈ (m.store.delete object).channels ∨
      Removes cd m r (.call (.deleteChannel object) false) := by
    intro r hr
    by_cases hne : r.objectID = object
    · exact Or.inr (hne ▸ .deleted hr)
    · exact Or.inl (List.mem_filter.mpr ⟨hr, by simpa using hne⟩)
  rcases List.mem_append.mp hp with hp | hp
  · obtain ⟨p₀, hp₀, rfl⟩ := List.mem_map.mp hp
    exact ⟨p₀, List.mem_append_left _ hp₀,
      becomes_nullify fun r hr hlink => hkept r (mem_store_of_link hp₀ hr hlink)⟩
  · refine ⟨p, List.mem_append_right _ hp, becomes_self fun r hr _ => ?_⟩
    rcases List.mem_append.mp hr with hr | hr
    · exact (hkept r hr).imp (List.mem_append_left _) id
    · exact Or.inl (List.mem_append_right _ hr)

/-- What a save block makes of one. -/
theorem becomes_of_block {fails : Bool} (h : m.runSaveBlock cd fails = some m') {p : DBMessage}
    (hp : p ∈ m'.messageObjects) :
    ∃ p₀ ∈ m.messageObjects, Becomes cd m m' (.saveBlock fails) p₀ p := by
  have hp' := (objects_eq_store_of_block h).2 ▸ hp
  obtain ⟨-, ⟨-, rfl⟩ | ⟨-, -, rfl⟩ | ⟨-, rfl, rfl⟩⟩ := runSaveBlock_cases h
  · exact ⟨p, hp, becomes_self fun _ hr _ => Or.inl hr⟩
  · -- a rollback drops the pending channels together with the messages linked to them
    refine ⟨p, List.mem_append_left _ hp', becomes_self fun r hr hlink => Or.inl ?_⟩
    have hstored : r ∈ m.store.channels := mem_store_of_link hp' hr hlink
    exact List.mem_append_left _ hstored
  · obtain ⟨p₀, hp₀, rfl⟩ := m.store.mem_of_mem_save_messages cd.toMergePolicy hp'
    refine ⟨p₀, hp₀, becomes_nullify fun r hr _ => ?_⟩
    by_cases hkeep : r ∈ cd.channels.keep m.store.channels m.insertedChannels
    · exact Or.inl hkeep
    · obtain ⟨r', hr', hconflict⟩ := cd.channels.resolves _ _ r hr hkeep
      exact Or.inr (.discarded hr hr' hconflict hkeep)

/-- **Where a message object comes from**: it has become of one that was there before, or it
has just been inserted with the channel that was fetched. -/
theorem messageObject_of_step (h : m.step cd op = some m') {p : DBMessage}
    (hp : p ∈ m'.messageObjects) :
    (∃ p₀ ∈ m.messageObjects, Becomes cd m m' op p₀ p) ∨
      ∃ message identifier fails, op = .call (.saveMessage message identifier) fails ∧
        p = message.row ((m.fetchChannel cd identifier).map DBChannel.objectID) := by
  cases op with
  | call c fails =>
    obtain rfl := Option.some.inj h
    cases c with
    | saveChannel channel =>
      refine Or.inl ⟨p, hp, becomes_self fun r hr _ => Or.inl ?_⟩
      rcases List.mem_append.mp hr with hr | hr
      · exact List.mem_append_left _ hr
      · exact List.mem_append_right _ (List.mem_append_left _ hr)
    | saveMessage message identifier =>
      have hold : ∀ p ∈ m.messageObjects, ∃ p₀ ∈ m.messageObjects,
          Becomes cd m (m.saveMessagesWithCoreData cd message identifier)
            (.call (.saveMessage message identifier) fails) p₀ p := fun p hp =>
        ⟨p, hp, becomes_self fun _ hr _ => Or.inl hr⟩
      rcases List.mem_append.mp hp with hp | hp
      · exact Or.inl (hold p (List.mem_append_left _ hp))
      · rcases List.mem_append.mp hp with hp | hp
        · exact Or.inl (hold p (List.mem_append_right _ hp))
        · exact Or.inr ⟨message, identifier, fails, rfl, List.mem_singleton.mp hp⟩
    | deleteChannel object =>
      cases fails with
      | true => exact Or.inl ⟨p, hp, becomes_self fun _ hr _ => Or.inl hr⟩
      | false => exact Or.inl (becomes_of_delete hp)
  | saveBlock fails => exact Or.inl (becomes_of_block h hp)

/-- One operation keeps every link right, if what it saves is saved for the channel
it belongs to. -/
theorem attributed_of_step {D : String → Message → Prop} (hm : m.Attributed D)
    (hop : ∀ message identifier fails, op = .call (.saveMessage message identifier) fails →
      D identifier message)
    (h : m.step cd op = some m') : m'.Attributed D := by
  intro p hp r hr hlink
  -- a link never leads to an identity that is new
  have hold : ∀ o < m.nextID, o = r.objectID → r ∈ m.channelObjects := by
    intro o ho hor
    rcases channelObject_of_step h hr with hr | hnew
    · exact hr
    · rw [hor, hnew] at ho
      exact absurd ho (Nat.lt_irrefl _)
  rcases messageObject_of_step h hp with
    ⟨p₀, hp₀, hbecomes⟩ | ⟨message, identifier, fails, rfl, rfl⟩
  · have hlink₀ := hbecomes.link _ hlink
    have hr₀ := hold r.objectID (m.links_lt p₀ hp₀ _ hlink₀) rfl
    exact hbecomes.message ▸ hm p₀ hp₀ r hr₀ hlink₀
  · obtain ⟨r₀, hfetch, hor⟩ := Option.map_eq_some_iff.mp hlink
    obtain ⟨hr₀, hid⟩ := fetchChannel_eq_some hfetch
    have hr' := hold r₀.objectID (m.ids_lt r₀ hr₀) hor
    -- the row the link leads to is the row that was fetched
    have heq : r = r₀ := eq_of_objectID hr' hr₀ hor.symm
    rw [heq, hid]
    exact hop message identifier fails rfl

end CoreDataManager

namespace App

variable {cd : CoreData} {es : List Event} {s : App}

/-- What the running listener has still to save was delivered for its channel, and
every link leads to a channel that its message was delivered for. -/
structure Attributed (es : List Event) (s : App) : Prop where
  main : ∀ message identifier, .saveMessage message identifier ∈ s.main →
    Delivered es identifier message
  core : s.core.Attributed (Delivered es)

theorem attributed_empty : Attributed [] App.empty where
  main := fun _ _ h => absurd h List.not_mem_nil
  core := fun _ h => absurd h List.not_mem_nil

theorem attributed_of_appStep {e : Event} {s' : App} (hs : Attributed es s)
    (h : s.step cd e = some s') : Attributed (es ++ [e]) s' := by
  have hmain : ∀ message identifier, .saveMessage message identifier ∈ s.main →
      Delivered (es ++ [e]) identifier message := fun message identifier hc =>
    (hs.main message identifier hc).append e
  have hcore : s.core.Attributed (Delivered (es ++ [e])) := fun p hp r hr hlink =>
    (hs.core p hp r hr hlink).append e
  constructor
  · intro message identifier hc
    cases e with
    | channelsSnapshot snap =>
      obtain ⟨-, rfl⟩ := step_channelsSnapshot.mp h
      rcases mem_checkingTheRelevance hc with ⟨r, -, -, heq⟩ | ⟨channel, -, heq⟩
      · exact absurd heq (by simp)
      · exact absurd heq (by simp)
    | messagesSnapshot channelIdentifier snap =>
      obtain ⟨-, rfl⟩ := step_messagesSnapshot.mp h
      obtain ⟨message', hm, heq⟩ := mem_checkingTheMessages hc
      obtain ⟨rfl, rfl⟩ : message = message' ∧ identifier = channelIdentifier := by simpa using heq
      exact ⟨snap, List.mem_append_right _ (List.mem_singleton.mpr rfl), hm⟩
    | next fails =>
      obtain ⟨c, cs, hcs, rfl⟩ := step_next.mp h
      exact hmain message identifier (hcs ▸ List.mem_cons_of_mem c hc)
    | saveBlock fails =>
      obtain ⟨core, -, rfl⟩ := step_saveBlock.mp h
      exact hmain message identifier hc
    | deleteChannel object fails =>
      obtain ⟨-, rfl⟩ := step_deleteChannel.mp h
      exact hmain message identifier hc
    | merge objects =>
      obtain ⟨-, rfl⟩ := step_merge.mp h
      exact hmain message identifier hc
  · rcases step_core h with ⟨-, heq⟩ | ⟨op, hop, hstep⟩
    · exact heq ▸ hcore
    · refine attributed_of_step hcore ?_ hstep
      intro message identifier fails heq
      exact hmain message identifier (mem_main_of_op (heq ▸ hop))

theorem attributed_of_run (hrun : run (step cd) .empty es = some s) : Attributed es s :=
  history_invariant Attributed (fun _ _ _ _ hI hstep => attributed_of_appStep hI hstep)
    attributed_empty es s hrun

/-- **A channel shows only messages delivered for it**, and none of them more often
than one of the snapshots that delivered it. -/
theorem count_shownMessages_le (hrun : run (step cd) .empty es = some s)
    {channelIdentifier : String} {message : Message}
    (hm : message ∈ shownMessages channelIdentifier s.core.store) :
    ∃ snap, .messagesSnapshot channelIdentifier snap ∈ es ∧ message ∈ channelMessages snap ∧
      (shownMessages channelIdentifier s.core.store).count message ≤
        (channelMessages snap).count message := by
  obtain ⟨p, hfetched, rfl⟩ := List.mem_map.mp hm
  obtain ⟨hp, r, hr, hchan, rfl⟩ := mem_fetchedResult.mp hfetched
  have hlink := (PersistentStore.channelOf_eq_some hchan).2
  obtain ⟨snap, hsnap, hmem⟩ := (attributed_of_run hrun).core p (List.mem_append_left _ hp) r
    (List.mem_append_left _ hr) hlink
  refine ⟨snap, hsnap, hmem, ?_⟩
  calc (shownMessages r.identifier s.core.store).count p.message
      ≤ 1 := List.nodup_iff_count_le_one.mp (nodup_shownMessages r.identifier s.core.store) _
    _ ≤ (channelMessages snap).count p.message := List.count_pos_iff.mpr hmem

/-- A message that a snapshot lists twice, delivered again before the first save. -/
theorem count_shownMessages_le_twice : ∃ (es : List Event) (s : App),
    run (step .inOrder) .empty es = some s ∧
      ⟨"hi", 3, "u", "U"⟩ ∈ shownMessages "a" s.core.store ∧
      ∃ snap, .messagesSnapshot "a" snap ∈ es ∧ ⟨"hi", 3, "u", "U"⟩ ∈ channelMessages snap ∧
        (shownMessages "a" s.core.store).count ⟨"hi", 3, "u", "U"⟩ ≤
          (channelMessages snap).count ⟨"hi", 3, "u", "U"⟩ := by
  let a : Document := ⟨"a", [("name", .string "A")]⟩
  let hi : Document := ⟨"m", [("content", .string "hi"), ("created", .timestamp ⟨3⟩),
    ("senderid", .string "u"), ("senderName", .string "U")]⟩
  let s : App := (run (step .inOrder) .empty [.channelsSnapshot [(a, 5)], .next false,
    .saveBlock false, .messagesSnapshot "a" [(hi, 6), (hi, 6)], .next false, .next false,
    .messagesSnapshot "a" [(hi, 7)], .next false, .saveBlock false]).get (by decide +kernel)
  have hrun : run (step .inOrder) .empty _ = some s := (Option.some_get _).symm
  have hshown : ⟨"hi", 3, "u", "U"⟩ ∈ shownMessages "a" s.core.store := by decide +kernel
  exact ⟨_, _, hrun, hshown, count_shownMessages_le hrun hshown⟩

end App

end MessengerApp
