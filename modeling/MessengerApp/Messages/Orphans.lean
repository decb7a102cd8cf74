import MessengerApp.Messages.Attribution

/-!
# Messages without a channel

The schema makes `DBMessage.channel` optional and nullifies it when the channel
is deleted, so messages outlive their channels, and a message whose channel is
not found is saved all the same.  What stays true is that a message has the row
it was attached to for as long as that row is there, and that one without a
channel goes back to a save that found none or to a row that has been removed.

## Main definitions

* `CoreDataManager.Anchored` — a message is linked to a channel object that exists.
* `App.Saves` — the event that inserts a message.
* `App.Removed` — an event of the run takes a channel object away.
* `App.Orphaned` — why a message that was saved is without a channel.

## Main results

* `not_anchored_of_step` — a message that has lost its channel never gets one again.
* `placed_of_run` — every message object is anchored or orphaned, since its own insert.
* `channel_or_orphaned_of_run` — **a stored message has the stored channel it was
  delivered for, or has been orphaned.**
-/

namespace MessengerApp

open Machine UniqueTable CoreDataManager

namespace CoreDataManager

/-- The message is linked to a channel object that exists, stored or pending. -/
def Anchored (m : CoreDataManager) (p : DBMessage) : Prop :=
  ∃ r ∈ m.channelObjects, p.channel = some r.objectID

variable {cd : CoreData} {m m' : CoreDataManager} {op : Op}

/-- A message whose link leads nowhere is not attached again: no channel object takes over the
identity of another. -/
theorem not_anchored_of_step (h : m.step cd op = some m') {p₀ p : DBMessage}
    (hp₀ : p₀ ∈ m.messageObjects) (hbecomes : Becomes cd m m' op p₀ p) (hn : ¬ m.Anchored p₀) :
    ¬ m'.Anchored p := by
  rintro ⟨r, hr, ho⟩
  have ho₀ := hbecomes.link _ ho
  have hlt : r.objectID < m.nextID := m.links_lt p₀ hp₀ _ ho₀
  rcases channelObject_of_step h hr with hr | hnew
  · exact hn ⟨r, hr, ho₀⟩
  · rw [hnew] at hlt
    exact absurd hlt (Nat.lt_irrefl _)

/-- When the row that a message is attached to is removed, the message is left with nothing. -/
theorem not_anchored_of_removes (h : m.step cd op = some m') {p₀ p : DBMessage} {r : DBChannel}
    (hr : r ∈ m.channelObjects) (hp₀ : p₀.channel = some r.objectID)
    (hbecomes : Becomes cd m m' op p₀ p) (hremoves : Removes cd m r op) : ¬ m'.Anchored p := by
  rintro ⟨r', hr', ho⟩
  have ho' : r'.objectID = r.objectID :=
    Option.some.inj ((hbecomes.link _ ho).symm.trans hp₀)
  rcases channelObject_of_step h hr' with hold | hnew
  · exact hremoves.notMem h (eq_of_objectID hold hr ho' ▸ hr')
  · have hlt : r.objectID < m.nextID := m.ids_lt r hr
    rw [← ho', hnew] at hlt
    exact absurd hlt (Nat.lt_irrefl _)

end CoreDataManager

namespace App

variable {cd : CoreData} {es : List Event} {s u : App} {e : Event} {r : DBChannel}
  {identifier : String} {message : Message}

/-- The event saves the message for the identifier. -/
def Saves (u : App) (e : Event) (message : Message) (identifier : String) : Prop :=
  ∃ fails, u.op e = some (.call (.saveMessage message identifier) fails)

/-- In the run of `es` from `u`, some event takes the channel object away. -/
def Removed (cd : CoreData) (u : App) (es : List Event) (r : DBChannel) : Prop :=
  ∃ pre e post v op, es = pre ++ e :: post ∧ run (step cd) u pre = some v ∧ v.op e = some op ∧
    Removes cd v.core r op

/-- Why a message that was saved for the identifier in the state `u` has no channel after the
events `es` that followed. -/
inductive Orphaned (cd : CoreData) (u : App) (es : List Event) (identifier : String) : Prop
  /-- There was no channel object, stored or pending, with the identifier. -/
  | missing (h : ∀ r ∈ u.core.channelObjects, r.identifier ≠ identifier)
  /-- The fetch for it threw. -/
  | threw (h : cd.fetch (u.core.channelObjects.filter (·.identifier = identifier)) = none)
  /-- The object that it was attached to has been removed since. -/
  | removed {r : DBChannel} (hr : r ∈ u.core.channelObjects) (hid : r.identifier = identifier)
      (hfetch : u.core.fetchChannel cd identifier = some r) (hremoved : Removed cd u es r)

theorem Removed.append (h : Removed cd u es r) (e : Event) : Removed cd u (es ++ [e]) r := by
  obtain ⟨pre, e', post, v, op, rfl, hrest⟩ := h
  exact ⟨pre, e', post ++ [e], v, op, by simp, hrest⟩

theorem Orphaned.append (h : Orphaned cd u es identifier) (e : Event) :
    Orphaned cd u (es ++ [e]) identifier := by
  cases h with
  | missing h => exact .missing h
  | threw h => exact .threw h
  | removed hr hid hfetch hremoved => exact .removed hr hid hfetch (hremoved.append e)

/-- The message object `p` goes back to a save of its message, and is anchored since then or
has been orphaned. -/
def Placed (cd : CoreData) (es : List Event) (s : App) (p : DBMessage) : Prop :=
  ∃ pre e post u identifier, es = pre ++ e :: post ∧ run (step cd) .empty pre = some u ∧
    u.Saves e p.message identifier ∧
      ((∃ r ∈ s.core.channelObjects, r.identifier = identifier ∧
          u.core.fetchChannel cd identifier = some r ∧ p.channel = some r.objectID) ∨
        (¬ s.core.Anchored p ∧ Orphaned cd u (e :: post) identifier))

/-- The step that inserts a message. -/
theorem placed_of_saves {s' : App} {fails : Bool} (hrun : run (step cd) .empty es = some s)
    (hop : s.op e = some (.call (.saveMessage message identifier) fails))
    (hstep : s.core.step cd (.call (.saveMessage message identifier) fails) = some s'.core) :
    Placed cd (es ++ [e]) s'
      (message.row ((s.core.fetchChannel cd identifier).map DBChannel.objectID)) := by
  refine ⟨es, e, [], s, identifier, rfl, hrun, ⟨fails, hop⟩, ?_⟩
  have hcore := Option.some.inj hstep
  cases hfetch : s.core.fetchChannel cd identifier with
  | none =>
    refine Or.inr ⟨?_, (fetchChannel_eq_none hfetch).elim .missing .threw⟩
    rintro ⟨r, -, hlink⟩
    exact absurd hlink (by simp [Message.row])
  | some r =>
    obtain ⟨hr, hid⟩ := fetchChannel_eq_some hfetch
    exact Or.inl ⟨r, hcore ▸ hr, hid, rfl, rfl⟩

/-- A step keeps a message object in its place, or removes what it is attached to. -/
theorem Placed.of_step {s' : App} {op : Op} {p₀ p : DBMessage}
    (hrun : run (step cd) .empty es = some s) (hop : s.op e = some op)
    (hstep : s.core.step cd op = some s'.core) (hp₀ : p₀ ∈ s.core.messageObjects)
    (hbecomes : Becomes cd s.core s'.core op p₀ p) (h : Placed cd es s p₀) :
    Placed cd (es ++ [e]) s' p := by
  obtain ⟨pre, e', post, u, identifier, rfl, hu, hsaves, h⟩ := h
  refine ⟨pre, e', post ++ [e], u, identifier, by simp, hu, hbecomes.message ▸ hsaves, ?_⟩
  rcases h with ⟨r, hr, hid, hfetch, hchan⟩ | ⟨hn, ho⟩
  · rcases hbecomes.kept r hr hchan with ⟨hr', hchan'⟩ | hremoves
    · exact Or.inl ⟨r, hr', hid, hfetch, hchan'⟩
    · -- the removal is the last event of those that followed the save
      obtain ⟨u', hu', hrest⟩ := (run_append_eq_some _).mp hrun
      obtain rfl := Option.some.inj (hu.symm.trans hu')
      have hremoved : Removed cd u (e' :: (post ++ [e])) r :=
        ⟨e' :: post, e, [], s, op, rfl, hrest, hop, hremoves⟩
      exact Or.inr ⟨not_anchored_of_removes hstep hr hchan hbecomes hremoves,
        .removed (fetchChannel_eq_some hfetch).1 hid hfetch hremoved⟩
  · exact Or.inr ⟨not_anchored_of_step hstep hp₀ hbecomes hn, ho.append e⟩

/-- **Every message object of every reachable state.** -/
theorem placed_of_run (hrun : run (step cd) .empty es = some s) :
    ∀ p ∈ s.core.messageObjects, Placed cd es s p := by
  have hinv : run (step cd) .empty es = some s ∧ ∀ p ∈ s.core.messageObjects, Placed cd es s p := by
    refine history_invariant (fun es s => run (step cd) .empty es = some s ∧
      ∀ p ∈ s.core.messageObjects, Placed cd es s p) ?_
      ⟨rfl, fun p hp => absurd hp List.not_mem_nil⟩ es s hrun
    rintro es s e s' ⟨hes, hI⟩ hstep
    refine ⟨(run_snoc_eq_some _).mpr ⟨s, hes, hstep⟩, fun p hp => ?_⟩
    rcases step_core hstep with ⟨-, hcore⟩ | ⟨op, hop, hcore⟩
    · obtain ⟨pre, e', post, u, identifier, rfl, hu, hsaves, h⟩ := hI p (hcore ▸ hp)
      refine ⟨pre, e', post ++ [e], u, identifier, by simp, hu, hsaves, ?_⟩
      rw [hcore]
      exact h.imp id fun ⟨hn, ho⟩ => ⟨hn, ho.append e⟩
    · rcases messageObject_of_step hcore hp with
        ⟨p₀, hp₀, hbecomes⟩ | ⟨message, identifier, fails, rfl, rfl⟩
      · exact (hI p₀ hp₀).of_step hes hop hcore hp₀ hbecomes
      · exact placed_of_saves hes hop hcore
  exact hinv.2

/-- **What is true of the channel of a stored message.**  The message was delivered for some
identifier and saved for it.  Either its channel is a stored row with that identifier, or it has
none, and then no channel object had the identifier when the message was saved, or the fetch for
it threw, or the object that the message was attached to has been removed. -/
theorem channel_or_orphaned_of_run (hrun : run (step cd) .empty es = some s) {p : DBMessage}
    (hp : p ∈ s.core.store.messages) :
    ∃ pre e post u identifier, es = pre ++ e :: post ∧ run (step cd) .empty pre = some u ∧
      Delivered pre identifier p.message ∧ u.Saves e p.message identifier ∧
      ((∃ r ∈ s.core.store.channels, p.channel = some r.objectID ∧ r.identifier = identifier) ∨
        (p.channel = none ∧ Orphaned cd u (e :: post) identifier)) := by
  obtain ⟨pre, e, post, u, identifier, hes, hu, ⟨fails, hop⟩, h⟩ :=
    placed_of_run hrun p (List.mem_append_left _ hp)
  have hd : Delivered pre identifier p.message :=
    (attributed_of_run hu).main _ _ (mem_main_of_op hop)
  refine ⟨pre, e, post, u, identifier, hes, hu, hd, ⟨fails, hop⟩, ?_⟩
  rcases h with ⟨r, hr, hid, -, hlink⟩ | ⟨hn, ho⟩
  · exact Or.inl ⟨r, mem_store_of_link hp hr hlink, hlink, hid⟩
  · refine Or.inr ⟨?_, ho⟩
    cases hlink : p.channel with
    | none => rfl
    | some o =>
      obtain ⟨r, hr, rfl⟩ := s.core.store.channel_stored p hp o hlink
      exact absurd ⟨r, List.mem_append_left _ hr, hlink⟩ hn

/-- A message that was attached to its channel, which the user deletes. -/
theorem channel_or_orphaned_of_run_deleted : ∃ (es : List Event) (s : App) (p : DBMessage),
    run (step .inOrder) .empty es = some s ∧ p ∈ s.core.store.messages ∧ p.channel = none ∧
    ∃ pre e post u identifier, es = pre ++ e :: post ∧
      run (step .inOrder) .empty pre = some u ∧
      Delivered pre identifier p.message ∧ u.Saves e p.message identifier ∧
      ((∃ r ∈ s.core.store.channels, p.channel = some r.objectID ∧ r.identifier = identifier) ∨
        (p.channel = none ∧ Orphaned .inOrder u (e :: post) identifier)) := by
  let a : Document := ⟨"a", [("name", .string "A")]⟩
  let hi : Document := ⟨"m", [("content", .string "hi"), ("created", .timestamp ⟨3⟩),
    ("senderid", .string "u"), ("senderName", .string "U")]⟩
  let s : App := (run (step .inOrder) .empty [.channelsSnapshot [(a, 5)], .next false,
    .saveBlock false, .messagesSnapshot "a" [(hi, 6)], .next false, .saveBlock false,
    .deleteChannel 0 false]).get (by decide +kernel)
  have hrun : run (step .inOrder) .empty _ = some s := (Option.some_get _).symm
  have hp : ⟨"hi", 3, "u", "U", none⟩ ∈ s.core.store.messages := by decide +kernel
  exact ⟨_, s, _, hrun, hp, rfl, channel_or_orphaned_of_run hrun hp⟩

/-- **A deleted channel leaves its messages behind.**  Channel `a` and its message are
stored; the user deletes the channel. -/
theorem exists_orphan : ¬ ∀ (es : List Event) (s : App),
    run (step .inOrder) .empty es = some s → ∀ p ∈ s.core.store.messages,
      ∃ r ∈ s.core.store.channels, p.channel = some r.objectID ∧
        Delivered es r.identifier p.message := by
  intro h
  let a : Document := ⟨"a", [("name", .string "A")]⟩
  let hi : Document := ⟨"m", [("content", .string "hi"), ("created", .timestamp ⟨3⟩),
    ("senderid", .string "u"), ("senderName", .string "U")]⟩
  let s : App := (run (step .inOrder) .empty [.channelsSnapshot [(a, 5)], .next false,
    .saveBlock false, .messagesSnapshot "a" [(hi, 6)], .next false, .saveBlock false,
    .deleteChannel 0 false]).get (by decide +kernel)
  have hrun : run (step .inOrder) .empty _ = some s := (Option.some_get _).symm
  have hp : ⟨"hi", 3, "u", "U", none⟩ ∈ s.core.store.messages := by decide +kernel
  obtain ⟨r, -, hlink, -⟩ := h _ s hrun _ hp
  exact absurd hlink (by simp)

end App

end MessengerApp
