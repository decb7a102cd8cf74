import MessengerApp.Messages.Attribution

/-!
# What message snapshots do to the store

The listener of a channel saves its whole snapshot again whenever it is longer
than what is stored for the channel, and leaves it to the constraint on contents
to drop what is stored already.  So of the messages with one content only the
first ever inserted is kept, and a snapshot that is not longer than the stored
list saves nothing.

## Main definitions

* `Event.Messaging` — message snapshots and what finishes them.
* `App.Messaging` — what holds of the app while it only receives messages.
* `App.promisedMessages` — the messages that will be stored once everything under
  way is done.
* `App.Covers` — the condition under which a snapshot is stored completely.

## Main results

* `promisedMessages_of_step`, `promisedMessages_of_snapshot` — one event.
* `count_shownMessages_eq_iff` — **when no message of the last snapshot is lost.**
-/

namespace MessengerApp

open Machine UniqueTable CoreDataManager

/-- A message snapshot for `c`, or an event that finishes one without failing. -/
def Event.DeliversTo (c : String) (e : Event) : Prop :=
  (∃ snap, e = .messagesSnapshot c snap) ∨ e.Finishes

/-- The same for any channel. -/
def Event.Messaging (e : Event) : Prop := ∃ c, e.DeliversTo c

namespace App

/-- The row that a call of the running listener will insert. -/
def queuedRow (F : Fetch) (m : CoreDataManager) : Call → Option DBMessage
  | .saveMessage message identifier =>
      some (message.row
        ((m.fetchChannel (.propertyStoreTrump F) identifier).map DBChannel.objectID))
  | _ => none

/-- The messages that will be stored once everything under way has gone through. -/
def promisedMessages (F : Fetch) (s : App) : List DBMessage :=
  insertAll DBMessage.Conflicts s.core.store.messages
    (s.core.insertedMessages ++ s.main.filterMap (queuedRow F s.core))

/-- While only messages arrive, the channels stay as they are, and what is pending is
linked to one of them or to none. -/
structure Messaging (rows : List DBChannel) (s : App) : Prop where
  channels : s.core.store.channels = rows
  insertedChannels : s.core.insertedChannels = []
  main : ∀ c ∈ s.main, ∃ message identifier, c = .saveMessage message identifier
  linked : ∀ p ∈ s.core.insertedMessages, ∀ o ∈ p.channel, ∃ r ∈ rows, r.objectID = o

variable {F : Fetch} {s s' : App} {rows : List DBChannel} {e : Event}

theorem messaging_of_settled (hs : s.Settled) (hsched : s.core.Scheduled) :
    s.Messaging s.core.store.channels := by
  obtain ⟨hchan, hmsg⟩ := hsched.inserted_eq_nil hs.2
  refine ⟨rfl, hchan, ?_, ?_⟩
  · rw [hs.1]
    exact fun c hc => absurd hc List.not_mem_nil
  · rw [hmsg]
    exact fun p hp => absurd hp List.not_mem_nil

/-- What a fetch finds depends on the channels only. -/
theorem fetchChannel_congr {m m' : CoreDataManager} (cd : CoreData)
    (h : m.channelObjects = m'.channelObjects) : m.fetchChannel cd = m'.fetchChannel cd := by
  funext identifier
  unfold fetchChannel
  rw [h]

theorem queuedRow_congr {m m' : CoreDataManager} (h : m.channelObjects = m'.channelObjects) :
    queuedRow F m = queuedRow F m' := by
  funext c
  unfold queuedRow
  rw [fetchChannel_congr _ h]

/-! ### One event -/

theorem messaging_of_snapshot {c : String} {snap : Snapshot} (hs : s.Messaging rows)
    (h : s.step (.propertyStoreTrump F) (.messagesSnapshot c snap) = some s') :
    s'.Messaging rows := by
  obtain ⟨-, rfl⟩ := step_messagesSnapshot.mp h
  refine ⟨hs.channels, hs.insertedChannels, fun call hc => ?_, hs.linked⟩
  obtain ⟨message, -, rfl⟩ := mem_checkingTheMessages hc
  exact ⟨message, c, rfl⟩

theorem messaging_of_finish (hs : s.Messaging rows) (he : e.Finishes)
    (h : s.step (.propertyStoreTrump F) e = some s') : s'.Messaging rows := by
  obtain ⟨hchan, hins, hmain, hlinked⟩ := hs
  cases e with
  | channelsSnapshot snap => exact absurd he not_false
  | messagesSnapshot channelIdentifier snap => exact absurd he not_false
  | next fails =>
    obtain ⟨c, cs, hcs, rfl⟩ := step_next.mp h
    have hmain' : ∀ c' ∈ cs, ∃ message identifier, c' = .saveMessage message identifier :=
      fun c' hc' => hmain c' (hcs ▸ List.mem_cons_of_mem c hc')
    obtain ⟨message, identifier, rfl⟩ := hmain c (hcs ▸ List.mem_cons_self)
    refine ⟨hchan, hins, hmain', fun p hp o ho => ?_⟩
    rcases List.mem_append.mp hp with hp | hp
    · exact hlinked p hp o ho
    · obtain rfl := List.mem_singleton.mp hp
      obtain ⟨r, hr, rfl⟩ := Option.map_eq_some_iff.mp ho
      have hobj := (fetchChannel_eq_some hr).1
      rw [channelObjects, hins, List.append_nil, hchan] at hobj
      exact ⟨r, hobj, rfl⟩
  | saveBlock fails =>
    obtain rfl : fails = false := he
    obtain ⟨core, hcore, rfl⟩ := step_saveBlock.mp h
    obtain ⟨-, ⟨-, rfl⟩ | ⟨-, hfails, -⟩ | ⟨-, -, rfl⟩⟩ := runSaveBlock_cases hcore
    · exact ⟨hchan, hins, hmain, hlinked⟩
    · exact absurd hfails (by decide)
    · refine ⟨?_, rfl, hmain, fun p hp => absurd hp List.not_mem_nil⟩
      show insertAll _ s.core.store.channels s.core.insertedChannels = rows
      rw [hins, insertAll_nil, hchan]
  | deleteChannel object fails => exact absurd he not_false
  | merge objects =>
    obtain ⟨-, rfl⟩ := step_merge.mp h
    exact ⟨hchan, hins, hmain, hlinked⟩

theorem messaging_of_step (hs : s.Messaging rows) (he : e.Messaging)
    (h : s.step (.propertyStoreTrump F) e = some s') : s'.Messaging rows := by
  obtain ⟨c, ⟨snap, rfl⟩ | he⟩ := he
  · exact messaging_of_snapshot hs h
  · exact messaging_of_finish hs he h

/-- A commit stores the messages that insertion keeps, with their links. -/
theorem messages_commit {m : CoreDataManager} (hins : m.insertedChannels = [])
    (hlinked : ∀ p ∈ m.insertedMessages, ∀ o ∈ p.channel,
      ∃ r ∈ m.store.channels, r.objectID = o) :
    (m.commit (.propertyStoreTrump F)).store.messages =
      insertAll DBMessage.Conflicts m.store.messages m.insertedMessages := by
  show (insertAll DBMessage.Conflicts m.store.messages m.insertedMessages).map
    (DBMessage.nullify (insertAll DBChannel.Conflicts m.store.channels m.insertedChannels)) = _
  rw [hins, insertAll_nil]
  apply DBMessage.map_nullify_eq_self
  intro p hp
  rcases mem_or_mem_of_mem_insertAll _ hp with hp | hp
  · exact m.store.channel_stored p hp
  · exact hlinked p hp

/-- **Finishing a delivery changes nothing about what it promised.** -/
theorem promisedMessages_of_step (hs : s.Messaging rows) (he : e.Finishes)
    (h : s.step (.propertyStoreTrump F) e = some s') :
    s'.promisedMessages F = s.promisedMessages F := by
  have hs' := messaging_of_finish hs he h
  cases e with
  | channelsSnapshot snap => exact absurd he not_false
  | messagesSnapshot channelIdentifier snap => exact absurd he not_false
  | next fails =>
    obtain ⟨c, cs, hcs, rfl⟩ := step_next.mp h
    obtain ⟨message, identifier, rfl⟩ := hs.main c (hcs ▸ List.mem_cons_self)
    -- the message moves from the queue to the end of the pending inserts
    have hcons : (Call.saveMessage message identifier :: cs).filterMap (queuedRow F s.core) =
        message.row ((s.core.fetchChannel (.propertyStoreTrump F) identifier).map
          DBChannel.objectID) :: cs.filterMap (queuedRow F s.core) := rfl
    have hqueue : queuedRow F (s.core.perform (.propertyStoreTrump F) fails
        (.saveMessage message identifier)) = queuedRow F s.core := queuedRow_congr rfl
    unfold promisedMessages
    rw [hcs, hcons, List.append_cons]
    show insertAll _ s.core.store.messages (_ ++ cs.filterMap (queuedRow F
      (s.core.perform (.propertyStoreTrump F) fails (.saveMessage message identifier)))) = _
    rw [hqueue]
    rfl
  | saveBlock fails =>
    obtain rfl : fails = false := he
    obtain ⟨core, hcore, rfl⟩ := step_saveBlock.mp h
    obtain ⟨-, ⟨-, rfl⟩ | ⟨-, hfails, -⟩ | ⟨-, -, rfl⟩⟩ := runSaveBlock_cases hcore
    · rfl
    · exact absurd hfails (by decide)
    · have hobj : (s.core.commit (.propertyStoreTrump F)).dequeue.channelObjects =
          s.core.channelObjects := by
        rw [channelObjects, channelObjects, hs'.channels, hs'.insertedChannels, hs.channels,
          hs.insertedChannels]
      have hmsgs := messages_commit (F := F) hs.insertedChannels (hs.channels ▸ hs.linked)
      -- inserting in two batches is inserting in one
      show insertAll _ (s.core.commit (.propertyStoreTrump F)).store.messages
        ([] ++ s.main.filterMap (queuedRow F (s.core.commit (.propertyStoreTrump F)).dequeue)) = _
      rw [hmsgs, queuedRow_congr hobj, List.nil_append, promisedMessages, insertAll_append]
  | deleteChannel object fails => exact absurd he not_false
  | merge objects =>
    obtain ⟨-, rfl⟩ := step_merge.mp h
    rfl

/-- The rows that a snapshot of `c` has the listener insert, if it decides to save. -/
def snapshotRows (F : Fetch) (m : CoreDataManager) (c : String) (snap : Snapshot) :
    List DBMessage :=
  (channelMessages snap).map fun message =>
    message.row ((m.fetchChannel (.propertyStoreTrump F) c).map DBChannel.objectID)

/-- **A snapshot promises its messages if it is longer than what is stored.** -/
theorem promisedMessages_of_snapshot {c : String} {snap : Snapshot}
    (h : s.step (.propertyStoreTrump F) (.messagesSnapshot c snap) = some s') :
    s'.promisedMessages F =
      if (fetchedResult c s.core.store).length < snap.length then
        insertAll DBMessage.Conflicts (s.promisedMessages F) (snapshotRows F s.core c snap)
      else s.promisedMessages F := by
  obtain ⟨hmain, rfl⟩ := step_messagesSnapshot.mp h
  unfold promisedMessages checkingTheMessages
  rw [hmain, length_channelMessages, List.filterMap_nil, List.append_nil]
  split
  · have hrows : ((channelMessages snap).map fun message => Call.saveMessage message c).filterMap
        (queuedRow F s.core) = snapshotRows F s.core c snap := by
      rw [List.filterMap_map, snapshotRows, ← List.filterMap_eq_map]
      rfl
    rw [hrows, insertAll_append]
  · rw [List.filterMap_nil, List.append_nil]

/-- Once everything is done, what was promised is stored. -/
theorem promisedMessages_of_settled (hs : s.Settled) (hsched : s.core.Scheduled) :
    s.promisedMessages F = s.core.store.messages := by
  unfold promisedMessages
  rw [hs.1, (hsched.inserted_eq_nil hs.2).2]
  rfl

theorem promisedMessages_unique (s : App) : Unique DBMessage.Conflicts (s.promisedMessages F) :=
  unique_insertAll _ _ _ s.core.store.messages_unique

/-- When no listener is running, the first message object with some content is the one
that will be stored. -/
theorem find?_promisedMessages (hmain : s.main = []) (content : String) :
    (s.promisedMessages F).find? (·.content = content) =
      s.core.messageObjects.find? (·.content = content) := by
  unfold promisedMessages
  rw [hmain, List.filterMap_nil, List.append_nil]
  exact find?_insertAll _ _ _ content

theorem messaging_of_run {es : List Event} (hs : s.Messaging rows) (hes : ∀ e ∈ es, e.Messaging)
    (h : run (step (.propertyStoreTrump F)) s es = some s') : s'.Messaging rows :=
  invariant (Messaging rows) Event.Messaging
    (fun _ _ _ hI he hstep => messaging_of_step hI he hstep)
    hes hs h

/-- A delivery that goes through, in whatever order its calls and save blocks run. -/
theorem messages_of_run {c : String} {snap : Snapshot} {es : List Event} (hs : s.Messaging rows)
    (hsched : s.core.Scheduled) (hes : ∀ e ∈ es, e.Finishes)
    (hrun : run (step (.propertyStoreTrump F)) s (.messagesSnapshot c snap :: es) = some s')
    (hs' : s'.Settled) :
    s'.core.store.messages =
      if (fetchedResult c s.core.store).length < snap.length then
        insertAll DBMessage.Conflicts (s.promisedMessages F) (snapshotRows F s.core c snap)
      else s.promisedMessages F := by
  obtain ⟨s₁, hsnap, hrest⟩ := (run_cons_eq_some _).mp hrun
  have hs₁ : s₁.Messaging rows := messaging_of_snapshot hs hsnap
  have hkeep : s'.Messaging rows ∧ s'.promisedMessages F = s₁.promisedMessages F :=
    invariant (fun t => t.Messaging rows ∧ t.promisedMessages F = s₁.promisedMessages F)
      Event.Finishes
      (fun t e t' hI he hstep => ⟨messaging_of_finish hI.1 he hstep,
        (promisedMessages_of_step hI.1 he hstep).trans hI.2⟩) hes ⟨hs₁, rfl⟩ hrest
  rw [← promisedMessages_of_settled hs' (scheduled_of_run hsched hrun), hkeep.2,
    promisedMessages_of_snapshot hsnap]

/-! ### One channel -/

/-- Every message that will be stored is attached to the channel. -/
def OnlyFor (F : Fetch) (r : DBChannel) (s : App) : Prop :=
  ∀ p ∈ s.promisedMessages F, p.channel = some r.objectID

/-- The background fetch finds the stored row of the channel. -/
theorem fetchChannel_of_messaging (hF : F.Succeeds) {r : DBChannel} (hs : s.Messaging rows)
    (hr : r ∈ rows) : s.core.fetchChannel (.propertyStoreTrump F) r.identifier = some r := by
  have hobj : r ∈ s.core.channelObjects := by
    rw [channelObjects, hs.channels]
    exact List.mem_append_left _ hr
  obtain ⟨r', hfetch⟩ := Option.isSome_iff_exists.mp (fetchChannel_isSome hF hobj)
  obtain ⟨hr', hid⟩ := fetchChannel_eq_some hfetch
  -- nothing is pending, and of the stored rows only one has the identifier
  rw [channelObjects, hs.insertedChannels, List.append_nil] at hobj hr'
  rw [hfetch, PersistentStore.eq_of_identifier hr' hobj hid]

theorem onlyFor_of_step (hF : F.Succeeds) {r : DBChannel} (hs : s.Messaging rows) (hr : r ∈ rows)
    (hfor : s.OnlyFor F r) (he : e.DeliversTo r.identifier)
    (h : s.step (.propertyStoreTrump F) e = some s') : s'.OnlyFor F r := by
  rcases he with ⟨snap, rfl⟩ | he
  · intro p hp
    rw [promisedMessages_of_snapshot h] at hp
    split at hp
    · rcases mem_or_mem_of_mem_insertAll _ hp with hp | hp
      · exact hfor p hp
      · obtain ⟨message, -, rfl⟩ := List.mem_map.mp hp
        rw [fetchChannel_of_messaging hF hs hr]
        rfl
    · exact hfor p hp
  · rw [OnlyFor, promisedMessages_of_step hs he h]
    exact hfor

/-- When all stored messages are attached to the channel, its screen shows all of them. -/
theorem mem_shownMessages_iff {m : CoreDataManager} {r : DBChannel} (hr : r ∈ m.store.channels)
    (hfor : ∀ p ∈ m.store.messages, p.channel = some r.objectID) (message : Message) :
    message ∈ shownMessages r.identifier m.store ↔
      message ∈ m.store.messages.map DBMessage.message := by
  have hall : ∀ p ∈ m.store.messages, decide (BelongsTo m.store r.identifier p) = true :=
    fun p hp => decide_eq_true ((belongsTo_iff hr p).mpr (hfor p hp))
  have hperm : (fetchedResult r.identifier m.store).Perm m.store.messages := by
    have h := fetchedResult_perm r.identifier m.store
    rwa [List.filter_eq_self.mpr hall] at h
  exact (hperm.map _).mem_iff

/-- A message is in a table exactly when it is the first with its content. -/
theorem mem_map_message_iff {t : List DBMessage} (ht : Unique DBMessage.Conflicts t)
    (message : Message) : message ∈ t.map DBMessage.message ↔
      ∃ p, t.find? (·.content = message.content) = some p ∧ p.message = message := by
  constructor
  · intro h
    obtain ⟨p, hp, rfl⟩ := List.mem_map.mp h
    exact ⟨p, (ht.mem_iff_find? DBMessage.content p).mp hp, rfl⟩
  · rintro ⟨p, hp, rfl⟩
    exact List.mem_map_of_mem (List.mem_of_find?_eq_some hp)

/-- The contents of the snapshot's messages are distinct, and each of its messages is
the first one with its content among those stored or pending, or there is none
and the snapshot is longer than what is stored. -/
def Covers (c : String) (snap : Snapshot) (u : App) : Prop :=
  ((channelMessages snap).map Message.content).Nodup ∧
    ∀ message ∈ channelMessages snap,
      match u.core.messageObjects.find? (·.content = message.content) with
      | some p => p.message = message
      | none => (fetchedResult c u.core.store).length < snap.length

/-- The first row with its content that a snapshot inserts for one of its messages. -/
theorem find?_snapshotRows {m : CoreDataManager} {c : String} {snap : Snapshot}
    (hnodup : ((channelMessages snap).map Message.content).Nodup) {message : Message}
    (hm : message ∈ channelMessages snap) :
    ∃ p, (snapshotRows F m c snap).find? (·.content = message.content) = some p ∧
      p.message = message := by
  have hrows : (snapshotRows F m c snap).map DBMessage.content =
      (channelMessages snap).map Message.content := by
    rw [snapshotRows, List.map_map]
    rfl
  have hcontents : ((snapshotRows F m c snap).map DBMessage.content).Nodup := hrows ▸ hnodup
  have hunique : Unique DBMessage.Conflicts (snapshotRows F m c snap) :=
    List.pairwise_map.mp hcontents
  apply (mem_map_message_iff hunique message).mp
  rw [snapshotRows, List.map_map, List.mem_map]
  exact ⟨message, hm, rfl⟩

/-- Whether the messages of the last snapshot are stored in the end. -/
theorem mem_stored_iff {c : String} {snap : Snapshot} {t : List DBMessage}
    (hmain : s.main = []) (ht : Unique DBMessage.Conflicts t)
    (heq : t = if (fetchedResult c s.core.store).length < snap.length then
        insertAll DBMessage.Conflicts (s.promisedMessages F) (snapshotRows F s.core c snap)
      else s.promisedMessages F)
    (hnodup : ((channelMessages snap).map Message.content).Nodup) {message : Message}
    (hm : message ∈ channelMessages snap) :
    message ∈ t.map DBMessage.message ↔
      match s.core.messageObjects.find? (·.content = message.content) with
      | some p => p.message = message
      | none => (fetchedResult c s.core.store).length < snap.length := by
  rw [mem_map_message_iff ht, heq]
  have hprom := find?_promisedMessages (F := F) hmain message.content
  obtain ⟨q, hq, hqm⟩ := find?_snapshotRows (F := F) (m := s.core) (c := c) hnodup hm
  split
  · next hlt =>
    rw [find?_insertAll, List.find?_append, hprom, hq]
    cases s.core.messageObjects.find? (·.content = message.content) with
    | some p => simp
    | none => simpa [hlt] using hqm
  · next hlt =>
    rw [hprom]
    cases s.core.messageObjects.find? (·.content = message.content) with
    | some p => simp
    | none => simpa using hlt

/-- A run in which the snapshots `pre` and then `snap` are delivered for the channel of
the row `r`, from a store without messages, until all saves are committed. -/
structure Delivers (F : Fetch) (r : DBChannel) (s₀ : App) (pre : List Event) (u : App)
    (snap : Snapshot) (post : List Event) (t : App) : Prop where
  start : s₀.Settled
  scheduled : s₀.core.Scheduled
  channel : r ∈ s₀.core.store.channels
  noMessages : s₀.core.store.messages = []
  deliveries : ∀ e ∈ pre, e.DeliversTo r.identifier
  before : run (step (.propertyStoreTrump F)) s₀ pre = some u
  finishes : ∀ e ∈ post, e.Finishes
  after : run (step (.propertyStoreTrump F)) u (.messagesSnapshot r.identifier snap :: post) =
    some t
  settled : t.Settled

/-- During the run all that is promised is for the channel. -/
theorem onlyFor_of_run (hF : F.Succeeds) {r : DBChannel} {es : List Event} (hs : s.Messaging rows)
    (hr : r ∈ rows) (hfor : s.OnlyFor F r) (hes : ∀ e ∈ es, e.DeliversTo r.identifier)
    (hrun : run (step (.propertyStoreTrump F)) s es = some s') :
    s'.Messaging rows ∧ s'.OnlyFor F r :=
  invariant (fun s => s.Messaging rows ∧ s.OnlyFor F r) (Event.DeliversTo r.identifier)
    (fun _ _ _ hI he hstep => ⟨messaging_of_step hI.1 ⟨_, he⟩ hstep,
      onlyFor_of_step hF hI.1 hr hI.2 he hstep⟩) hes ⟨hs, hfor⟩ hrun

/-- Which messages of the last snapshot are shown in the end. -/
theorem mem_shownMessages_of_delivers (hF : F.Succeeds) {r : DBChannel} {s₀ u t : App}
    {pre post : List Event} {snap : Snapshot} (h : Delivers F r s₀ pre u snap post t)
    (hnodup : ((channelMessages snap).map Message.content).Nodup) {message : Message}
    (hm : message ∈ channelMessages snap) :
    message ∈ shownMessages r.identifier t.core.store ↔
      match u.core.messageObjects.find? (·.content = message.content) with
      | some p => p.message = message
      | none => (fetchedResult r.identifier u.core.store).length < snap.length := by
  obtain ⟨hstart, hsched₀, hr, hnone, hpre, hbefore, hpost, hafter, hsettled⟩ := h
  have hfor₀ : s₀.OnlyFor F r := by
    intro p hp
    rw [promisedMessages_of_settled hstart hsched₀, hnone] at hp
    exact absurd hp List.not_mem_nil
  obtain ⟨hu, hforu⟩ := onlyFor_of_run hF (messaging_of_settled hstart hsched₀) hr hfor₀ hpre
    hbefore
  have hevents : ∀ e ∈ Event.messagesSnapshot r.identifier snap :: post,
      e.DeliversTo r.identifier := by
    intro e he
    rcases List.mem_cons.mp he with rfl | he
    · exact Or.inl ⟨snap, rfl⟩
    · exact Or.inr (hpost e he)
  obtain ⟨ht, hfort⟩ := onlyFor_of_run hF hu hr hforu hevents hafter
  have hsched : u.core.Scheduled := scheduled_of_run hsched₀ hbefore
  have hstored : ∀ p ∈ t.core.store.messages, p.channel = some r.objectID := by
    rw [← promisedMessages_of_settled hsettled (scheduled_of_run hsched hafter)]
    exact hfort
  have hmain : u.main = [] := by
    obtain ⟨s₁, hsnap, -⟩ := (run_cons_eq_some _).mp hafter
    exact (step_messagesSnapshot.mp hsnap).1
  rw [mem_shownMessages_iff (ht.channels ▸ hr) hstored]
  exact mem_stored_iff hmain t.core.store.messages_unique
    (messages_of_run hu hsched hpost hafter hsettled) hnodup hm

/-- **When no message is lost.**  As long as fetches succeed, the screen of the channel shows
in the end every message of the last snapshot, as often as the snapshot lists it, if and only
if the state before that snapshot covered it. -/
theorem count_shownMessages_eq_iff (hF : F.Succeeds) {r : DBChannel} {s₀ u t : App}
    {pre post : List Event} {snap : Snapshot} (h : Delivers F r s₀ pre u snap post t) :
    (∀ message ∈ channelMessages snap, (shownMessages r.identifier t.core.store).count message =
        (channelMessages snap).count message) ↔
      u.Covers r.identifier snap := by
  constructor
  · intro hall
    have hsub : ∀ message ∈ channelMessages snap,
        message ∈ shownMessages r.identifier t.core.store := by
      intro message hm
      rw [← List.count_pos_iff, hall message hm, List.count_pos_iff]
      exact hm
    have hnodup : (channelMessages snap).Nodup := by
      rw [List.nodup_iff_count_le_one]
      intro message
      by_cases hm : message ∈ channelMessages snap
      · rw [← hall message hm]
        exact List.nodup_iff_count_le_one.mp (nodup_shownMessages _ _) message
      · rw [List.count_eq_zero_of_not_mem hm]
        omega
    -- messages that are shown together differ in content
    have hcontents : ((channelMessages snap).map Message.content).Nodup := by
      rw [List.nodup_map_iff_inj_on hnodup]
      intro m hm m' hm' hc
      exact List.inj_on_of_nodup_map (nodup_content_shownMessages _ _) (hsub m hm) (hsub m' hm') hc
    exact ⟨hcontents, fun message hm =>
      (mem_shownMessages_of_delivers hF h hcontents hm).mp (hsub message hm)⟩
  · rintro ⟨hcontents, hcovers⟩ message hm
    have hshown := (mem_shownMessages_of_delivers hF h hcontents hm).mpr (hcovers message hm)
    rw [List.count_eq_one_of_mem (nodup_shownMessages _ _) hshown,
      List.count_eq_one_of_mem (List.Nodup.of_map _ hcontents) hm]

/-- The first snapshot a channel receives. -/
theorem count_shownMessages_eq_iff_first : ∃ (r : DBChannel) (s₀ t : App) (snap : Snapshot),
    Delivers .inOrder r s₀ [] s₀ snap
      [.next false, .next false, .saveBlock false, .saveBlock false] t ∧
    ((∀ message ∈ channelMessages snap, (shownMessages r.identifier t.core.store).count message =
        (channelMessages snap).count message) ↔ s₀.Covers r.identifier snap) := by
  let a : Document := ⟨"a", [("name", .string "A")]⟩
  let hi : Document := ⟨"m", [("content", .string "hi"), ("created", .timestamp ⟨3⟩),
    ("senderid", .string "u"), ("senderName", .string "U")]⟩
  let ho : Document := ⟨"n", [("content", .string "ho"), ("created", .timestamp ⟨4⟩),
    ("senderid", .string "u"), ("senderName", .string "U")]⟩
  let s₀ : App := (run (step .inOrder) .empty [.channelsSnapshot [(a, 5)], .next false,
    .saveBlock false, .merge [0]]).get (by decide +kernel)
  let t : App := (run (step .inOrder) s₀ [.messagesSnapshot "a" [(hi, 6), (ho, 6)],
    .next false, .next false, .saveBlock false, .saveBlock false]).get (by decide +kernel)
  have hdel : Delivers .inOrder ⟨0, "a", "A", some "Last Message", some 5⟩ s₀ [] s₀
      [(hi, 6), (ho, 6)] [.next false, .next false, .saveBlock false, .saveBlock false] t :=
    { start := ⟨rfl, rfl⟩
      scheduled := ⟨by decide, by decide⟩
      channel := by decide
      noMessages := rfl
      deliveries := by simp
      before := rfl
      finishes := by simp [Event.Finishes]
      after := (Option.some_get _).symm
      settled := ⟨by decide +kernel, by decide +kernel⟩ }
  exact ⟨_, s₀, t, _, hdel, count_shownMessages_eq_iff Fetch.succeeds_inOrder hdel⟩

/-- **Two messages with one text cannot both be stored.**  The first snapshot a channel
receives lists `hi` twice, sent by two people. -/
theorem exists_lost_message : ¬ ∀ (r : DBChannel) (s₀ u t : App) (pre post : List Event)
    (snap : Snapshot), Delivers .inOrder r s₀ pre u snap post t → ∀ message ∈ channelMessages snap,
      (shownMessages r.identifier t.core.store).count message =
        (channelMessages snap).count message := by
  intro h
  let a : Document := ⟨"a", [("name", .string "A")]⟩
  let hi : Document := ⟨"m", [("content", .string "hi"), ("created", .timestamp ⟨3⟩),
    ("senderid", .string "u"), ("senderName", .string "U")]⟩
  let hi' : Document := ⟨"n", [("content", .string "hi"), ("created", .timestamp ⟨4⟩),
    ("senderid", .string "v"), ("senderName", .string "V")]⟩
  let s₀ : App := (run (step .inOrder) .empty [.channelsSnapshot [(a, 5)], .next false,
    .saveBlock false, .merge [0]]).get (by decide +kernel)
  let t : App := (run (step .inOrder) s₀ [.messagesSnapshot "a" [(hi, 6), (hi', 6)],
    .next false, .next false, .saveBlock false, .saveBlock false]).get (by decide +kernel)
  have hdel : Delivers .inOrder ⟨0, "a", "A", some "Last Message", some 5⟩ s₀ [] s₀
      [(hi, 6), (hi', 6)] [.next false, .next false, .saveBlock false, .saveBlock false] t :=
    { start := ⟨rfl, rfl⟩
      scheduled := ⟨by decide, by decide⟩
      channel := by decide
      noMessages := rfl
      deliveries := by simp
      before := rfl
      finishes := by simp [Event.Finishes]
      after := (Option.some_get _).symm
      settled := ⟨by decide +kernel, by decide +kernel⟩ }
  have hcount := h _ _ _ _ _ _ _ hdel ⟨"hi", 4, "v", "V"⟩ (by decide)
  exact absurd hcount (by decide +kernel)

end App

end MessengerApp
