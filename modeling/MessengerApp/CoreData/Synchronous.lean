import MessengerApp.Library.Simulation
import MessengerApp.Messages.Attribution

/-!
# Saving in the background is saving at once

The background context collects inserts until some block saves them, so what is stored at a
given moment depends on which blocks have run.  What will be stored does not: as long as no
block fails, an identifier is always saved under one name, and no channel is deleted while
another object for it waits, the manager behaves as a store that performs every call at once.
The blocks are then invisible, and once they have all run only the calls have mattered.  All of
this is for a fetch that returns a stored object before a pending one; the framework does not
promise an order.

## Main definitions

* `settled` — the store once everything pending is saved.
* `DirectStore`, `DirectStore.step` — a store that performs calls at once.
* `InOrder` — the condition on an operation.

## Main results

* `settled_saveChannels`, `settled_saveMessages`, `settled_deleteChannel`, `settled_block` —
  what the operations do to the settled store.
* `simulates_direct` — **one operation is one of the direct store, or none.**
* `store_eq_of_calls` — **what is stored in the end depends on the calls alone.**
-/

namespace MessengerApp

open Machine UniqueTable

/-! ### Rows and links -/

theorem DBMessage.eq_of_parts {p q : DBMessage} (hm : p.message = q.message)
    (hc : p.channel = q.channel) : p = q := by
  cases p
  cases q
  simp only [DBMessage.message, Message.mk.injEq] at hm hc
  simp [hm, hc]

/-- A link that survives to `rows'` survives to `rows` before. -/
theorem DBMessage.nullify_nullify {rows rows' : List DBChannel} {p : DBMessage}
    (h : ∀ o ∈ p.channel, (∃ r ∈ rows', r.objectID = o) → ∃ r ∈ rows, r.objectID = o) :
    (p.nullify rows).nullify rows' = p.nullify rows' := by
  refine DBMessage.eq_of_parts rfl (Option.ext fun o => ?_)
  simp only [DBMessage.channel_nullify_eq_some]
  constructor
  · rintro ⟨⟨ho, -⟩, hr⟩
    exact ⟨ho, hr⟩
  · rintro ⟨ho, hr⟩
    exact ⟨⟨ho, h o ho hr⟩, hr⟩

theorem DBMessage.map_nullify_nullify {rows rows' : List DBChannel} {ms : List DBMessage}
    (h : ∀ p ∈ ms, ∀ o ∈ p.channel,
      (∃ r ∈ rows', r.objectID = o) → ∃ r ∈ rows, r.objectID = o) :
    (ms.map (DBMessage.nullify rows)).map (DBMessage.nullify rows') =
      ms.map (DBMessage.nullify rows') := by
  rw [List.map_map]
  exact List.map_congr_left fun p hp => DBMessage.nullify_nullify (h p hp)

/-- Links do not matter for what is inserted. -/
theorem DBMessage.map_insertAll_nullify (rows : List DBChannel) (ms t : List DBMessage) :
    (insertAll DBMessage.Conflicts t ms).map (DBMessage.nullify rows) =
      insertAll DBMessage.Conflicts (t.map (DBMessage.nullify rows))
        (ms.map (DBMessage.nullify rows)) := by
  have hsame : ∀ p q : DBMessage,
      DBMessage.Conflicts p q ↔ DBMessage.Conflicts (p.nullify rows) (q.nullify rows) :=
    fun _ _ => Iff.rfl
  exact map_insertAll hsame ms t

theorem PersistentStore.eq_of_rows {st st' : PersistentStore} (hc : st.channels = st'.channels)
    (hm : st.messages = st'.messages) : st = st' := by
  cases st
  cases st'
  obtain rfl : _ = _ := hc
  obtain rfl : _ = _ := hm
  rfl

theorem PersistentStore.save_nil (st : PersistentStore) :
    st.save .propertyStoreTrump [] [] = st :=
  eq_of_rows rfl (st.save_messages_nil [])

/-! ### A store that performs calls at once -/

/-- The store and the next identity. -/
structure DirectStore where
  store : PersistentStore
  nextID : ObjectID

namespace DirectStore

open CoreDataManager

/-- Every insert is saved at once; a message finds its channel among the stored ones. -/
def perform (d : DirectStore) (fails : Bool) : Call → DirectStore
  | .saveChannel channel =>
      { store := d.store.save .propertyStoreTrump [channel.row d.nextID] []
        nextID := d.nextID + 1 }
  | .saveMessage message identifier =>
      let channel := d.store.channels.find? (·.identifier = identifier)
      { d with
        store := d.store.save .propertyStoreTrump []
          [message.row (channel.map DBChannel.objectID)] }
  | .deleteChannel object => if fails then d else { d with store := d.store.delete object }

/-- The calls are always enabled. -/
def step (d : DirectStore) (c : Call × Bool) : Option DirectStore := some (d.perform c.2 c.1)

end DirectStore

namespace CoreDataManager

variable {F : Fetch} (m : CoreDataManager)

/-- The store once what is pending has been saved. -/
def settled : PersistentStore :=
  m.store.save .propertyStoreTrump m.insertedChannels m.insertedMessages

/-- The direct store that the manager amounts to. -/
def direct : DirectStore where
  store := m.settled
  nextID := m.nextID

/-- An identifier stands for one name. -/
def NamesByID : Prop :=
  ∀ r ∈ m.channelObjects, ∀ r' ∈ m.channelObjects, r.identifier = r'.identifier → r.name = r'.name

/-- No block fails, an identifier is saved under the name it has, and no channel is deleted
while an object that conflicts with it is pending. -/
def InOrder (m : CoreDataManager) : Op → Prop
  | .call (.saveChannel channel) _ =>
      ∀ r ∈ m.channelObjects, r.identifier = channel.identifier → r.name = channel.name
  | .call (.saveMessage _ _) _ => True
  | .call (.deleteChannel object) fails => fails = true ∨ ∀ r ∈ m.insertedChannels,
      r.objectID ≠ object ∧ ∀ r' ∈ m.store.channels, r'.objectID = object → ¬ r'.Conflicts r
  | .saveBlock fails => fails = false

instance (m : CoreDataManager) : DecidablePred m.InOrder
  | .call (.saveChannel channel) _ => inferInstanceAs (Decidable
      (∀ r ∈ m.channelObjects, r.identifier = channel.identifier → r.name = channel.name))
  | .call (.saveMessage _ _) _ => isTrue trivial
  | .call (.deleteChannel object) fails => inferInstanceAs (Decidable
      (fails = true ∨ ∀ r ∈ m.insertedChannels, r.objectID ≠ object ∧
        ∀ r' ∈ m.store.channels, r'.objectID = object → ¬ r'.Conflicts r))
  | .saveBlock fails => inferInstanceAs (Decidable (fails = false))

/-- The call that an operation is, and whether it fails. -/
def Op.called : Op → Option (Call × Bool)
  | .call c fails => some (c, fails)
  | .saveBlock _ => none

variable {m}

theorem settled_channels :
    m.settled.channels = insertAll DBChannel.Conflicts m.store.channels m.insertedChannels := rfl

theorem settled_messages : m.settled.messages =
    (insertAll DBMessage.Conflicts m.store.messages m.insertedMessages).map
      (DBMessage.nullify m.settled.channels) := rfl

theorem mem_channelObjects_of_settled {r : DBChannel} (hr : r ∈ m.settled.channels) :
    r ∈ m.channelObjects := (m.store.save_channels_sublist _ _ _).subset hr

/-! ### What the operations do to the settled store -/

/-- A block that goes through changes nothing. -/
theorem settled_block {m' : CoreDataManager}
    (h : m.runSaveBlock (.propertyStoreTrump F) false = some m') : m'.direct = m.direct := by
  obtain ⟨-, ⟨-, rfl⟩ | ⟨-, hfails, -⟩ | ⟨-, -, rfl⟩⟩ := runSaveBlock_cases h
  · rfl
  · exact absurd hfails (by decide)
  · show DirectStore.mk (m.settled.save .propertyStoreTrump [] []) m.nextID = m.direct
    rw [PersistentStore.save_nil]
    rfl

theorem settled_saveChannels (channel : ChannelModel) :
    (m.saveChannelsWithCoreData channel).settled =
      m.settled.save .propertyStoreTrump [channel.row m.nextID] [] := by
  have hchannels : (m.saveChannelsWithCoreData channel).settled.channels =
      insertAll DBChannel.Conflicts m.settled.channels [channel.row m.nextID] := by
    rw [settled_channels, saveChannels_store, saveChannels_insertedChannels, insertAll_append]
    rfl
  refine PersistentStore.eq_of_rows hchannels ?_
  rw [settled_messages, hchannels, PersistentStore.save_messages]
  show _ = m.settled.messages.map _
  rw [settled_messages]
  refine (DBMessage.map_nullify_nullify fun p hp o ho hrow => ?_).symm
  -- nothing is linked to the new row, whose identity is new
  obtain ⟨r, hr, rfl⟩ := hrow
  rcases mem_or_mem_of_mem_insertAll _ hr with hr | hr
  · exact ⟨r, hr, rfl⟩
  · have hlt := m.links_lt p ((sublist_insertAll _ _ _).subset hp) _ ho
    rw [List.mem_singleton.mp hr] at hlt
    exact absurd hlt (Nat.lt_irrefl _)

/-- The channel object that the background fetch finds is the stored one, or is never stored. -/
theorem nullify_fetchChannel (hF : F.TakesFirst) (hnames : m.NamesByID) (message : Message)
    (identifier : String) :
    (message.row ((m.fetchChannel (.propertyStoreTrump F) identifier).map
        DBChannel.objectID)).nullify m.settled.channels =
      (message.row ((m.settled.channels.find? (·.identifier = identifier)).map
        DBChannel.objectID)).nullify m.settled.channels := by
  have hfetch : m.fetchChannel (.propertyStoreTrump F) identifier =
      m.channelObjects.find? (·.identifier = identifier) := fetchChannel_of_takesFirst hF identifier
  have hclass := find?_insertAll_of_class DBChannel.Conflicts (·.identifier = identifier)
    m.insertedChannels (t := m.store.channels) fun x hx y hy hpx hpy z hz => by
      have hid : x.identifier = y.identifier :=
        (of_decide_eq_true hpx).trans (of_decide_eq_true hpy).symm
      have hname := hnames x (List.mem_append_right _ hx) y (List.mem_append_right _ hy) hid
      rcases hz with hz | hz
      · exact Or.inl (hz.trans hid)
      · exact Or.inr (hz.trans hname)
  rcases hclass with heq | hnone
  · rw [hfetch]
    show _ = (message.row ((List.find? _ (insertAll _ _ _)).map _)).nullify _
    rw [heq]
    rfl
  · -- the one that is found is discarded, so the link to it does not survive
    rw [settled_channels, hnone, Option.map_none]
    cases hr : m.fetchChannel (.propertyStoreTrump F) identifier with
    | none => rfl
    | some r =>
      obtain ⟨hobj, hid⟩ := fetchChannel_eq_some hr
      have hlost : ((message.row (some r.objectID)).nullify
          (insertAll DBChannel.Conflicts m.store.channels m.insertedChannels)).channel = none := by
        rw [Option.eq_none_iff_forall_not_mem]
        intro o ho
        obtain ⟨ho, r', hr', heq⟩ := DBMessage.channel_nullify_eq_some.mp ho
        obtain rfl : r.objectID = o := Option.some.inj ho
        have hrr : r' = r := eq_of_objectID (mem_channelObjects_of_settled hr') hobj heq
        have hnot := List.find?_eq_none.mp hnone r' hr'
        exact hnot (by simpa [hrr] using hid)
      exact DBMessage.eq_of_parts rfl hlost

theorem settled_saveMessages (hF : F.TakesFirst) (hnames : m.NamesByID) (message : Message)
    (identifier : String) :
    (m.saveMessagesWithCoreData (.propertyStoreTrump F) message identifier).settled =
      m.settled.save .propertyStoreTrump [] [message.row
        ((m.settled.channels.find? (·.identifier = identifier)).map DBChannel.objectID)] := by
  have hidem : m.settled.messages.map (DBMessage.nullify m.settled.channels) =
      m.settled.messages := by
    rw [settled_messages]
    exact DBMessage.map_nullify_nullify fun _ _ _ _ h => h
  refine PersistentStore.eq_of_rows rfl ?_
  show (insertAll DBMessage.Conflicts m.store.messages (m.insertedMessages ++ [_])).map
      (DBMessage.nullify m.settled.channels) =
    (insertAll DBMessage.Conflicts m.settled.messages [_]).map
      (DBMessage.nullify m.settled.channels)
  rw [DBMessage.map_insertAll_nullify _ [_] m.settled.messages, hidem, insertAll_append,
    DBMessage.map_insertAll_nullify, List.map_singleton, List.map_singleton,
    nullify_fetchChannel hF hnames, settled_messages]

theorem settled_deleteChannel {object : ObjectID}
    (hfree : ∀ r ∈ m.insertedChannels, r.objectID ≠ object ∧
      ∀ r' ∈ m.store.channels, r'.objectID = object → ¬ r'.Conflicts r) :
    (m.deleteChannel object false).settled = m.settled.delete object := by
  have hchannels : (m.deleteChannel object false).settled.channels =
      m.settled.channels.filter (·.objectID ≠ object) :=
    (filter_insertAll DBChannel.Conflicts (·.objectID ≠ object) m.insertedChannels
      (fun r hr => (hfree r hr).1)
      fun r hr r' hr' hc ho => (hfree r hr).2 r' hr' ho hc).symm
  refine PersistentStore.eq_of_rows hchannels ?_
  rw [settled_messages, hchannels, PersistentStore.delete_messages, deleteChannel_store_false,
    deleteChannel_insertedMessages, PersistentStore.delete_messages, settled_messages,
    DBMessage.map_insertAll_nullify, DBMessage.map_nullify_nullify, DBMessage.map_nullify_nullify,
    DBMessage.map_insertAll_nullify]
  · rintro p - o - ⟨r, hr, hro⟩
    exact ⟨r, List.mem_of_mem_filter hr, hro⟩
  · rintro p hp o ho ⟨r, hr, hro⟩
    -- a link of a stored message leads to a stored row, which is not the deleted one
    obtain ⟨r', hr', hro'⟩ := m.store.channel_stored p hp o ho
    have hne : r.objectID ≠ object := by simpa using (List.mem_filter.mp hr).2
    exact ⟨r', List.mem_filter.mpr ⟨hr', by simpa [hro', hro] using hne⟩, hro'⟩

/-! ### The manager and the direct store -/

theorem namesByID_of_step {op : Op} {m' : CoreDataManager} (hnames : m.NamesByID)
    (hop : m.InOrder op) (h : m.step (.propertyStoreTrump F) op = some m') : m'.NamesByID := by
  intro r hr r' hr' hid
  rcases channelObject_origin h hr with hr | ⟨channel, fails, rfl, rfl⟩
  · rcases channelObject_origin h hr' with hr' | ⟨channel, fails, rfl, rfl⟩
    · exact hnames r hr r' hr' hid
    · exact hop r hr hid
  · rcases channelObject_origin h hr' with hr' | ⟨channel', fails', heq, rfl⟩
    · exact (hop r' hr' hid.symm).symm
    · cases heq
      rfl

/-- **An operation is a call on the direct store, or shows nothing there.** -/
theorem simulates_direct (hF : F.TakesFirst) (hnames : m.NamesByID) {op : Op}
    (hop : m.InOrder op) :
    Simulates (step (.propertyStoreTrump F)) DirectStore.step direct (fun _ op => op.called)
      m op := by
  intro m' h
  cases op with
  | saveBlock fails =>
    obtain rfl : fails = false := hop
    exact congrArg some (settled_block h).symm
  | call c fails =>
    obtain rfl := Option.some.inj h
    refine congrArg some ?_
    cases c with
    | saveChannel channel =>
      exact congrArg (DirectStore.mk · (m.nextID + 1)) (settled_saveChannels channel).symm
    | saveMessage message identifier =>
      exact congrArg (DirectStore.mk · m.nextID)
        (settled_saveMessages hF hnames message identifier).symm
    | deleteChannel object =>
      cases fails with
      | true => rfl
      | false =>
        have hfree := hop.resolve_left (by decide)
        exact congrArg (DirectStore.mk · m.nextID) (settled_deleteChannel hfree).symm

/-- **A run is a run of the direct store**, by its calls alone. -/
theorem run_direct (hF : F.TakesFirst) (hnames : m.NamesByID) {ops : List Op} {m' : CoreDataManager}
    (hops : Meets (step (.propertyStoreTrump F)) InOrder m ops)
    (hrun : run (step (.propertyStoreTrump F)) m ops = some m') :
    run DirectStore.step m.direct (ops.filterMap Op.called) = some m'.direct := by
  rw [← observe_eq_filterMap Op.called hrun]
  have hmeets : Meets (step (.propertyStoreTrump F)) (fun m op => m.NamesByID ∧ m.InOrder op)
      m ops :=
    hops.and_invariant (fun _ _ _ hnames hop h => namesByID_of_step hnames hop h) hnames
  exact run_observe direct _ ops m m' (hmeets.imp fun m op h => simulates_direct hF h.1 h.2) hrun

/-- Once nothing is pending, what is settled is what is stored. -/
theorem settled_eq_store (hm : m.Scheduled) (hran : m.ran = m.issued) : m.settled = m.store := by
  obtain ⟨hc, hmsgs⟩ := hm.inserted_eq_nil hran
  rw [settled, hc, hmsgs, PersistentStore.save_nil]

/-- **What is stored in the end depends on the calls alone**: on any schedule of the save
blocks that lets all of them run, if a fetch returns the objects in the order in which they
were stored and inserted. -/
theorem store_eq_of_calls (hF : F.TakesFirst) {ops ops' : List Op} {m₁ m₂ : CoreDataManager}
    (hm : m.Scheduled) (hnames : m.NamesByID)
    (hcalls : ops.filterMap Op.called = ops'.filterMap Op.called)
    (hops : Meets (step (.propertyStoreTrump F)) InOrder m ops)
    (hops' : Meets (step (.propertyStoreTrump F)) InOrder m ops')
    (hrun : run (step (.propertyStoreTrump F)) m ops = some m₁)
    (hrun' : run (step (.propertyStoreTrump F)) m ops' = some m₂)
    (hran : m₁.ran = m₁.issued) (hran' : m₂.ran = m₂.issued) : m₁.store = m₂.store := by
  have hsched : ∀ {es : List Op} {m' : CoreDataManager},
      run (step (.propertyStoreTrump F)) m es = some m' → m'.Scheduled := fun hrun =>
    invariant Scheduled (fun _ => True) (fun _ _ _ hs _ h => scheduled_of_step hs h)
      (fun _ _ => trivial) hm hrun
  have hdirect := run_direct hF hnames hops hrun
  rw [hcalls, run_direct hF hnames hops' hrun', Option.some.injEq] at hdirect
  calc m₁.store = m₁.direct.store := (settled_eq_store (hsched hrun) hran).symm
    _ = m₂.direct.store := congrArg DirectStore.store hdirect.symm
    _ = m₂.store := settled_eq_store (hsched hrun') hran'

/-- A channel, a message in it and its deletion: the channel may be stored before the message
is saved, or wait with it. -/
theorem store_eq_of_calls_deleted :
    let saves : List Op := [.call (.saveChannel ⟨"g", "general", none, none⟩) false,
      .call (.saveMessage ⟨"hello", 1, "anna", "Anna"⟩ "g") false]
    let waiting := saves ++ [.saveBlock false, .saveBlock false, .call (.deleteChannel 0) false]
    let stored := saves.take 1 ++ .saveBlock false :: saves.drop 1 ++
      [.saveBlock false, .call (.deleteChannel 0) false]
    ∃ m₁ m₂, run (step .inOrder) empty waiting = some m₁ ∧
      run (step .inOrder) empty stored = some m₂ ∧ m₁.store = m₂.store ∧
      m₁.store.messages.length = 1 := by
  intro saves waiting stored
  let m₁ := (run (step .inOrder) empty waiting).get (by decide +kernel)
  let m₂ := (run (step .inOrder) empty stored).get (by decide +kernel)
  have hrun₁ : run (step .inOrder) empty waiting = some m₁ := (Option.some_get _).symm
  have hrun₂ : run (step .inOrder) empty stored = some m₂ := (Option.some_get _).symm
  have hnames : empty.NamesByID := fun r hr => absurd hr List.not_mem_nil
  exact ⟨m₁, m₂, hrun₁, hrun₂, store_eq_of_calls Fetch.takesFirst_inOrder scheduled_empty
    hnames rfl (by decide +kernel) (by decide +kernel) hrun₁ hrun₂ (by decide +kernel)
    (by decide +kernel), by decide +kernel⟩

end CoreDataManager

end MessengerApp
