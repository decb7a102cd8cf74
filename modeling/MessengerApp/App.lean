import MessengerApp.Channels.Manager
import MessengerApp.Messages.Manager

/-!
# The app as a machine

The main queue runs the snapshot listeners, the user's actions and the merges
into the view context, one after the other; the background queue runs the
scheduled save blocks at any time, also between two calls of a listener that is
still looping.  So a snapshot is one event, which decides on the calls to make,
and each call is an event of its own.

## Main definitions

* `App` — the manager, the calls a listener has still to make, and the objects
  the fetched results controller of the channels screen holds.
* `Event`, `App.step` — the events and what they do.
* `App.Settled`, `App.AtRest` — no listener is running and every scheduled block has
  run; and the view context has merged everything.

## Main results

* `step_core` — every event is at most one operation of `CoreDataManager`.
* `scheduled_of_run` — a pending insert always has a block still to run.
-/

namespace MessengerApp

open Machine CoreDataManager

/-- The state of the app. -/
structure App where
  core : CoreDataManager
  /-- The calls that the listener running on the main queue has still to make. -/
  main : List Call
  /-- `fetchedObjects` of the controller of the channels screen; `none` before
  the lazy property is first used. -/
  live : Option (List DBChannel)

/-- What can happen. -/
inductive Event
  /-- The listener for the channels receives a snapshot. -/
  | channelsSnapshot (snap : Snapshot)
  /-- The listener for the messages of a channel receives a snapshot. -/
  | messagesSnapshot (channelIdentifier : String) (snap : Snapshot)
  /-- The running listener makes its next call. -/
  | next (fails : Bool)
  /-- The background queue runs the next save block. -/
  | saveBlock (fails : Bool)
  /-- The user deletes a channel with a swipe. -/
  | deleteChannel (object : ObjectID) (fails : Bool)
  /-- The view context merges background saves that inserted `objects`. -/
  | merge (objects : List ObjectID)

/-- The events that finish what a snapshot has started, none of them failing. -/
def Event.Finishes : Event → Prop
  | .next fails => fails = false
  | .saveBlock fails => fails = false
  | .merge _ => True
  | _ => False

namespace App

/-- The app when it is first started: nothing stored. -/
def empty : App where
  core := .empty
  main := []
  live := none

variable (cd : CoreData) (s : App)

/-- `fetchedResultsController.fetchedObjects`: the lazy property fetches at its first use. -/
def fetchedObjects : List DBChannel := s.live.getD (fetchChannels s.core.store)

/-- A controller drops the object of a deletion that succeeded. -/
def forget (c : Call) (fails : Bool) (rows : List DBChannel) : List DBChannel :=
  match c, fails with
  | .deleteChannel object, false => rows.filter (·.objectID ≠ object)
  | _, _ => rows

/-- The main queue performs a call. -/
def perform (c : Call) (fails : Bool) : App :=
  { s with core := s.core.perform cd fails c, live := s.live.map (forget c fails) }

/-- The objects a controller holds after a merge: of the stored rows, those it
held and those merged. -/
def merged (objects : List ObjectID) (rows : List DBChannel) : List DBChannel :=
  (fetchChannels s.core.store).filter fun r => r ∈ rows ∨ r.objectID ∈ objects

/-- The next state; whatever runs on the main queue waits for the running listener. -/
def step (s : App) : Event → Option App
  | .channelsSnapshot snap =>
      if s.main = [] then
        some { s with
          live := some s.fetchedObjects
          main := checkingTheRelevanceOfChannels (actualChannels snap) s.fetchedObjects
            s.core.store }
      else none
  | .messagesSnapshot channelIdentifier snap =>
      if s.main = [] then
        some { s with
          main := checkingTheMessages (channelMessages snap) channelIdentifier s.core.store }
      else none
  | .next fails =>
      match s.main with
      | [] => none
      | c :: cs => some { s.perform cd c fails with main := cs }
  | .saveBlock fails => (s.core.runSaveBlock cd fails).map fun core => { s with core := core }
  | .deleteChannel object fails =>
      if s.main = [] then some (s.perform cd (.deleteChannel object) fails) else none
  | .merge objects =>
      if s.main = [] then some { s with live := s.live.map (s.merged objects) } else none

/-- The operation of the manager that an event comes down to. -/
def op : Event → Option Op
  | .next fails => s.main.head?.map fun c => .call c fails
  | .saveBlock fails => some (.saveBlock fails)
  | .deleteChannel object fails => some (.call (.deleteChannel object) fails)
  | _ => none

/-- No listener is running and every scheduled block has run. -/
def Settled : Prop := s.main = [] ∧ s.core.ran = s.core.issued

/-- Settled, and the view context has merged everything: the controller of the
channels screen, if it exists, holds what is stored. -/
structure AtRest : Prop where
  settled : s.Settled
  scheduled : s.core.Scheduled
  merged : s.fetchedObjects = fetchChannels s.core.store

variable {s} in
theorem AtRest.inserted_eq_nil (h : s.AtRest) :
    s.core.insertedChannels = [] ∧ s.core.insertedMessages = [] :=
  h.scheduled.inserted_eq_nil h.settled.2

/-! ### What an event can do -/

variable {cd s} {s' : App}

theorem step_channelsSnapshot {snap : Snapshot} :
    s.step cd (.channelsSnapshot snap) = some s' ↔ s.main = [] ∧
      s' = { s with
        live := some s.fetchedObjects
        main := checkingTheRelevanceOfChannels (actualChannels snap) s.fetchedObjects
          s.core.store } := by
  unfold step
  split <;> simp_all [eq_comm]

theorem step_messagesSnapshot {channelIdentifier : String} {snap : Snapshot} :
    s.step cd (.messagesSnapshot channelIdentifier snap) = some s' ↔ s.main = [] ∧
      s' = { s with
        main := checkingTheMessages (channelMessages snap) channelIdentifier s.core.store } := by
  unfold step
  split <;> simp_all [eq_comm]

theorem step_next {fails : Bool} :
    s.step cd (.next fails) = some s' ↔
      ∃ c cs, s.main = c :: cs ∧ s' = { s.perform cd c fails with main := cs } := by
  unfold step
  cases s.main with
  | nil => simp
  | cons c cs => simp [eq_comm]

theorem step_saveBlock {fails : Bool} :
    s.step cd (.saveBlock fails) = some s' ↔
      ∃ core, s.core.runSaveBlock cd fails = some core ∧ s' = { s with core := core } := by
  unfold step
  rw [Option.map_eq_some_iff]
  simp only [eq_comm]

theorem step_deleteChannel {object : ObjectID} {fails : Bool} :
    s.step cd (.deleteChannel object fails) = some s' ↔
      s.main = [] ∧ s' = s.perform cd (.deleteChannel object) fails := by
  unfold step
  split <;> simp_all [eq_comm]

theorem step_merge {objects : List ObjectID} :
    s.step cd (.merge objects) = some s' ↔
      s.main = [] ∧ s' = { s with live := s.live.map (s.merged objects) } := by
  unfold step
  split <;> simp_all [eq_comm]

/-- **Every event is at most one operation of the manager.** -/
theorem step_core {e : Event} (h : s.step cd e = some s') :
    (s.op e = none ∧ s'.core = s.core) ∨
      ∃ op, s.op e = some op ∧ s.core.step cd op = some s'.core := by
  cases e with
  | channelsSnapshot snap =>
    obtain ⟨-, rfl⟩ := step_channelsSnapshot.mp h
    exact Or.inl ⟨rfl, rfl⟩
  | messagesSnapshot channelIdentifier snap =>
    obtain ⟨-, rfl⟩ := step_messagesSnapshot.mp h
    exact Or.inl ⟨rfl, rfl⟩
  | next fails =>
    obtain ⟨c, cs, hmain, rfl⟩ := step_next.mp h
    exact Or.inr ⟨.call c fails, by simp [op, hmain], rfl⟩
  | saveBlock fails =>
    obtain ⟨core, hcore, rfl⟩ := step_saveBlock.mp h
    exact Or.inr ⟨.saveBlock fails, rfl, hcore⟩
  | deleteChannel object fails =>
    obtain ⟨-, rfl⟩ := step_deleteChannel.mp h
    exact Or.inr ⟨.call (.deleteChannel object) fails, rfl, rfl⟩
  | merge objects =>
    obtain ⟨-, rfl⟩ := step_merge.mp h
    exact Or.inl ⟨rfl, rfl⟩

/-- Only a listener saves messages. -/
theorem mem_main_of_op {e : Event} {message : Message} {identifier : String} {fails : Bool}
    (h : s.op e = some (.call (.saveMessage message identifier) fails)) :
    .saveMessage message identifier ∈ s.main := by
  cases e with
  | next fails' =>
    obtain ⟨c, hc, heq⟩ := Option.map_eq_some_iff.mp h
    obtain ⟨rfl, -⟩ : c = .saveMessage message identifier ∧ fails' = fails := by simpa using heq
    exact List.mem_of_head? hc
  | channelsSnapshot _ => exact absurd h (by simp [op])
  | messagesSnapshot _ _ => exact absurd h (by simp [op])
  | saveBlock _ => exact absurd h (by simp [op])
  | deleteChannel _ _ => exact absurd h (by simp [op])
  | merge _ => exact absurd h (by simp [op])

theorem scheduled_of_appStep {e : Event} (hs : s.core.Scheduled) (h : s.step cd e = some s') :
    s'.core.Scheduled := by
  rcases step_core h with ⟨-, hcore⟩ | ⟨op, -, hop⟩
  · exact hcore ▸ hs
  · exact scheduled_of_step hs hop

theorem scheduled_of_run {es : List Event} (hs : s.core.Scheduled)
    (h : run (step cd) s es = some s') : s'.core.Scheduled :=
  invariant (fun s => s.core.Scheduled) (fun _ => True)
    (fun _ _ _ hI _ hstep => scheduled_of_appStep hI hstep) (fun _ _ => trivial) hs h

end App

end MessengerApp
