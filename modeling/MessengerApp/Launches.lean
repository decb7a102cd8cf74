import MessengerApp.Library.Simulation
import MessengerApp.Messages.Attribution

/-!
# The launches of the app

The app can be ended at any moment, by the user or by the system, and launched
again.  The store is on disk and stays.  What the background context holds, the
blocks that would have saved it, the calls that a listener has still to make and
the fetched results controllers are in memory and are gone.

## Main definitions

* `App.relaunch` — the app when it is launched again.
* `Life`, `App.lifeStep` — what happens to the app on a device, over its launches.
* `App.Loses` — an app and what is left of it.

## Main results

* `life_invariant` — **what holds of one launch holds over all of them**, if it only
  concerns what is stored, pending, or about to be saved.
-/

namespace MessengerApp

open Machine CoreDataManager

namespace CoreDataManager

variable (m : CoreDataManager)

theorem stored_append_ids_nodup :
    ((m.store.channels ++ []).map DBChannel.objectID).Nodup := by
  rw [List.append_nil]
  exact m.stored_ids_nodup

theorem stored_ids_lt : ∀ r ∈ m.store.channels ++ ([] : List DBChannel), r.objectID < m.nextID := by
  rw [List.append_nil]
  exact fun r hr => m.ids_lt r (List.mem_append_left _ hr)

theorem stored_links_lt : ∀ p ∈ m.store.messages ++ ([] : List DBMessage), ∀ o ∈ p.channel,
    o < m.nextID := by
  rw [List.append_nil]
  exact fun p hp => m.links_lt p (List.mem_append_left _ hp)

/-- The manager of the next launch: the store, and a background context that holds nothing
and has no blocks to run. -/
def relaunch : CoreDataManager where
  store := m.store
  insertedChannels := []
  insertedMessages := []
  issued := m.ran
  ran := m.ran
  failed := m.failed
  nextID := m.nextID
  ids_nodup := m.stored_append_ids_nodup
  ids_lt := m.stored_ids_lt
  links_lt := m.stored_links_lt

@[simp] theorem relaunch_store : m.relaunch.store = m.store := rfl

@[simp] theorem relaunch_channelObjects : m.relaunch.channelObjects = m.store.channels :=
  List.append_nil _

@[simp] theorem relaunch_messageObjects : m.relaunch.messageObjects = m.store.messages :=
  List.append_nil _

theorem scheduled_relaunch : m.relaunch.Scheduled :=
  ⟨Nat.le_refl _, fun h => absurd h (by simp [hasChanges, relaunch])⟩

end CoreDataManager

/-- What happens to the app on a device. -/
inductive Life
  /-- Something happens to the running app. -/
  | event (e : Event)
  /-- The app is ended, if it is running, and launched again. -/
  | launch

/-- The event of the running app. -/
def Life.event? : Life → Option Event
  | .event e => some e
  | .launch => none

namespace App

variable {cd : CoreData} {s t : App}

/-- The app when it is launched again. -/
def relaunch (s : App) : App where
  core := s.core.relaunch
  main := []
  live := none

/-- The next state, over the launches of the app. -/
def lifeStep (cd : CoreData) (s : App) : Life → Option App
  | .event e => s.step cd e
  | .launch => some s.relaunch

/-- What is left of an app: of its manager at least what a new launch finds, and calls that it
had to make.  Its controller may have been created, or be gone. -/
structure Loses (s t : App) : Prop where
  core : t.core = s.core ∨ t.core = s.core.relaunch
  main : ∀ c ∈ t.main, c ∈ s.main
  live : t.live = s.live ∨ t.live = some s.fetchedObjects ∨ t.live = none

theorem loses_refl (s : App) : s.Loses s := ⟨Or.inl rfl, fun _ h => h, Or.inl rfl⟩

theorem loses_useController : s.Loses { s with live := some s.fetchedObjects } :=
  ⟨Or.inl rfl, fun _ h => h, Or.inr (Or.inl rfl)⟩

theorem loses_relaunch : s.Loses s.relaunch :=
  ⟨Or.inr rfl, fun _ h => absurd h List.not_mem_nil, Or.inr (Or.inr rfl)⟩

namespace Loses

theorem store (h : s.Loses t) : t.core.store = s.core.store := by
  rcases h.core with heq | heq
  · rw [heq]
  · rw [heq, CoreDataManager.relaunch_store]

theorem channelObjects (h : s.Loses t) : t.core.channelObjects ⊆ s.core.channelObjects := by
  rcases h.core with heq | heq
  · rw [heq]
    exact List.Subset.refl _
  · rw [heq, CoreDataManager.relaunch_channelObjects]
    exact List.subset_append_left _ _

theorem messageObjects (h : s.Loses t) : t.core.messageObjects ⊆ s.core.messageObjects := by
  rcases h.core with heq | heq
  · rw [heq]
    exact List.Subset.refl _
  · rw [heq, CoreDataManager.relaunch_messageObjects]
    exact List.subset_append_left _ _

theorem scheduled (h : s.Loses t) (hs : s.core.Scheduled) : t.core.Scheduled := by
  rcases h.core with heq | heq
  · exact heq ▸ hs
  · exact heq ▸ s.core.scheduled_relaunch

end Loses

/-- The links that are left are links that were there. -/
theorem Attributed.loses {es : List Event} (h : s.Loses t) (hs : Attributed es s) :
    Attributed es t where
  main := fun message identifier hc => hs.main message identifier (h.main _ hc)
  core := fun p hp r hr => hs.core p (h.messageObjects hp) r (h.channelObjects hr)

/-- **What holds of one launch holds over all of them**, if it is kept by what is left. -/
theorem life_invariant (I : List Event → App → Prop)
    (hloses : ∀ es a b, Loses a b → I es a → I es b)
    (hstep : ∀ es a e b, I es a → a.step cd e = some b → I (es ++ [e]) b)
    (hs : I [] .empty) {es : List Life} (hrun : run (lifeStep cd) .empty es = some s) :
    I (es.filterMap Life.event?) s := by
  rw [← observe_eq_filterMap Life.event? hrun]
  refine history_invariant_upTo id I Loses hloses hstep (fun s e t h => ?_) hs es s hrun
  cases e with
  | event e =>
    have hevent : s.step cd e = some t := h
    exact ⟨s, s.loses_refl, by simp [Life.event?, hevent]⟩
  | launch =>
    obtain rfl := Option.some.inj h
    exact ⟨s.relaunch, loses_relaunch, rfl⟩

theorem scheduled_of_life {es : List Life} (hrun : run (lifeStep cd) .empty es = some s) :
    s.core.Scheduled :=
  life_invariant (fun _ a => a.core.Scheduled) (fun _ _ _ h hs => h.scheduled hs)
    (fun _ _ _ _ hs h => scheduled_of_appStep hs h) scheduled_empty hrun

end App

end MessengerApp
