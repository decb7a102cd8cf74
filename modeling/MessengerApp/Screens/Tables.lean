import MessengerApp.App

/-!
# The tables on the screen

The channels table and the messages tables ask their data sources for a number
of rows when they are reloaded and for single rows at any later time, and the
data sources answer each question with a fetch of their own.  The user's actions
on a channel row go to another object still, the fetched results controller of
the channels screen.  Nothing else ties these answers together: the delegate of
the controllers updates a table that is on no screen.

## Main definitions

* `Screens` — the app with what its tables have been told and have drawn.
* `numberOfRowsInSection`, `cellForRowAt`, `messageCellForRowAt`, `didSelectRowAt`,
  `contextualDeleteAction` — the functions of the source; `none` means that
  `object(at:)` raises.
* `ScreenEvent`, `Screens.step` — the events and what they do.
-/

namespace MessengerApp

open Machine CoreDataManager

/-- The state of the app and of its tables. -/
structure Screens where
  app : App
  /-- The number of rows last reported to the channels table. -/
  rows : ℕ
  /-- The channel that a row of the channels table shows, if it has been drawn since
  the last reload. -/
  drawn : ℕ → Option DBChannel
  /-- The row on which a swipe is open, and the channel it showed then. -/
  swipe : Option (ℕ × DBChannel)
  /-- The channel of the conversation pushed last. -/
  opened : Option DBChannel
  /-- The deletions the user has confirmed: the document and the object. -/
  deleted : List (String × DBChannel)
  /-- The number of rows last reported to the messages table of a channel. -/
  messageRows : String → ℕ

/-- What can happen on the screens. -/
inductive ScreenEvent
  /-- Something other than a swipe happens to the app. -/
  | app (e : Event)
  /-- The channels table is reloaded. -/
  | reloadChannels
  /-- The channels table asks for a row. -/
  | channelCell (row : ℕ)
  /-- The user selects a row. -/
  | select (row : ℕ)
  /-- The user swipes a row. -/
  | openSwipe (row : ℕ)
  /-- The user confirms the deletion. -/
  | confirmSwipe (fails : Bool)
  /-- The messages table of a channel is reloaded. -/
  | reloadMessages (channelIdentifier : String)
  /-- The messages table of a channel asks for a row. -/
  | messageCell (channelIdentifier : String) (row : ℕ)
  /-- The conversation is closed; its table asks for nothing any more. -/
  | closeConversation (channelIdentifier : String)

namespace Screens

/-- The channels screen has just been loaded. -/
def load (app : App) : Screens where
  app := app
  rows := 0
  drawn := fun _ => none
  swipe := none
  opened := none
  deleted := []
  messageRows := fun _ => 0

variable (cd : CoreData) (s : Screens)

/-- `ConversationTableView.numberOfRowsInSection`: counts a fresh fetch. -/
def numberOfRowsInSection : ℕ := (fetchChannels s.app.core.store).length

/-- `ConversationTableView.cellForRowAt`: reads a fresh fetch. -/
def cellForRowAt (row : ℕ) : Option DBChannel := (fetchChannels s.app.core.store)[row]?

/-- `ConversationViewController.cellForRowAt`. -/
def messageCellForRowAt (channelIdentifier : String) (row : ℕ) : Option DBMessage :=
  (fetchedResult channelIdentifier s.app.core.store)[row]?

/-- `channelsManager.fetchedResultsController.object(at:)`. -/
def object (row : ℕ) : Option DBChannel := s.app.fetchedObjects[row]?

/-- `reloadData()`: the table asks for the number of rows and discards its cells. -/
def reloadData : Screens :=
  { s with rows := s.numberOfRowsInSection, drawn := fun _ => none }

/-- Using the controller creates it. -/
def useController : Screens :=
  { s with app := { s.app with live := some s.app.fetchedObjects } }

/-- `didSelectRowAt`. -/
def didSelectRowAt (row : ℕ) : Option Screens :=
  (s.object row).map fun actualChannel => { s.useController with opened := some actualChannel }

/-- The handler of `contextualDeleteAction`: the index path is resolved when the
action is tapped, and the table reloaded at once. -/
def contextualDeleteAction (row : ℕ) (fails : Bool) : Option Screens :=
  (s.object row).map fun managedObject =>
    ({ s with
      app := s.useController.app.perform cd (.deleteChannel managedObject.objectID) fails
      swipe := none
      deleted := s.deleted ++ [(managedObject.identifier, managedObject)] } : Screens).reloadData

/-- Something happens to the app; the deletions of the user are events of the screen. -/
def appStep : Event → Option Screens
  | .deleteChannel _ _ => none
  | e => (s.app.step cd e).map fun app => { s with app := app }

/-- The next state.  Whatever the tables or the user do waits for the running
listener; only rows that have been drawn can be selected or swiped. -/
def step (s : Screens) : ScreenEvent → Option Screens
  | .app e => s.appStep cd e
  | .reloadChannels => if s.app.main = [] then some s.reloadData else none
  | .channelCell row =>
      if s.app.main = [] ∧ row < s.rows then
        (s.cellForRowAt row).map fun channel =>
          { s with drawn := Function.update s.drawn row (some channel) }
      else none
  | .select row =>
      if s.app.main = [] ∧ (s.drawn row).isSome then s.didSelectRowAt row else none
  | .openSwipe row =>
      if s.app.main = [] then
        (s.drawn row).map fun channel => { s with swipe := some (row, channel) }
      else none
  | .confirmSwipe fails =>
      if s.app.main = [] then
        s.swipe.bind fun swipe => s.contextualDeleteAction cd swipe.1 fails
      else none
  | .reloadMessages c =>
      if s.app.main = [] then
        some { s with
          messageRows := Function.update s.messageRows c
            (fetchedResult c s.app.core.store).length }
      else none
  | .messageCell c row =>
      if s.app.main = [] ∧ row < s.messageRows c then
        (s.messageCellForRowAt c row).map fun _ => s
      else none
  | .closeConversation c =>
      if s.app.main = [] then
        some { s with messageRows := Function.update s.messageRows c 0 }
      else none

/-! ### What an event can do -/

variable {cd s} {s' : Screens}

theorem step_app {e : Event} :
    s.step cd (.app e) = some s' ↔ (∀ object fails, e ≠ .deleteChannel object fails) ∧
      ∃ app, s.app.step cd e = some app ∧ s' = { s with app := app } := by
  have hmap : (s.app.step cd e).map (fun app => ({ s with app := app } : Screens)) = some s' ↔
      ∃ app, s.app.step cd e = some app ∧ s' = { s with app := app } := by
    rw [Option.map_eq_some_iff]
    exact exists_congr fun app => and_congr_right fun _ => eq_comm
  cases e with
  | deleteChannel object fails =>
    refine iff_of_false (by simp [step, appStep]) fun h => ?_
    exact h.1 object fails rfl
  | channelsSnapshot snap => simpa [step, appStep] using hmap
  | messagesSnapshot channelIdentifier snap => simpa [step, appStep] using hmap
  | next fails => simpa [step, appStep] using hmap
  | saveBlock fails => simpa [step, appStep] using hmap
  | merge objects => simpa [step, appStep] using hmap

theorem step_reloadChannels :
    s.step cd .reloadChannels = some s' ↔ s.app.main = [] ∧ s' = s.reloadData := by
  simp only [step, Option.ite_none_right_eq_some, Option.some.injEq]
  exact and_congr_right fun _ => eq_comm

theorem step_channelCell {row : ℕ} :
    s.step cd (.channelCell row) = some s' ↔ (s.app.main = [] ∧ row < s.rows) ∧
      ∃ x, s.cellForRowAt row = some x ∧
        s' = { s with drawn := Function.update s.drawn row (some x) } := by
  simp only [step, Option.ite_none_right_eq_some, Option.map_eq_some_iff]
  exact and_congr_right fun _ => exists_congr fun x => and_congr_right fun _ => eq_comm

theorem step_select {row : ℕ} :
    s.step cd (.select row) = some s' ↔ (s.app.main = [] ∧ (s.drawn row).isSome) ∧
      s.didSelectRowAt row = some s' := by
  simp only [step, Option.ite_none_right_eq_some]

theorem step_openSwipe {row : ℕ} :
    s.step cd (.openSwipe row) = some s' ↔ s.app.main = [] ∧
      ∃ x, s.drawn row = some x ∧ s' = { s with swipe := some (row, x) } := by
  simp only [step, Option.ite_none_right_eq_some, Option.map_eq_some_iff]
  exact and_congr_right fun _ => exists_congr fun x => and_congr_right fun _ => eq_comm

theorem step_confirmSwipe {fails : Bool} :
    s.step cd (.confirmSwipe fails) = some s' ↔ s.app.main = [] ∧
      ∃ row x, s.swipe = some (row, x) ∧ s.contextualDeleteAction cd row fails = some s' := by
  simp only [step, Option.ite_none_right_eq_some, Option.bind_eq_some_iff, Prod.exists]

theorem step_reloadMessages {c : String} :
    s.step cd (.reloadMessages c) = some s' ↔ s.app.main = [] ∧
      s' = { s with
        messageRows := Function.update s.messageRows c
          (fetchedResult c s.app.core.store).length } := by
  simp only [step, Option.ite_none_right_eq_some, Option.some.injEq]
  exact and_congr_right fun _ => eq_comm

theorem step_messageCell {c : String} {row : ℕ} :
    s.step cd (.messageCell c row) = some s' ↔ (s.app.main = [] ∧ row < s.messageRows c) ∧
      ∃ m, s.messageCellForRowAt c row = some m ∧ s' = s := by
  simp only [step, Option.ite_none_right_eq_some, Option.map_eq_some_iff]
  exact and_congr_right fun _ => exists_congr fun m => and_congr_right fun _ => eq_comm

theorem step_closeConversation {c : String} :
    s.step cd (.closeConversation c) = some s' ↔ s.app.main = [] ∧
      s' = { s with messageRows := Function.update s.messageRows c 0 } := by
  simp only [step, Option.ite_none_right_eq_some, Option.some.injEq]
  exact and_congr_right fun _ => eq_comm

/-- A selection changes neither the store nor what the tables were told. -/
theorem didSelectRowAt_eq_some {row : ℕ} :
    s.didSelectRowAt row = some s' ↔
      ∃ x, s.object row = some x ∧ s' = { s.useController with opened := some x } := by
  unfold didSelectRowAt
  rw [Option.map_eq_some_iff]
  exact exists_congr fun x => and_congr_right fun _ => eq_comm

theorem contextualDeleteAction_eq_some {row : ℕ} {fails : Bool} :
    s.contextualDeleteAction cd row fails = some s' ↔
      ∃ x, s.object row = some x ∧ s' = ({ s with
        app := s.useController.app.perform cd (.deleteChannel x.objectID) fails
        swipe := none
        deleted := s.deleted ++ [(x.identifier, x)] } : Screens).reloadData := by
  unfold contextualDeleteAction
  rw [Option.map_eq_some_iff]
  exact exists_congr fun x => and_congr_right fun _ => eq_comm

end Screens

end MessengerApp
