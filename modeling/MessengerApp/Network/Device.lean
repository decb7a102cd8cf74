import MessengerApp.Documents
import MessengerApp.Launches
import MessengerApp.Profile.Settings
import MessengerApp.Screens.Tables

/-!
# A device

The app as it runs on one device: its screens over the local store, the queue
that saves the profile, and the two alerts with a text field through which the
user writes to the database.  The sender of a message is the identifier of the
device, and its name the one that the profile file holds at that moment.  The
app can be ended at any moment and launched again: the store and the profile
file are what remains.

## Main definitions

* `TextAlert`, `AlertKind` — `newMessageAlert` and `newChannelAlert`.
* `Device`, `DeviceEvent`, `Device.step` — the device and what can happen on it;
  `Device.relaunch` — the device when the app is launched again.
* `sendMessage`, `createAChannel`, `contextualDelete` — what the device writes to the
  database; `Device.write` — what an event writes.

## Main results

* `TextAlert.sound_textDidChange`, `Device.sound_of_step` — an action that can be tapped
  sends the text in the field, and never an empty one.
* `Device.step_parts` — what an event does to the app and to the profile queue.
-/

namespace MessengerApp

open Machine

/-! ### The alerts -/

/-- An alert with a text field, a default action, and the variable that the field's
observer sets and the action reads. -/
structure TextAlert where
  text : Option String
  captured : Option String
  isEnabled : Bool
  deriving DecidableEq, Repr

/-- The two alerts. -/
inductive AlertKind
  | newMessage
  | newChannel
  deriving DecidableEq, Repr

/-- What the observer assigns: `newMessage = textField.text`, and
`channelName = textField.text ?? "Channel Name"`. -/
def AlertKind.capture : AlertKind → Option String → Option String
  | .newMessage, text => text
  | .newChannel, text => some (text.getD "Channel Name")

/-- What the action uses: `newMessage ?? ""`, and `channelName ?? "Channel Name"`. -/
def AlertKind.content : AlertKind → Option String → String
  | .newMessage, captured => captured.getD ""
  | .newChannel, captured => captured.getD "Channel Name"

namespace TextAlert

/-- The alert as it is presented. -/
def presented : TextAlert where
  text := some ""
  captured := none
  isEnabled := false

/-- The observer of `textDidChangeNotification`. -/
def textDidChange (kind : AlertKind) (text : Option String) (a : TextAlert) : TextAlert :=
  if text.map String.isEmpty = some false then
    { text := text, captured := kind.capture text, isEnabled := true }
  else { a with text := text, isEnabled := false }

/-- If the action can be tapped, it uses the text in the field, which is not empty. -/
def Sound (kind : AlertKind) (a : TextAlert) : Prop :=
  a.isEnabled = true → ∃ text, a.text = some text ∧ text ≠ "" ∧ kind.content a.captured = text

theorem sound_presented (kind : AlertKind) : presented.Sound kind := fun h => absurd h (by decide)

/-- Whatever the field held before, and whatever was captured. -/
theorem sound_textDidChange (kind : AlertKind) (text : Option String) (a : TextAlert) :
    (textDidChange kind text a).Sound kind := by
  unfold textDidChange
  split
  · next h =>
    intro _
    obtain ⟨t, rfl, ht⟩ := Option.map_eq_some_iff.mp h
    refine ⟨t, rfl, ?_, by cases kind <;> rfl⟩
    rintro rfl
    exact absurd ht (by decide)
  · exact fun h => absurd h Bool.false_ne_true

end TextAlert

/-! ### Writes -/

/-- What a device asks of the database; for a new document, with the ID that is chosen. -/
inductive Write
  | addChannel (document : Document)
  | addMessage (channelIdentifier : String) (document : Document)
  | deleteChannel (identifier : String)
  deriving DecidableEq, Repr

/-- `addChannelToFirebase(newChannel:)`. -/
def addChannelToFirebase (newChannel : ChannelModel) (documentID : String) : Write :=
  .addChannel (addDocument documentID newChannel.toDict)

/-- The channel that the action of `newChannelAlert` creates. -/
def createAChannel (channelName : String) (now : Date) : ChannelModel where
  identifier := ""
  name := channelName
  lastMessage := some ""
  lastActivity := some now

/-- The `addDocument` of `sendMessage(message:)`. -/
def addMessageToFirebase (newMessage : Message) (channelIdentifier documentID : String) : Write :=
  .addMessage channelIdentifier (addDocument documentID newMessage.toDict)

/-! ### The app under the screens -/

namespace Screens

variable {cd : CoreData} {s s' : Screens}

/-- The event of the app that an event of the screens comes down to. -/
def appEvent (s : Screens) : ScreenEvent → Option Event
  | .app e => some e
  | .confirmSwipe fails =>
      (s.swipe.bind fun swipe => s.object swipe.1).map fun object =>
        .deleteChannel object.objectID fails
  | _ => none

/-- What happens to the app happens to it directly, or is a deletion. -/
theorem appEvent_cases {e : ScreenEvent} {e' : Event} (h : s.appEvent e = some e') :
    e = .app e' ∨ ∃ object fails, e' = .deleteChannel object fails := by
  cases e with
  | app e => exact Or.inl (congrArg _ (Option.some.inj h))
  | confirmSwipe fails =>
    obtain ⟨object, -, rfl⟩ := Option.map_eq_some_iff.mp h
    exact Or.inr ⟨object.objectID, fails, rfl⟩
  | _ => cases h

/-- **What an event of the screens does to the app**: an event of the app or nothing, but that
the controller may be created first. -/
theorem step_appEvent {e : ScreenEvent} (h : s.step cd e = some s') : ∃ app, s.app.Loses app ∧
    run (App.step cd) app (s.appEvent e).toList = some s'.app := by
  have hsame : s'.app = s.app → ∃ app, s.app.Loses app ∧ some app = some s'.app := fun heq =>
    ⟨_, s.app.loses_refl, congrArg some heq.symm⟩
  cases e with
  | app e =>
    obtain ⟨-, app, hstep, rfl⟩ := step_app.mp h
    exact ⟨_, s.app.loses_refl, by simp [appEvent, hstep]⟩
  | reloadChannels =>
    obtain ⟨-, rfl⟩ := step_reloadChannels.mp h
    exact hsame rfl
  | channelCell row =>
    obtain ⟨-, x, -, rfl⟩ := step_channelCell.mp h
    exact hsame rfl
  | select row =>
    obtain ⟨-, h⟩ := step_select.mp h
    obtain ⟨x, -, rfl⟩ := didSelectRowAt_eq_some.mp h
    exact ⟨_, App.loses_useController, rfl⟩
  | openSwipe row =>
    obtain ⟨-, x, -, rfl⟩ := step_openSwipe.mp h
    exact hsame rfl
  | confirmSwipe fails =>
    obtain ⟨hmain, row, y, hswipe, h⟩ := step_confirmSwipe.mp h
    obtain ⟨x, hx, rfl⟩ := contextualDeleteAction_eq_some.mp h
    have hstep : s.useController.app.step cd (.deleteChannel x.objectID fails) =
        some (s.useController.app.perform cd (.deleteChannel x.objectID) fails) :=
      App.step_deleteChannel.mpr ⟨hmain, rfl⟩
    refine ⟨s.useController.app, App.loses_useController, ?_⟩
    simp [appEvent, hswipe, hx, hstep, reloadData]
  | reloadMessages c =>
    obtain ⟨-, rfl⟩ := step_reloadMessages.mp h
    exact hsame rfl
  | messageCell c row =>
    obtain ⟨-, m, -, rfl⟩ := step_messageCell.mp h
    exact hsame rfl
  | closeConversation c =>
    obtain ⟨-, rfl⟩ := step_closeConversation.mp h
    exact hsame rfl

end Screens

/-! ### The device -/

/-- What the app relies on: the framework, the JSON coders, and the device's
`identifierForVendor`. -/
structure Platform (ι δ : Type*) where
  cd : CoreData
  json : JSON δ
  userSenderId : ι → String

/-- The state of a device. -/
structure Device (δ : Type*) where
  screens : Screens
  profile : ProfileQueue δ
  /-- `channelIdentifier` of the `ConversationViewController` that is open. -/
  conversation : Option String
  /-- The channels whose messages are listened to; no listener is ever removed. -/
  listening : List String
  /-- The alert that is presented. -/
  alert : Option (AlertKind × TextAlert)

/-- What can happen on a device. -/
inductive DeviceEvent (δ : Type*)
  /-- Something happens to the app or its tables. -/
  | screen (e : ScreenEvent)
  /-- Something happens to the requests to save the profile. -/
  | profile (e : ProfileEvent δ)
  /-- A button presents an alert. -/
  | present (kind : AlertKind)
  | textDidChange (text : Option String)
  /-- The alert is cancelled, or left for the image picker. -/
  | dismiss
  /-- The action of `newMessageAlert`. -/
  | sendMessage (now : Date) (documentID : String)
  /-- The image picker hands an address over. -/
  | sendImage (imageURL : String) (now : Date) (documentID : String)
  /-- The action of `newChannelAlert`. -/
  | createAChannel (now : Date) (documentID : String)
  /-- The app is ended and launched again. -/
  | relaunch

namespace Device

variable {ι δ : Type*}

/-- A device on which the app is started for the first time; the profile file may be there. -/
def initial (file : Option δ) : Device δ where
  screens := Screens.load .empty
  profile := .idle file
  conversation := none
  listening := []
  alert := none

variable (P : Platform ι δ) (i : ι) (d : Device δ)

/-- `UserProfile.shared.getUserProfile().userName ?? "User Name"`. -/
def userName : String := (getUserProfile P.json d.profile.file).userName.getD "User Name"

/-- The message that `sendMessage(message:)` writes. -/
def newMessage (message : String) (now : Date) : Message where
  content := message
  created := now
  senderid := P.userSenderId i
  senderName := d.userName P

/-- The enabled action of an alert of this kind uses this text. -/
def entered (kind : AlertKind) : Option String :=
  d.alert.bind fun a =>
    if a.1 = kind ∧ a.2.isEnabled = true then some (kind.content a.2.captured) else none

/-- Where the app goes with an event of its screens: selecting a row opens the
conversation, whose `viewDidLoad` adds a listener. -/
def visit (screens : Screens) : ScreenEvent → Device δ
  | .select _ =>
      let identifier := screens.opened.map DBChannel.identifier
      { d with
        screens := screens
        conversation := identifier
        listening := identifier.toList ++ d.listening }
  | .closeConversation c =>
      { d with
        screens := screens
        conversation := if d.conversation = some c then none else d.conversation }
  | _ => { d with screens := screens }

/-- The device when the app is launched again: the store and the profile file have stayed. -/
def relaunch : Device δ where
  screens := .load d.screens.app.relaunch
  profile := .idle d.profile.file
  conversation := none
  listening := []
  alert := none

/-- The next state.  The user's actions wait for the running listener. -/
def step (d : Device δ) : DeviceEvent δ → Option (Device δ)
  | .screen e => (d.screens.step P.cd e).map fun screens => d.visit screens e
  | .profile e => (d.profile.step P.json e).map fun profile => { d with profile := profile }
  | .present kind =>
      if d.screens.app.main = [] ∧ d.alert = none ∧ (kind = .newMessage → d.conversation.isSome)
      then some { d with alert := some (kind, .presented) }
      else none
  | .textDidChange text =>
      if d.screens.app.main = [] then
        d.alert.map fun a => { d with alert := some (a.1, a.2.textDidChange a.1 text) }
      else none
  | .dismiss => if d.screens.app.main = [] then some { d with alert := none } else none
  | .sendMessage _ _ =>
      if d.screens.app.main = [] ∧ (d.entered .newMessage).isSome ∧ d.conversation.isSome then
        some { d with alert := none }
      else none
  | .sendImage _ _ _ =>
      if d.screens.app.main = [] ∧ d.conversation.isSome then some d else none
  | .createAChannel _ _ =>
      if d.screens.app.main = [] ∧ (d.entered .newChannel).isSome then
        some { d with alert := none, screens := d.screens.reloadData }
      else none
  | .relaunch => some d.relaunch

/-- The channel and the message that an event sends. -/
def sends : DeviceEvent δ → Option (String × Message)
  | .sendMessage now _ =>
      d.conversation.bind fun c =>
        (d.entered .newMessage).map fun message => (c, d.newMessage P i message now)
  | .sendImage imageURL now _ =>
      d.conversation.map fun c => (c, d.newMessage P i imageURL now)
  | _ => none

/-- The channel that an event creates, with the ID of its document. -/
def creates : DeviceEvent δ → Option (String × ChannelModel)
  | .createAChannel now documentID =>
      (d.entered .newChannel).map fun name => (documentID, MessengerApp.createAChannel name now)
  | _ => none

/-- The document that the confirmed swipe deletes: `deleteChannel(identifier:)` of the object
at the row. -/
def deletes : DeviceEvent δ → Option String
  | .screen (.confirmSwipe _) =>
      (d.screens.swipe.bind fun swipe => d.screens.object swipe.1).map DBChannel.identifier
  | _ => none

/-- What an event writes to the database. -/
def write (e : DeviceEvent δ) : Option Write :=
  match e with
  | .sendMessage _ documentID | .sendImage _ _ documentID =>
      (d.sends P i e).map fun m => addMessageToFirebase m.2 m.1 documentID
  | .createAChannel _ _ => (d.creates e).map fun c => addChannelToFirebase c.2 c.1
  | .screen _ => (d.deletes e).map .deleteChannel
  | _ => none

/-! ### What is written -/

variable {P i d}

/-- Only the two actions of the conversation that is open send a message. -/
theorem sends_eq_some {e : DeviceEvent δ} {c : String} {message : Message}
    (h : d.sends P i e = some (c, message)) : d.conversation = some c ∧
      ((∃ text documentID, e = .sendMessage message.created documentID ∧
          d.entered .newMessage = some text ∧
          message = d.newMessage P i text message.created) ∨
        ∃ imageURL documentID, e = .sendImage imageURL message.created documentID ∧
          message = d.newMessage P i imageURL message.created) := by
  cases e with
  | sendMessage now documentID =>
    obtain ⟨c', hc, h⟩ := Option.bind_eq_some_iff.mp h
    obtain ⟨text, htext, heq⟩ := Option.map_eq_some_iff.mp h
    obtain ⟨rfl, rfl⟩ := Prod.mk.inj heq
    exact ⟨hc, Or.inl ⟨text, documentID, rfl, htext, rfl⟩⟩
  | sendImage imageURL now documentID =>
    obtain ⟨c', hc, heq⟩ := Option.map_eq_some_iff.mp h
    obtain ⟨rfl, rfl⟩ := Prod.mk.inj heq
    exact ⟨hc, Or.inr ⟨imageURL, documentID, rfl, rfl⟩⟩
  | _ => cases h

/-- Only the action of `newChannelAlert` creates a channel. -/
theorem creates_eq_some {e : DeviceEvent δ} {documentID : String} {channel : ChannelModel}
    (h : d.creates e = some (documentID, channel)) : ∃ name now,
      e = .createAChannel now documentID ∧ d.entered .newChannel = some name ∧
        channel = MessengerApp.createAChannel name now := by
  cases e with
  | createAChannel now documentID' =>
    obtain ⟨name, hname, heq⟩ := Option.map_eq_some_iff.mp h
    obtain ⟨rfl, rfl⟩ := Prod.mk.inj heq
    exact ⟨name, now, rfl, hname, rfl⟩
  | _ => cases h

/-- Only a confirmed swipe deletes a channel. -/
theorem deletes_eq_some {e : DeviceEvent δ} {identifier : String}
    (h : d.deletes e = some identifier) : ∃ fails row shown x,
      e = .screen (.confirmSwipe fails) ∧ d.screens.swipe = some (row, shown) ∧
        d.screens.object row = some x ∧ x.identifier = identifier := by
  unfold deletes at h
  split at h
  · next fails =>
    obtain ⟨x, hx, hid⟩ := Option.map_eq_some_iff.mp h
    obtain ⟨⟨row, shown⟩, hswipe, hx⟩ := Option.bind_eq_some_iff.mp hx
    exact ⟨fails, row, shown, x, rfl, hswipe, hx, hid⟩
  · cases h

/-- **What is written is what is sent, created or deleted.** -/
theorem write_cases {e : DeviceEvent δ} {w : Write} (h : d.write P i e = some w) :
    (∃ c message documentID, d.sends P i e = some (c, message) ∧
        w = addMessageToFirebase message c documentID) ∨
      (∃ channel documentID, d.creates e = some (documentID, channel) ∧
        w = addChannelToFirebase channel documentID) ∨
      ∃ identifier, d.deletes e = some identifier ∧ w = .deleteChannel identifier := by
  cases e with
  | sendMessage now documentID =>
    obtain ⟨⟨c, message⟩, hsends, rfl⟩ := Option.map_eq_some_iff.mp h
    exact Or.inl ⟨c, message, documentID, hsends, rfl⟩
  | sendImage imageURL now documentID =>
    obtain ⟨⟨c, message⟩, hsends, rfl⟩ := Option.map_eq_some_iff.mp h
    exact Or.inl ⟨c, message, documentID, hsends, rfl⟩
  | createAChannel now documentID =>
    obtain ⟨⟨documentID', channel⟩, hcreates, rfl⟩ := Option.map_eq_some_iff.mp h
    exact Or.inr (Or.inl ⟨channel, documentID', hcreates, rfl⟩)
  | screen e =>
    obtain ⟨identifier, hdeletes, rfl⟩ := Option.map_eq_some_iff.mp h
    exact Or.inr (Or.inr ⟨identifier, hdeletes, rfl⟩)
  | _ => cases h

/-! ### The parts of the device -/

variable (P i d)

@[simp] theorem visit_screens (screens : Screens) (e : ScreenEvent) :
    (d.visit screens e).screens = screens := by
  cases e <;> rfl

@[simp] theorem visit_profile (screens : Screens) (e : ScreenEvent) :
    (d.visit screens e).profile = d.profile := by
  cases e <;> rfl

@[simp] theorem visit_alert (screens : Screens) (e : ScreenEvent) :
    (d.visit screens e).alert = d.alert := by
  cases e <;> rfl

/-- What an event is for the app. -/
def appEvent (d : Device δ) : DeviceEvent δ → Option Event
  | .screen e => d.screens.appEvent e
  | _ => none

/-- What an event is for the queue of the profile. -/
def profileEvent : DeviceEvent δ → Option (ProfileEvent δ)
  | .profile e => some e
  | _ => none

variable {P d} {d' : Device δ}

/-! ### The events -/

theorem step_screen {e : ScreenEvent} : d.step P (.screen e) = some d' ↔
    ∃ screens, d.screens.step P.cd e = some screens ∧ d.visit screens e = d' :=
  Option.map_eq_some_iff

theorem step_profile {e : ProfileEvent δ} : d.step P (.profile e) = some d' ↔
    ∃ profile, d.profile.step P.json e = some profile ∧ { d with profile := profile } = d' :=
  Option.map_eq_some_iff

theorem step_present {kind : AlertKind} : d.step P (.present kind) = some d' ↔
    (d.screens.app.main = [] ∧ d.alert = none ∧
      (kind = .newMessage → d.conversation.isSome)) ∧
      { d with alert := some (kind, .presented) } = d' := by
  simp [step]

theorem step_textDidChange {text : Option String} : d.step P (.textDidChange text) = some d' ↔
    d.screens.app.main = [] ∧ ∃ a, d.alert = some a ∧
      { d with alert := some (a.1, a.2.textDidChange a.1 text) } = d' := by
  simp [step, Option.map_eq_some_iff]

theorem step_dismiss : d.step P .dismiss = some d' ↔
    d.screens.app.main = [] ∧ { d with alert := none } = d' := by
  simp [step]

theorem step_sendMessage {now : Date} {documentID : String} :
    d.step P (.sendMessage now documentID) = some d' ↔
      (d.screens.app.main = [] ∧ (d.entered .newMessage).isSome ∧ d.conversation.isSome) ∧
        { d with alert := none } = d' := by
  simp [step]

theorem step_sendImage {imageURL : String} {now : Date} {documentID : String} :
    d.step P (.sendImage imageURL now documentID) = some d' ↔
      (d.screens.app.main = [] ∧ d.conversation.isSome) ∧ d = d' := by
  simp [step]

theorem step_createAChannel {now : Date} {documentID : String} :
    d.step P (.createAChannel now documentID) = some d' ↔
      (d.screens.app.main = [] ∧ (d.entered .newChannel).isSome) ∧
        { d with alert := none, screens := d.screens.reloadData } = d' := by
  simp [step]

theorem step_relaunch : d.step P .relaunch = some d' ↔ d.relaunch = d' := by
  simp [step]

/-! ### Steps of the parts -/

/-- A snapshot that the app is handed is handed to its screens. -/
theorem appEvent_cases {e : DeviceEvent δ} {e' : Event} (h : d.appEvent e = some e') :
    e = .screen (.app e') ∨ ∃ object fails, e' = .deleteChannel object fails := by
  cases e with
  | screen e => exact (Screens.appEvent_cases h).imp (congrArg _) id
  | _ => cases h

/-- **What an event does to each part**: the app and the queue of the profile make the step that
it is for them, if any, but a new launch loses what is in memory. -/
theorem step_parts {e : DeviceEvent δ} (h : d.step P e = some d') :
    (∃ app, d.screens.app.Loses app ∧
      run (App.step P.cd) app (d.appEvent e).toList = some d'.screens.app) ∧
      ∃ queue, (queue = d.profile ∨ queue = .idle d.profile.file) ∧
        run (ProfileQueue.step P.json) queue (profileEvent e).toList = some d'.profile := by
  -- most events leave both as they are
  have hsame : ∀ d' : Device δ, d'.screens.app = d.screens.app → d'.profile = d.profile →
      (∃ app, d.screens.app.Loses app ∧ some app = some d'.screens.app) ∧
        ∃ queue, (queue = d.profile ∨ queue = .idle d.profile.file) ∧
          some queue = some d'.profile := fun d' happ hprofile =>
    ⟨⟨_, d.screens.app.loses_refl, congrArg some happ.symm⟩, _, Or.inl rfl,
      congrArg some hprofile.symm⟩
  cases e with
  | screen e =>
    obtain ⟨screens, hs, rfl⟩ := step_screen.mp h
    obtain ⟨app, hloses, hrun⟩ := Screens.step_appEvent hs
    exact ⟨⟨app, hloses, by rwa [visit_screens]⟩, _, Or.inl rfl,
      congrArg some (visit_profile d screens e).symm⟩
  | profile e =>
    obtain ⟨profile, hp, rfl⟩ := step_profile.mp h
    exact ⟨⟨_, d.screens.app.loses_refl, rfl⟩, _, Or.inl rfl, by simp [profileEvent, hp]⟩
  | present kind =>
    obtain ⟨-, rfl⟩ := step_present.mp h
    exact hsame _ rfl rfl
  | textDidChange text =>
    obtain ⟨-, a, -, rfl⟩ := step_textDidChange.mp h
    exact hsame _ rfl rfl
  | dismiss =>
    obtain ⟨-, rfl⟩ := step_dismiss.mp h
    exact hsame _ rfl rfl
  | sendMessage now documentID =>
    obtain ⟨-, rfl⟩ := step_sendMessage.mp h
    exact hsame _ rfl rfl
  | sendImage imageURL now documentID =>
    obtain ⟨-, rfl⟩ := step_sendImage.mp h
    exact hsame _ rfl rfl
  | createAChannel now documentID =>
    obtain ⟨-, rfl⟩ := step_createAChannel.mp h
    exact hsame _ rfl rfl
  | relaunch =>
    obtain rfl := step_relaunch.mp h
    exact ⟨⟨_, App.loses_relaunch, rfl⟩, _, Or.inr rfl, rfl⟩

/-- Only the row that is selected is listened to from now on. -/
theorem listening_of_step {e : DeviceEvent δ} (h : d.step P e = some d') {c : String}
    (hc : c ∈ d'.listening) :
    c ∈ d.listening ∨ ∃ x ∈ d.screens.app.fetchedObjects, x.identifier = c := by
  cases e with
  | screen e =>
    obtain ⟨screens, hs, rfl⟩ := step_screen.mp h
    cases e with
    | select row =>
      obtain ⟨-, hs⟩ := Screens.step_select.mp hs
      obtain ⟨x, hx, rfl⟩ := Screens.didSelectRowAt_eq_some.mp hs
      rcases List.mem_cons.mp hc with rfl | hc
      · exact Or.inr ⟨x, List.mem_of_getElem? hx, rfl⟩
      · exact Or.inl hc
    | _ => exact Or.inl hc
  | profile e =>
    obtain ⟨profile, -, rfl⟩ := step_profile.mp h
    exact Or.inl hc
  | present kind =>
    obtain ⟨-, rfl⟩ := step_present.mp h
    exact Or.inl hc
  | textDidChange text =>
    obtain ⟨-, a, -, rfl⟩ := step_textDidChange.mp h
    exact Or.inl hc
  | dismiss =>
    obtain ⟨-, rfl⟩ := step_dismiss.mp h
    exact Or.inl hc
  | sendMessage now documentID =>
    obtain ⟨-, rfl⟩ := step_sendMessage.mp h
    exact Or.inl hc
  | sendImage imageURL now documentID =>
    obtain ⟨-, rfl⟩ := step_sendImage.mp h
    exact Or.inl hc
  | createAChannel now documentID =>
    obtain ⟨-, rfl⟩ := step_createAChannel.mp h
    exact Or.inl hc
  | relaunch =>
    obtain rfl := step_relaunch.mp h
    exact absurd hc List.not_mem_nil

/-! ### What is entered is what is sent -/

/-- The alert, if any, only lets the text in its field be sent. -/
def Sound (d : Device δ) : Prop := ∀ a ∈ d.alert, a.2.Sound a.1

theorem sound_initial (file : Option δ) : (initial file).Sound :=
  fun _ h => absurd h (by simp [initial])

theorem sound_of_step {e : DeviceEvent δ} (hd : d.Sound) (h : d.step P e = some d') : d'.Sound := by
  have hnone : ∀ d : Device δ, d.alert = none → d.Sound := fun d hd a ha => by simp [hd] at ha
  cases e with
  | screen e =>
    obtain ⟨screens, -, rfl⟩ := step_screen.mp h
    exact fun a ha => hd a (d.visit_alert screens e ▸ ha)
  | profile e =>
    obtain ⟨profile, -, rfl⟩ := step_profile.mp h
    exact hd
  | present kind =>
    obtain ⟨-, rfl⟩ := step_present.mp h
    rintro a ha
    obtain rfl := Option.some.inj ha
    exact TextAlert.sound_presented kind
  | textDidChange text =>
    obtain ⟨-, a, -, rfl⟩ := step_textDidChange.mp h
    rintro b hb
    obtain rfl := Option.some.inj hb
    exact TextAlert.sound_textDidChange a.1 text a.2
  | dismiss =>
    obtain ⟨-, rfl⟩ := step_dismiss.mp h
    exact hnone _ rfl
  | sendMessage now documentID =>
    obtain ⟨-, rfl⟩ := step_sendMessage.mp h
    exact hnone _ rfl
  | sendImage imageURL now documentID =>
    obtain ⟨-, rfl⟩ := step_sendImage.mp h
    exact hd
  | createAChannel now documentID =>
    obtain ⟨-, rfl⟩ := step_createAChannel.mp h
    exact hnone _ rfl
  | relaunch =>
    obtain rfl := step_relaunch.mp h
    exact hnone _ rfl

/-- **What an action uses is the text in the field**, and not empty. -/
theorem entered_eq_some (hd : d.Sound) {kind : AlertKind} {text : String}
    (h : d.entered kind = some text) :
    text ≠ "" ∧ ∃ a, d.alert = some (kind, a) ∧ a.text = some text := by
  obtain ⟨⟨kind', a⟩, ha, h⟩ := Option.bind_eq_some_iff.mp h
  obtain ⟨⟨rfl, hen⟩, h⟩ := Option.ite_none_right_eq_some.mp h
  obtain ⟨t, ht, hne, hcontent⟩ := hd (kind', a) ha hen
  obtain rfl : t = text := hcontent.symm.trans (Option.some.inj h)
  exact ⟨hne, a, ha, ht⟩

end Device

end MessengerApp
