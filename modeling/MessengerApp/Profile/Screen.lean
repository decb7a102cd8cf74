import MessengerApp.Profile.Settings

/-!
# `ProfileViewController`

The profile screen has two modes, which it keeps in the visibility of its
buttons: `hideAButtons` toggles all of them, and the handlers call it without
looking.  Saving is asynchronous; a failure is shown in an alert whose two actions
run the save or the cancellation again, in whatever mode the screen is then.

The requests under way are part of the state, and everything they report may
arrive at any later time.  Nothing is assumed about the controls that an alert
covers.  A picker may return without a picture; a save after that, while the image
view is still empty, traps at `profileImageView.image!` and ends the app.

## Main definitions

* `ProfileScreen` — the outlets, the flags and the requests under way.
* `editProfileButtonTapped`, `saveWithGCD`, `cancelChanges`, ... — the handlers.
* `ScreenAction`, `ProfileScreen.step` — the events and what they do.
* `ProfileScreen.offered`, `ProfileScreen.traps` — what can be done on the screen, and
  what ends the app.
* `ProfileScreen.Tied` — the visibilities of the buttons that are toggled together.

## Main results

* `tied_of_step` — they stay together.
-/

namespace MessengerApp

open Machine

/-- The profile screen, with `α` for `UIImage`. -/
structure ProfileScreen (α : Type*) where
  /-- Loaded once, when the screen is created. -/
  userProfile : UserProfileModel
  changeUserInfo : Bool
  changeUserImage : Bool
  userNameText : String
  infoAboutUserText : String
  /-- `isUserInteractionEnabled` of the text fields. -/
  userNameEnabled : Bool
  infoAboutUserEnabled : Bool
  /-- `isHidden` of the buttons. -/
  editProfileHidden : Bool
  saveGCDHidden : Bool
  cancelHidden : Bool
  editProfileImageHidden : Bool
  saveGCDEnabled : Bool
  /-- `isHidden` of the activity indicator. -/
  saveProcessHidden : Bool
  /-- The picture of `profileImageView`. -/
  profileImage : Option α
  /-- The profile saves under way, in the order in which they were issued. -/
  saves : List UserProfileModel
  /-- The photo saves under way. -/
  photoSaves : List α
  /-- The number of calls of `loadUserImage` under way. -/
  imageLoads : ℕ
  /-- The number of photos selected for download that have not arrived. -/
  downloads : ℕ
  /-- The number of failure alerts that have not been answered. -/
  failAlerts : ℕ
  deriving DecidableEq, Repr

/-- What can happen on the profile screen. -/
inductive ScreenAction (α : Type*)
  | editProfileButtonTapped
  | saveGCDButtonTapped
  | cancelButtonTapped
  /-- The user edits the name, or the info. -/
  | editUserName (text : String)
  | editInfoAboutUser (text : String)
  /-- The camera or the gallery returns: with a photo, with an edited one, or with neither. -/
  | didFinishPicking (editedImage originalImage : Option α)
  /-- The user selects a photo for download. -/
  | selectDownload
  /-- A downloaded photo arrives. -/
  | newProfileImage (image : α)
  /-- A profile save reports its result. -/
  | saved (index : ℕ) (result : Bool)
  /-- A photo save reports its result. -/
  | photoSaved (index : ℕ) (result : Bool)
  /-- `loadUserImage` returns the stored photo, if there is one. -/
  | imageLoaded (image : Option α)
  /-- The actions of a failure alert. -/
  | retry
  | cancelAlert
  deriving DecidableEq, Repr

namespace ProfileScreen

variable {α : Type*}

/-- What a text field shows for a text that may be missing. -/
def text (s : Option String) : String := s.getD ""

/-- `viewDidLoad` with the profile that `getUserProfile` has loaded; the picture has not
been loaded yet. -/
def viewDidLoad (userProfile : UserProfileModel) : ProfileScreen α where
  userProfile := userProfile
  changeUserInfo := false
  changeUserImage := false
  userNameText := text userProfile.userName
  infoAboutUserText := text userProfile.userInfo
  userNameEnabled := false
  infoAboutUserEnabled := false
  editProfileHidden := false
  saveGCDHidden := true
  cancelHidden := true
  editProfileImageHidden := true
  saveGCDEnabled := true
  saveProcessHidden := true
  profileImage := none
  saves := []
  photoSaves := []
  imageLoads := 1
  downloads := 0
  failAlerts := 0

variable (s : ProfileScreen α)

/-- `hideAButtons`. -/
def hideAButtons : ProfileScreen α :=
  { s with
    editProfileHidden := !s.editProfileHidden
    cancelHidden := !s.cancelHidden
    saveGCDHidden := !s.saveGCDHidden
    editProfileImageHidden := !s.editProfileImageHidden }

/-- `enableAButtons`. -/
def enableAButtons : ProfileScreen α := { s with saveGCDEnabled := !s.saveGCDEnabled }

def editProfileButtonTapped : ProfileScreen α :=
  ({ s with
    userNameEnabled := true
    infoAboutUserEnabled := true
    saveGCDEnabled := false } : ProfileScreen α).hideAButtons

/-- `setupProfileImageView`: a load of the stored photo starts. -/
def setupProfileImageView : ProfileScreen α := { s with imageLoads := s.imageLoads + 1 }

/-- `saveWithGCD`, if it does not trap: when a picker has returned, the picture of the
image view is saved as the photo. -/
def saveWithGCD : ProfileScreen α :=
  let s' := ({ s with
    saveProcessHidden := false
    saves := s.saves ++ [⟨some s.userNameText, some s.infoAboutUserText⟩]
    photoSaves := s.photoSaves ++ (if s.changeUserImage then s.profileImage.toList else [])
    userNameEnabled := false
    infoAboutUserEnabled := false } : ProfileScreen α).hideAButtons
  { s' with changeUserInfo := !s'.changeUserInfo }

/-- `cancelChanges`. -/
def cancelChanges : ProfileScreen α :=
  ({ s with
    userNameText := text s.userProfile.userName
    infoAboutUserText := text s.userProfile.userInfo } :
      ProfileScreen α).setupProfileImageView.hideAButtons

/-- `textFieldDidChange`. -/
def textFieldDidChange : ProfileScreen α :=
  if s.changeUserInfo then s else { s.enableAButtons with changeUserInfo := true }

/-- A picker has returned, with or without a picture.  The `guard` comes after this. -/
def pick (image : Option α) : ProfileScreen α :=
  { s.enableAButtons with changeUserImage := true, profileImage := image }

/-- The completion of `saveUserProfile`. -/
def saveCompleted (result : Bool) : ProfileScreen α :=
  if result then { s with saveProcessHidden := true }
  else { s with failAlerts := s.failAlerts + 1 }

/-- The completion of `loadUserImage`: without a stored photo, the picture of the initials. -/
def loadCompleted (initialsPicture : String → α) (image : Option α) : ProfileScreen α :=
  { s with
    profileImage :=
      some (image.getD (initialsPicture (s.userProfile.userName.getD "User Name"))) }

/-- Buttons must be shown to be tapped, and the save button enabled; text fields must accept
input; only what is under way is completed, and only what is shown is answered. -/
def offered : ScreenAction α → Bool
  | .editProfileButtonTapped => !s.editProfileHidden
  | .saveGCDButtonTapped => !s.saveGCDHidden && s.saveGCDEnabled
  | .cancelButtonTapped => !s.cancelHidden
  | .editUserName _ => s.userNameEnabled
  | .editInfoAboutUser _ => s.infoAboutUserEnabled
  | .didFinishPicking _ _ => !s.editProfileImageHidden
  | .selectDownload => !s.editProfileImageHidden
  | .newProfileImage _ => decide (0 < s.downloads)
  | .saved index _ => decide (index < s.saves.length)
  | .photoSaved index _ => decide (index < s.photoSaves.length)
  | .imageLoaded _ => decide (0 < s.imageLoads)
  | .retry => decide (0 < s.failAlerts)
  | .cancelAlert => decide (0 < s.failAlerts)

/-- `saveWithGCD` is to save the picture of an image view that has none. -/
def traps : ScreenAction α → Bool
  | .saveGCDButtonTapped | .retry => s.changeUserImage && s.profileImage.isNone
  | _ => false

/-- What is offered and does not end the app. -/
def enabled (e : ScreenAction α) : Bool := s.offered e && !s.traps e

/-- What an event does.  The result of a photo save concerns other screens only. -/
def handle (initialsPicture : String → α) : ScreenAction α → ProfileScreen α
  | .editProfileButtonTapped => s.editProfileButtonTapped
  | .saveGCDButtonTapped => s.saveWithGCD
  | .cancelButtonTapped => s.cancelChanges
  | .editUserName text => ({ s with userNameText := text } : ProfileScreen α).textFieldDidChange
  | .editInfoAboutUser text =>
      ({ s with infoAboutUserText := text } : ProfileScreen α).textFieldDidChange
  | .didFinishPicking editedImage originalImage => s.pick (editedImage.or originalImage)
  | .selectDownload => { s with downloads := s.downloads + 1 }
  | .newProfileImage image => { s.pick (some image) with downloads := s.downloads - 1 }
  | .saved index result => { s.saveCompleted result with saves := s.saves.eraseIdx index }
  | .photoSaved index _ => { s with photoSaves := s.photoSaves.eraseIdx index }
  | .imageLoaded image =>
      { s.loadCompleted initialsPicture image with imageLoads := s.imageLoads - 1 }
  | .retry => ({ s with failAlerts := s.failAlerts - 1 } : ProfileScreen α).saveWithGCD
  | .cancelAlert => ({ s with failAlerts := s.failAlerts - 1 } : ProfileScreen α).cancelChanges

def step (initialsPicture : String → α) (s : ProfileScreen α) (e : ScreenAction α) :
    Option (ProfileScreen α) :=
  if s.enabled e then some (s.handle initialsPicture e) else none

variable {s} {s' : ProfileScreen α} {e : ScreenAction α} {initialsPicture : String → α}

theorem step_eq_some : s.step initialsPicture e = some s' ↔
    s.enabled e = true ∧ s' = s.handle initialsPicture e := by
  unfold step
  constructor
  · intro h
    obtain ⟨hen, hs'⟩ := Option.ite_none_right_eq_some.mp h
    exact ⟨hen, (Option.some.inj hs').symm⟩
  · rintro ⟨hen, rfl⟩
    exact if_pos hen

theorem step_eq_none : s.step initialsPicture e = none ↔ ¬ s.enabled e = true := by
  unfold step
  constructor
  · intro h hen
    rw [if_pos hen] at h
    cases h
  · exact fun hen => if_neg hen

theorem offered_of_enabled (h : s.enabled e = true) : s.offered e = true :=
  (Bool.and_eq_true_iff.mp h).1

theorem watch_step_eq_some {η : Type*} {note : η → ProfileScreen α → ScreenAction α → η}
    {p p' : ProfileScreen α × η} : watch (step initialsPicture) note p e = some p' ↔
      p.1.enabled e = true ∧ p' = (p.1.handle initialsPicture e, note p.2 p.1 e) := by
  rw [watch_eq_some, step_eq_some, and_assoc, Prod.ext_iff]

theorem watch_step_eq_none {η : Type*} {note : η → ProfileScreen α → ScreenAction α → η}
    {p : ProfileScreen α × η} :
    watch (step initialsPicture) note p e = none ↔ ¬ p.1.enabled e = true := by
  rw [watch_eq_none, step_eq_none]

/-- The first change of a text since the flag was cleared toggles the save button. -/
theorem textFieldDidChange_eq : s.textFieldDidChange =
    { s with
      saveGCDEnabled := if s.changeUserInfo then s.saveGCDEnabled else !s.saveGCDEnabled
      changeUserInfo := true } := by
  unfold textFieldDidChange
  split
  · next h => rw [← h]
  · rfl

/-- The profile of the screen is never loaded again. -/
theorem userProfile_handle : (s.handle initialsPicture e).userProfile = s.userProfile := by
  cases e with
  | editUserName text => rw [handle, textFieldDidChange_eq]
  | editInfoAboutUser text => rw [handle, textFieldDidChange_eq]
  | saved index result => cases result <;> rfl
  | _ => rfl

/-! ### The buttons and the text fields -/

/-- The buttons of edit mode are shown when the edit button is not, and both text fields
accept input or neither does. -/
structure Tied (s : ProfileScreen α) : Prop where
  save : s.saveGCDHidden = !s.editProfileHidden
  cancel : s.cancelHidden = !s.editProfileHidden
  image : s.editProfileImageHidden = !s.editProfileHidden
  fields : s.infoAboutUserEnabled = s.userNameEnabled

theorem tied_viewDidLoad (userProfile : UserProfileModel) :
    (viewDidLoad userProfile : ProfileScreen α).Tied := ⟨rfl, rfl, rfl, rfl⟩

theorem Tied.hideAButtons (h : s.Tied) : s.hideAButtons.Tied :=
  ⟨congrArg not h.save, congrArg not h.cancel, congrArg not h.image, h.fields⟩

theorem Tied.textFieldDidChange (h : s.Tied) : s.textFieldDidChange.Tied := by
  rw [textFieldDidChange_eq]
  exact ⟨h.save, h.cancel, h.image, h.fields⟩

theorem Tied.saveWithGCD (h : s.Tied) : s.saveWithGCD.Tied := by
  have h' := Tied.hideAButtons (s := { s with
    userNameEnabled := false
    infoAboutUserEnabled := false }) ⟨h.save, h.cancel, h.image, rfl⟩
  exact ⟨h'.save, h'.cancel, h'.image, h'.fields⟩

/-- The buttons are only ever toggled together. -/
theorem Tied.handle (h : s.Tied) (e : ScreenAction α) : (s.handle initialsPicture e).Tied := by
  obtain ⟨hsave, hcancel, himage, hfields⟩ := h
  cases e with
  | editProfileButtonTapped => exact Tied.hideAButtons ⟨hsave, hcancel, himage, rfl⟩
  | saveGCDButtonTapped => exact Tied.saveWithGCD ⟨hsave, hcancel, himage, hfields⟩
  | retry =>
    exact Tied.saveWithGCD (s := { s with failAlerts := s.failAlerts - 1 })
      ⟨hsave, hcancel, himage, hfields⟩
  | cancelButtonTapped => exact Tied.hideAButtons ⟨hsave, hcancel, himage, hfields⟩
  | cancelAlert => exact Tied.hideAButtons ⟨hsave, hcancel, himage, hfields⟩
  | editUserName text => exact Tied.textFieldDidChange ⟨hsave, hcancel, himage, hfields⟩
  | editInfoAboutUser text => exact Tied.textFieldDidChange ⟨hsave, hcancel, himage, hfields⟩
  | saved index result => cases result <;> exact ⟨hsave, hcancel, himage, hfields⟩
  | didFinishPicking editedImage originalImage => exact ⟨hsave, hcancel, himage, hfields⟩
  | selectDownload => exact ⟨hsave, hcancel, himage, hfields⟩
  | newProfileImage image => exact ⟨hsave, hcancel, himage, hfields⟩
  | photoSaved index result => exact ⟨hsave, hcancel, himage, hfields⟩
  | imageLoaded image => exact ⟨hsave, hcancel, himage, hfields⟩

theorem tied_of_step (h : s.Tied) (hstep : s.step initialsPicture e = some s') : s'.Tied := by
  obtain ⟨-, rfl⟩ := step_eq_some.mp hstep
  exact h.handle e

end ProfileScreen

end MessengerApp
