import Mathlib.Algebra.Ring.Parity
import MessengerApp.Profile.Screen

/-!
# The two modes of the profile screen

`hideAButtons` changes the mode, but only the save handler locks the text fields
again, and the actions of a failure alert change the mode back and forth.  The save
button is toggled by every picker that returns and by the first change of a text since
a flag was cleared, which only the save handler does.

## Main definitions

* `Coherent` — the screen is in one of its two modes.
* `KeepsMode` — the condition on an event under which it stays in one.
* `EditNotes`, `noteEdit` — what has been edited, and how often the save button has been
  toggled since edit mode was left.
* `OffersSave` — in edit mode the save button is enabled exactly after an edit.
* `KeepsOffer` — the condition on an event under which it stays so.

## Main results

* `coherent_iff_keepsMode` — **when the screen is always in a coherent mode.**
* `offersSave_iff_keepsOffer` — **when saving is offered exactly after an edit.**
-/

namespace MessengerApp

open Machine

namespace ProfileScreen

variable {α : Type*} {s s' : ProfileScreen α} {e : ScreenAction α} {initialsPicture : String → α}

/-! ### Buttons and text fields -/

/-- The edit button is hidden if and only if the other buttons are all shown, and if and
only if both text fields accept input. -/
structure Coherent (s : ProfileScreen α) : Prop where
  buttons : s.editProfileHidden = true ↔
    s.saveGCDHidden = false ∧ s.cancelHidden = false ∧ s.editProfileImageHidden = false
  fields : s.editProfileHidden = true ↔
    s.userNameEnabled = true ∧ s.infoAboutUserEnabled = true

/-- Nothing is cancelled, and a save is only retried in edit mode. -/
def KeepsMode (s : ProfileScreen α) (e : ScreenAction α) : Prop :=
  s.enabled e = true →
    match e with
    | .cancelButtonTapped | .cancelAlert => False
    | .retry => s.editProfileHidden = true
    | _ => True

theorem Tied.coherent_iff (h : s.Tied) :
    s.Coherent ↔ s.userNameEnabled = s.editProfileHidden := by
  obtain ⟨hsave, hcancel, himage, hfields⟩ := h
  constructor
  · rintro ⟨-, hboth⟩
    rw [hfields, and_self] at hboth
    exact (Bool.eq_iff_iff.mpr hboth).symm
  · intro heq
    constructor
    · rw [hsave, hcancel, himage]
      simp
    · rw [hfields, heq, and_self]

/-- The save button is shown in edit mode only. -/
theorem Tied.hidden_of_save (h : s.Tied) (hen : s.enabled .saveGCDButtonTapped = true) :
    s.editProfileHidden = true := by
  have hsave : (!s.saveGCDHidden) = true :=
    (Bool.and_eq_true_iff.mp (offered_of_enabled hen)).1
  rwa [h.save, Bool.not_not] at hsave

/-- And so is the cancel button. -/
theorem Tied.hidden_of_cancel (h : s.Tied) (hen : s.enabled .cancelButtonTapped = true) :
    s.editProfileHidden = true := by
  have hcancel : (!s.cancelHidden) = true := offered_of_enabled hen
  rwa [h.cancel, Bool.not_not] at hcancel

theorem coherent_viewDidLoad (userProfile : UserProfileModel) :
    (viewDidLoad userProfile : ProfileScreen α).Coherent :=
  (tied_viewDidLoad userProfile).coherent_iff.mpr rfl

/-- **One event.** -/
theorem coherent_of_step_iff (htied : s.Tied) (h : s.Coherent)
    (hstep : s.step initialsPicture e = some s') : s'.Coherent ↔ s.KeepsMode e := by
  obtain ⟨hen, rfl⟩ := step_eq_some.mp hstep
  have hmode := htied.coherent_iff.mp h
  rw [(htied.handle e).coherent_iff]
  cases e with
  | editProfileButtonTapped =>
    refine iff_of_true ?_ fun _ => trivial
    exact (offered_of_enabled hen).symm
  | saveGCDButtonTapped =>
    -- the save button is only shown in edit mode
    have hshown : s.editProfileHidden = true := htied.hidden_of_save hen
    refine iff_of_true ?_ fun _ => trivial
    show false = !s.editProfileHidden
    rw [hshown]
    rfl
  | cancelButtonTapped =>
    refine iff_of_false ?_ fun h => h hen
    show ¬ s.userNameEnabled = !s.editProfileHidden
    rw [hmode]
    simp
  | cancelAlert =>
    refine iff_of_false ?_ fun h => h hen
    show ¬ s.userNameEnabled = !s.editProfileHidden
    rw [hmode]
    simp
  | retry =>
    show (false = !s.editProfileHidden) ↔ (_ → s.editProfileHidden = true)
    rw [forall_prop_of_true hen]
    simp
  | editUserName text =>
    refine iff_of_true ?_ fun _ => trivial
    rw [handle, textFieldDidChange_eq]
    exact hmode
  | editInfoAboutUser text =>
    refine iff_of_true ?_ fun _ => trivial
    rw [handle, textFieldDidChange_eq]
    exact hmode
  | saved index result =>
    refine iff_of_true ?_ fun _ => trivial
    cases result <;> exact hmode
  | didFinishPicking editedImage originalImage => exact iff_of_true hmode fun _ => trivial
  | selectDownload => exact iff_of_true hmode fun _ => trivial
  | newProfileImage image => exact iff_of_true hmode fun _ => trivial
  | photoSaved index result => exact iff_of_true hmode fun _ => trivial
  | imageLoaded image => exact iff_of_true hmode fun _ => trivial

/-- **When the screen is always in a coherent mode**: if and only if nothing is ever
cancelled, and no save is retried outside edit mode. -/
theorem coherent_iff_keepsMode (initialsPicture : String → α) (userProfile : UserProfileModel)
    (es : List (ScreenAction α)) :
    (∀ t, Visits (step initialsPicture) (viewDidLoad userProfile) es t → t.Coherent) ↔
      Meets (step initialsPicture) KeepsMode (viewDidLoad userProfile) es :=
  forall_visits_iff_meets_of_invariant (fun _ _ _ h _ hstep => tied_of_step h hstep)
    (fun _ _ _ htied h hstep => coherent_of_step_iff htied h hstep)
    (fun _ _ h hen => absurd hen (step_eq_none.mp h)) es _ (tied_viewDidLoad userProfile)
    (coherent_viewDidLoad userProfile)

/-- **Cancelling leaves the text fields open.** -/
theorem exists_incoherent_mode : ¬ ∀ (userProfile : UserProfileModel)
    (es : List (ScreenAction String)) (t : ProfileScreen String),
    Visits (step id) (viewDidLoad userProfile) es t → t.Coherent := by
  intro h
  let es : List (ScreenAction String) := [.editProfileButtonTapped, .cancelButtonTapped]
  let t : ProfileScreen String := (run (step id) (viewDidLoad ⟨none, none⟩) es).get rfl
  have hvisits : Visits (step id) (viewDidLoad ⟨none, none⟩) es t :=
    visits_of_run _ (Option.some_get _).symm
  exact absurd ((h _ es t hvisits).fields.mpr ⟨rfl, rfl⟩) (by decide)

/-! ### The save button -/

/-- What has been edited, and what has become of the save button. -/
structure EditNotes where
  /-- A text has been edited or a photo picked since the edit button was tapped. -/
  touched : Bool
  /-- So it was when edit mode was left last. -/
  left : Bool
  /-- How often the save button has been toggled since then.  It is enabled at the start,
  as after one time. -/
  toggles : ℕ
  deriving DecidableEq, Repr

/-- Nothing has happened yet. -/
def EditNotes.start : EditNotes := ⟨false, false, 1⟩

/-- Edit mode is left. -/
def EditNotes.leave (n : EditNotes) : EditNotes := { n with left := n.touched, toggles := 0 }

def noteEdit (n : EditNotes) (s : ProfileScreen α) : ScreenAction α → EditNotes
  | .editProfileButtonTapped => { n with touched := false }
  | .saveGCDButtonTapped | .cancelButtonTapped => n.leave
  | .retry | .cancelAlert => if s.editProfileHidden then n.leave else n
  | .editUserName _ | .editInfoAboutUser _ =>
      { n with touched := true, toggles := if s.changeUserInfo then n.toggles else n.toggles + 1 }
  | .didFinishPicking editedImage originalImage =>
      { n with
        touched := n.touched || (editedImage.or originalImage).isSome
        toggles := n.toggles + 1 }
  | .newProfileImage _ => { n with touched := true, toggles := n.toggles + 1 }
  | _ => n

/-- In edit mode, the save button is enabled if and only if something has been edited. -/
def OffersSave (p : ProfileScreen α × EditNotes) : Prop :=
  p.1.editProfileHidden = true → (p.1.saveGCDEnabled = true ↔ p.2.touched = true)

/-- In edit mode, a text is edited when the flag of the text handler agrees with the save
button, a photo arrives when the save button is disabled, and no picker returns without a
photo.  When an alert opens edit mode, the save button has been toggled an odd number of
times since edit mode was left if nothing had been edited by then but something has been
since, and an even number of times otherwise. -/
def KeepsOffer (p : ProfileScreen α × EditNotes) (e : ScreenAction α) : Prop :=
  p.1.enabled e = true →
    match e with
    | .editUserName _ | .editInfoAboutUser _ =>
        p.1.editProfileHidden = true → p.1.changeUserInfo = p.1.saveGCDEnabled
    | .didFinishPicking editedImage originalImage =>
        p.1.editProfileHidden = true →
          (editedImage.or originalImage).isSome = true ∧ p.1.saveGCDEnabled = false
    | .newProfileImage _ => p.1.editProfileHidden = true → p.1.saveGCDEnabled = false
    | .retry | .cancelAlert => p.1.editProfileHidden = false →
        (Odd p.2.toggles ↔ p.2.left = false ∧ p.2.touched = true)
    | _ => True

/-- In view mode, the save button is as edit mode has left it, but for the times it has been
toggled since. -/
structure ButtonNoted (p : ProfileScreen α × EditNotes) : Prop where
  tied : p.1.Tied
  button : p.1.editProfileHidden = false →
    (p.1.saveGCDEnabled = true ↔ (Odd p.2.toggles ↔ p.2.left = false))
  touched : p.1.editProfileHidden = false → p.2.left = true → p.2.touched = true

variable {n : EditNotes} {p p' : ProfileScreen α × EditNotes}

theorem buttonNoted_viewDidLoad (userProfile : UserProfileModel) :
    ButtonNoted ((viewDidLoad userProfile : ProfileScreen α), .start) where
  tied := tied_viewDidLoad userProfile
  button _ := iff_of_true rfl (iff_of_true odd_one rfl)
  touched _ h := absurd h Bool.false_ne_true

/-- Leaving edit mode: the button is enabled if and only if something has been edited. -/
theorem ButtonNoted.leave (htied : s'.Tied) (henabled : s'.saveGCDEnabled = s.saveGCDEnabled)
    (hmode : s.editProfileHidden = true) (h : OffersSave (s, n)) : ButtonNoted (s', n.leave) where
  tied := htied
  button := by
    intro _
    rw [henabled, h hmode]
    show n.touched = true ↔ (Odd 0 ↔ n.touched = false)
    simp
  touched := fun _ h => h

/-- The button is toggled, and that is noted. -/
theorem ButtonNoted.toggle (h : ButtonNoted (s, n)) (htied : s'.Tied)
    (hmode : s'.editProfileHidden = s.editProfileHidden)
    (henabled : s'.saveGCDEnabled = !s.saveGCDEnabled) {touched : Bool}
    (htouched : n.touched = true → touched = true) :
    ButtonNoted (s', { n with touched := touched, toggles := n.toggles + 1 }) where
  tied := htied
  button := by
    intro hview
    have hbutton := h.button (hmode ▸ hview)
    show s'.saveGCDEnabled = true ↔ (Odd (n.toggles + 1) ↔ n.left = false)
    rw [henabled, Nat.odd_add_one, Bool.not_eq_true', ← Bool.not_eq_true]
    exact (not_congr hbutton).trans not_iff
  touched := fun hview hleft => htouched (h.touched (hmode ▸ hview) hleft)

/-- A text is edited: the button is toggled, or left as it is. -/
theorem ButtonNoted.textFieldDidChange (h : ButtonNoted (s, n)) (htied : s'.Tied)
    (heq : s' = s.textFieldDidChange) : ButtonNoted (s', { n with
      touched := true
      toggles := if s.changeUserInfo then n.toggles else n.toggles + 1 }) := by
  rw [textFieldDidChange_eq] at heq
  cases hchanged : s.changeUserInfo with
  | true =>
    rw [hchanged] at heq
    exact ⟨htied, heq ▸ h.button, fun _ _ => rfl⟩
  | false =>
    rw [hchanged] at heq
    exact h.toggle htied (heq ▸ rfl) (heq ▸ rfl) fun _ => rfl

/-- The actions of an alert leave edit mode or open it. -/
theorem ButtonNoted.answer (h : OffersSave (s, n)) (htied : s'.Tied)
    (henabled : s'.saveGCDEnabled = s.saveGCDEnabled)
    (hmode : s'.editProfileHidden = !s.editProfileHidden) :
    ButtonNoted (s', if s.editProfileHidden then n.leave else n) := by
  cases hedit : s.editProfileHidden with
  | true => exact ButtonNoted.leave htied henabled hedit h
  | false =>
    have hopen : s'.editProfileHidden ≠ false := by
      rw [hmode, hedit]
      decide
    exact ⟨htied, fun hview => absurd hview hopen, fun hview => absurd hview hopen⟩

/-- **One event of a screen that offers saving as it should.** -/
theorem buttonNoted_of_step (h : ButtonNoted p) (hoffers : OffersSave p)
    (hstep : watch (step initialsPicture) noteEdit p e = some p') : ButtonNoted p' := by
  obtain ⟨s, n⟩ := p
  obtain ⟨hen, rfl⟩ := watch_step_eq_some.mp hstep
  have htied : (s.handle initialsPicture e).Tied := h.tied.handle e
  cases e with
  | editProfileButtonTapped =>
    -- edit mode is entered, of which nothing is said
    have hview : s.editProfileHidden = false :=
      (Bool.not_eq_true' _).mp (offered_of_enabled hen)
    have hopen : (!s.editProfileHidden) ≠ false := by
      rw [hview]
      decide
    exact ⟨htied, fun hview => absurd hview hopen, fun hview => absurd hview hopen⟩
  | saveGCDButtonTapped =>
    exact ButtonNoted.leave (s := s) htied rfl (h.tied.hidden_of_save hen) hoffers
  | cancelButtonTapped =>
    exact ButtonNoted.leave (s := s) htied rfl (h.tied.hidden_of_cancel hen) hoffers
  | retry => exact ButtonNoted.answer hoffers htied rfl rfl
  | cancelAlert => exact ButtonNoted.answer hoffers htied rfl rfl
  | editUserName text =>
    have hbefore : ButtonNoted ({ s with userNameText := text }, n) :=
      ⟨⟨h.tied.save, h.tied.cancel, h.tied.image, h.tied.fields⟩, h.button, h.touched⟩
    exact hbefore.textFieldDidChange htied rfl
  | editInfoAboutUser text =>
    have hbefore : ButtonNoted ({ s with infoAboutUserText := text }, n) :=
      ⟨⟨h.tied.save, h.tied.cancel, h.tied.image, h.tied.fields⟩, h.button, h.touched⟩
    exact hbefore.textFieldDidChange htied rfl
  | didFinishPicking editedImage originalImage =>
    exact h.toggle htied rfl rfl fun htouched => by rw [htouched, Bool.true_or]
  | newProfileImage image => exact h.toggle htied rfl rfl fun _ => rfl
  | saved index result => cases result <;> exact ⟨htied, h.button, h.touched⟩
  | selectDownload => exact ⟨htied, h.button, h.touched⟩
  | photoSaved index result => exact ⟨htied, h.button, h.touched⟩
  | imageLoaded image => exact ⟨htied, h.button, h.touched⟩

/-- The first change of a text offers saving when the flag and the button agree. -/
theorem offers_textFieldDidChange {changed enabled : Bool} :
    ((if changed then enabled else !enabled) = true ↔ true = true) ↔ changed = enabled := by
  cases changed <;> cases enabled <;> decide

/-- A picker that returns offers saving when it returns with a photo and the button was
disabled; without a photo, the button is right afterwards only if it was wrong before. -/
theorem offers_pick {enabled touched isSome : Bool} (h : enabled = true ↔ touched = true) :
    ((!enabled) = true ↔ (touched || isSome) = true) ↔ isSome = true ∧ enabled = false := by
  revert h
  cases enabled <;> cases touched <;> cases isSome <;> decide

/-- An alert opens edit mode when it is answered in view mode. -/
theorem ButtonNoted.offers_answer (h : ButtonNoted (s, n)) :
    ((!s.editProfileHidden) = true → (s.saveGCDEnabled = true ↔
        (if s.editProfileHidden then n.leave else n).touched = true)) ↔
      (s.editProfileHidden = false → (Odd n.toggles ↔ n.left = false ∧ n.touched = true)) := by
  rw [Bool.not_eq_true']
  refine forall_congr' fun hview => ?_
  have hbutton : s.saveGCDEnabled = true ↔ (Odd n.toggles ↔ n.left = false) := h.button hview
  have htouched : n.left = true → n.touched = true := h.touched hview
  rw [hbutton, hview, if_neg Bool.false_ne_true]
  cases hleft : n.left with
  | true =>
    rw [htouched hleft]
    simp
  | false => simp

/-- **One event.** -/
theorem offersSave_of_step_iff (h : ButtonNoted p) (hoffers : OffersSave p)
    (hstep : watch (step initialsPicture) noteEdit p e = some p') :
    OffersSave p' ↔ KeepsOffer p e := by
  obtain ⟨s, n⟩ := p
  obtain ⟨hen, rfl⟩ := watch_step_eq_some.mp hstep
  unfold KeepsOffer
  rw [forall_prop_of_true hen]
  cases e with
  | editProfileButtonTapped => exact iff_of_true (fun _ => Iff.rfl) trivial
  | saveGCDButtonTapped =>
    refine iff_of_true (fun hmode => ?_) trivial
    have hview : (!s.editProfileHidden) = true := hmode
    rw [h.tied.hidden_of_save hen] at hview
    cases hview
  | cancelButtonTapped =>
    refine iff_of_true (fun hmode => ?_) trivial
    have hview : (!s.editProfileHidden) = true := hmode
    rw [h.tied.hidden_of_cancel hen] at hview
    cases hview
  | editUserName text =>
    unfold OffersSave
    rw [handle, textFieldDidChange_eq]
    exact imp_congr_right fun _ => offers_textFieldDidChange
  | editInfoAboutUser text =>
    unfold OffersSave
    rw [handle, textFieldDidChange_eq]
    exact imp_congr_right fun _ => offers_textFieldDidChange
  | didFinishPicking editedImage originalImage =>
    exact forall_congr' fun hmode => offers_pick (hoffers hmode)
  | newProfileImage image =>
    refine imp_congr_right fun _ => ?_
    show ((!s.saveGCDEnabled) = true ↔ true = true) ↔ _
    simp
  | retry => exact h.offers_answer
  | cancelAlert => exact h.offers_answer
  | saved index result =>
    refine iff_of_true ?_ trivial
    cases result <;> exact hoffers
  | selectDownload => exact iff_of_true hoffers trivial
  | photoSaved index result => exact iff_of_true hoffers trivial
  | imageLoaded image => exact iff_of_true hoffers trivial

/-- **When saving is offered exactly after an edit.** -/
theorem offersSave_iff_keepsOffer (initialsPicture : String → α)
    (userProfile : UserProfileModel) (es : List (ScreenAction α)) :
    (∀ p, Visits (watch (step initialsPicture) noteEdit) (viewDidLoad userProfile, .start) es p →
        OffersSave p) ↔
      Meets (watch (step initialsPicture) noteEdit) KeepsOffer
        (viewDidLoad userProfile, .start) es := by
  refine forall_visits_iff_meets_of_invariant
    (fun p e p' h hoffers hstep => buttonNoted_of_step h hoffers hstep)
    (fun p e p' h hoffers hstep => offersSave_of_step_iff h hoffers hstep) ?_ es _
    (buttonNoted_viewDidLoad userProfile) ?_
  · intro p e hstep hen
    exact absurd hen (watch_step_eq_none.mp hstep)
  · intro hmode
    cases hmode

/-- **A text and a photo together take the offer back.** -/
theorem exists_edit_not_offered : ¬ ∀ (userProfile : UserProfileModel)
    (es : List (ScreenAction String)) (p : ProfileScreen String × EditNotes),
    Visits (watch (step id) noteEdit) (viewDidLoad userProfile, .start) es p → OffersSave p := by
  intro h
  let es : List (ScreenAction String) :=
    [.editProfileButtonTapped, .editUserName "Bob", .didFinishPicking none (some "photo")]
  let p : ProfileScreen String × EditNotes :=
    (run (watch (step id) noteEdit) (viewDidLoad ⟨none, none⟩, .start) es).get rfl
  have hvisits : Visits (watch (step id) noteEdit) (viewDidLoad ⟨none, none⟩, .start) es p :=
    visits_of_run _ (Option.some_get _).symm
  exact absurd ((h _ es p hvisits rfl).mpr rfl) (by decide)

end ProfileScreen

end MessengerApp
