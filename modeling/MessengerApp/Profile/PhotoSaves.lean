import Mathlib.Data.List.ReduceOption
import MessengerApp.Profile.Screen

/-!
# The photo that the profile screen saves

Once a picker has returned, `changeUserImage` stays set, and every later save writes
the picture that is shown then: one that has been saved before or withdrawn, the stored
photo, or the picture of the initials that a cancellation has brought back.  If the
picker has returned without a picture, none is shown, and the save traps.

## Main definitions

* `photo` — the photo that `saveWithGCD` writes.
* `PhotoNotes`, `notePhoto` — what the pickers have returned, which of the photos have
  been withdrawn or saved, and what has been loaded since.
* `WritesPicked` — a save writes the photo that is to be saved.
* `PickStands` — the condition on a save under which it does.

## Main results

* `noted_of_step` — where the picture that is shown comes from.
* `writesPicked_iff_pickStands` — **when every save writes the photo to be saved.**
-/

namespace MessengerApp

open Machine

namespace ProfileScreen

variable {α : Type*}

/-- The photo that `saveWithGCD` writes, if any. -/
def photo (s : ProfileScreen α) : Option α := if s.changeUserImage then s.profileImage else none

/-- What has become of the photos.  One that is downloaded is picked when it arrives. -/
structure PhotoNotes (α : Type*) where
  /-- What the pickers have returned, in order: a photo, or nothing. -/
  picks : List (Option α)
  /-- How many of them had returned when `cancelChanges` last ran, or when the last photo
  save that succeeded was started, whichever is more. -/
  settled : ℕ
  /-- For each photo save under way, how many had returned when it was started. -/
  started : List ℕ
  /-- The picture that the last load of the stored photo has brought, if one has completed
  since the last picker returned. -/
  loaded : Option α
  deriving DecidableEq, Repr

/-- Nothing has happened yet. -/
def PhotoNotes.start : PhotoNotes α := ⟨[], 0, [], none⟩

/-- The photo to be saved: the one picked last, unless it has been withdrawn or saved. -/
def PhotoNotes.pending (n : PhotoNotes α) : Option α :=
  (n.picks.drop n.settled).reduceOption.getLast?

def PhotoNotes.pick (n : PhotoNotes α) (image : Option α) : PhotoNotes α :=
  { n with picks := n.picks ++ [image], loaded := none }

def notePhoto (initialsPicture : String → α) (n : PhotoNotes α) (s : ProfileScreen α) :
    ScreenAction α → PhotoNotes α
  | .didFinishPicking editedImage originalImage => n.pick (editedImage.or originalImage)
  | .newProfileImage image => n.pick (some image)
  | .imageLoaded image =>
      { n with
        loaded := image.getD (initialsPicture (s.userProfile.userName.getD "User Name")) }
  | .cancelButtonTapped | .cancelAlert => { n with settled := n.picks.length }
  | .saveGCDButtonTapped | .retry =>
      { n with started := n.started ++ s.photo.toList.map fun _ => n.picks.length }
  | .photoSaved index result =>
      { n with
        settled := if result then max n.settled (n.started.getD index 0) else n.settled
        started := n.started.eraseIdx index }
  | _ => n

/-- When `saveWithGCD` runs, it does not trap, and it writes the photo to be saved, and
nothing if there is none. -/
def WritesPicked (initialsPicture : String → α) (p : ProfileScreen α × PhotoNotes α)
    (e : ScreenAction α) : Prop :=
  e = .saveGCDButtonTapped ∨ e = .retry → p.1.offered e = true →
    ∃ s', p.1.step initialsPicture e = some s' ∧
      s'.photoSaves = p.1.photoSaves ++ p.2.pending.toList

/-- When `saveWithGCD` runs, either no picker has ever returned, or there is a photo to be
saved, and it is what the last picker has returned while no load of the stored photo has
completed since, or what the last such load has brought. -/
def PickStands (p : ProfileScreen α × PhotoNotes α) (e : ScreenAction α) : Prop :=
  e = .saveGCDButtonTapped ∨ e = .retry → p.1.offered e = true →
    p.2.picks = [] ∨ ∃ photo, p.2.pending = some photo ∧
      (p.2.loaded = none ∧ p.2.picks.getLast? = some (some photo) ∨ p.2.loaded = some photo)

/-- The flag is set by the first picker that returns, the picture shown is the one that was
loaded since the last of them, or what that one has returned, and each photo save under way
is noted. -/
structure Noted (p : ProfileScreen α × PhotoNotes α) : Prop where
  changed : p.1.changeUserImage = true ↔ p.2.picks ≠ []
  shown : p.1.profileImage = p.2.loaded.or p.2.picks.getLast?.join
  started : p.2.started.length = p.1.photoSaves.length

variable {s s' : ProfileScreen α} {n : PhotoNotes α} {p p' : ProfileScreen α × PhotoNotes α}
  {e : ScreenAction α} {initialsPicture : String → α}

theorem photoSaves_saveWithGCD :
    s.saveWithGCD.photoSaves = s.photoSaves ++ s.photo.toList := by
  unfold photo
  show s.photoSaves ++ (if s.changeUserImage then s.profileImage.toList else []) = _
  split <;> rfl

theorem Noted.pick (h : Noted (s, n)) (image : Option α) : Noted (s.pick image, n.pick image) where
  changed := iff_of_true rfl (List.append_ne_nil_of_right_ne_nil _ (List.cons_ne_nil _ _))
  shown := by
    show image = ((n.picks ++ [image]).getLast?).join
    rw [List.getLast?_concat, Option.join_some]
  started := h.started

theorem Noted.saveWithGCD (h : Noted (s, n)) : Noted (s.saveWithGCD, { n with
    started := n.started ++ s.photo.toList.map fun _ => n.picks.length }) where
  changed := h.changed
  shown := h.shown
  started := by
    show (n.started ++ s.photo.toList.map fun _ => n.picks.length).length = _
    rw [photoSaves_saveWithGCD, List.length_append, List.length_append, List.length_map]
    exact congrArg (· + _) h.started

/-- **One event.** -/
theorem Noted.handle (h : Noted (s, n)) (e : ScreenAction α) :
    Noted (s.handle initialsPicture e, notePhoto initialsPicture n s e) := by
  obtain ⟨hchanged, hshown, hstarted⟩ := h
  cases e with
  | didFinishPicking editedImage originalImage =>
    exact Noted.pick ⟨hchanged, hshown, hstarted⟩ _
  | newProfileImage image =>
    have hpick := Noted.pick ⟨hchanged, hshown, hstarted⟩ (some image)
    exact ⟨hpick.changed, hpick.shown, hpick.started⟩
  | saveGCDButtonTapped => exact Noted.saveWithGCD ⟨hchanged, hshown, hstarted⟩
  | retry =>
    exact Noted.saveWithGCD (s := { s with failAlerts := s.failAlerts - 1 })
      ⟨hchanged, hshown, hstarted⟩
  | imageLoaded image => exact ⟨hchanged, rfl, hstarted⟩
  | photoSaved index result =>
    refine ⟨hchanged, hshown, ?_⟩
    show (n.started.eraseIdx index).length = (s.photoSaves.eraseIdx index).length
    rw [List.length_eraseIdx, List.length_eraseIdx, hstarted]
  | editUserName text =>
    rw [ProfileScreen.handle, textFieldDidChange_eq]
    exact ⟨hchanged, hshown, hstarted⟩
  | editInfoAboutUser text =>
    rw [ProfileScreen.handle, textFieldDidChange_eq]
    exact ⟨hchanged, hshown, hstarted⟩
  | saved index result => cases result <;> exact ⟨hchanged, hshown, hstarted⟩
  | editProfileButtonTapped => exact ⟨hchanged, hshown, hstarted⟩
  | cancelButtonTapped => exact ⟨hchanged, hshown, hstarted⟩
  | cancelAlert => exact ⟨hchanged, hshown, hstarted⟩
  | selectDownload => exact ⟨hchanged, hshown, hstarted⟩

theorem noted_viewDidLoad (userProfile : UserProfileModel) :
    Noted ((viewDidLoad userProfile : ProfileScreen α), .start) where
  changed := iff_of_false Bool.false_ne_true fun h => h rfl
  shown := rfl
  started := rfl

/-- **Where the picture that is shown comes from**, whatever happens. -/
theorem noted_of_step (h : Noted p)
    (hstep : watch (step initialsPicture) (notePhoto initialsPicture) p e = some p') :
    Noted p' := by
  obtain ⟨-, rfl⟩ := watch_step_eq_some.mp hstep
  exact h.handle e

theorem photoSaves_handle (he : e = .saveGCDButtonTapped ∨ e = .retry) :
    (s.handle initialsPicture e).photoSaves = s.photoSaves ++ s.photo.toList := by
  rcases he with rfl | rfl
  · exact photoSaves_saveWithGCD
  · exact photoSaves_saveWithGCD (s := { s with failAlerts := s.failAlerts - 1 })

/-- A save goes through unless the picture to be saved is missing. -/
theorem traps_eq_false_iff (he : e = .saveGCDButtonTapped ∨ e = .retry) :
    s.traps e = false ↔ (s.changeUserImage = true → s.profileImage ≠ none) := by
  have htraps : s.traps e = (s.changeUserImage && s.profileImage.isNone) := by
    rcases he with rfl | rfl <;> rfl
  rw [htraps, Bool.and_eq_false_imp]
  refine imp_congr_right fun _ => ?_
  rw [← Bool.not_eq_true, Option.isNone_iff_eq_none]

/-- A save that goes through writes the photo it has, and nothing else. -/
theorem writesPicked_iff_photo : WritesPicked initialsPicture (s, n) e ↔
    (e = .saveGCDButtonTapped ∨ e = .retry → s.offered e = true →
      (s.changeUserImage = true → s.profileImage ≠ none) ∧ s.photo = n.pending) := by
  unfold WritesPicked
  refine forall_congr' fun he => forall_congr' fun hoffered => ?_
  rw [← traps_eq_false_iff he]
  constructor
  · rintro ⟨s', hs', heq⟩
    obtain ⟨hen, rfl⟩ := step_eq_some.mp hs'
    refine ⟨(Bool.not_eq_true' _).mp (Bool.and_eq_true_iff.mp hen).2, ?_⟩
    rw [photoSaves_handle he] at heq
    have hhead := congrArg List.head? (List.append_cancel_left heq)
    rwa [Option.head?_toList, Option.head?_toList] at hhead
  · rintro ⟨htraps, hphoto⟩
    have hen : s.enabled e = true := by
      rw [enabled, hoffered, htraps]
      rfl
    exact ⟨_, step_eq_some.mpr ⟨hen, rfl⟩, by rw [photoSaves_handle he, hphoto]⟩

/-- The picture that is shown is a given one: it has been loaded, or picked and not been
replaced. -/
theorem Noted.profileImage_eq_some_iff (h : Noted (s, n)) {photo : α} :
    s.profileImage = some photo ↔
      n.loaded = none ∧ n.picks.getLast? = some (some photo) ∨ n.loaded = some photo := by
  have hshown : s.profileImage = n.loaded.or n.picks.getLast?.join := h.shown
  rw [hshown, Option.or_eq_some_iff, Option.join_eq_some_iff, or_comm]

/-- **One save**: it writes the photo to be saved if and only if the pick stands. -/
theorem Noted.writesPicked_iff (h : Noted p) :
    WritesPicked initialsPicture p e ↔ PickStands p e := by
  obtain ⟨s, n⟩ := p
  rw [writesPicked_iff_photo]
  refine forall_congr' fun he => forall_congr' fun _ => ?_
  show _ ↔ n.picks = [] ∨ _
  unfold photo
  by_cases hpicks : n.picks = []
  · -- no photo is to be saved, and none is
    have hchanged : s.changeUserImage ≠ true := fun hchanged => h.changed.mp hchanged hpicks
    have hpending : n.pending = none := by
      rw [PhotoNotes.pending, hpicks]
      simp
    rw [if_neg hchanged, hpending]
    exact iff_of_true ⟨fun hc => absurd hc hchanged, rfl⟩ (Or.inl hpicks)
  · have hchanged : s.changeUserImage = true := h.changed.mpr hpicks
    rw [if_pos hchanged, or_iff_right hpicks, forall_prop_of_true hchanged]
    constructor
    · rintro ⟨hshown, hpending⟩
      obtain ⟨photo, hphoto⟩ := Option.ne_none_iff_exists'.mp hshown
      exact ⟨photo, hpending ▸ hphoto, h.profileImage_eq_some_iff.mp hphoto⟩
    · rintro ⟨photo, hpending, hphoto⟩
      have hshown := h.profileImage_eq_some_iff.mpr hphoto
      rw [hshown, hpending]
      exact ⟨Option.some_ne_none _, rfl⟩

/-- **When every save writes the photo to be saved**: if and only if, at each save, either
no picker has ever returned, or the photo picked since the last cancellation and the last
photo save that succeeded is what the last picker has returned, and no load of the stored
photo has replaced it by another picture. -/
theorem writesPicked_iff_pickStands (initialsPicture : String → α)
    (userProfile : UserProfileModel) (es : List (ScreenAction α)) :
    Meets (watch (step initialsPicture) (notePhoto initialsPicture))
        (WritesPicked initialsPicture) (viewDidLoad userProfile, .start) es ↔
      Meets (watch (step initialsPicture) (notePhoto initialsPicture)) PickStands
        (viewDidLoad userProfile, .start) es :=
  meets_congr_of_invariant (fun _ _ _ h hstep => noted_of_step h hstep)
    (fun _ _ h => h.writesPicked_iff) es _ (noted_viewDidLoad userProfile)

/-- **The picture of the initials becomes the user's photo.** -/
theorem exists_initials_saved : ¬ ∀ (userProfile : UserProfileModel)
    (es : List (ScreenAction String)),
    Meets (watch (step id) (notePhoto id)) (WritesPicked id)
      (viewDidLoad userProfile, .start) es := by
  intro h
  let userProfile : UserProfileModel := ⟨some "Ann", none⟩
  let es : List (ScreenAction String) :=
    [.editProfileButtonTapped, .didFinishPicking none (some "photo"), .cancelButtonTapped,
      .imageLoaded none, .imageLoaded none, .editProfileButtonTapped, .editUserName "Bob"]
  let p : ProfileScreen String × PhotoNotes String :=
    (run (watch (step id) (notePhoto id)) (viewDidLoad userProfile, .start) es).get rfl
  have hwrites : WritesPicked id p .saveGCDButtonTapped :=
    cond_of_meets _ es _ (h userProfile (es ++ [.saveGCDButtonTapped])) (Option.some_get _).symm
  -- nothing is to be saved after the cancellation
  obtain ⟨s', hs', hphotos⟩ := hwrites (Or.inl rfl) rfl
  obtain rfl := Option.some.inj hs'
  exact absurd hphotos (by decide)

end ProfileScreen

end MessengerApp
