import MessengerApp.Profile.Screen

/-!
# The indicator of saving

`saveWithGCD` shows the activity indicator and a completion hides it, but only when the
save has succeeded, and whatever other saves are still under way.

## Main definitions

* `Truthful` — the indicator is shown if and only if a save is under way.
* `LastSuccess` — the condition on a completion under which it stays so.

## Main results

* `truthful_iff_lastSuccess` — **when the indicator tells the truth.**
-/

namespace MessengerApp

open Machine

namespace ProfileScreen

variable {α : Type*} {s s' : ProfileScreen α} {e : ScreenAction α} {initialsPicture : String → α}

/-- The indicator is shown if and only if a profile save is under way. -/
def Truthful (s : ProfileScreen α) : Prop := s.saveProcessHidden = false ↔ s.saves ≠ []

/-- A save succeeds when no other save is under way, and fails when another one is. -/
def LastSuccess (s : ProfileScreen α) (e : ScreenAction α) : Prop :=
  s.enabled e = true →
    match e with
    | .saved _ result => (result = true ↔ s.saves.length = 1)
    | _ => True

/-- After `saveWithGCD` a save is under way and the indicator is shown. -/
theorem truthful_saveWithGCD : s.saveWithGCD.Truthful := by
  refine iff_of_true rfl ?_
  show s.saves ++ [_] ≠ []
  simp

/-- **One completion**: of the saves under way, the one at `index` leaves. -/
theorem truthful_saved_iff {index : ℕ} {result : Bool} (h : s.Truthful)
    (hindex : index < s.saves.length) :
    (s.handle initialsPicture (.saved index result)).Truthful ↔
      (result = true ↔ s.saves.length = 1) := by
  have hshown : s.saveProcessHidden = false := by
    apply h.mpr
    intro hnil
    simp [hnil] at hindex
  have hrest : s.saves.eraseIdx index = [] ↔ s.saves.length = 1 := by
    rw [← List.length_eq_zero_iff, List.length_eraseIdx_of_lt hindex]
    omega
  cases result with
  | true =>
    show (true = false ↔ s.saves.eraseIdx index ≠ []) ↔ _
    rw [Ne, hrest]
    simp
  | false =>
    show (s.saveProcessHidden = false ↔ s.saves.eraseIdx index ≠ []) ↔ _
    rw [Ne, hrest, hshown]
    simp

/-- **One event.** -/
theorem truthful_of_step_iff (h : s.Truthful) (hstep : s.step initialsPicture e = some s') :
    s'.Truthful ↔ s.LastSuccess e := by
  obtain ⟨hen, rfl⟩ := step_eq_some.mp hstep
  unfold LastSuccess
  rw [forall_prop_of_true hen]
  cases e with
  | saved index result => exact truthful_saved_iff h (of_decide_eq_true (offered_of_enabled hen))
  | saveGCDButtonTapped => exact iff_of_true truthful_saveWithGCD trivial
  | retry =>
    exact iff_of_true
      (truthful_saveWithGCD (s := { s with failAlerts := s.failAlerts - 1 })) trivial
  | editUserName text =>
    rw [handle, textFieldDidChange_eq]
    exact iff_of_true h trivial
  | editInfoAboutUser text =>
    rw [handle, textFieldDidChange_eq]
    exact iff_of_true h trivial
  | editProfileButtonTapped => exact iff_of_true h trivial
  | cancelButtonTapped => exact iff_of_true h trivial
  | cancelAlert => exact iff_of_true h trivial
  | didFinishPicking editedImage originalImage => exact iff_of_true h trivial
  | selectDownload => exact iff_of_true h trivial
  | newProfileImage image => exact iff_of_true h trivial
  | photoSaved index result => exact iff_of_true h trivial
  | imageLoaded image => exact iff_of_true h trivial

/-- **When the indicator tells the truth**: if and only if a save succeeds exactly when it is
the only one under way. -/
theorem truthful_iff_lastSuccess (initialsPicture : String → α) (userProfile : UserProfileModel)
    (es : List (ScreenAction α)) :
    (∀ t, Visits (step initialsPicture) (viewDidLoad userProfile) es t → t.Truthful) ↔
      Meets (step initialsPicture) LastSuccess (viewDidLoad userProfile) es := by
  refine forall_visits_iff_meets ?_ ?_ es _ ?_
  · exact fun s e s' h hstep => truthful_of_step_iff h hstep
  · exact fun s e h hen => absurd hen (step_eq_none.mp h)
  · simp [Truthful, viewDidLoad]

/-- **After a failure the indicator stays.** -/
theorem exists_indicator_stuck : ¬ ∀ (userProfile : UserProfileModel)
    (es : List (ScreenAction String)) (t : ProfileScreen String),
    Visits (step id) (viewDidLoad userProfile) es t → t.Truthful := by
  intro h
  let es : List (ScreenAction String) :=
    [.editProfileButtonTapped, .editUserName "Bob", .saveGCDButtonTapped, .saved 0 false]
  let t : ProfileScreen String := (run (step id) (viewDidLoad ⟨none, none⟩) es).get rfl
  have hvisits : Visits (step id) (viewDidLoad ⟨none, none⟩) es t :=
    visits_of_run _ (Option.some_get _).symm
  exact (h _ es t hvisits).mp rfl rfl

end ProfileScreen

end MessengerApp
