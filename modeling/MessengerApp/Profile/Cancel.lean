import MessengerApp.Profile.Screen

/-!
# Cancelling on the profile screen

`cancelChanges` restores the texts of `userProfile`, which is loaded when the screen is
created and never again.  A profile that has been saved since is not what it restores.

## Main definitions

* `noteSave` — the profile written last, and whether a cancellation has just run.
* `Restored` — a cancellation has restored the profile written last.
* `SavesLoaded` — the condition on a cancellation under which it does.

## Main results

* `restored_iff_savesLoaded` — **when cancelling restores the last saved profile.**
-/

namespace MessengerApp

open Machine

namespace ProfileScreen

variable {α : Type*}

/-- What there is to know about the saves that have completed. -/
structure SaveNotes where
  /-- What the last save that succeeded has written. -/
  written : Option UserProfileModel
  /-- Whether the last event has run `cancelChanges`. -/
  cancelled : Bool
  deriving DecidableEq, Repr

def noteSave (n : SaveNotes) (s : ProfileScreen α) : ScreenAction α → SaveNotes
  | .cancelButtonTapped | .cancelAlert => ⟨n.written, true⟩
  | .saved index true => ⟨s.saves[index]?, false⟩
  | _ => ⟨n.written, false⟩

/-- The text fields show this profile. -/
def Shows (s : ProfileScreen α) (profile : UserProfileModel) : Prop :=
  s.userNameText = text profile.userName ∧ s.infoAboutUserText = text profile.userInfo

/-- When a cancellation has just run and no save is under way, the text fields show the
profile written last, or the one `loaded` when the screen was opened. -/
def Restored (loaded : UserProfileModel) (p : ProfileScreen α × SaveNotes) : Prop :=
  p.2.cancelled = true → p.1.saves = [] → p.1.Shows (p.2.written.getD loaded)

/-- A cancellation while no save is under way happens before any save has succeeded, or
after one that has written the texts of the profile `loaded`. -/
def SavesLoaded (loaded : UserProfileModel) (p : ProfileScreen α × SaveNotes)
    (e : ScreenAction α) : Prop :=
  p.1.enabled e = true → e = .cancelButtonTapped ∨ e = .cancelAlert → p.1.saves = [] →
    ∀ profile ∈ p.2.written,
      text profile.userName = text loaded.userName ∧ text profile.userInfo = text loaded.userInfo

variable {loaded : UserProfileModel} {p p' : ProfileScreen α × SaveNotes}
  {e : ScreenAction α} {initialsPicture : String → α}

theorem cancelled_noteSave {n : SaveNotes} {s : ProfileScreen α} :
    (noteSave n s e).cancelled = true ↔ e = .cancelButtonTapped ∨ e = .cancelAlert := by
  cases e with
  | saved index result => cases result <;> simp [noteSave]
  | _ => simp [noteSave]

/-- What a cancellation does to the texts and the saves, from the button or the alert. -/
theorem handle_cancel {s : ProfileScreen α} (he : e = .cancelButtonTapped ∨ e = .cancelAlert) :
    (s.handle initialsPicture e).Shows s.userProfile ∧
      (s.handle initialsPicture e).saves = s.saves := by
  rcases he with rfl | rfl <;> exact ⟨⟨rfl, rfl⟩, rfl⟩

theorem written_noteSave {n : SaveNotes} {s : ProfileScreen α}
    (he : e = .cancelButtonTapped ∨ e = .cancelAlert) :
    (noteSave n s e).written = n.written := by
  rcases he with rfl | rfl <;> rfl

/-- A screen that shows one profile shows another when their texts are the same. -/
theorem Shows.iff_getD {s : ProfileScreen α} (h : s.Shows loaded)
    (written : Option UserProfileModel) :
    s.Shows (written.getD loaded) ↔ ∀ profile ∈ written,
      text profile.userName = text loaded.userName ∧
        text profile.userInfo = text loaded.userInfo := by
  cases written with
  | none => exact iff_of_true h fun profile hprofile => (Option.not_mem_none _ hprofile).elim
  | some profile =>
    unfold Shows
    rw [Option.getD_some, h.1, h.2]
    simp only [Option.mem_some_iff, forall_eq']
    exact and_congr eq_comm eq_comm

/-- **One event.** -/
theorem restored_of_step_iff (hloaded : p.1.userProfile = loaded)
    (hstep : watch (step initialsPicture) noteSave p e = some p') :
    Restored loaded p' ↔ SavesLoaded loaded p e := by
  obtain ⟨s, n⟩ := p
  obtain ⟨hen, rfl⟩ := watch_step_eq_some.mp hstep
  unfold Restored SavesLoaded
  rw [forall_prop_of_true hen, cancelled_noteSave]
  refine imp_congr_right fun he => ?_
  have hcancel : (s.handle initialsPicture e).Shows s.userProfile ∧
      (s.handle initialsPicture e).saves = s.saves := handle_cancel he
  obtain ⟨hshows, hsaves⟩ := hcancel
  rw [hsaves, written_noteSave he]
  rw [hloaded] at hshows
  exact imp_congr_right fun _ => hshows.iff_getD n.written

/-- **When cancelling restores the last saved profile**: if and only if no cancellation
finds that another profile than the one loaded was written last. -/
theorem restored_iff_savesLoaded (initialsPicture : String → α) (loaded : UserProfileModel)
    (es : List (ScreenAction α)) :
    (∀ p, Visits (watch (step initialsPicture) noteSave) (viewDidLoad loaded, ⟨none, false⟩)
        es p → Restored loaded p) ↔
      Meets (watch (step initialsPicture) noteSave) (SavesLoaded loaded)
        (viewDidLoad loaded, ⟨none, false⟩) es := by
  refine forall_visits_iff_meets_of_invariant (J := fun p => p.1.userProfile = loaded) ?_ ?_ ?_
    es _ rfl ?_
  · intro p e p' hloaded _ hstep
    obtain ⟨-, rfl⟩ := watch_step_eq_some.mp hstep
    rw [userProfile_handle, hloaded]
  · exact fun p e p' hloaded _ hstep => restored_of_step_iff hloaded hstep
  · intro p e hstep hen
    exact absurd hen (watch_step_eq_none.mp hstep)
  · intro hcancelled
    cases hcancelled

/-- **Cancelling shows a name that is no longer stored.** -/
theorem exists_stale_cancel : ¬ ∀ (loaded : UserProfileModel) (es : List (ScreenAction String))
    (p : ProfileScreen String × SaveNotes),
    Visits (watch (step id) noteSave) (viewDidLoad loaded, ⟨none, false⟩) es p →
      Restored loaded p := by
  intro h
  let loaded : UserProfileModel := ⟨some "Ann", some "Info"⟩
  let es : List (ScreenAction String) :=
    [.editProfileButtonTapped, .editUserName "Bob", .saveGCDButtonTapped, .saved 0 true,
      .editProfileButtonTapped, .cancelButtonTapped]
  let p : ProfileScreen String × SaveNotes :=
    (run (watch (step id) noteSave) (viewDidLoad loaded, ⟨none, false⟩) es).get rfl
  have hvisits : Visits (watch (step id) noteSave) (viewDidLoad loaded, ⟨none, false⟩) es p :=
    visits_of_run _ (Option.some_get _).symm
  exact absurd (h loaded es p hvisits rfl rfl).1 (by decide)

end ProfileScreen

end MessengerApp
