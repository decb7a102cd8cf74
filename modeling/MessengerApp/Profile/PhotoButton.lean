import MessengerApp.Library.Simulation
import MessengerApp.Profile.Initials
import MessengerApp.Profile.PhotoFile
import MessengerApp.Profile.PhotoSaves

/-!
# The photo on the profile button

The channels screen shows the user's photo on a button in its navigation bar.  The photo is
loaded on the global queue, on which the saves run too: between the removal of the old file
and the write of the new one anything else can read or write it.  What a load found is shown
by a block of the main queue, on the button it was started for; and every save that reports
success has a new button set up, whose load comes after it.

## Main definitions

* `PhotoJob`, `PhotoWrite`, `PhotoBlock`, `PhotoButton` — the jobs under way, the blocks of the
  main queue, and the file with the button.
* `setupUserProfileButton`, `PhotoButton.step` — what can happen.
* `PhotoButton.Shows` — the button shows what the file holds.
* `PhotoButton.Keeps` — a write fails only where no photo is lost.

## Main results

* `run_uninterrupted` — a save that nothing interrupts is `saveUserImage`.
* `Coming.step` — whatever the button shows, what the file holds is on its way.
* `buttonShows_of_run` — **once everything is done, the button shows the photo saved last.**
* `photo_of_screenRun` — **which is a picture that the profile screen showed when it was
  saved.**
-/

namespace MessengerApp

open Machine

/-- A job of `saveUserImage` that has not begun. -/
structure PhotoJob (δ : Type*) where
  number : ℕ
  /-- What `jpegData` returns for the image. -/
  data : Option δ
  deriving DecidableEq, Repr

/-- A job that has dealt with the old file and has still to write the new one. -/
structure PhotoWrite (δ : Type*) where
  number : ℕ
  data : δ
  /-- There was an old file, and it was removed. -/
  removed : Bool
  deriving DecidableEq, Repr

/-- A block of the main queue. -/
inductive PhotoBlock (α : Type*)
  /-- The completion of `saveUserImage`. -/
  | saved (result : Bool)
  /-- The completion of the `loadUserImage` started for a button. -/
  | loaded (button : ℕ) (image : Option α)
  deriving DecidableEq, Repr

/-- What a button shows. -/
inductive ButtonPicture (α : Type*)
  | photo (image : α)
  | initials (text : String)
  deriving DecidableEq, Repr

/-- The photo file, the jobs and blocks under way, and the button in the navigation bar, with
`δ` for `Data` and `α` for `UIImage`. -/
structure PhotoButton (δ α : Type*) where
  file : Option δ
  /-- The number of saves requested. -/
  issued : ℕ
  waiting : List (PhotoJob δ)
  writing : List (PhotoWrite δ)
  /-- The buttons whose photo has still to be read. -/
  loads : List ℕ
  main : List (PhotoBlock α)
  /-- The buttons are numbered; the last one is in the bar. -/
  button : ℕ
  picture : Option (ButtonPicture α)
  deriving DecidableEq, Repr

/-- What can happen. -/
inductive PhotoEvent (δ : Type*)
  /-- `saveWithGCD` saves the picture of the profile screen. -/
  | saveUserImage (data : Option δ)
  /-- A job looks up the directory, encodes its image and removes the old file. -/
  | removeItem (number : ℕ) (directoryFails removeFails : Bool)
  /-- The job writes the new file; a failing write leaves `left` of a file that is still there. -/
  | write (number : ℕ) (fails : Bool) (left : Option δ)
  /-- The load for a button reads the file. -/
  | contentsOfFile (button : ℕ)
  /-- The main queue runs its next block; `userProfile` is what `getUserProfile` returns then. -/
  | main (userProfile : UserProfileModel)

/-- What the app relies on: the decoder of photos and the two character sets. -/
structure PhotoPlatform (δ α : Type*) where
  decode : δ → Option α
  letters : Char → Bool
  whitespacesAndNewlines : Char → Bool

namespace PhotoButton

variable {δ α : Type*}

/-- `setupUserProfileButton`: a new button, without a picture, whose photo is loaded. -/
def setupUserProfileButton (s : PhotoButton δ α) : PhotoButton δ α :=
  { s with button := s.button + 1, picture := none, loads := s.loads ++ [s.button + 1] }

/-- The channels screen has just been loaded. -/
def viewDidLoad (file : Option δ) : PhotoButton δ α where
  file := file
  issued := 0
  waiting := []
  writing := []
  loads := [0]
  main := []
  button := 0
  picture := none

variable [DecidableEq δ] (D : PhotoPlatform δ α) (s : PhotoButton δ α)

/-- `loadUserImage(userProfileImageName:)`. -/
def loadUserImage : Option α := s.file.bind D.decode

/-- The picture that the completion sets: the photo, or else the initials of the user. -/
def buttonPicture (userProfile : UserProfileModel) : Option α → ButtonPicture α
  | some image => .photo image
  | none => .initials (userNameToInitials D.letters D.whitespacesAndNewlines
      (userProfile.userName.getD "User Name"))

/-- A block of the main queue runs; `updateProfileImageClosure` has a new button set up. -/
def runBlock (userProfile : UserProfileModel) : PhotoBlock α → PhotoButton δ α
  | .saved true => s.setupUserProfileButton
  | .saved false => s
  | .loaded button image =>
      if button = s.button then { s with picture := some (buttonPicture D userProfile image) }
      else s

/-- The first half of `saveUserImage`. -/
def removeItem (job : PhotoJob δ) (directoryFails removeFails : Bool) : PhotoButton δ α :=
  let s' : PhotoButton δ α := { s with waiting := s.waiting.erase job }
  if directoryFails then { s' with main := s.main ++ [.saved false] }
  else
    match job.data with
    | none => s'
    | some data =>
        { s' with
          file := if removeFails then s.file else none
          writing := s.writing ++ [⟨job.number, data, !removeFails && s.file.isSome⟩] }

/-- The second half. -/
def writeFile (job : PhotoWrite δ) (fails : Bool) (left : Option δ) : PhotoButton δ α :=
  { s with
    file := if fails then s.file.bind fun _ => left else some job.data
    writing := s.writing.erase job
    main := s.main ++ [.saved !fails] }

/-- The next state: any job may go on, and the main queue runs its blocks in order. -/
def step (s : PhotoButton δ α) : PhotoEvent δ → Option (PhotoButton δ α)
  | .saveUserImage data =>
      some { s with issued := s.issued + 1, waiting := s.waiting ++ [⟨s.issued, data⟩] }
  | .removeItem number directoryFails removeFails =>
      (s.waiting.find? (·.number = number)).map fun job =>
        s.removeItem job directoryFails removeFails
  | .write number fails left =>
      (s.writing.find? (·.number = number)).map fun job => s.writeFile job fails left
  | .contentsOfFile button =>
      if button ∈ s.loads then
        some { s with
          loads := s.loads.erase button
          main := s.main ++ [.loaded button (s.loadUserImage D)] }
      else none
  | .main userProfile =>
      match s.main with
      | [] => none
      | block :: blocks => some (({ s with main := blocks } : PhotoButton δ α).runBlock D
          userProfile block)

/-- Nothing is under way. -/
structure AtRest : Prop where
  waiting : s.waiting = []
  writing : s.writing = []
  loads : s.loads = []
  main : s.main = []

/-- The button shows what the file holds: the photo, or the initials of some name if there is
none. -/
def Shows : Prop :=
  ∃ userProfile, s.picture = some (buttonPicture D userProfile (s.loadUserImage D))

/-- A failing write loses nothing: its job has removed no file, and what is there stays. -/
def Keeps (s : PhotoButton δ α) : PhotoEvent δ → Prop
  | .write number true left =>
      (∀ job ∈ s.writing, job.number = number → job.removed = false) ∧
        (s.file.bind fun _ => left) = s.file
  | _ => True

instance (s : PhotoButton δ α) : DecidablePred s.Keeps
  | .write number true left => inferInstanceAs (Decidable
      ((∀ job ∈ s.writing, job.number = number → job.removed = false) ∧
        (s.file.bind fun _ => left) = s.file))
  | .write _ false _ | .saveUserImage _ | .removeItem _ _ _ | .contentsOfFile _ | .main _ =>
      isTrue trivial

/-- The data that an event writes. -/
def written (s : PhotoButton δ α) : PhotoEvent δ → Option δ
  | .write number false _ => (s.writing.find? (·.number = number)).map PhotoWrite.data
  | _ => none

variable {D s} {s' : PhotoButton δ α}

/-! ### What an event can do -/

theorem step_removeItem {number : ℕ} {directoryFails removeFails : Bool}
    (h : s.step D (.removeItem number directoryFails removeFails) = some s') :
    ∃ job ∈ s.waiting, s' = s.removeItem job directoryFails removeFails := by
  obtain ⟨job, hjob, rfl⟩ := Option.map_eq_some_iff.mp h
  exact ⟨job, List.mem_of_find?_eq_some hjob, rfl⟩

theorem step_write {number : ℕ} {fails : Bool} {left : Option δ}
    (h : s.step D (.write number fails left) = some s') :
    ∃ job ∈ s.writing, job.number = number ∧
      s.written (.write number false left) = some job.data ∧ s' = s.writeFile job fails left := by
  obtain ⟨job, hjob, rfl⟩ := Option.map_eq_some_iff.mp h
  have hnumber : job.number = number := by simpa using List.find?_some hjob
  exact ⟨job, List.mem_of_find?_eq_some hjob, hnumber, by simp [written, hjob], rfl⟩

theorem step_contentsOfFile {button : ℕ} :
    s.step D (.contentsOfFile button) = some s' ↔ button ∈ s.loads ∧
      s' = { s with
        loads := s.loads.erase button
        main := s.main ++ [.loaded button (s.loadUserImage D)] } := by
  simp only [step, Option.ite_none_right_eq_some, Option.some.injEq]
  exact and_congr_right fun _ => eq_comm

theorem step_main {userProfile : UserProfileModel}
    (h : s.step D (.main userProfile) = some s') :
    ∃ block blocks, s.main = block :: blocks ∧
      s' = ({ s with main := blocks } : PhotoButton δ α).runBlock D userProfile block := by
  unfold step at h
  cases hmain : s.main with
  | nil => simp [hmain] at h
  | cons block blocks =>
    rw [hmain] at h
    exact ⟨block, blocks, rfl, (Option.some.inj h).symm⟩

/-- A job deals with the old file, or ends without having touched it. -/
theorem removeItem_cases (job : PhotoJob δ) (directoryFails removeFails : Bool) :
    (∃ data, job.data = some data ∧ s.removeItem job directoryFails removeFails =
        { s with
          waiting := s.waiting.erase job
          file := if removeFails then s.file else none
          writing := s.writing ++ [⟨job.number, data, !removeFails && s.file.isSome⟩] }) ∨
      ∃ blocks, s.removeItem job directoryFails removeFails =
        { s with waiting := s.waiting.erase job, main := s.main ++ blocks } ∧
        blocks ⊆ [.saved false] := by
  unfold removeItem
  split
  · exact Or.inr ⟨_, rfl, List.Subset.refl _⟩
  · cases hdata : job.data with
    | none => exact Or.inr ⟨[], by simp, List.nil_subset _⟩
    | some data => exact Or.inl ⟨data, rfl, rfl⟩

omit [DecidableEq δ] in
/-- The events of a save that nothing interrupts. -/
def uninterrupted (number : ℕ) (call : ImageSave δ) : List (PhotoEvent δ) :=
  [.saveUserImage call.data, .removeItem number call.directoryFails call.removeFails] ++
    if call.directoryFails || call.data.isNone then []
    else [.write number call.writeFails call.left]

omit [DecidableEq δ] in
/-- Where no old file has been removed, the file is as it was. -/
theorem file_of_not_removed {removeFails : Bool} {file : Option δ}
    (h : ¬ (!removeFails && file.isSome) = true) : (if removeFails then file else none) = file := by
  cases removeFails with
  | true => rfl
  | false =>
    cases file with
    | none => rfl
    | some d => exact absurd rfl h

omit [DecidableEq δ] in
/-- The main queue touches neither the file nor the jobs. -/
theorem runBlock_parts (userProfile : UserProfileModel) (block : PhotoBlock α) :
    (s.runBlock D userProfile block).file = s.file ∧
      (s.runBlock D userProfile block).waiting = s.waiting ∧
      (s.runBlock D userProfile block).writing = s.writing := by
  cases block with
  | saved result => cases result <;> exact ⟨rfl, rfl, rfl⟩
  | loaded button image =>
    by_cases hb : button = s.button
    · simp only [runBlock, if_pos hb, and_self]
    · simp only [runBlock, if_neg hb, and_self]

/-- **A save that nothing interrupts is `saveUserImage`**: the same file, the same report. -/
theorem run_uninterrupted (call : ImageSave δ) (hs : s.AtRest) :
    ∃ s', run (step D) s (uninterrupted s.issued call) = some s' ∧
      s'.file = (MessengerApp.saveUserImage call s.file).1 ∧
      s'.main = (MessengerApp.saveUserImage call s.file).2.map PhotoBlock.saved := by
  obtain ⟨data, directoryFails, removeFails, writeFails, left⟩ := call
  obtain ⟨hwaiting, hwriting, -, hmain⟩ := hs
  cases directoryFails with
  | true => simp [uninterrupted, step, removeItem, MessengerApp.saveUserImage, hwaiting, hmain]
  | false =>
    cases data with
    | none => simp [uninterrupted, step, removeItem, MessengerApp.saveUserImage, hwaiting, hmain]
    | some data =>
      cases writeFails <;> simp [uninterrupted, step, removeItem, writeFile,
        MessengerApp.saveUserImage, hwaiting, hwriting, hmain]

/-! ### What is on its way -/

/-- What the button will show, if no new one is set up: what the file holds is shown, or is
in the last block for the button; or the button has still to read the file. -/
inductive Coming (D : PhotoPlatform δ α) (s : PhotoButton δ α) : Prop
  /-- A job has removed the file and will write another one. -/
  | writing (job : PhotoWrite δ) (hjob : job ∈ s.writing) (hremoved : job.removed = true)
  /-- A success has still to be reported. -/
  | saved (h : .saved true ∈ s.main)
  | loading (h : s.button ∈ s.loads)
  | loaded (pre post : List (PhotoBlock α))
      (h : s.main = pre ++ .loaded s.button (s.loadUserImage D) :: post)
      (hpost : ∀ image, .loaded s.button image ∉ post)
  | shown (h : s.Shows D) (hmain : ∀ image, .loaded s.button image ∉ s.main)

omit [DecidableEq δ] in
theorem coming_viewDidLoad (file : Option δ) : (viewDidLoad file).Coming D :=
  .loading (List.mem_singleton.mpr rfl)

omit [DecidableEq δ] in
/-- At rest, it has come. -/
theorem Coming.shows (h : s.Coming D) (hs : s.AtRest) : s.Shows D := by
  cases h with
  | writing job hjob => exact absurd hjob (by simp [hs.writing])
  | saved h => exact absurd h (by simp [hs.main])
  | loading h => exact absurd h (by simp [hs.loads])
  | loaded pre post h => exact absurd h (by simp [hs.main])
  | shown h => exact h

omit [DecidableEq δ] in
/-- More blocks that are not for the button do not matter. -/
theorem Coming.append (h : s.Coming D) (blocks : List (PhotoBlock α))
    (hblocks : ∀ image, .loaded s.button image ∉ blocks) (hfile : s'.file = s.file)
    (hbutton : s'.button = s.button) (hpicture : s'.picture = s.picture)
    (hmain : s'.main = s.main ++ blocks) (hloads : s.button ∈ s.loads → s.button ∈ s'.loads)
    (hwriting : ∀ job ∈ s.writing, job.removed = true → job ∈ s'.writing) : s'.Coming D := by
  have hload : s'.loadUserImage D = s.loadUserImage D := by
    unfold loadUserImage
    rw [hfile]
  cases h with
  | writing job hjob hremoved => exact .writing job (hwriting job hjob hremoved) hremoved
  | saved h => exact .saved (hmain ▸ List.mem_append_left _ h)
  | loading h => exact .loading (hbutton ▸ hloads h)
  | loaded pre post h hpost =>
    refine .loaded pre (post ++ blocks) ?_ fun image himage => ?_
    · rw [hmain, h, hbutton, hload, List.append_assoc]
      rfl
    · rw [hbutton] at himage
      exact (List.mem_append.mp himage).elim (hpost image) (hblocks image)
  | shown h hmain' =>
    refine .shown ?_ fun image himage => ?_
    · obtain ⟨userProfile, h⟩ := h
      exact ⟨userProfile, by rw [hpicture, hload, h]⟩
    · rw [hbutton, hmain] at himage
      exact (List.mem_append.mp himage).elim (hmain' image) (hblocks image)

omit [DecidableEq δ] in
/-- The first block is taken off the main queue: the last one for the button shows what the
file holds, and one that is not for the button leaves what it shows. -/
theorem Coming.tail (h : s.Coming D) {block : PhotoBlock α} (hmain : s.main = block :: s'.main)
    (hblock : block ≠ .saved true) (hfile : s'.file = s.file) (hbutton : s'.button = s.button)
    (hloads : s'.loads = s.loads) (hwriting : s'.writing = s.writing)
    (hlast : block = .loaded s.button (s.loadUserImage D) → s'.Shows D)
    (hother : (∀ image, block ≠ .loaded s.button image) → s'.picture = s.picture) :
    s'.Coming D := by
  have hload : s'.loadUserImage D = s.loadUserImage D := by
    unfold loadUserImage
    rw [hfile]
  cases h with
  | writing job hjob hremoved => exact .writing job (hwriting ▸ hjob) hremoved
  | saved h =>
    rw [hmain, List.mem_cons] at h
    exact .saved (h.resolve_left (Ne.symm hblock))
  | loading h => exact .loading (hbutton ▸ hloads ▸ h)
  | loaded pre post h hpost =>
    rw [hmain] at h
    cases pre with
    | nil =>
      obtain ⟨rfl, htail⟩ := List.cons.inj h
      exact .shown (hlast rfl) fun image => by rw [hbutton, htail]; exact hpost image
    | cons block' pre =>
      obtain ⟨-, htail⟩ := List.cons.inj h
      exact .loaded pre post (by rw [htail, hbutton, hload]; rfl) fun image => hbutton ▸ hpost image
  | shown h hnone =>
    have hne : ∀ image, block ≠ .loaded s.button image := by
      rintro image rfl
      exact hnone image (hmain ▸ List.mem_cons_self)
    refine .shown ?_ fun image himage => ?_
    · obtain ⟨userProfile, h⟩ := h
      exact ⟨userProfile, by rw [hother hne, hload, h]⟩
    · rw [hbutton] at himage
      exact hnone image (hmain ▸ List.mem_cons_of_mem block himage)

omit [DecidableEq δ] in
/-- A block of the main queue shows what was on its way, or sets up a new button. -/
theorem Coming.runBlock {block : PhotoBlock α} {blocks : List (PhotoBlock α)}
    (h : s.Coming D) (hmain : s.main = block :: blocks) (userProfile : UserProfileModel) :
    (({ s with main := blocks } : PhotoButton δ α).runBlock D userProfile block).Coming D := by
  cases block with
  | saved result =>
    cases result with
    | true => exact .loading (List.mem_append_right _ (List.mem_singleton.mpr rfl))
    | false => exact h.tail hmain (by simp) rfl rfl rfl rfl (by simp) fun _ => rfl
  | loaded button image =>
    by_cases hb : button = s.button
    · simp only [PhotoButton.runBlock, if_pos hb]
      refine h.tail hmain (by simp) rfl rfl rfl rfl (fun heq => ?_) fun hne =>
        absurd (congrArg (PhotoBlock.loaded · image) hb) (hne image)
      obtain ⟨-, rfl⟩ := PhotoBlock.loaded.inj heq
      exact ⟨userProfile, rfl⟩
    · simp only [PhotoButton.runBlock, if_neg hb]
      refine h.tail hmain (by simp) rfl rfl rfl rfl (fun heq => ?_) fun _ => rfl
      exact absurd (PhotoBlock.loaded.inj heq).1 hb

/-- **Whatever happens, what the file holds is on its way to the button.** -/
theorem Coming.step {e : PhotoEvent δ} (h : s.Coming D) (he : s.Keeps e)
    (hstep : s.step D e = some s') : s'.Coming D := by
  cases e with
  | saveUserImage data =>
    obtain rfl := Option.some.inj hstep
    exact h.append [] (by simp) rfl rfl rfl (by simp) id fun _ hjob _ => hjob
  | removeItem number directoryFails removeFails =>
    obtain ⟨job, -, rfl⟩ := step_removeItem hstep
    rcases removeItem_cases (s := s) job directoryFails removeFails with
      ⟨data, -, heq⟩ | ⟨blocks, heq, hblocks⟩
    · rw [heq]
      by_cases hremoved : (!removeFails && s.file.isSome) = true
      · exact .writing _ (List.mem_append_right _ (List.mem_singleton.mpr rfl)) hremoved
      · -- there was no file to remove, or it could not be removed
        exact h.append [] (by simp) (file_of_not_removed hremoved) rfl rfl (by simp) id
          fun _ hjob _ => List.mem_append_left _ hjob
    · rw [heq]
      refine h.append blocks (fun image himage => ?_) rfl rfl rfl rfl id fun _ hjob _ => hjob
      exact absurd (List.mem_singleton.mp (hblocks himage)) (by simp)
  | write number fails left =>
    obtain ⟨job, hjob, hnumber, -, rfl⟩ := step_write hstep
    cases fails with
    | false => exact .saved (List.mem_append_right _ (List.mem_singleton.mpr rfl))
    | true =>
      obtain ⟨hkept, hleft⟩ := he
      refine h.append [.saved false] (by simp) hleft rfl rfl rfl id fun job' hjob' hremoved => ?_
      -- the job whose write fails has removed nothing, so it is another one
      refine (List.mem_erase_of_ne ?_).mpr hjob'
      rintro rfl
      exact absurd hremoved (by simp [hkept job' hjob hnumber])
  | contentsOfFile button =>
    obtain ⟨hbutton, rfl⟩ := step_contentsOfFile.mp hstep
    by_cases hb : s.button = button
    · subst hb
      exact .loaded s.main [] rfl fun image => List.not_mem_nil
    · refine h.append [.loaded button (s.loadUserImage D)] (fun image himage => ?_) rfl rfl rfl rfl
        (fun hmem => (List.mem_erase_of_ne hb).mpr hmem) fun _ hjob _ => hjob
      exact hb (PhotoBlock.loaded.inj (List.mem_singleton.mp himage)).1
  | main userProfile =>
    obtain ⟨block, blocks, hmain, rfl⟩ := step_main hstep
    exact h.runBlock hmain userProfile

/-! ### Runs -/

/-- The file holds what was written last, or what it held at first, unless a job that has
removed it will write another one. -/
def Holds (file : Option δ) (written : List δ) (s : PhotoButton δ α) : Prop :=
  (∃ job ∈ s.writing, job.removed = true) ∨ s.file = written.getLast?.or file

/-- **One event**, and what it has written. -/
theorem holds_of_step {file : Option δ} {ds : List δ} {e : PhotoEvent δ} (h : s.Holds file ds)
    (he : s.Keeps e) (hstep : s.step D e = some s') :
    s'.Holds file (ds ++ (s.written e).toList) := by
  have hsame : s.written e = none → s'.Holds file ds →
      s'.Holds file (ds ++ (s.written e).toList) := by
    intro hnone h
    rwa [hnone, Option.toList_none, List.append_nil]
  cases e with
  | saveUserImage data =>
    obtain rfl := Option.some.inj hstep
    exact hsame rfl h
  | removeItem number directoryFails removeFails =>
    obtain ⟨job, -, rfl⟩ := step_removeItem hstep
    refine hsame rfl ?_
    rcases removeItem_cases (s := s) job directoryFails removeFails with
      ⟨data, -, heq⟩ | ⟨blocks, heq, -⟩
    · rw [heq]
      by_cases hremoved : (!removeFails && s.file.isSome) = true
      · exact Or.inl ⟨_, List.mem_append_right _ (List.mem_singleton.mpr rfl), hremoved⟩
      · exact h.imp (fun ⟨job', hjob', hr⟩ => ⟨job', List.mem_append_left _ hjob', hr⟩)
          fun h => (file_of_not_removed hremoved).trans h
    · rw [heq]
      exact h
  | write number fails left =>
    obtain ⟨job, hjob, hnumber, hwritten, rfl⟩ := step_write hstep
    cases fails with
    | false =>
      refine Or.inr ?_
      rw [hwritten, Option.toList_some, List.getLast?_append]
      rfl
    | true =>
      obtain ⟨hkept, hleft⟩ := he
      refine hsame rfl (h.imp (fun ⟨job', hjob', hr⟩ =>
        ⟨job', (List.mem_erase_of_ne ?_).mpr hjob', hr⟩) fun h => hleft.trans h)
      rintro rfl
      exact absurd hr (by simp [hkept job' hjob hnumber])
  | contentsOfFile button =>
    obtain ⟨-, rfl⟩ := step_contentsOfFile.mp hstep
    exact hsame rfl h
  | main userProfile =>
    obtain ⟨block, blocks, -, rfl⟩ := step_main hstep
    obtain ⟨hfile, -, hwriting⟩ := runBlock_parts (D := D)
      (s := { s with main := blocks }) userProfile block
    refine hsame rfl ?_
    rw [Holds, hfile, hwriting]
    exact h

/-- Once every job is done, the file holds what was written last. -/
theorem file_of_run {file : Option δ} {es : List (PhotoEvent δ)}
    (hkeeps : Meets (step D) Keeps (viewDidLoad file) es)
    (hrun : run (step D) (viewDidLoad file) es = some s) (hwriting : s.writing = []) :
    s.file = (observe (step D) written (viewDidLoad file) es).getLast?.or file := by
  have hholds : s.Holds file (observe (step D) written (viewDidLoad file) es) :=
    observe_invariant (Holds file) Keeps (fun _ _ _ _ h he hstep => holds_of_step h he hstep)
      es [] _ s (Or.inr rfl) hkeeps hrun
  refine hholds.resolve_left ?_
  rintro ⟨job, hjob, -⟩
  exact absurd hjob (by simp [hwriting])

theorem coming_of_run {file : Option δ} {es : List (PhotoEvent δ)}
    (hkeeps : Meets (step D) Keeps (viewDidLoad file) es)
    (hrun : run (step D) (viewDidLoad file) es = some s) : s.Coming D :=
  invariant_of_meets (Coming D) Keeps (fun _ _ _ h he hstep => h.step he hstep) es _ s
    (coming_viewDidLoad file) hkeeps (visits_of_run _ hrun)

/-- **Once everything is done, the button shows the photo saved last**: if no failing write
loses a photo, then in whatever order the jobs of any number of saves and loads have run, the
file holds the data written last, and the button shows it. -/
theorem buttonShows_of_run {file : Option δ} {es : List (PhotoEvent δ)}
    (hkeeps : Meets (step D) Keeps (viewDidLoad file) es)
    (hrun : run (step D) (viewDidLoad file) es = some s) (hs : s.AtRest) :
    s.file = (observe (step D) written (viewDidLoad file) es).getLast?.or file ∧ s.Shows D :=
  ⟨file_of_run hkeeps hrun hs.writing, (coming_of_run hkeeps hrun).shows hs⟩

/-- Photos that are their own files; a name is a single letter. -/
def plainPhotos : PhotoPlatform String String where
  decode := some
  letters := fun _ => true
  whitespacesAndNewlines := fun _ => false

/-- Two saves overtake each other, and the first load finds the file removed: the photo of the
save that wrote last is shown, which is the one requested first. -/
theorem buttonShows_of_run_overtaken :
    ∃ (es : List (PhotoEvent String)) (s : PhotoButton String String),
      run (step plainPhotos) (viewDidLoad (some "old")) es = some s ∧
        s.picture = some (.photo "x") ∧
        s.file = (observe (step plainPhotos) written (viewDidLoad (some "old")) es).getLast?.or
          (some "old") ∧ s.Shows plainPhotos := by
  let es : List (PhotoEvent String) := [.saveUserImage (some "x"), .saveUserImage (some "y"),
    .removeItem 0 false false, .contentsOfFile 0, .removeItem 1 false false, .write 1 false none,
    .write 0 false none, .main ⟨some "A", none⟩, .main ⟨none, none⟩, .main ⟨none, none⟩,
    .contentsOfFile 2, .contentsOfFile 1, .main ⟨none, none⟩, .main ⟨none, none⟩]
  let s := (run (step plainPhotos) (viewDidLoad (some "old")) es).get (by decide +kernel)
  have hrun : run (step plainPhotos) (viewDidLoad (some "old")) es = some s :=
    (Option.some_get _).symm
  exact ⟨es, s, hrun, by decide +kernel, buttonShows_of_run (by decide +kernel) hrun
    ⟨by decide +kernel, by decide +kernel, by decide +kernel, by decide +kernel⟩⟩

/-- **A failing write leaves the old photo on the button**: the file is gone, but nothing is
reported that would have it loaded again. -/
theorem exists_stale_button : ∃ (es : List (PhotoEvent String)) (s : PhotoButton String String),
    run (step plainPhotos) (viewDidLoad (some "old")) es = some s ∧ s.AtRest ∧
      s.file = none ∧ s.picture = some (.photo "old") := by
  let es : List (PhotoEvent String) := [.contentsOfFile 0, .main ⟨none, none⟩,
    .saveUserImage (some "x"), .removeItem 0 false false, .write 0 true none, .main ⟨none, none⟩]
  let s := (run (step plainPhotos) (viewDidLoad (some "old")) es).get (by decide +kernel)
  exact ⟨es, s, (Option.some_get _).symm, ⟨by decide +kernel, by decide +kernel, by decide +kernel,
    by decide +kernel⟩, by decide +kernel, by decide +kernel⟩

/-! ### From the profile screen to the button -/

/-- The saves requested in a run, in order. -/
def photoRequests : List (PhotoEvent δ) → List (Option δ) :=
  List.filterMap fun
    | .saveUserImage data => some data
    | _ => none

/-- The data of the jobs has been requested to be saved. -/
structure Requested (es : List (PhotoEvent δ)) (s : PhotoButton δ α) : Prop where
  waiting : ∀ job ∈ s.waiting, job.data ∈ photoRequests es
  writing : ∀ job ∈ s.writing, some job.data ∈ photoRequests es

omit [DecidableEq δ] in
theorem photoRequests_append (es : List (PhotoEvent δ)) (e : PhotoEvent δ) :
    photoRequests (es ++ [e]) = photoRequests es ++ photoRequests [e] := List.filterMap_append

theorem requested_of_step {es : List (PhotoEvent δ)} {e : PhotoEvent δ} (h : s.Requested es)
    (hstep : s.step D e = some s') : s'.Requested (es ++ [e]) := by
  obtain ⟨hwaiting, hwriting⟩ := h
  have hold : ∀ {data}, data ∈ photoRequests es → data ∈ photoRequests (es ++ [e]) := fun hd =>
    photoRequests_append es e ▸ List.mem_append_left _ hd
  cases e with
  | saveUserImage data =>
    obtain rfl := Option.some.inj hstep
    refine ⟨fun job hjob => ?_, fun job hjob => hold (hwriting job hjob)⟩
    rcases List.mem_append.mp hjob with hjob | hjob
    · exact hold (hwaiting job hjob)
    · rw [photoRequests_append, List.mem_singleton.mp hjob]
      exact List.mem_append_right _ (List.mem_singleton.mpr rfl)
  | removeItem number directoryFails removeFails =>
    obtain ⟨job, hjob, rfl⟩ := step_removeItem hstep
    rcases removeItem_cases (s := s) job directoryFails removeFails with
      ⟨data, hdata, heq⟩ | ⟨blocks, heq, -⟩
    · rw [heq]
      refine ⟨fun job' hjob' => hold (hwaiting job' (List.mem_of_mem_erase hjob')),
        fun job' hjob' => ?_⟩
      rcases List.mem_append.mp hjob' with hjob' | hjob'
      · exact hold (hwriting job' hjob')
      · rw [List.mem_singleton.mp hjob', ← hdata]
        exact hold (hwaiting job hjob)
    · rw [heq]
      exact ⟨fun job' hjob' => hold (hwaiting job' (List.mem_of_mem_erase hjob')),
        fun job' hjob' => hold (hwriting job' hjob')⟩
  | write number fails left =>
    obtain ⟨job, -, -, -, rfl⟩ := step_write hstep
    exact ⟨fun job' hjob' => hold (hwaiting job' hjob'),
      fun job' hjob' => hold (hwriting job' (List.mem_of_mem_erase hjob'))⟩
  | contentsOfFile button =>
    obtain ⟨-, rfl⟩ := step_contentsOfFile.mp hstep
    exact ⟨fun job hjob => hold (hwaiting job hjob), fun job hjob => hold (hwriting job hjob)⟩
  | main userProfile =>
    obtain ⟨block, blocks, -, rfl⟩ := step_main hstep
    obtain ⟨-, hw, hw'⟩ :=
      runBlock_parts (D := D) (s := { s with main := blocks }) userProfile block
    exact ⟨fun job hjob => hold (hwaiting job (hw ▸ hjob)),
      fun job hjob => hold (hwriting job (hw' ▸ hjob))⟩

theorem requested_of_run {file : Option δ} {es : List (PhotoEvent δ)}
    (hrun : run (step D) (viewDidLoad file) es = some s) : s.Requested es :=
  history_invariant Requested (fun _ _ _ _ h hstep => requested_of_step h hstep)
    ⟨fun _ h => absurd h List.not_mem_nil, fun _ h => absurd h List.not_mem_nil⟩ es s hrun

/-- What has been written was requested. -/
theorem mem_photoRequests_of_written {file : Option δ} {es : List (PhotoEvent δ)} {data : δ}
    (hrun : run (step D) (viewDidLoad file) es = some s)
    (h : data ∈ observe (step D) written (viewDidLoad file) es) :
    some data ∈ photoRequests es := by
  obtain ⟨pre, e, post, u, v, rfl, hpre, -, -, hwritten⟩ := (mem_observe hrun).mp h
  have hrequested := (requested_of_run hpre).writing
  have hmem : some data ∈ photoRequests pre := by
    cases e with
    | write number fails left =>
      cases fails with
      | true => cases hwritten
      | false =>
        obtain ⟨job, hjob, rfl⟩ := Option.map_eq_some_iff.mp hwritten
        exact hrequested job (List.mem_of_find?_eq_some hjob)
    | saveUserImage data => cases hwritten
    | removeItem number directoryFails removeFails => cases hwritten
    | contentsOfFile button => cases hwritten
    | main userProfile => cases hwritten
  rw [photoRequests, List.filterMap_append]
  exact List.mem_append_left _ hmem

/-- The picture that an action of the profile screen has saved. -/
def savesPhoto (t : ProfileScreen α) : ScreenAction α → Option α
  | .saveGCDButtonTapped | .retry => t.photo
  | _ => none

/-- **What the button shows was saved from the profile screen**: if the saves are those of a run
of the profile screen, each with the encoding of its picture, then once everything is done and
no failing write has lost a photo, the button shows what the file holds, which is the file of
the start or the encoding of a picture that the profile screen showed when Save, or Retry, was
tapped. -/
theorem photo_of_screenRun {initialsPicture : String → α} {userProfile : UserProfileModel}
    {actions : List (ScreenAction α)} {t : ProfileScreen α} {jpegData : α → Option δ}
    {file : Option δ} {es : List (PhotoEvent δ)}
    (hscreen : run (ProfileScreen.step initialsPicture) (.viewDidLoad userProfile) actions =
      some t)
    (hrequests : photoRequests es = (observe (ProfileScreen.step initialsPicture) savesPhoto
      (.viewDidLoad userProfile) actions).map jpegData)
    (hkeeps : Meets (step D) Keeps (viewDidLoad file) es)
    (hrun : run (step D) (viewDidLoad file) es = some s) (hs : s.AtRest) :
    s.Shows D ∧ (s.file = file ∨ ∃ pre action post u image, actions = pre ++ action :: post ∧
      (action = .saveGCDButtonTapped ∨ action = .retry) ∧
      run (ProfileScreen.step initialsPicture) (.viewDidLoad userProfile) pre = some u ∧
      u.profileImage = some image ∧ s.file = jpegData image) := by
  refine ⟨(coming_of_run hkeeps hrun).shows hs, ?_⟩
  have hfile := file_of_run hkeeps hrun hs.writing
  cases hlast : (observe (step D) written (viewDidLoad file) es).getLast? with
  | none =>
    rw [hlast] at hfile
    exact Or.inl hfile
  | some data =>
    rw [hlast, Option.some_or] at hfile
    have hrequested := mem_photoRequests_of_written hrun (List.mem_of_getLast? hlast)
    rw [hrequests] at hrequested
    obtain ⟨image, himage, hdata⟩ := List.mem_map.mp hrequested
    obtain ⟨pre, action, post, u, v, rfl, hpre, -, -, hsaves⟩ := (mem_observe hscreen).mp himage
    -- only the two actions that save have a picture, and it is the one that is shown
    have hphoto : (action = .saveGCDButtonTapped ∨ action = .retry) ∧ u.photo = some image := by
      cases action with
      | saveGCDButtonTapped => exact ⟨Or.inl rfl, hsaves⟩
      | retry => exact ⟨Or.inr rfl, hsaves⟩
      | _ => cases hsaves
    obtain ⟨-, hshown⟩ := Option.ite_none_right_eq_some.mp hphoto.2
    exact Or.inr ⟨pre, action, post, u, image, rfl, hphoto.1, hpre, hshown, hfile.trans hdata.symm⟩

/-- A photo is picked and saved; the button shows it. -/
theorem photo_of_screenRun_picked : ∃ (es : List (PhotoEvent String))
    (actions : List (ScreenAction String)) (s : PhotoButton String String),
    run (step plainPhotos) (viewDidLoad none) es = some s ∧ s.picture = some (.photo "p") ∧
      s.Shows plainPhotos ∧ (s.file = none ∨ ∃ pre action post u image,
        actions = pre ++ action :: post ∧
        (action = .saveGCDButtonTapped ∨ action = .retry) ∧
        run (ProfileScreen.step id) (.viewDidLoad ⟨none, none⟩) pre = some u ∧
        u.profileImage = some image ∧ s.file = some image) := by
  let actions : List (ScreenAction String) := [.editProfileButtonTapped,
    .didFinishPicking none (some "p"), .saveGCDButtonTapped, .photoSaved 0 true]
  let es : List (PhotoEvent String) := [.saveUserImage (some "p"), .removeItem 0 false false,
    .write 0 false none, .contentsOfFile 0, .main ⟨none, none⟩, .contentsOfFile 1,
    .main ⟨none, none⟩, .main ⟨none, none⟩]
  let t := (run (ProfileScreen.step id) (.viewDidLoad ⟨none, none⟩) actions).get
    (by decide +kernel)
  let s := (run (step plainPhotos) (viewDidLoad none) es).get (by decide +kernel)
  have hscreen : run (ProfileScreen.step id) (.viewDidLoad ⟨none, none⟩) actions = some t :=
    (Option.some_get _).symm
  have hrequests : photoRequests es = (observe (ProfileScreen.step id) savesPhoto
      (.viewDidLoad ⟨none, none⟩) actions).map some := by
    decide +kernel
  have hrun : run (step plainPhotos) (viewDidLoad none) es = some s := (Option.some_get _).symm
  exact ⟨es, actions, s, hrun, by decide +kernel, photo_of_screenRun hscreen hrequests
    (by decide +kernel) hrun
    ⟨by decide +kernel, by decide +kernel, by decide +kernel, by decide +kernel⟩⟩

end PhotoButton

end MessengerApp
