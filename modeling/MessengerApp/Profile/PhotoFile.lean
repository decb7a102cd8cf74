import Mathlib.Data.List.Basic
import MessengerApp.Library.Machine

/-!
# Saving the photo

`UserProfileImageManagerProtocol.saveUserImage` looks up the directory, encodes
the image, removes the old file and writes the new one.  A failed removal is only
printed, a failed encoding is not reported at all, and when the write fails the
old file may already be gone.

## Main definitions

* `ImageSave` — one call: what its encoder returns and which of its steps fail.
* `saveUserImage` — the file afterwards and the results reported.
* `PhotoFile.Kept` — the condition under which a call does no harm.

## Main results

* `reliable_iff_kept` — one call.
* `photo_eq_lastSaved_iff` — **when the photo survives a sequence of calls.**
-/

namespace MessengerApp

open Machine

/-- One call of `saveUserImage`, with `δ` for `Data`. -/
structure ImageSave (δ : Type*) where
  /-- What `jpegData` returns for the image. -/
  data : Option δ
  directoryFails : Bool
  removeFails : Bool
  writeFails : Bool
  /-- What a failing write leaves of a file that is still there. -/
  left : Option δ
  deriving DecidableEq, Repr

/-- `saveUserImage`: the photo file afterwards, and the results handed to the completion. -/
def saveUserImage {δ : Type*} (call : ImageSave δ) (file : Option δ) : Option δ × List Bool :=
  if call.directoryFails then (file, [false])
  else
    match call.data with
    | none => (file, [])
    | some data =>
      -- the old file, after the attempt to remove it
      let old := if call.removeFails then file else none
      if call.writeFails then (old.bind fun _ => call.left, [false]) else (some data, [true])

namespace PhotoFile

variable {δ : Type*}

/-- The calls run one after the other. -/
def step (file : Option δ) (call : ImageSave δ) : Option (Option δ) :=
  some (saveUserImage call file).1

/-- The data of a call, if it reports success. -/
def saved (file : Option δ) (call : ImageSave δ) : Option δ :=
  if true ∈ (saveUserImage call file).2 then call.data else none

/-- The data of the last call that reported success, or else what the file held before. -/
def lastSaved (file : Option δ) (calls : List (ImageSave δ)) : Option δ :=
  (observe step saved file calls).getLast?.or file

/-- A call reports one result, and leaves the file alone unless it reports success. -/
def Reliable (file : Option δ) (call : ImageSave δ) : Prop :=
  (saveUserImage call file).2.length = 1 ∧
    (true ∉ (saveUserImage call file).2 → (saveUserImage call file).1 = file)

/-- The directory is not found; or the image can be encoded, and it is written, or there
is no old photo, or the old photo outlives the attempts to remove and to overwrite it. -/
def Kept (file : Option δ) (call : ImageSave δ) : Prop :=
  call.directoryFails = true ∨
    (call.data.isSome ∧ (call.writeFails = false ∨ file = none ∨
      (call.removeFails = true ∧ call.left = file)))

/-- **One call.** -/
theorem reliable_iff_kept (file : Option δ) (call : ImageSave δ) :
    Reliable file call ↔ Kept file call := by
  obtain ⟨data, directoryFails, removeFails, writeFails, left⟩ := call
  cases directoryFails with
  | true => simp [Reliable, Kept, saveUserImage]
  | false =>
    cases data with
    | none => simp [Reliable, Kept, saveUserImage]
    | some data =>
      cases writeFails with
      | false => simp [Reliable, Kept, saveUserImage]
      | true => cases removeFails <;> cases file <;> simp [Reliable, Kept, saveUserImage]

/-- A successful call leaves its data. -/
theorem file_of_saved {file : Option δ} {call : ImageSave δ}
    (h : true ∈ (saveUserImage call file).2) :
    (saveUserImage call file).1 = call.data ∧ call.data.isSome := by
  obtain ⟨data, directoryFails, removeFails, writeFails, left⟩ := call
  cases directoryFails with
  | true => simp [saveUserImage] at h
  | false =>
    cases data with
    | none => simp [saveUserImage] at h
    | some data =>
      cases writeFails with
      | false => simp [saveUserImage]
      | true => simp [saveUserImage] at h

/-- A reliable call leaves what was saved last. -/
theorem file_of_reliable {file : Option δ} {call : ImageSave δ} (h : Reliable file call) :
    (saveUserImage call file).1 = (saved file call).or file := by
  unfold saved
  split
  · next htrue =>
    obtain ⟨hfile, hsome⟩ := file_of_saved htrue
    rw [hfile, Option.or_of_isSome hsome]
  · next htrue => exact h.2 htrue

/-- So does a sequence of reliable calls. -/
theorem file_of_run : ∀ (calls : List (ImageSave δ)) (file : Option δ),
    Meets step Reliable file calls → run step file calls = some (lastSaved file calls) := by
  intro calls
  induction calls with
  | nil => intro file _; rfl
  | cons call calls ih =>
    rintro file ⟨hcall, hmeets⟩
    have hrest := ih _ (hmeets _ rfl)
    rw [run_cons, step, Option.bind_some, hrest, lastSaved, lastSaved, observe_cons step saved rfl,
      List.getLast?_append, Option.or_assoc]
    congr 2
    rw [file_of_reliable hcall]
    cases saved file call <;> rfl

/-- **When the photo survives.**  Every call reports one result and leaves the file
alone unless it succeeds, so that the file holds in the end what was saved last, if
and only if every call keeps the old photo until the new one is there. -/
theorem photo_eq_lastSaved_iff (file : Option δ) (calls : List (ImageSave δ)) :
    (Meets step Reliable file calls ∧ run step file calls = some (lastSaved file calls)) ↔
      Meets step Kept file calls := by
  rw [← meets_congr step reliable_iff_kept]
  exact ⟨fun h => h.1, fun h => ⟨h, file_of_run calls file h⟩⟩

/-- **A failing write loses the photo**: the old file is removed before the new one is
written. -/
theorem exists_lost_photo : ¬ ∀ (file : Option String) (calls : List (ImageSave String)),
    Meets step Reliable file calls ∧ run step file calls = some (lastSaved file calls) := by
  intro h
  obtain ⟨-, hrun⟩ := h (some "old") [⟨some "new", false, false, true, none⟩]
  exact absurd hrun (by decide)

end PhotoFile

end MessengerApp
