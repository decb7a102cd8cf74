import MessengerApp.Library.Machine
import MessengerApp.Messages.Address
import MessengerApp.Messages.Cell

/-!
# Blank messages

A message that looks like an address puts nothing on its cell before its download has
finished, and then a picture or, when there was nothing to download, a text.  Nothing is put
there when `URL(string:)` refuses the address, or when what was downloaded is no picture.

## Main definitions

* `finishes` — downloads finish, in the given order.
* `ShowsMessage` — the cell shows the message in one of the three ways.

## Main results

* `showsMessage_iff_decoded` — **a message is shown unless its address is refused or what is
  found there cannot be decoded.**
-/

namespace MessengerApp

open Machine

namespace MessageTableViewCell

variable {α : Type*}

/-- Downloads finish. -/
def finishes (ends : List (ℕ × ImageDownload α)) : List (RowEvent α) :=
  ends.map fun d => .finish d.1 d.2

/-- The cell shows the text, a picture, or the fallback text with the address. -/
def ShowsMessage (settings : MessageSettings) (messageText : String)
    (c : MessageTableViewCell α) : Prop :=
  c.messageText = some messageText ∨ c.sendedImage ≠ none ∨
    ∃ imageURL ∈ settings.url messageText, c.messageText = some (notSupported imageURL)

variable {settings : MessageSettings} {messageText : String} {s t : Reused α}
  {ends : List (ℕ × ImageDownload α)}

/-! ### The downloads of one message -/

/-- Nothing finishes that has not been started. -/
theorem run_finishes_of_idle (hidle : s.downloads = [])
    (hrun : run (step settings) s (finishes ends) = some t) : ends = [] ∧ t = s := by
  cases ends with
  | nil => exact ⟨rfl, (Option.some.inj hrun).symm⟩
  | cons d ends =>
    obtain ⟨s', hstep, -⟩ := (run_cons_eq_some _).mp hrun
    simp [step, hidle] at hstep

/-- The only download that there is finishes once. -/
theorem run_finishes_of_one {index : ℕ} {imageURL : String}
    (hone : s.downloads = [(index, imageURL)]) (hdone : t.downloads = [])
    (hrun : run (step settings) s (finishes ends) = some t) :
    ∃ download, ends = [(index, download)] ∧ t.cell = finish imageURL s.cell download := by
  cases ends with
  | nil =>
    obtain rfl : s = t := Option.some.inj hrun
    rw [hone] at hdone
    cases hdone
  | cons d ends =>
    obtain ⟨s', hstep, hrest⟩ := (run_cons_eq_some _).mp hrun
    obtain ⟨_, hfound, rfl⟩ := Option.map_eq_some_iff.mp hstep
    rw [hone] at hfound hrest
    obtain ⟨hindex, rfl⟩ : index = d.1 ∧ _ = _ := by simpa using hfound
    obtain ⟨rfl, rfl⟩ := run_finishes_of_idle (by simp [hindex]) hrest
    exact ⟨d.2, by rw [hindex], rfl⟩

/-! ### What is put on a new cell -/

/-- A text that is no address is shown at once. -/
theorem showsMessage_of_text (htext : settings.validateURL messageText = false)
    (hrun : run (step settings) (checingImageInMessage settings messageText new)
      (finishes ends) = some t) : ShowsMessage settings messageText t.cell := by
  obtain ⟨-, rfl⟩ := run_finishes_of_idle (by simp [checingImageInMessage, htext, new]) hrun
  left
  simp [checingImageInMessage, htext]

/-- Nothing is shown for an address that is refused. -/
theorem not_showsMessage_of_refused (haddress : settings.validateURL messageText = true)
    (hurl : settings.url messageText = none)
    (hrun : run (step settings) (checingImageInMessage settings messageText new)
      (finishes ends) = some t) : ¬ ShowsMessage settings messageText t.cell := by
  have hstart : checingImageInMessage settings messageText (new : Reused α) = new := by
    simp [checingImageInMessage, haddress, hurl]
  rw [hstart] at hrun
  obtain ⟨-, rfl⟩ := run_finishes_of_idle rfl hrun
  simp [ShowsMessage, new]

/-- What is shown for an address depends on how its download ends. -/
theorem showsMessage_finish_iff {imageURL : String}
    (hurl : settings.url messageText = some imageURL) (download : ImageDownload α) :
    ShowsMessage settings messageText (finish imageURL new.cell download) ↔
      download ≠ .data none := by
  cases download with
  | data image => cases image <;> simp [ShowsMessage, finish, new]
  | failed => simp [ShowsMessage, finish, hurl]

/-- **A message is shown** on a new cell, once everything has finished, unless its address is
refused or what is found there cannot be decoded. -/
theorem showsMessage_iff_decoded
    (hrun : run (step settings) (checingImageInMessage settings messageText new)
      (finishes ends) = some t) (hdone : t.downloads = []) :
    ShowsMessage settings messageText t.cell ↔
      settings.validateURL messageText = true →
        settings.url messageText ≠ none ∧ (0, .data none) ∉ ends := by
  by_cases haddress : settings.validateURL messageText = true
  · cases hurl : settings.url messageText with
    | none => simp [not_showsMessage_of_refused haddress hurl hrun, haddress]
    | some imageURL =>
      have hstart : checingImageInMessage settings messageText (new : Reused α) =
          { (new : Reused α) with downloads := [(0, imageURL)] } := by
        simp [checingImageInMessage, haddress, hurl, new]
      rw [hstart] at hrun
      obtain ⟨download, rfl, hcell⟩ := run_finishes_of_one rfl hdone hrun
      rw [hcell, showsMessage_finish_iff hurl]
      simp [haddress, eq_comm]
  · simp [showsMessage_of_text (eq_false_of_ne_true haddress) hrun, haddress]

/-- The settings of a user `"me"`, when `URL(string:)` accepts every text. -/
def mySettings : MessageSettings where
  userSenderId := "me"
  validateURL := validateURL
  url := some

/-- An address with nothing behind it is named on the cell. -/
theorem showsMessage_of_failed_download : ∃ t : Reused ℕ,
    run (step mySettings) (checingImageInMessage mySettings "http://a.co" new)
      (finishes [(0, .failed)]) = some t ∧ ShowsMessage mySettings "http://a.co" t.cell := by
  have hrun : run (step mySettings) (checingImageInMessage mySettings "http://a.co" new)
      (finishes [(0, .failed)]) =
        some (⟨finish "http://a.co" new.cell .failed, 0, []⟩ : Reused ℕ) := by
    decide
  exact ⟨_, hrun, (showsMessage_iff_decoded hrun rfl).mpr (by decide)⟩

/-- A page that is no picture leaves the cell blank. -/
theorem exists_blank_message : ∃ t : Reused ℕ,
    run (step mySettings) (checingImageInMessage mySettings "http://a.co" new)
      (finishes [(0, .data none)]) = some t ∧ t.downloads = [] ∧
      ¬ ShowsMessage mySettings "http://a.co" t.cell := by
  refine ⟨new, by decide, rfl, ?_⟩
  simp [ShowsMessage, new]

end MessageTableViewCell

end MessengerApp
