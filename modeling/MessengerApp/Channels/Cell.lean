import MessengerApp.Models

/-!
# The cell of a conversation

`ConversationTableViewCell.configure(with:)` writes three labels and draws the initials.  The
date is shown as a day if it lies on an earlier one, and otherwise as a time; the message
label has texts of its own for a channel without a last message and for an empty one.

* `CellFormat` — the calendar, the formatter and the initials.
* `compareDate`, `configure` — the functions of the source.
* `messageLabel_eq_iff` — which of the label's texts stands for which last message.
-/

namespace MessengerApp

/-- What the cell relies on, with `α` for `UIImage`. -/
structure CellFormat (α : Type*) where
  /-- `Calendar.current.compare(_:to:toGranularity: .day)` is `.orderedAscending`. -/
  earlierDay : Date → Date → Bool
  /-- A `DateFormatter` with this format. -/
  string : String → Date → String
  userNameToInitials : String → String
  userInitialsToImage : String → α

/-- What the cell shows. -/
structure ConversationTableViewCell (α : Type*) where
  nameLabel : Option String
  messageLabel : Option String
  dateLabel : Option String
  userImage : Option α
  deriving DecidableEq, Repr

namespace ConversationTableViewCell

variable {α : Type*} (F : CellFormat α)

/-- `compareDate(messageDate:dateLabel:)`: the text of the label. -/
def compareDate (messageDate now : Date) : String :=
  if F.earlierDay messageDate now then F.string "dd.MM" messageDate
  else F.string "HH:mm" messageDate

/-- `configure(with:)`; `now` and `now'` are the times that `Date()` is read, for a missing
date and for the comparison. -/
def configure (model : ChannelModel) (now now' : Date) : ConversationTableViewCell α where
  nameLabel := some model.name
  messageLabel :=
    match model.lastMessage with
    | none => some "Сообщений еще нет"
    | some "" => some "Пусто"
    | some message => some message
  dateLabel := some (compareDate F (model.lastActivity.getD now) now')
  userImage := some (F.userInitialsToImage (F.userNameToInitials model.name))

/-- **What the message label says**: the last message, except for the two cases that have
texts of their own. -/
theorem messageLabel_eq_iff (model : ChannelModel) (now now' : Date) (text : String) :
    (configure F model now now').messageLabel = some text ↔
      (model.lastMessage = none ∧ text = "Сообщений еще нет") ∨
        (model.lastMessage = some "" ∧ text = "Пусто") ∨
          (model.lastMessage = some text ∧ text ≠ "") := by
  cases h : model.lastMessage with
  | none => simp [configure, h, eq_comm]
  | some message =>
    by_cases hm : message = ""
    · subst hm
      simp [configure, h, eq_comm]
    · have hlabel : (configure F model now now').messageLabel = some message := by
        simp only [configure, h]
      rw [hlabel]
      constructor
      · rintro heq
        obtain rfl := Option.some.inj heq
        exact Or.inr (Or.inr ⟨rfl, hm⟩)
      · rintro (⟨heq, -⟩ | ⟨heq, -⟩ | ⟨heq, -⟩)
        · exact absurd heq (by simp)
        · exact absurd (Option.some.inj heq) hm
        · exact heq

end ConversationTableViewCell

end MessengerApp
