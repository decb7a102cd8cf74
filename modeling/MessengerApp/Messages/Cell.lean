import MessengerApp.CoreData.Schema

/-!
# The message cell

`cellForRowAt` sets only what its message calls for: a text, or a picture that is
downloaded first; the side and the colour of the sender, and for the user's own messages
that the name is hidden.  Nothing is reset when the cell is given to another message, and
a download sets the cell whatever it shows by then.

## Main definitions

* `MessageTableViewCell`, `MessageTableViewCell.Reused` — the outlets of the cell, and the
  cell with its downloads.
* `checingImageInMessage`, `cellForRowAt`, `finish` — what sets the outlets.
* `MessageTableViewCell.step` — what can happen to the cell.

## Main results

* `downloads_cellForRowAt`, `cell_cellForRowAt` — what one configuration changes.
-/

namespace MessengerApp

/-- A message as `cellForRowAt` reads it: the properties of `DBMessage` are optional. -/
structure MessageRow where
  content : Option String
  senderId : Option String
  senderName : Option String
  deriving DecidableEq, Repr

/-- The properties of a stored message. -/
def DBMessage.row (m : DBMessage) : MessageRow where
  content := some m.content
  senderId := some m.senderId
  senderName := some m.senderName

/-- The two colours of a message bubble. -/
inductive BubbleColor
  | messageColor
  | sendingMessageColor
  deriving DecidableEq, Repr

/-- What `cellForRowAt` depends on besides the message. -/
structure MessageSettings where
  /-- `UserSenderID.shared.getUserSenderId()`. -/
  userSenderId : String
  validateURL : String → Bool
  /-- `URL(string:)`, as the URL is printed. -/
  url : String → Option String

/-- How a download ends: with data and the picture that `UIImage(data:)` makes of it, if
any, or without. -/
inductive ImageDownload (α : Type*)
  | data (image : Option α)
  | failed
  deriving DecidableEq, Repr

/-- What a message cell shows, with `α` for `UIImage`. -/
@[ext]
structure MessageTableViewCell (α : Type*) where
  /-- `messageLabel.text`. -/
  messageText : Option String
  sendedImage : Option α
  /-- `userNameLabel.text` and `userNameLabel.isHidden`. -/
  userNameText : Option String
  userNameHidden : Bool
  /-- `isActive` of the two constraints. -/
  leadingActive : Bool
  trailingActive : Bool
  /-- `messageBackgroundView.backgroundColor`. -/
  backgroundColor : Option BubbleColor
  deriving DecidableEq, Repr

namespace MessageTableViewCell

variable {α : Type*}

/-- A cell and its downloads, which are numbered by the message they were started for. -/
structure Reused (α : Type*) where
  cell : MessageTableViewCell α
  /-- How many messages the cell has been given. -/
  count : ℕ
  /-- The downloads that have not finished, with their URLs. -/
  downloads : List (ℕ × String)
  deriving DecidableEq, Repr

/-- What can happen. -/
inductive RowEvent (α : Type*)
  | cellForRowAt (row : MessageRow)
  | finish (index : ℕ) (download : ImageDownload α)
  deriving DecidableEq, Repr

/-- A newly created cell. -/
def new : Reused α where
  cell :=
    { messageText := none
      sendedImage := none
      userNameText := none
      userNameHidden := false
      leadingActive := false
      trailingActive := true
      backgroundColor := none }
  count := 0
  downloads := []

variable (settings : MessageSettings)

/-- The observer of `channelMessageID`. -/
def didSetChannelMessageID (c : MessageTableViewCell α) :
    Option String → MessageTableViewCell α
  | none => c
  | some messageID =>
      let c' := { c with backgroundColor := some .messageColor }
      if messageID = settings.userSenderId then
        { c' with
          leadingActive := false
          trailingActive := true
          userNameHidden := true
          backgroundColor := some .sendingMessageColor }
      else { c' with leadingActive := true, trailingActive := false }

def checingImageInMessage (messageText : String) (s : Reused α) : Reused α :=
  if settings.validateURL messageText then
    match settings.url messageText with
    | none => s
    | some imageURL => { s with downloads := s.downloads ++ [(s.count, imageURL)] }
  else { s with cell := { s.cell with messageText := some messageText } }

def cellForRowAt (row : MessageRow) (s : Reused α) : Reused α :=
  let s' := checingImageInMessage settings (row.content.getD "No message") s
  { s' with
    cell :=
      { didSetChannelMessageID settings s'.cell row.senderId with
        userNameText := row.senderName }
    count := s.count + 1 }

/-- The label text after a download has failed. -/
def notSupported (imageURL : String) : String :=
  "The API is not supported, imageURL: " ++ imageURL

/-- The end of a download. -/
def finish (imageURL : String) (c : MessageTableViewCell α) :
    ImageDownload α → MessageTableViewCell α
  | .data image => { c with sendedImage := image }
  | .failed => { c with messageText := some (notSupported imageURL) }

def step (s : Reused α) : RowEvent α → Option (Reused α)
  | .cellForRowAt row => some (cellForRowAt settings row s)
  | .finish index download =>
      (s.downloads.find? (·.1 = index)).map fun d =>
        { s with
          cell := finish d.2 s.cell download
          downloads := s.downloads.eraseP (·.1 = index) }

/-! ### Messages -/

/-- The text that is looked at. -/
def content (row : MessageRow) : String := row.content.getD "No message"

/-- The URL that is downloaded for a message, if any. -/
def imageURL (row : MessageRow) : Option String :=
  if settings.validateURL (content row) then settings.url (content row) else none

/-- The text that a message puts on the label: at once when it is no address, and else
when its download fails. -/
def text (row : MessageRow) : String := (imageURL settings row).elim (content row) notSupported

variable {settings}

/-! ### What a configuration does -/

/-- The colour of the bubble of a sender. -/
def bubbleColor (settings : MessageSettings) (messageID : String) : BubbleColor :=
  if messageID = settings.userSenderId then .sendingMessageColor else .messageColor

theorem checingImageInMessage_eq (row : MessageRow) (s : Reused α) :
    checingImageInMessage settings (content row) s =
      { s with
        cell :=
          { s.cell with
            messageText :=
              if settings.validateURL (content row) then s.cell.messageText
              else some (content row) }
        downloads :=
          s.downloads ++ (imageURL settings row).toList.map fun url => (s.count, url) } := by
  unfold checingImageInMessage imageURL
  split
  · cases settings.url (content row) with
    | none => simp
    | some url => rfl
  · simp

variable {row : MessageRow} {s : Reused α}

theorem downloads_cellForRowAt : (cellForRowAt settings row s).downloads =
    s.downloads ++ (imageURL settings row).toList.map fun url => (s.count, url) :=
  congrArg Reused.downloads (checingImageInMessage_eq row s)

/-- Only the side, the colour and the visibility of the name depend on the sender. -/
theorem didSetChannelMessageID_eq (c : MessageTableViewCell α) (senderId : Option String) :
    didSetChannelMessageID settings c senderId =
      { c with
        userNameHidden := c.userNameHidden || senderId == some settings.userSenderId
        leadingActive := senderId.elim c.leadingActive fun id => id != settings.userSenderId
        trailingActive := senderId.elim c.trailingActive fun id => id == settings.userSenderId
        backgroundColor := (senderId.map (bubbleColor settings)).or c.backgroundColor } := by
  cases senderId with
  | none => simp [didSetChannelMessageID]
  | some id =>
    by_cases hid : id = settings.userSenderId
    · simp [didSetChannelMessageID, bubbleColor, hid]
    · simp [didSetChannelMessageID, bubbleColor, hid]

theorem cell_cellForRowAt : (cellForRowAt settings row s).cell =
    { messageText :=
        if settings.validateURL (content row) then s.cell.messageText else some (content row)
      sendedImage := s.cell.sendedImage
      userNameText := row.senderName
      userNameHidden := s.cell.userNameHidden || row.senderId == some settings.userSenderId
      leadingActive :=
        row.senderId.elim s.cell.leadingActive fun id => id != settings.userSenderId
      trailingActive :=
        row.senderId.elim s.cell.trailingActive fun id => id == settings.userSenderId
      backgroundColor :=
        (row.senderId.map (bubbleColor settings)).or s.cell.backgroundColor } := by
  show ({ didSetChannelMessageID settings
      (checingImageInMessage settings (content row) s).cell row.senderId with
        userNameText := row.senderName } : MessageTableViewCell α) = _
  rw [didSetChannelMessageID_eq, checingImageInMessage_eq]

end MessageTableViewCell

end MessengerApp
