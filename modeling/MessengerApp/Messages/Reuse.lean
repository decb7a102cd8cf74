import MessengerApp.Library.Machine
import MessengerApp.Messages.Cell

/-!
# A reused message cell

The label keeps the text of the message that wrote it last, which is at once or when its
download has failed; the picture is the one that arrived last; and a name that was hidden
stays hidden.  So a reused cell may show parts of other messages.

## Main definitions

* `configured`, `writers`, `pictures` — the messages of a run, which of them have written
  the label, and the pictures that have arrived.
* `alone` — the run of a new cell that is given the last message only.
* `Unmixed` — nothing of the other messages is left.
* `Shows` — what the cell shows after a run.

## Main results

* `shows_of_run` — it does.
* `cell_eq_iff_unmixed` — **when a reused cell shows its current message only.**
-/

namespace MessengerApp

open Machine

namespace MessageTableViewCell

variable {α : Type*} (settings : MessageSettings)

/-! ### The events of a run -/

/-- The messages the cell is given in a run. -/
def configured : List (RowEvent α) → List MessageRow :=
  List.filterMap fun
    | .cellForRowAt row => some row
    | .finish _ _ => none

/-- The pictures that arrive in a run. -/
def pictures : List (RowEvent α) → List (Option α) :=
  List.filterMap fun
    | .finish _ (.data image) => some image
    | _ => none

/-- How the download of a message has ended in a run. -/
def outcome (es : List (RowEvent α)) (index : ℕ) : Option (ImageDownload α) :=
  es.findSome? fun
    | .finish i download => if i = index then some download else none
    | .cellForRowAt _ => none

/-- What an event writes on the label, by the message it writes it for; `count` messages
were given to the cell before. -/
def writersOf (count : ℕ) : RowEvent α → List ℕ
  | .cellForRowAt row => if settings.validateURL (content row) then [] else [count]
  | .finish index .failed => [index]
  | .finish _ (.data _) => []

/-- The messages whose texts are written on the label in a run, in order. -/
def writers (count : ℕ) : List (RowEvent α) → List ℕ
  | [] => []
  | e :: es => writersOf settings count e ++ writers (count + (configured [e]).length) es

/-- How the download of the last message has ended. -/
def lastOutcome (es : List (RowEvent α)) : Option (ImageDownload α) :=
  outcome es ((configured es).length - 1)

/-- The run of a new cell that is given this message only, and whose download ends as that
of the last message in the run `es`. -/
def alone (row : MessageRow) (es : List (RowEvent α)) : List (RowEvent α) :=
  .cellForRowAt row :: (lastOutcome es).toList.map fun download => .finish 0 download

/-- The last message has written its text on the label. -/
def WritesText (row : MessageRow) (es : List (RowEvent α)) : Prop :=
  settings.validateURL (content row) = false ∨ lastOutcome es = some .failed

/-- The picture of the last message, if it has arrived. -/
def lastPicture (es : List (RowEvent α)) : Option α :=
  match lastOutcome es with
  | some (.data image) => image
  | _ => none

/-- Nothing of the other messages is left.  The text that was written last, if any, is that
of the last message, which has written it; the picture that arrived last, if any, is its own;
and it is the user's own message unless no message was, with a sender unless no message had
one. -/
structure Unmixed (row : MessageRow) (es : List (RowEvent α)) : Prop where
  text : ∀ index ∈ (writers settings 0 es).getLast?, WritesText settings row es ∧
    ∃ other, (configured es)[index]? = some other ∧ text settings other = text settings row
  picture : ∀ image ∈ (pictures es).getLast?, image = lastPicture es
  own : ∀ other ∈ configured es, other.senderId = some settings.userSenderId →
    row.senderId = some settings.userSenderId
  sender : row.senderId = none → ∀ other ∈ configured es, other.senderId = none

theorem configured_append (es es' : List (RowEvent α)) :
    configured (es ++ es') = configured es ++ configured es' := List.filterMap_append

theorem pictures_append (es es' : List (RowEvent α)) :
    pictures (es ++ es') = pictures es ++ pictures es' := List.filterMap_append

variable {settings}

theorem writers_append (es es' : List (RowEvent α)) : ∀ count,
    writers settings count (es ++ es') =
      writers settings count es ++ writers settings (count + (configured es).length) es' := by
  induction es with
  | nil => exact fun _ => rfl
  | cons e es ih =>
    intro count
    have hconfigured : configured (e :: es) = configured [e] ++ configured es :=
      configured_append [e] es
    rw [List.cons_append, writers, ih, writers, hconfigured, List.length_append, Nat.add_assoc,
      List.append_assoc]

theorem writers_snoc (es : List (RowEvent α)) (e : RowEvent α) :
    writers settings 0 (es ++ [e]) =
      writers settings 0 es ++ writersOf settings (configured es).length e := by
  rw [writers_append, Nat.zero_add, writers, writers, List.append_nil]

/-- A download that ends with an error writes on the label. -/
theorem mem_writers_of_failed {es : List (RowEvent α)} {index : ℕ}
    (h : .finish index .failed ∈ es) : index ∈ writers settings 0 es := by
  obtain ⟨pre, post, rfl⟩ := List.append_of_mem h
  rw [writers_append]
  exact List.mem_append_right _ List.mem_cons_self

theorem mem_configured {es : List (RowEvent α)} {row : MessageRow} (h : row ∈ configured es) :
    .cellForRowAt row ∈ es := by
  obtain ⟨e, he, hsome⟩ := List.mem_filterMap.mp h
  cases e with
  | cellForRowAt row' => exact Option.some.inj hsome ▸ he
  | finish index download => cases hsome

/-- And so does a message that is no address. -/
theorem writers_ne_nil_of_mem {es : List (RowEvent α)} {row : MessageRow}
    (h : row ∈ configured es) (hvalid : settings.validateURL (content row) = false) :
    writers settings 0 es ≠ [] := by
  obtain ⟨pre, post, rfl⟩ := List.append_of_mem (mem_configured h)
  rw [writers_append, writers, writersOf, hvalid]
  exact List.append_ne_nil_of_right_ne_nil _ (List.cons_ne_nil _ _)

theorem mem_of_outcome {es : List (RowEvent α)} {index : ℕ} {download : ImageDownload α}
    (h : outcome es index = some download) : .finish index download ∈ es := by
  obtain ⟨e, he, hsome⟩ := List.exists_of_findSome?_eq_some h
  cases e with
  | cellForRowAt row => cases hsome
  | finish i d =>
    obtain ⟨rfl, hd⟩ := Option.ite_none_right_eq_some.mp hsome
    obtain rfl := Option.some.inj hd
    exact he

theorem outcome_ne_none {es : List (RowEvent α)} {index : ℕ} {download : ImageDownload α}
    (h : .finish index download ∈ es) : outcome es index ≠ none := by
  intro hnone
  have hfind := List.findSome?_eq_none_iff.mp hnone _ h
  exact absurd hfind (by simp)

variable {row : MessageRow} {s : Reused α}

/-! ### The downloads along a run -/

/-- What is known of the downloads after the events `es`. -/
structure Loads (settings : MessageSettings) (es : List (RowEvent α)) (s : Reused α) :
    Prop where
  count : s.count = (configured es).length
  loading : ∀ d ∈ s.downloads, ∃ row, (configured es)[d.1]? = some row ∧
    imageURL settings row = some d.2
  /-- A download that is not under way any more has ended. -/
  ended : ∀ index row url, (configured es)[index]? = some row →
    imageURL settings row = some url → (index, url) ∈ s.downloads ∨ outcome es index ≠ none
  /-- Only a download that was started has ended. -/
  started : ∀ index download, .finish index download ∈ es →
    ∃ row, (configured es)[index]? = some row ∧ imageURL settings row ≠ none

theorem loads_new : Loads settings ([] : List (RowEvent α)) new where
  count := rfl
  loading := fun _ h => absurd h List.not_mem_nil
  ended := fun _ _ _ h => by cases h
  started := fun _ _ h => absurd h List.not_mem_nil

variable {es : List (RowEvent α)}

/-- What was there before the cell was given to a message. -/
theorem getElem?_configured_snoc {index : ℕ} {old : MessageRow} (row : MessageRow)
    (h : (configured es)[index]? = some old) :
    (configured (es ++ [.cellForRowAt row]))[index]? = some old := by
  rw [configured_append, List.getElem?_append_left (List.getElem?_eq_some_iff.mp h).1, h]

/-- The message the cell was given to last. -/
theorem getElem?_configured_last (row : MessageRow) :
    (configured (es ++ [.cellForRowAt row]))[(configured es).length]? = some row := by
  rw [configured_append]
  exact List.getElem?_concat_length

theorem Loads.cellForRowAt (h : Loads settings es s) (row : MessageRow) :
    Loads settings (es ++ [.cellForRowAt row]) (cellForRowAt settings row s) := by
  have hlength : (configured (es ++ [.cellForRowAt row])).length = (configured es).length + 1 := by
    rw [configured_append, List.length_append]
    rfl
  refine ⟨?_, ?_, ?_, ?_⟩
  · rw [hlength, ← h.count]
    rfl
  · intro d hd
    rw [downloads_cellForRowAt] at hd
    rcases List.mem_append.mp hd with hd | hd
    · obtain ⟨old, hold, hurl⟩ := h.loading d hd
      exact ⟨old, getElem?_configured_snoc row hold, hurl⟩
    · obtain ⟨url, hurl, rfl⟩ := List.mem_map.mp hd
      refine ⟨row, ?_, Option.mem_toList.mp hurl⟩
      show (configured (es ++ [.cellForRowAt row]))[s.count]? = some row
      rw [h.count]
      exact getElem?_configured_last row
  · intro index old url hold hurl
    rw [downloads_cellForRowAt]
    by_cases hindex : index < (configured es).length
    · rw [configured_append, List.getElem?_append_left hindex] at hold
      rcases h.ended index old url hold hurl with hmem | hended
      · exact Or.inl (List.mem_append_left _ hmem)
      · obtain ⟨download, hdownload⟩ := Option.ne_none_iff_exists'.mp hended
        exact Or.inr (outcome_ne_none (List.mem_append_left _ (mem_of_outcome hdownload)))
    · -- the download of the new message
      have hlt := (List.getElem?_eq_some_iff.mp hold).1
      rw [hlength] at hlt
      obtain rfl : index = (configured es).length := by omega
      rw [getElem?_configured_last] at hold
      obtain rfl := Option.some.inj hold
      refine Or.inl (List.mem_append_right _ (List.mem_map.mpr ⟨url, ?_, ?_⟩))
      · exact Option.mem_toList.mpr hurl
      · rw [h.count]
  · intro index download hmem
    have hes : .finish index download ∈ es := by simpa using hmem
    obtain ⟨old, hold, hurl⟩ := h.started index download hes
    exact ⟨old, getElem?_configured_snoc row hold, hurl⟩

theorem configured_finish (index : ℕ) (download : ImageDownload α) :
    configured (es ++ [.finish index download]) = configured es := by
  rw [configured_append]
  exact List.append_nil _

theorem Loads.finish (h : Loads settings es s) {d : ℕ × String} (hd : d ∈ s.downloads)
    (download : ImageDownload α) :
    Loads settings (es ++ [.finish d.1 download])
      { s with
        cell := finish d.2 s.cell download
        downloads := s.downloads.eraseP (·.1 = d.1) } := by
  refine ⟨?_, ?_, ?_, ?_⟩
  · rw [configured_finish]
    exact h.count
  · intro d' hd'
    rw [configured_finish]
    exact h.loading d' (List.mem_of_mem_eraseP hd')
  · intro index row url hrow hurl
    rw [configured_finish] at hrow
    by_cases hindex : index = d.1
    · rw [hindex]
      exact Or.inr (outcome_ne_none (List.mem_append_right _ List.mem_cons_self))
    · rcases h.ended index row url hrow hurl with hmem | hended
      · exact Or.inl ((List.mem_eraseP_of_neg (by simpa using hindex)).mpr hmem)
      · obtain ⟨download', hdownload'⟩ := Option.ne_none_iff_exists'.mp hended
        exact Or.inr (outcome_ne_none (List.mem_append_left _ (mem_of_outcome hdownload')))
  · intro index download' hmem
    rw [configured_finish]
    rcases List.mem_append.mp hmem with hmem | hmem
    · exact h.started index download' hmem
    · obtain ⟨rfl, -⟩ := RowEvent.finish.inj (List.mem_singleton.mp hmem)
      obtain ⟨row, hrow, hurl⟩ := h.loading d hd
      exact ⟨row, hrow, by rw [hurl]; exact Option.some_ne_none _⟩

/-! ### What the cell shows along a run -/

/-- What the cell shows of the senders of the messages it was given. -/
structure ShowsSender (settings : MessageSettings) (rows : List MessageRow)
    (c : MessageTableViewCell α) : Prop where
  userName : c.userNameText = rows.getLast?.bind MessageRow.senderName
  hidden : c.userNameHidden = true ↔ ∃ row ∈ rows, row.senderId = some settings.userSenderId
  color : c.backgroundColor =
    (rows.filterMap MessageRow.senderId).getLast?.map (bubbleColor settings)
  leading : c.leadingActive = (c.backgroundColor == some .messageColor)
  trailing : c.trailingActive = !c.leadingActive

/-- What the cell shows after the events `es`. -/
structure Shows (settings : MessageSettings) (es : List (RowEvent α))
    (c : MessageTableViewCell α) : Prop where
  writer : ∀ index ∈ writers settings 0 es, index < (configured es).length
  text : c.messageText = (writers settings 0 es).getLast?.bind fun index =>
    (configured es)[index]?.map (text settings)
  image : c.sendedImage = (pictures es).getLast?.join
  sender : ShowsSender settings (configured es) c

theorem shows_new : Shows settings ([] : List (RowEvent α)) new.cell where
  writer := fun _ h => absurd h List.not_mem_nil
  text := rfl
  image := rfl
  sender := ⟨rfl, by simp [new, configured], rfl, rfl, rfl⟩

/-- The side follows the colour of the bubble. -/
theorem leading_cellForRowAt (c : MessageTableViewCell α) (senderId : Option String)
    (h : c.leadingActive = (c.backgroundColor == some .messageColor)) :
    (senderId.elim c.leadingActive fun id => id != settings.userSenderId) =
      ((senderId.map (bubbleColor settings)).or c.backgroundColor == some .messageColor) := by
  cases senderId with
  | none => exact h
  | some id =>
    show (id != settings.userSenderId) = (some (bubbleColor settings id) == some .messageColor)
    unfold bubbleColor
    by_cases hid : id = settings.userSenderId
    · simp [hid]
    · simp [hid]

theorem trailing_cellForRowAt (c : MessageTableViewCell α) (senderId : Option String)
    (h : c.trailingActive = !c.leadingActive) :
    (senderId.elim c.trailingActive fun id => id == settings.userSenderId) =
      !senderId.elim c.leadingActive fun id => id != settings.userSenderId := by
  cases senderId with
  | none => exact h
  | some id => exact (Bool.not_not _).symm

variable {rows : List MessageRow} {c : MessageTableViewCell α}

theorem ShowsSender.cellForRowAt (h : ShowsSender settings rows s.cell) (row : MessageRow) :
    ShowsSender settings (rows ++ [row]) (cellForRowAt settings row s).cell := by
  rw [cell_cellForRowAt]
  refine ⟨?_, ?_, ?_, ?_, ?_⟩
  · rw [List.getLast?_concat]
    rfl
  · simp [h.hidden, or_and_right, exists_or]
  · rw [List.filterMap_append, List.getLast?_append, Option.map_or]
    show (row.senderId.map (bubbleColor settings)).or s.cell.backgroundColor = _
    rw [h.color]
    cases hsender : row.senderId <;> simp [hsender]
  · exact leading_cellForRowAt s.cell row.senderId h.leading
  · exact trailing_cellForRowAt s.cell row.senderId h.trailing

/-- A download has nothing to do with the sender. -/
theorem ShowsSender.finish (h : ShowsSender settings rows c) (url : String)
    (download : ImageDownload α) : ShowsSender settings rows (finish url c download) := by
  cases download <;> exact ⟨h.userName, h.hidden, h.color, h.leading, h.trailing⟩

theorem pictures_cellForRowAt (es : List (RowEvent α)) (row : MessageRow) :
    pictures (es ++ [.cellForRowAt row]) = pictures es := by
  rw [pictures_append]
  exact List.append_nil _

/-- The text of an earlier message is not touched by a new message. -/
theorem Shows.text_snoc (h : Shows settings es c) (row : MessageRow) :
    c.messageText = (writers settings 0 es).getLast?.bind fun index =>
      (configured (es ++ [.cellForRowAt row]))[index]?.map
        (MessageTableViewCell.text settings) := by
  rw [h.text]
  cases hlast : (writers settings 0 es).getLast? with
  | none => rfl
  | some index =>
    have hindex := h.writer index (List.mem_of_getLast? hlast)
    rw [Option.bind_some, Option.bind_some, configured_append,
      List.getElem?_append_left hindex]

theorem Shows.cellForRowAt (h : Shows settings es s.cell) (row : MessageRow) :
    Shows settings (es ++ [.cellForRowAt row]) (cellForRowAt settings row s).cell := by
  have hconfigured : configured (es ++ [.cellForRowAt row]) = configured es ++ [row] :=
    configured_append es _
  refine ⟨?_, ?_, ?_, ?_⟩
  · intro index hindex
    rw [hconfigured, List.length_append, List.length_singleton]
    rw [writers_snoc, writersOf] at hindex
    rcases List.mem_append.mp hindex with hindex | hindex
    · have hlt := h.writer index hindex
      omega
    · split at hindex
      · simp at hindex
      · have heq := List.mem_singleton.mp hindex
        omega
  · rw [cell_cellForRowAt, writers_snoc, writersOf]
    by_cases hvalid : settings.validateURL (content row) = true
    · rw [if_pos hvalid, if_pos hvalid, List.append_nil]
      exact h.text_snoc row
    · have htext : MessageTableViewCell.text settings row = content row := by
        rw [MessageTableViewCell.text, imageURL, if_neg hvalid]
        rfl
      rw [if_neg hvalid, if_neg hvalid, List.getLast?_concat, Option.bind_some,
        getElem?_configured_last, Option.map_some, htext]
  · rw [cell_cellForRowAt, pictures_cellForRowAt]
    exact h.image
  · rw [hconfigured]
    exact h.sender.cellForRowAt row

theorem Shows.finish (h : Shows settings es c) {index : ℕ} {url : String}
    (hrow : (configured es)[index]? = some row) (hurl : imageURL settings row = some url)
    (download : ImageDownload α) :
    Shows settings (es ++ [.finish index download]) (finish url c download) := by
  have hindex := (List.getElem?_eq_some_iff.mp hrow).1
  have hsender : ShowsSender settings (configured (es ++ [.finish index download]))
      (MessageTableViewCell.finish url c download) := by
    rw [configured_finish]
    exact h.sender.finish url download
  cases download with
  | data image =>
    have hwriters : writers settings 0 (es ++ [.finish index (.data image)]) =
        writers settings 0 es := by
      rw [writers_snoc]
      exact List.append_nil _
    have hpictures : pictures (es ++ [.finish index (.data image)]) = pictures es ++ [image] :=
      pictures_append es _
    refine ⟨?_, ?_, ?_, hsender⟩
    · rw [hwriters, configured_finish]
      exact h.writer
    · rw [hwriters, configured_finish]
      exact h.text
    · rw [hpictures, List.getLast?_concat]
      rfl
  | failed =>
    have hwriters : writers settings 0 (es ++ [.finish index (.failed : ImageDownload α)]) =
        writers settings 0 es ++ [index] := writers_snoc es _
    have hpictures : pictures (es ++ [.finish index .failed]) = pictures es := by
      rw [pictures_append]
      exact List.append_nil _
    refine ⟨?_, ?_, ?_, hsender⟩
    · rw [hwriters, configured_finish]
      intro other hother
      rcases List.mem_append.mp hother with hother | hother
      · exact h.writer other hother
      · rwa [List.mem_singleton.mp hother]
    · rw [hwriters, configured_finish, List.getLast?_concat, Option.bind_some, hrow,
        Option.map_some, MessageTableViewCell.text, hurl]
      rfl
    · rw [hpictures]
      exact h.image

theorem shows_of_step {s' : Reused α} {e : RowEvent α} (hloads : Loads settings es s)
    (h : Shows settings es s.cell) (hstep : step settings s e = some s') :
    Loads settings (es ++ [e]) s' ∧ Shows settings (es ++ [e]) s'.cell := by
  cases e with
  | cellForRowAt row =>
    obtain rfl := Option.some.inj hstep
    exact ⟨hloads.cellForRowAt row, h.cellForRowAt row⟩
  | finish index download =>
    obtain ⟨d, hfind, rfl⟩ := Option.map_eq_some_iff.mp hstep
    have hd := List.mem_of_find?_eq_some hfind
    obtain rfl : d.1 = index := by simpa using List.find?_some hfind
    obtain ⟨row, hrow, hurl⟩ := hloads.loading d hd
    exact ⟨hloads.finish hd download, h.finish hrow hurl download⟩

/-- **What a cell shows after a run.** -/
theorem shows_of_run (hrun : run (step settings) new es = some s) :
    Loads settings es s ∧ Shows settings es s.cell :=
  history_invariant (fun es s => Loads settings es s ∧ Shows settings es s.cell)
    (fun _ _ _ _ h hstep => shows_of_step h.1 h.2 hstep) ⟨loads_new, shows_new⟩ es s hrun

/-! ### A new cell for the last message -/

theorem configured_alone (row : MessageRow) (es : List (RowEvent α)) :
    configured (alone row es) = [row] := by
  unfold alone
  cases lastOutcome es <;> rfl

/-- The last message, by its place. -/
theorem getElem?_of_getLast? (hrow : (configured es).getLast? = some row) :
    (configured es)[(configured es).length - 1]? = some row := by
  rw [← List.getLast?_eq_getElem?, hrow]

/-- When all downloads have ended, that of the last message has, if there is one. -/
theorem Loads.imageURL_iff (h : Loads settings es s) (hdone : s.downloads = [])
    (hrow : (configured es).getLast? = some row) :
    imageURL settings row = none ↔ lastOutcome es = none := by
  have hget := getElem?_of_getLast? hrow
  constructor
  · intro hurl
    by_contra hended
    obtain ⟨download, hdownload⟩ := Option.ne_none_iff_exists'.mp hended
    obtain ⟨row', hrow', hurl'⟩ := h.started _ download (mem_of_outcome hdownload)
    rw [hget] at hrow'
    obtain rfl := Option.some.inj hrow'
    exact hurl' hurl
  · intro hended
    by_contra hurl
    obtain ⟨url, hurl⟩ := Option.ne_none_iff_exists'.mp hurl
    rcases h.ended _ row url hget hurl with hmem | hended'
    · rw [hdone] at hmem
      exact absurd hmem List.not_mem_nil
    · exact hended' hended

theorem Loads.exists_run_alone (h : Loads settings es s) (hdone : s.downloads = [])
    (hrow : (configured es).getLast? = some row) :
    ∃ t, run (step settings) new (alone row es) = some t ∧ t.downloads = [] := by
  have hiff := h.imageURL_iff hdone hrow
  have hdownloads : (MessageTableViewCell.cellForRowAt settings row (new : Reused α)).downloads =
      (imageURL settings row).toList.map fun url => (0, url) := downloads_cellForRowAt
  unfold alone
  cases hended : lastOutcome es with
  | none =>
    refine ⟨_, rfl, ?_⟩
    rw [hdownloads, hiff.mpr hended]
    rfl
  | some download =>
    have hurl : imageURL settings row ≠ none := by
      rw [Ne, hiff, hended]
      exact Option.some_ne_none _
    obtain ⟨url, hurl⟩ := Option.ne_none_iff_exists'.mp hurl
    rw [hurl] at hdownloads
    let c : Reused α := MessageTableViewCell.cellForRowAt settings row new
    have hstep : step settings c (.finish 0 download) =
        some { c with
          cell := MessageTableViewCell.finish url c.cell download
          downloads := [] } := by
      rw [step, hdownloads]
      rfl
    exact ⟨_, (run_cons_eq_some _).mpr ⟨c, rfl, (run_cons_eq_some _).mpr ⟨_, hstep, rfl⟩⟩, rfl⟩

/-! ### The two cells compared -/

section Compare

variable {c' : MessageTableViewCell α}

theorem writers_alone (row : MessageRow) (es : List (RowEvent α)) :
    writers settings 0 (alone row es) =
      (if settings.validateURL (content row) then [] else [0]) ++
        writers settings 1 ((lastOutcome es).toList.map fun download => .finish 0 download) :=
  rfl

/-- A download that has not failed does not write on the label. -/
theorem writers_lastOutcome (h : lastOutcome es ≠ some .failed) : writers settings 1
    ((lastOutcome es).toList.map fun download => .finish 0 download) = [] := by
  cases hended : lastOutcome es with
  | none => rfl
  | some download =>
    cases download with
    | data image => rfl
    | failed => exact absurd hended h

theorem getLast?_writers_alone (h : WritesText settings row es) :
    (writers settings 0 (alone row es)).getLast? = some 0 := by
  rw [writers_alone]
  by_cases hfailed : lastOutcome es = some .failed
  · rw [hfailed]
    exact List.getLast?_concat
  · have hvalid := h.resolve_right hfailed
    rw [writers_lastOutcome hfailed, hvalid]
    rfl

theorem writers_alone_eq_nil (h : ¬ WritesText settings row es) :
    writers settings 0 (alone row es) = [] := by
  obtain ⟨hvalid, hfailed⟩ := not_or.mp h
  rw [writers_alone, if_pos (Bool.not_eq_false _ ▸ hvalid), writers_lastOutcome hfailed]
  rfl

theorem messageText_alone (hc' : Shows settings (alone row es) c')
    (h : WritesText settings row es) : c'.messageText = some (text settings row) := by
  rw [hc'.text, getLast?_writers_alone h, configured_alone]
  rfl

theorem messageText_alone_eq_none (hc' : Shows settings (alone row es) c')
    (h : ¬ WritesText settings row es) : c'.messageText = none := by
  rw [hc'.text, writers_alone_eq_nil h]
  rfl

theorem WritesText.writers_ne_nil (h : WritesText settings row es)
    (hrow : (configured es).getLast? = some row) : writers settings 0 es ≠ [] := by
  rcases h with hvalid | hfailed
  · exact writers_ne_nil_of_mem (List.mem_of_getLast? hrow) hvalid
  · exact List.ne_nil_of_mem (mem_writers_of_failed (mem_of_outcome hfailed))

theorem sendedImage_alone (h : Shows settings (alone row es) c') :
    c'.sendedImage = lastPicture es := by
  rw [h.image]
  unfold alone lastPicture
  cases lastOutcome es with
  | none => rfl
  | some download => cases download <;> rfl

/-- **The label.** -/
theorem messageText_eq_iff (hc : Shows settings es c) (hc' : Shows settings (alone row es) c')
    (hrow : (configured es).getLast? = some row) :
    c.messageText = c'.messageText ↔ ∀ index ∈ (writers settings 0 es).getLast?,
      WritesText settings row es ∧ ∃ other, (configured es)[index]? = some other ∧
        text settings other = text settings row := by
  have htext := hc.text
  cases hlast : (writers settings 0 es).getLast? with
  | none =>
    have hnil : writers settings 0 es = [] := List.getLast?_eq_none_iff.mp hlast
    refine iff_of_true ?_ fun index hindex => (Option.not_mem_none index hindex).elim
    rw [htext, hlast, messageText_alone_eq_none hc' fun h => h.writers_ne_nil hrow hnil]
    rfl
  | some index =>
    have hindex := hc.writer index (List.mem_of_getLast? hlast)
    have hother : (configured es)[index]? = some (configured es)[index] :=
      List.getElem?_eq_getElem hindex
    rw [hlast, Option.bind_some, hother, Option.map_some] at htext
    rw [htext]
    simp only [Option.mem_some_iff, forall_eq', hother, Option.some.injEq, exists_eq_left']
    by_cases hwrites : WritesText settings row es
    · rw [messageText_alone hc' hwrites, and_iff_right hwrites, Option.some.injEq]
    · rw [messageText_alone_eq_none hc' hwrites]
      exact iff_of_false (Option.some_ne_none _) fun h => hwrites h.1

/-- **The picture.** -/
theorem sendedImage_eq_iff (hc : Shows settings es c) (hc' : Shows settings (alone row es) c') :
    c.sendedImage = c'.sendedImage ↔
      ∀ image ∈ (pictures es).getLast?, image = lastPicture es := by
  rw [hc.image, sendedImage_alone hc']
  cases hlast : (pictures es).getLast? with
  | none =>
    refine iff_of_true ?_ fun image himage => (Option.not_mem_none image himage).elim
    -- no picture has arrived, and so not that of the last message
    unfold lastPicture
    split
    · next image hended =>
      have hmem : image ∈ pictures es :=
        List.mem_filterMap.mpr ⟨_, mem_of_outcome hended, rfl⟩
      rw [List.getLast?_eq_none_iff.mp hlast] at hmem
      exact absurd hmem List.not_mem_nil
    · rfl
  | some image => simp

/-- **The visibility of the name.** -/
theorem userNameHidden_eq_iff (hc : Shows settings es c)
    (hc' : Shows settings (alone row es) c') (hrow : (configured es).getLast? = some row) :
    c.userNameHidden = c'.userNameHidden ↔ ∀ other ∈ configured es,
      other.senderId = some settings.userSenderId →
        row.senderId = some settings.userSenderId := by
  have hhidden' := hc'.sender.hidden
  rw [configured_alone] at hhidden'
  rw [Bool.eq_iff_iff, hc.sender.hidden, hhidden']
  simp only [List.mem_singleton, exists_eq_left]
  constructor
  · exact fun h other hother hown => h.mp ⟨other, hother, hown⟩
  · intro h
    constructor
    · rintro ⟨other, hother, hown⟩
      exact h other hother hown
    · exact fun hown => ⟨row, List.mem_of_getLast? hrow, hown⟩

/-- **The colour of the bubble.** -/
theorem backgroundColor_eq_iff (hc : Shows settings es c)
    (hc' : Shows settings (alone row es) c') (hrow : (configured es).getLast? = some row) :
    c.backgroundColor = c'.backgroundColor ↔
      (row.senderId = none → ∀ other ∈ configured es, other.senderId = none) := by
  have hcolor' := hc'.sender.color
  rw [configured_alone] at hcolor'
  obtain ⟨rows, hrows⟩ := List.getLast?_eq_some_iff.mp hrow
  rw [hc.sender.color, hcolor']
  cases hsender : row.senderId with
  | some id =>
    refine iff_of_true ?_ fun h => by cases h
    rw [hrows, List.filterMap_append, List.getLast?_append]
    simp [hsender]
  | none => simp [hsender]

/-- **The whole cell.** -/
theorem eq_iff_unmixed (hc : Shows settings es c) (hc' : Shows settings (alone row es) c')
    (hrow : (configured es).getLast? = some row) : c = c' ↔ Unmixed settings row es := by
  constructor
  · rintro rfl
    exact ⟨(messageText_eq_iff hc hc' hrow).mp rfl, (sendedImage_eq_iff hc hc').mp rfl,
      (userNameHidden_eq_iff hc hc' hrow).mp rfl, (backgroundColor_eq_iff hc hc' hrow).mp rfl⟩
  · rintro ⟨htext, hpicture, hown, hsender⟩
    have hcolor := (backgroundColor_eq_iff hc hc' hrow).mpr hsender
    have hleading : c.leadingActive = c'.leadingActive := by
      rw [hc.sender.leading, hc'.sender.leading, hcolor]
    ext1
    · exact (messageText_eq_iff hc hc' hrow).mpr htext
    · exact (sendedImage_eq_iff hc hc').mpr hpicture
    · rw [hc.sender.userName, hc'.sender.userName, configured_alone, hrow]
      rfl
    · exact (userNameHidden_eq_iff hc hc' hrow).mpr hown
    · exact hleading
    · rw [hc.sender.trailing, hc'.sender.trailing, hleading]
    · exact hcolor

end Compare

/-- **When a reused cell shows its current message only**: once all downloads have finished,
it equals a new cell that was given the last message only, and whose download ended in the
same way, if and only if nothing of the other messages is left. -/
theorem cell_eq_iff_unmixed (hrun : run (step settings) new es = some s)
    (hdone : s.downloads = []) (hrow : (configured es).getLast? = some row) :
    ∃ t, run (step settings) new (alone row es) = some t ∧ t.downloads = [] ∧
      (s.cell = t.cell ↔ Unmixed settings row es) := by
  obtain ⟨hloads, hshows⟩ := shows_of_run hrun
  obtain ⟨t, ht, hdone'⟩ := hloads.exists_run_alone hdone hrow
  exact ⟨t, ht, hdone', eq_iff_unmixed hshows (shows_of_run ht).2 hrow⟩

/-- A cell that is given to a second picture of the same sender. -/
theorem cell_eq_iff_unmixed_pictures : ∃ (settings : MessageSettings)
    (es : List (RowEvent String)) (row : MessageRow) (s t : Reused String),
    run (step settings) new es = some s ∧ run (step settings) new (alone row es) = some t ∧
      t.downloads = [] ∧ (s.cell = t.cell ↔ Unmixed settings row es) := by
  let settings : MessageSettings :=
    ⟨"me", fun text => text ∈ ["http://host.com/1", "http://host.com/2"], some⟩
  let first : DBMessage := ⟨"http://host.com/1", 0, "you", "Bob", none⟩
  let second : DBMessage := ⟨"http://host.com/2", 1, "you", "Bob", none⟩
  let es : List (RowEvent String) :=
    [.cellForRowAt first.row, .finish 0 (.data (some "cat")), .cellForRowAt second.row,
      .finish 1 (.data (some "dog"))]
  let s : Reused String := (run (step settings) new es).get (by decide +kernel)
  have hrun : run (step settings) new es = some s := (Option.some_get _).symm
  have hrow : (configured es).getLast? = some second.row := rfl
  obtain ⟨t, ht⟩ := cell_eq_iff_unmixed hrun (by decide +kernel) hrow
  exact ⟨settings, es, second.row, s, t, hrun, ht⟩

/-- **A name that was hidden stays hidden.** -/
theorem exists_mixed_cell : ¬ ∀ (settings : MessageSettings) (es : List (RowEvent String))
    (row : MessageRow) (s t : Reused String), run (step settings) new es = some s →
      s.downloads = [] → (configured es).getLast? = some row →
        run (step settings) new (alone row es) = some t → s.cell = t.cell := by
  intro h
  let settings : MessageSettings := ⟨"me", fun _ => false, some⟩
  let own : DBMessage := ⟨"Hi", 0, "me", "Ann", none⟩
  let other : DBMessage := ⟨"Hello", 1, "you", "Bob", none⟩
  let es : List (RowEvent String) := [.cellForRowAt own.row, .cellForRowAt other.row]
  have heq := h settings es other.row _ _ rfl rfl rfl rfl
  exact absurd (congrArg userNameHidden heq) (by decide)

end MessageTableViewCell

end MessengerApp
