import MessengerApp.Library.Machine
import MessengerApp.Messages.Address
import MessengerApp.Messages.Cell

/-!
# Plain messages

Most messages are no addresses: they do not begin with a scheme, or they have several lines.
A cell that is only given such messages never downloads anything, and always shows the text
of the last one.

## Main definitions

* `shorterRegex` — the regular expression without what makes no difference.
* `Plain` — a text that is taken for no address.

## Main results

* `validateURL_eq_shorterRegex` — **the port and the second kind of host make no difference.**
* `text_of_plain_run` — **a cell for plain messages shows the text of the last one.**
-/

namespace MessengerApp

open Machine

/-! ### The regular expression -/

/-- `http[s]?://[^/:.[:space:]]+(.[^/:.[:space:]]+)*((/[^?#[:space:]]+)([^#[:space:]]+)?(#.+)?)?` -/
def shorterRegex : Pattern Char :=
  .seq schemePattern (.seq (.literal [':', '/', '/'])
    (.seq (.joined isLabelChar isAnyChar) tailPattern))

/-- **The port and the second kind of host make no difference**: the unescaped dot also takes
the colon before a port, and digits are labels. -/
theorem validateURL_eq_shorterRegex (s : String) :
    validateURL s = shorterRegex.accepts s.toList := by
  rw [Bool.eq_iff_iff, validateURL_iff, Pattern.accepts_iff, shorterRegex]
  constructor
  · rintro ⟨labels, tail, ⟨scheme, hscheme, hs⟩, hlabels, htail⟩
    rw [hs]
    refine Pattern.mem_seq.mpr ⟨scheme, mem_schemePattern.mpr hscheme, _, ?_, rfl⟩
    refine Pattern.mem_seq.mpr ⟨_, Pattern.mem_literal.mpr rfl, _, ?_, rfl⟩
    exact Pattern.mem_seq.mpr
      ⟨labels, Pattern.mem_joined.mpr hlabels, tail, mem_tailPattern.mpr htail, rfl⟩
  · intro h
    obtain ⟨scheme, hscheme, _, hrest, hs⟩ := Pattern.mem_seq.mp h
    obtain ⟨_, hcolon, _, hbody, rfl⟩ := Pattern.mem_seq.mp hrest
    obtain ⟨labels, hlabels, tail, htail, rfl⟩ := Pattern.mem_seq.mp hbody
    rw [Pattern.mem_literal.mp hcolon] at hs
    exact ⟨labels, tail, ⟨scheme, mem_schemePattern.mp hscheme, hs.symm⟩,
      Pattern.mem_joined.mp hlabels, mem_tailPattern.mp htail⟩

/-! ### Texts that are no addresses -/

theorem isLineTerminator_of_isSpace {c : Char} (h : isSpace c = false) :
    isLineTerminator c = false := by
  simp only [isSpace, isLineTerminator, Bool.or_eq_false_iff, Bool.and_eq_false_iff,
    decide_eq_false_iff_not, List.mem_cons, List.not_mem_nil, or_false] at h ⊢
  omega

/-- No class of the regular expression has a line terminator. -/
theorem regex_within : regex.Within fun c => isLineTerminator c = false := by
  have hlabel : ∀ c, isLabelChar c = true → isLineTerminator c = false := by
    intro c hc
    simp only [isLabelChar, Bool.not_eq_true', Bool.or_eq_false_iff] at hc
    exact isLineTerminator_of_isSpace hc.2
  have hpath : ∀ c, isPathChar c = true → isLineTerminator c = false := by
    intro c hc
    simp only [isPathChar, Bool.not_eq_true', Bool.or_eq_false_iff] at hc
    exact isLineTerminator_of_isSpace hc.2
  have hquery : ∀ c, isQueryChar c = true → isLineTerminator c = false := by
    intro c hc
    simp only [isQueryChar, Bool.not_eq_true', Bool.or_eq_false_iff] at hc
    exact isLineTerminator_of_isSpace hc.2
  have hany : ∀ c, isAnyChar c = true → isLineTerminator c = false := by
    intro c hc
    simpa [isAnyChar] using hc
  have hdigit : ∀ c, Char.isDigit c = true → isLineTerminator c = false := fun c hc =>
    hlabel c (isLabelChar_of_isDigit hc)
  have hliteral : ∀ y : List Char, y.all (fun c => !isLineTerminator c) = true →
      (Pattern.literal y).Within fun c => isLineTerminator c = false := fun y hy =>
    Pattern.within_literal fun c hc => by simpa using List.all_eq_true.mp hy c hc
  have hscheme : schemePattern.Within fun c => isLineTerminator c = false :=
    ⟨hliteral _ (by decide), hliteral _ (by decide), trivial⟩
  have hhost : hostPattern.Within fun c => isLineTerminator c = false :=
    ⟨⟨⟨hlabel, hlabel⟩, hany, hlabel, hlabel⟩, hdigit, hany, hdigit, hdigit, hdigit, trivial⟩
  have hport : portPattern.Within fun c => isLineTerminator c = false :=
    ⟨⟨hliteral _ (by decide), hdigit, hdigit⟩, trivial⟩
  have htail : tailPattern.Within fun c => isLineTerminator c = false :=
    ⟨⟨⟨hliteral _ (by decide), hpath, hpath⟩, ⟨⟨hquery, hquery⟩, trivial⟩,
      ⟨hliteral _ (by decide), hany, hany⟩, trivial⟩, trivial⟩
  exact ⟨hscheme, hliteral _ (by decide), hhost, hport, htail⟩

/-- The text does not begin with a scheme, or it has several lines. -/
def Plain (s : String) : Prop :=
  (∀ scheme ∈ [['h', 't', 't', 'p'], ['h', 't', 't', 'p', 's']],
    ¬ scheme ++ [':', '/', '/'] <+: s.toList) ∨ ∃ c ∈ s.toList, isLineTerminator c = true

/-- **A plain text is taken for no address.** -/
theorem validateURL_of_plain {s : String} (h : Plain s) : validateURL s = false := by
  rw [← Bool.not_eq_true]
  intro haccepted
  rcases h with h | ⟨c, hc, hline⟩
  · obtain ⟨labels, tail, ⟨scheme, hscheme, hs⟩, -, -⟩ := validateURL_iff.mp haccepted
    refine h scheme hscheme ⟨labels ++ tail, ?_⟩
    rw [hs, List.append_assoc]
  · have hnone := Pattern.forall_mem_of_within regex_within (Pattern.accepts_iff.mp haccepted) c hc
    rw [hline] at hnone
    cases hnone

namespace MessageTableViewCell

variable {α : Type*} {settings : MessageSettings} {s t : Reused α} {es : List (RowEvent α)}

/-! ### A cell for plain messages -/

/-- The texts of the messages that a cell is given. -/
def contents (es : List (RowEvent α)) : List String :=
  es.filterMap fun
    | .cellForRowAt row => some (content row)
    | .finish _ _ => none

/-- **A cell for plain messages shows the text of the last one**, and no picture: with the regular
expression of the app, nothing is ever downloaded, however often the cell is reused. -/
theorem text_of_plain_run (hsettings : settings.validateURL = MessengerApp.validateURL)
    (hplain : ∀ content ∈ contents es, Plain content)
    (hrun : run (step settings) (new : Reused α) es = some t) :
    t.cell.messageText = (contents es).getLast? ∧ t.cell.sendedImage = none ∧
      t.downloads = [] := by
  refine history_invariant (fun es (s : Reused α) => (∀ content ∈ contents es, Plain content) →
    s.cell.messageText = (contents es).getLast? ∧ s.cell.sendedImage = none ∧ s.downloads = [])
    (fun es s e t hs hstep hplain => ?_) (fun _ => ⟨rfl, rfl, rfl⟩) es t hrun hplain
  have happend : contents (es ++ [e]) = contents es ++ contents [e] := List.filterMap_append
  rw [happend] at hplain ⊢
  obtain ⟨htext, himage, hdownloads⟩ := hs fun c hc => hplain c (List.mem_append_left _ hc)
  cases e with
  | cellForRowAt row =>
    obtain rfl := Option.some.inj hstep
    have hfalse : settings.validateURL (content row) = false := by
      rw [hsettings]
      exact validateURL_of_plain (hplain _ (List.mem_append_right _ (List.mem_singleton.mpr rfl)))
    have hnone : imageURL settings row = none := by
      rw [imageURL, hfalse]
      rfl
    rw [cell_cellForRowAt, downloads_cellForRowAt, hfalse, hnone, hdownloads,
      List.getLast?_append]
    exact ⟨rfl, himage, rfl⟩
  | finish index download =>
    -- there is no download that could finish
    rw [step, hdownloads] at hstep
    cases hstep

/-- Two messages, the second of which begins with a scheme but has two lines. -/
theorem text_of_plain_run_lines :
    ∃ (settings : MessageSettings) (es : List (RowEvent Unit)) (t : Reused Unit),
      run (step settings) new es = some t ∧ t.cell.messageText = some "http://a.co\nhi" ∧
        t.cell.messageText = (contents es).getLast? ∧ t.cell.sendedImage = none ∧
        t.downloads = [] := by
  let settings : MessageSettings := ⟨"me", MessengerApp.validateURL, some⟩
  let es : List (RowEvent Unit) := [.cellForRowAt ⟨some "hello", some "me", none⟩,
    .cellForRowAt ⟨some "http://a.co\nhi", some "you", some "Ann"⟩]
  let t := (run (step settings) new es).get (by decide +kernel)
  have hrun : run (step settings) new es = some t := (Option.some_get _).symm
  have hfirst : Plain "hello" := by
    refine Or.inl fun scheme hscheme hprefix => ?_
    simp only [List.mem_cons, List.not_mem_nil, or_false] at hscheme
    rcases hscheme with rfl | rfl <;> exact absurd hprefix (by decide)
  have hsecond : Plain "http://a.co\nhi" := Or.inr ⟨'\n', by decide, by decide⟩
  refine ⟨settings, es, t, hrun, by decide +kernel, text_of_plain_run rfl ?_ hrun⟩
  intro content hcontent
  have hcontents : contents es = ["hello", "http://a.co\nhi"] := rfl
  rw [hcontents, List.mem_cons, List.mem_singleton] at hcontent
  rcases hcontent with rfl | rfl
  · exact hfirst
  · exact hsecond

end MessageTableViewCell

end MessengerApp
