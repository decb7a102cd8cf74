import MessengerApp.Library.JoinedWord

/-!
# `validateURL`

A message that is an address is shown as the picture found there.  Whether it is one is
decided by a regular expression, which the whole text has to match:

    http[s]?://(([^/:.[:space:]]+(.[^/:.[:space:]]+)*)|([0-9](.[0-9]{3})))(:[0-9]+)?
      ((/[^?#[:space:]]+)([^#[:space:]]+)?(#.+)?)?

The dot between two labels is not escaped and stands for any character that does not end a
line.

## Main definitions

* `validateURL` — the regular expression, matched.
* `IsWebAddress` — a scheme, labels separated by dots, a port and a tail.
* `JoinsOther` — labels are joined by something else than a dot.

## Main results

* `validateURL_iff` — what is accepted.
* `isWebAddress_iff_not_joinsOther` — **exactly the web addresses are accepted, but for the
  texts that join labels by something else.**
-/

namespace MessengerApp

/-! ### Character classes -/

/-- `[:space:]`, which is the property `White_Space`. -/
def isSpace (c : Char) : Bool :=
  (0x09 ≤ c.toNat && c.toNat ≤ 0x0D) || c.toNat ∈ [0x20, 0x85, 0xA0, 0x1680] ||
    (0x2000 ≤ c.toNat && c.toNat ≤ 0x200A) ||
    c.toNat ∈ [0x2028, 0x2029, 0x202F, 0x205F, 0x3000]

/-- The characters that `.` does not match. -/
def isLineTerminator (c : Char) : Bool :=
  (0x0A ≤ c.toNat && c.toNat ≤ 0x0D) || c.toNat ∈ [0x85, 0x2028, 0x2029]

/-- `[^/:.[:space:]]` -/
def isLabelChar (c : Char) : Bool := !(c = '/' || c = ':' || c = '.' || isSpace c)

/-- `.` -/
def isAnyChar (c : Char) : Bool := !isLineTerminator c

/-- `[^?#[:space:]]` -/
def isPathChar (c : Char) : Bool := !(c = '?' || c = '#' || isSpace c)

/-- `[^#[:space:]]` -/
def isQueryChar (c : Char) : Bool := !(c = '#' || isSpace c)

/-! ### The regular expression -/

/-- `http[s]?` -/
def schemePattern : Pattern Char :=
  .seq (.literal ['h', 't', 't', 'p']) (.optional (.literal ['s']))

/-- `(([^/:.[:space:]]+(.[^/:.[:space:]]+)*)|([0-9](.[0-9]{3})))` -/
def hostPattern : Pattern Char :=
  .alt (.joined isLabelChar isAnyChar)
    (.seq (.char Char.isDigit) (.seq (.char isAnyChar) (.times 3 (.char Char.isDigit))))

/-- `(:[0-9]+)?` -/
def portPattern : Pattern Char :=
  .optional (.seq (.literal [':']) (.repeated (.char Char.isDigit)))

/-- `((/[^?#[:space:]]+)([^#[:space:]]+)?(#.+)?)?` -/
def tailPattern : Pattern Char :=
  .optional (.seq (.seq (.literal ['/']) (.repeated (.char isPathChar)))
    (.seq (.optional (.repeated (.char isQueryChar)))
      (.optional (.seq (.literal ['#']) (.repeated (.char isAnyChar))))))

/-- `http[s]?://`, the host, the port and the tail. -/
def regex : Pattern Char :=
  .seq schemePattern (.seq (.literal [':', '/', '/'])
    (.seq hostPattern (.seq portPattern tailPattern)))

def validateURL (url : String) : Bool := regex.accepts url.toList

/-! ### Web addresses -/

def isDot (c : Char) : Bool := c = '.'

/-- One or more labels separated by single dots. -/
abbrev IsHost : List Char → Prop := JoinedWord isLabelChar isDot

/-- A colon and one or more digits, or nothing. -/
def IsPort (x : List Char) : Prop :=
  x = [] ∨ ∃ digits, x = ':' :: digits ∧ digits ≠ [] ∧ ∀ c ∈ digits, c.isDigit = true

/-- A number sign and one or more characters other than line terminators, or nothing. -/
def IsFragment (x : List Char) : Prop :=
  x = [] ∨ ∃ y, x = '#' :: y ∧ y ≠ [] ∧ ∀ c ∈ y, isLineTerminator c = false

/-- A slash, a path, perhaps a query and a fragment, or nothing. -/
def IsTail (x : List Char) : Prop :=
  x = [] ∨ ∃ path query fragment, x = '/' :: (path ++ (query ++ fragment)) ∧
    path ≠ [] ∧ (∀ c ∈ path, isPathChar c = true) ∧ (∀ c ∈ query, isQueryChar c = true) ∧
    IsFragment fragment

/-- The text is one of the two schemes, `://` and `x`. -/
def AfterScheme (s : String) (x : List Char) : Prop :=
  ∃ scheme ∈ [['h', 't', 't', 'p'], ['h', 't', 't', 'p', 's']],
    s.toList = scheme ++ ([':', '/', '/'] ++ x)

def IsWebAddress (s : String) : Prop :=
  ∃ host port tail, AfterScheme s (host ++ (port ++ tail)) ∧ IsHost host ∧ IsPort port ∧
    IsTail tail

theorem AfterScheme.unique {s : String} {x y : List Char} (hx : AfterScheme s x)
    (hy : AfterScheme s y) : x = y := by
  obtain ⟨scheme, hscheme, hx⟩ := hx
  obtain ⟨scheme', hscheme', hy⟩ := hy
  rw [hx] at hy
  simp only [List.mem_cons, List.not_mem_nil, or_false] at hscheme hscheme'
  rcases hscheme with rfl | rfl <;> rcases hscheme' with rfl | rfl
  · exact List.append_cancel_left (List.append_cancel_left hy)
  · simp at hy
  · simp at hy
  · exact List.append_cancel_left (List.append_cancel_left hy)

/-! ### What is accepted -/

variable {s : String} {x : List Char}

theorem mem_portPattern : x ∈ portPattern.language ↔ IsPort x := Pattern.mem_optional_marked

theorem mem_fragmentPattern : x ∈ (Pattern.optional (.seq (.literal ['#'])
    (.repeated (.char isAnyChar)))).language ↔ IsFragment x := by
  rw [Pattern.mem_optional_marked]
  simp only [IsFragment, isAnyChar, Bool.not_eq_true']

theorem mem_tailPattern : x ∈ tailPattern.language ↔ IsTail x := by
  rw [tailPattern, Pattern.mem_optional, or_comm]
  apply or_congr_right
  simp only [Pattern.mem_seq, mem_fragmentPattern, Pattern.mem_optional_repeated_char]
  constructor
  · rintro ⟨_, ⟨slash, hslash, path, hpath, rfl⟩, _, ⟨query, hquery, fragment, hfragment, rfl⟩, rfl⟩
    rw [Pattern.mem_literal.mp hslash]
    obtain ⟨hne, hpath⟩ := Pattern.mem_repeated_char.mp hpath
    exact ⟨path, query, fragment, rfl, hne, hpath, hquery, hfragment⟩
  · rintro ⟨path, query, fragment, rfl, hne, hpath, hquery, hfragment⟩
    exact ⟨'/' :: path, ⟨['/'], Pattern.mem_literal.mpr rfl, path,
      Pattern.mem_repeated_char.mpr ⟨hne, hpath⟩, rfl⟩, query ++ fragment,
      ⟨query, hquery, fragment, hfragment, rfl⟩, rfl⟩

theorem mem_schemePattern : x ∈ schemePattern.language ↔
    x ∈ [['h', 't', 't', 'p'], ['h', 't', 't', 'p', 's']] := by
  simp only [schemePattern, Pattern.mem_seq, Pattern.mem_optional, Pattern.mem_literal]
  constructor
  · rintro ⟨_, rfl, _, rfl | rfl, rfl⟩ <;> simp
  · intro hx
    simp only [List.mem_cons, List.not_mem_nil, or_false] at hx
    rcases hx with rfl | rfl
    · exact ⟨_, rfl, [], .inr rfl, rfl⟩
    · exact ⟨_, rfl, ['s'], .inl rfl, rfl⟩

theorem isLabelChar_of_isDigit {c : Char} (h : c.isDigit = true) : isLabelChar c = true := by
  have hc := Char.isDigit_iff_toNat.mp h
  have hspace : isSpace c = false := by
    simp only [isSpace, Bool.or_eq_false_iff, Bool.and_eq_false_iff, decide_eq_false_iff_not,
      List.mem_cons, List.not_mem_nil, or_false]
    change 48 ≤ c.toNat ∧ c.toNat ≤ 57 at hc
    omega
  have hne {d : Char} (hd : d.isDigit = false) : c ≠ d := by
    rintro rfl
    rw [hd] at h
    cases h
  simp [isLabelChar, hspace, hne]

/-- Digits are labels, so that the second kind of host is one of the first, -/
theorem joined_of_mem_hostPattern (h : x ∈ hostPattern.language) :
    JoinedWord isLabelChar isAnyChar x := by
  rcases Pattern.mem_alt.mp h with h | h
  · exact Pattern.mem_joined.mp h
  · obtain ⟨_, ⟨d, hd, rfl⟩, _, hx, rfl⟩ := Pattern.mem_seq.mp h
    obtain ⟨_, ⟨c, hc, rfl⟩, digits, hdigits, rfl⟩ := Pattern.mem_seq.mp hx
    obtain ⟨hlength, hdigits⟩ := Pattern.mem_times_char hdigits
    refine .cons (List.cons_ne_nil d []) ?_ hc (.label ?_ ?_)
    · intro b hb
      rw [List.mem_singleton.mp hb]
      exact isLabelChar_of_isDigit hd
    · rintro rfl
      cases hlength
    · exact fun b hb => isLabelChar_of_isDigit (hdigits b hb)

/-- and with any character between labels a port is one more label. -/
theorem joined_append_port {host port : List Char} (h : JoinedWord isLabelChar isAnyChar host)
    (hport : IsPort port) : JoinedWord isLabelChar isAnyChar (host ++ port) := by
  rcases hport with rfl | ⟨digits, rfl, hne, hdigits⟩
  · rwa [List.append_nil]
  · exact h.append (by decide) (.label hne fun c hc => isLabelChar_of_isDigit (hdigits c hc))

/-- **What is accepted**: a scheme, labels with any characters between them, and a tail. -/
theorem validateURL_iff : validateURL s = true ↔ ∃ labels tail,
    AfterScheme s (labels ++ tail) ∧ JoinedWord isLabelChar isAnyChar labels ∧ IsTail tail := by
  rw [validateURL, Pattern.accepts_iff, regex]
  constructor
  · intro h
    obtain ⟨scheme, hscheme, _, hrest, hs⟩ := Pattern.mem_seq.mp h
    obtain ⟨_, hcolon, _, hbody, rfl⟩ := Pattern.mem_seq.mp hrest
    obtain ⟨host, hhost, _, hend, rfl⟩ := Pattern.mem_seq.mp hbody
    obtain ⟨port, hport, tail, htail, rfl⟩ := Pattern.mem_seq.mp hend
    rw [Pattern.mem_literal.mp hcolon] at hs
    refine ⟨host ++ port, tail, ⟨scheme, mem_schemePattern.mp hscheme, ?_⟩, ?_,
      mem_tailPattern.mp htail⟩
    · rw [← hs, List.append_assoc host]
    · exact joined_append_port (joined_of_mem_hostPattern hhost) (mem_portPattern.mp hport)
  · rintro ⟨labels, tail, ⟨scheme, hscheme, hs⟩, hlabels, htail⟩
    refine Pattern.mem_seq.mpr ⟨scheme, mem_schemePattern.mpr hscheme, _, ?_, hs.symm⟩
    refine Pattern.mem_seq.mpr ⟨_, Pattern.mem_literal.mpr rfl, _, ?_, rfl⟩
    refine Pattern.mem_seq.mpr ⟨labels, .inl (Pattern.mem_joined.mpr hlabels), tail, ?_, rfl⟩
    exact Pattern.mem_seq.mpr
      ⟨[], mem_portPattern.mpr (.inl rfl), tail, mem_tailPattern.mpr htail, rfl⟩

example : validateURL "https://a.co:80/p?q#f" = true := by decide

/-! ### Labels joined by something else -/

/-- A separator other than a dot. -/
def isOtherSeparator (c : Char) : Bool :=
  (c = '/' || c = ':' || isSpace c) && !isLineTerminator c

/-- A port and a tail, each of which may be missing. -/
def IsPortAndTail (x : List Char) : Prop :=
  ∃ port tail, x = port ++ tail ∧ IsPort port ∧ IsTail tail

/-- After a host there is another separator, with more labels and perhaps a tail behind it,
and this is no port and no tail. -/
def JoinsOther (s : String) : Prop :=
  ∃ host c labels tail, AfterScheme s (host ++ c :: (labels ++ tail)) ∧ IsHost host ∧
    isOtherSeparator c = true ∧ JoinedWord isLabelChar isAnyChar labels ∧ IsTail tail ∧
    ¬ IsPortAndTail (c :: (labels ++ tail))

def isHostChar (c : Char) : Bool := isLabelChar c || isDot c

theorem isHostChar_of_isOtherSeparator {c : Char} (h : isOtherSeparator c = true) :
    isHostChar c = false := by
  obtain ⟨hc, -⟩ := Bool.and_eq_true_iff.mp h
  have hlabel : isLabelChar c = false := by
    simp only [isLabelChar, Bool.not_eq_false']
    grind
  have hdot : isDot c = false := by
    apply decide_eq_false
    rintro rfl
    exact absurd hc (by decide)
  rw [isHostChar, hlabel, hdot, Bool.or_self]

/-- Any character that is no label's and no dot. -/
theorem isOtherSeparator_of {c : Char} (h : (isAnyChar c && !isLabelChar c) = true)
    (hdot : isDot c = false) : isOtherSeparator c = true := by
  obtain ⟨hany, hlabel⟩ := Bool.and_eq_true_iff.mp h
  have hne : c ≠ '.' := of_decide_eq_false hdot
  simp only [isLabelChar, Bool.not_not, Bool.or_eq_true, decide_eq_true_eq, hne, or_false] at hlabel
  rw [isOtherSeparator, Bool.and_eq_true_iff]
  exact ⟨by simpa using hlabel, hany⟩

theorem isAnyChar_of_isDot (c : Char) (h : isDot c = true) : isAnyChar c = true := by
  obtain rfl : c = '.' := of_decide_eq_true h
  decide

theorem dropWhile_host {host : List Char} (h : IsHost host) (x : List Char) :
    (host ++ x).dropWhile isHostChar = x.dropWhile isHostChar := by
  apply List.dropWhile_append_of_pos
  intro c hc
  simpa [isHostChar] using h.forall_mem c hc

theorem IsPortAndTail.head {c : Char} (h : IsPortAndTail (c :: x)) : c = ':' ∨ c = '/' := by
  obtain ⟨port, tail, heq, hport, htail⟩ := h
  rcases hport with rfl | ⟨digits, rfl, -⟩
  · rcases htail with rfl | ⟨path, query, fragment, rfl, -⟩
    · cases heq
    · exact .inr (List.cons.inj heq).1
  · exact .inl (List.cons.inj heq).1

/-- A port and a tail begin with what no host has. -/
theorem IsPortAndTail.dropWhile (h : IsPortAndTail x) : x.dropWhile isHostChar = x := by
  cases x with
  | nil => rfl
  | cons c x =>
    apply List.dropWhile_cons_of_neg
    rcases h.head with rfl | rfl <;> decide

/-- A web address has no other separator there. -/
theorem not_isWebAddress_of_joinsOther (h : JoinsOther s) : ¬ IsWebAddress s := by
  rintro ⟨host', port, tail', hs', hhost', hport, htail'⟩
  obtain ⟨host, c, labels, tail, hs, hhost, hc, -, -, hnot⟩ := h
  have hend : IsPortAndTail (port ++ tail') := ⟨port, tail', rfl, hport, htail'⟩
  -- What follows the characters of hosts is the same.
  have hdrop := congrArg (List.dropWhile isHostChar) (hs.unique hs')
  rw [dropWhile_host hhost, dropWhile_host hhost', hend.dropWhile,
    List.dropWhile_cons_of_neg (by simp [isHostChar_of_isOtherSeparator hc])] at hdrop
  exact hnot (hdrop ▸ hend)

theorem validateURL_of_joinsOther (h : JoinsOther s) : validateURL s = true := by
  obtain ⟨host, c, labels, tail, hs, hhost, hc, hlabels, htail, -⟩ := h
  have hany : isAnyChar c = true := (Bool.and_eq_true_iff.mp hc).2
  have hdots : JoinedWord isLabelChar isAnyChar host := hhost.mono isAnyChar_of_isDot
  refine validateURL_iff.mpr ⟨host ++ c :: labels, tail, ?_, hdots.append hany hlabels, htail⟩
  rwa [List.append_assoc, List.cons_append]

theorem validateURL_of_isWebAddress (h : IsWebAddress s) : validateURL s = true := by
  obtain ⟨host, port, tail, hs, hhost, hport, htail⟩ := h
  have hdots : JoinedWord isLabelChar isAnyChar host := hhost.mono isAnyChar_of_isDot
  refine validateURL_iff.mpr ⟨host ++ port, tail, ?_, joined_append_port hdots hport, htail⟩
  rwa [List.append_assoc]

/-- What is accepted and joins labels by dots only is a web address. -/
theorem isWebAddress_or_joinsOther (h : validateURL s = true) :
    IsWebAddress s ∨ JoinsOther s := by
  obtain ⟨labels, tail, hs, hlabels, htail⟩ := validateURL_iff.mp h
  rcases hlabels.normal.split isDot with hdots | ⟨host, c, more, rfl, hhost, hc, hdot, hmore⟩
  · refine .inl ⟨labels, [], tail, hs, hdots.mono ?_, .inl rfl, htail⟩
    exact fun c hc => (Bool.and_eq_true_iff.mp hc).2
  · have hhost' : IsHost host := hhost.mono fun c hc => (Bool.and_eq_true_iff.mp hc).2
    rw [List.append_assoc, List.cons_append] at hs
    by_cases hend : IsPortAndTail (c :: (more ++ tail))
    · obtain ⟨port, tail', heq, hport, htail'⟩ := hend
      exact .inl ⟨host, port, tail', heq ▸ hs, hhost', hport, htail'⟩
    · refine .inr ⟨host, c, more, tail, hs, hhost', isOtherSeparator_of hc hdot, ?_, htail, hend⟩
      exact hmore.mono fun c hc => (Bool.and_eq_true_iff.mp hc).1

/-- **Exactly the web addresses are accepted, but for the texts that join labels by something
else than a dot.** -/
theorem isWebAddress_iff_not_joinsOther (s : String) :
    (validateURL s = true ↔ IsWebAddress s) ↔ ¬ JoinsOther s := by
  constructor
  · intro h hjoins
    exact not_isWebAddress_of_joinsOther hjoins (h.mp (validateURL_of_joinsOther hjoins))
  · intro hnot
    constructor
    · intro h
      exact (isWebAddress_or_joinsOther h).resolve_right hnot
    · exact validateURL_of_isWebAddress

/-- A sentence behind an address is taken for more labels. -/
theorem exists_sentence_accepted :
    validateURL "http://a.co hi" = true ∧ ¬ IsWebAddress "http://a.co hi" := by
  have hjoins : JoinsOther "http://a.co hi" := by
    refine ⟨['a', '.', 'c', 'o'], ' ', ['h', 'i'], [], ⟨['h', 't', 't', 'p'], by simp, by simp⟩,
      .cons (x := ['a']) (by simp) (List.all_eq_true.mp (by decide)) (by decide)
        (.label (by simp) (List.all_eq_true.mp (by decide))),
      by decide, .label (by simp) (List.all_eq_true.mp (by decide)), .inl rfl, ?_⟩
    intro hend
    rcases hend.head with hc | hc <;> cases hc
  exact ⟨by decide, not_isWebAddress_of_joinsOther hjoins⟩

end MessengerApp
