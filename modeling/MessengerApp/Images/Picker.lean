import MessengerApp.Images.Service
import MessengerApp.Library.Simulation

/-!
# The image picker

The collection view asks `ImageCollectionView` for the number of items, and later
for the cell of any item below it; the user may select any such item.  Both index
`imageURLs` with the item, the cell in a block of `loadImage` that runs on a
background queue even later.  None of them looks at the length of the list again.

## Main definitions

* `ImagePicker`, `ImagePicker.step` — the service, the count that was reported last and
  the queued blocks of `loadImage`.
* `ImagePicker.indexes` — the index with which an event reads `imageURLs`.
* `ImagePicker.LongEnough` — the condition on a block of `getImageURL`.

## Main results

* `inRange_of_step_iff` — when a step keeps every index in range.
* `inRange_iff_longEnough` — **when every index used in a run is in range.**
* `inRange_of_one_call` — **every index is in range if the addresses are fetched once.**
* `picked_of_run` — **an address that is picked is the one at its place in some response.**
-/

namespace MessengerApp

open Machine

structure ImagePicker where
  service : NetworkImageService
  /-- The count that `numberOfItemsInSection` reported last. -/
  reported : ℕ
  /-- The ids of the queued blocks of `loadImage`. -/
  loads : List ℕ

/-- What can happen.  An event of the picker that indexes out of range traps. -/
inductive PickerEvent
  | service (e : ServiceEvent)
  | numberOfItemsInSection
  | cellForItemAt (item : ℕ)
  /-- The user selects an item; the address is only read when there is a closure for it. -/
  | didSelectItemAt (item : ℕ) (newProfileImageURLClosure : Bool)
  /-- A background thread runs a block of `loadImage`. -/
  | load (imageID : ℕ)
  deriving DecidableEq, Repr

namespace ImagePicker

/-- The picker when the app starts. -/
def launched : ImagePicker where
  service := .launched
  reported := 0
  loads := []

variable (s : ImagePicker)

/-- `loadImage`: the block is queued. -/
def loadImage (imageID : ℕ) : ImagePicker := { s with loads := s.loads ++ [imageID] }

/-- The index with which an event reads `imageURLs`: the collection view selects items
below the reported count, and a thread runs blocks that are queued. -/
def indexes : PickerEvent → Option ℕ
  | .didSelectItemAt item newProfileImageURLClosure =>
      if item < s.reported ∧ newProfileImageURLClosure = true then some item else none
  | .load imageID => if imageID ∈ s.loads then some imageID else none
  | _ => none

def step : PickerEvent → Option ImagePicker
  | .service e => (s.service.step e).map fun service => { s with service := service }
  | .numberOfItemsInSection => some { s with reported := s.service.imageURLs.length }
  | .cellForItemAt item => if item < s.reported then some (s.loadImage item) else none
  | .didSelectItemAt item newProfileImageURLClosure =>
      if item < s.reported then
        if newProfileImageURLClosure then (s.service.imageURLs[item]?).map fun _ => s.loadImage item
        else some (s.loadImage item)
      else none
  | .load imageID =>
      if imageID ∈ s.loads then
        (s.service.imageURLs[imageID]?).map fun _ => { s with loads := s.loads.erase imageID }
      else none

/-- Whatever happens next reads `imageURLs` within its length. -/
def InRange : Prop := ∀ e, ∀ item ∈ s.indexes e, item < s.service.imageURLs.length

/-- A block of `getImageURL` publishes a list that is as long as the reported count, and
longer than every id in a queued block of `loadImage`. -/
def LongEnough : PickerEvent → Prop
  | .service .main => s.service.ran < s.service.calls →
      s.reported ≤ (s.service.url s.service.ran).length ∧
        ∀ imageID ∈ s.loads, imageID < (s.service.url s.service.ran).length
  | _ => True

variable {s} {s' : ImagePicker} {e : PickerEvent}

theorem inRange_iff : s.InRange ↔ s.reported ≤ s.service.imageURLs.length ∧
    ∀ imageID ∈ s.loads, imageID < s.service.imageURLs.length := by
  constructor
  · intro h
    refine ⟨?_, fun imageID hload => h (.load imageID) imageID (by simp [indexes, hload])⟩
    by_contra hlt
    have hitem : s.service.imageURLs.length < s.reported := by omega
    exact Nat.lt_irrefl _
      (h (.didSelectItemAt s.service.imageURLs.length true) _ (by simp [indexes, hitem]))
  · rintro ⟨hreported, hloads⟩ e item hitem
    cases e with
    | didSelectItemAt item' newProfileImageURLClosure =>
      obtain ⟨⟨hlt, -⟩, hitem⟩ := Option.ite_none_right_eq_some.mp hitem
      obtain rfl := Option.some.inj hitem
      omega
    | load imageID =>
      obtain ⟨hload, hitem⟩ := Option.ite_none_right_eq_some.mp hitem
      obtain rfl := Option.some.inj hitem
      exact hloads _ hload
    | service e => cases hitem
    | numberOfItemsInSection => cases hitem
    | cellForItemAt item' => cases hitem

theorem inRange_launched : launched.InRange :=
  inRange_iff.mpr ⟨Nat.le_refl _, fun _ h => absurd h List.not_mem_nil⟩

/-- Queueing the load of an item below the reported count keeps the indices in range. -/
theorem inRange_loadImage (h : s.InRange) {item : ℕ} (hitem : item < s.reported) :
    (s.loadImage item).InRange := by
  obtain ⟨hreported, hloads⟩ := inRange_iff.mp h
  refine inRange_iff.mpr ⟨hreported, fun imageID hload => ?_⟩
  rcases List.mem_append.mp hload with hload | hload
  · exact hloads imageID hload
  · obtain rfl := List.mem_singleton.mp hload
    exact Nat.lt_of_lt_of_le hitem hreported

/-- The events of the service, apart from its blocks, leave the list alone. -/
theorem imageURLs_of_step {e : ServiceEvent} {t t' : NetworkImageService} (he : e ≠ .main)
    (h : t.step e = some t') : t'.imageURLs = t.imageURLs := by
  cases e with
  | getImageURL =>
    obtain rfl := Option.some.inj h
    rfl
  | response call result =>
    obtain ⟨-, h⟩ := Option.ite_none_right_eq_some.mp h
    obtain rfl := Option.some.inj h
    rfl
  | main => exact absurd rfl he

/-- **One step.** -/
theorem inRange_of_step_iff (h : s.InRange) (hstep : s.step e = some s') :
    s'.InRange ↔ s.LongEnough e := by
  obtain ⟨hreported, hloads⟩ := inRange_iff.mp h
  cases e with
  | service e =>
    obtain ⟨service, hservice, rfl⟩ := Option.map_eq_some_iff.mp hstep
    by_cases hmain : e = .main
    · subst hmain
      obtain ⟨hlt, hservice⟩ := Option.ite_none_right_eq_some.mp hservice
      obtain rfl := Option.some.inj hservice
      rw [inRange_iff]
      exact ⟨fun h _ => h, fun h => h hlt⟩
    · have hlist := imageURLs_of_step hmain hservice
      have htrue : s.LongEnough (.service e) := by
        cases e with
        | main => exact absurd rfl hmain
        | getImageURL => trivial
        | response _ _ => trivial
      refine ⟨fun _ => htrue, fun _ => ?_⟩
      rw [inRange_iff, hlist]
      exact ⟨hreported, hloads⟩
  | numberOfItemsInSection =>
    obtain rfl := Option.some.inj hstep
    exact ⟨fun _ => trivial, fun _ => inRange_iff.mpr ⟨Nat.le_refl _, hloads⟩⟩
  | cellForItemAt item =>
    obtain ⟨hitem, hstep⟩ := Option.ite_none_right_eq_some.mp hstep
    obtain rfl := Option.some.inj hstep
    exact ⟨fun _ => trivial, fun _ => inRange_loadImage h hitem⟩
  | didSelectItemAt item newProfileImageURLClosure =>
    obtain ⟨hitem, hstep⟩ := Option.ite_none_right_eq_some.mp hstep
    have hs' : s' = s.loadImage item := by
      cases newProfileImageURLClosure with
      | true =>
        obtain ⟨-, -, hs'⟩ := Option.map_eq_some_iff.mp hstep
        exact hs'.symm
      | false => exact (Option.some.inj hstep).symm
    rw [hs']
    exact ⟨fun _ => trivial, fun _ => inRange_loadImage h hitem⟩
  | load imageID =>
    obtain ⟨-, hstep⟩ := Option.ite_none_right_eq_some.mp hstep
    obtain ⟨-, -, rfl⟩ := Option.map_eq_some_iff.mp hstep
    refine ⟨fun _ => trivial, fun _ => inRange_iff.mpr ⟨hreported, fun other hload => ?_⟩⟩
    exact hloads other (List.mem_of_mem_erase hload)

theorem longEnough_of_step_eq_none (h : s.step e = none) : s.LongEnough e := by
  cases e with
  | service e =>
    cases e with
    | main =>
      intro hlt
      have hnone := Option.map_eq_none_iff.mp h
      rw [NetworkImageService.step, if_pos hlt] at hnone
      cases hnone
    | getImageURL => trivial
    | response _ _ => trivial
  | numberOfItemsInSection => trivial
  | cellForItemAt item => trivial
  | didSelectItemAt item newProfileImageURLClosure => trivial
  | load imageID => trivial

/-- **When every index is in range.**  In a run of the app no index is ever out of range
if and only if every block of `getImageURL` publishes a list that is long enough. -/
theorem inRange_iff_longEnough (es : List PickerEvent) :
    (∀ t, Visits step launched es t → t.InRange) ↔ Meets step LongEnough launched es :=
  forall_visits_iff_meets (fun _ _ _ h hstep => inRange_of_step_iff h hstep)
    (fun _ _ h => longEnough_of_step_eq_none h) es launched inRange_launched

/-- **A second call empties the list** under the collection view: its block runs before
its response arrives. -/
theorem exists_index_out_of_range : ¬ ∀ es t, Visits step launched es t → t.InRange := by
  intro h
  let es : List PickerEvent := [.service .getImageURL,
    .service (.response 0 (.data (some ⟨[⟨"u"⟩]⟩))), .service .main, .numberOfItemsInSection,
    .service .getImageURL, .service .main]
  let t : ImagePicker := (run step launched es).get rfl
  have hvisits : Visits step launched es t := visits_of_run step (Option.some_get _).symm
  have hlt := h es t hvisits (.didSelectItemAt 0 true) 0 rfl
  exact absurd hlt (by decide)

/-! ### A single call -/

/-- The service has been called as often as it has been asked to, it has published nothing
before its first block, and with one call no index is out of range. -/
structure CalledOnce (es : List PickerEvent) (s : ImagePicker) : Prop where
  calls : s.service.calls = es.count (.service .getImageURL)
  unpublished : s.service.ran = 0 → s.service.imageURLs = []
  inRange : s.service.calls ≤ 1 → s.InRange

theorem calledOnce_launched : CalledOnce [] launched :=
  ⟨rfl, fun _ => rfl, fun _ => inRange_launched⟩

/-- What the events do to the service: only those of the service change it. -/
theorem service_of_step (h : s.step e = some s') :
    (∃ e', e = .service e' ∧ s.service.step e' = some s'.service) ∨
      (∀ e', e ≠ .service e') ∧ s'.service = s.service := by
  cases e with
  | service e =>
    obtain ⟨service, hservice, rfl⟩ := Option.map_eq_some_iff.mp h
    exact Or.inl ⟨e, rfl, hservice⟩
  | numberOfItemsInSection =>
    obtain rfl := Option.some.inj h
    exact Or.inr ⟨by simp, rfl⟩
  | cellForItemAt item =>
    obtain ⟨-, h⟩ := Option.ite_none_right_eq_some.mp h
    obtain rfl := Option.some.inj h
    exact Or.inr ⟨by simp, rfl⟩
  | didSelectItemAt item newProfileImageURLClosure =>
    obtain ⟨-, h⟩ := Option.ite_none_right_eq_some.mp h
    cases newProfileImageURLClosure with
    | true =>
      obtain ⟨-, -, rfl⟩ := Option.map_eq_some_iff.mp h
      exact Or.inr ⟨by simp, rfl⟩
    | false =>
      obtain rfl := Option.some.inj h
      exact Or.inr ⟨by simp, rfl⟩
  | load imageID =>
    obtain ⟨-, h⟩ := Option.ite_none_right_eq_some.mp h
    obtain ⟨-, -, rfl⟩ := Option.map_eq_some_iff.mp h
    exact Or.inr ⟨by simp, rfl⟩

theorem calledOnce_of_step {es : List PickerEvent} (hs : CalledOnce es s)
    (h : s.step e = some s') : CalledOnce (es ++ [e]) s' := by
  obtain ⟨hcalls, hunpublished, hinRange⟩ := hs
  -- a second call is not the only one, and the first block meets a picker without items
  have hlong : s.service.calls ≤ 1 → s.LongEnough e := by
    intro hone
    cases e with
    | service e =>
      cases e with
      | main =>
        intro hlt
        obtain ⟨hreported, hloads⟩ := inRange_iff.mp (hinRange hone)
        rw [hunpublished (by omega), List.length_nil] at hreported hloads
        refine ⟨by omega, fun imageID hload => absurd (hloads imageID hload) (Nat.not_lt_zero _)⟩
      | getImageURL => trivial
      | response _ _ => trivial
    | _ => trivial
  have hrest : s.service.calls ≤ s'.service.calls → s'.service.calls ≤ 1 → s'.InRange :=
    fun hle hone => (inRange_of_step_iff (hinRange (by omega)) h).mpr (hlong (by omega))
  rcases service_of_step h with ⟨e', rfl, hservice⟩ | ⟨hne, heq⟩
  · cases e' with
    | getImageURL =>
      have hs' : s'.service = s.service.getImageURL := (Option.some.inj hservice).symm
      refine ⟨?_, ?_, hrest (by rw [hs']; exact Nat.le_succ _)⟩
      · rw [hs', List.count_append]
        exact congrArg (· + 1) hcalls
      · rw [hs']
        exact hunpublished
    | response call result =>
      obtain ⟨-, hservice⟩ := Option.ite_none_right_eq_some.mp hservice
      have hs' : s'.service = s.service.complete call result := (Option.some.inj hservice).symm
      refine ⟨?_, ?_, hrest (by rw [hs']; exact Nat.le_refl _)⟩
      · rw [hs', List.count_append]
        exact hcalls
      · rw [hs']
        exact hunpublished
    | main =>
      obtain ⟨-, hservice⟩ := Option.ite_none_right_eq_some.mp hservice
      have hs' : s'.service = s.service.publish := (Option.some.inj hservice).symm
      refine ⟨?_, ?_, hrest (by rw [hs']; exact Nat.le_refl _)⟩
      · rw [hs', List.count_append]
        exact hcalls
      · rw [hs']
        exact fun h => absurd h (Nat.succ_ne_zero _)
  · refine ⟨?_, heq ▸ hunpublished, hrest (by rw [heq])⟩
    have hzero : [e].count (.service .getImageURL) = 0 :=
      List.count_eq_zero_of_not_mem fun hmem => hne _ (List.mem_singleton.mp hmem).symm
    rw [heq, List.count_append, hzero, Nat.add_zero, hcalls]

theorem calledOnce_of_run {es : List PickerEvent} (hrun : run step launched es = some s) :
    CalledOnce es s :=
  history_invariant CalledOnce (fun _ _ _ _ h hstep => calledOnce_of_step h hstep)
    calledOnce_launched es s hrun

/-- **Every index is in range if the addresses are fetched once**: however late the response
and the block are, the collection view then has no items before it has the final ones. -/
theorem inRange_of_one_call {es : List PickerEvent} (hrun : run step launched es = some s)
    (hone : es.count (.service .getImageURL) ≤ 1) : s.InRange := by
  have h := calledOnce_of_run hrun
  exact h.inRange (h.calls ▸ hone)

/-- The response arrives after the collection view has been loaded, and before the block. -/
theorem inRange_of_one_call_late : ∃ s, run step launched [.service .getImageURL,
    .numberOfItemsInSection, .service (.response 0 (.data (some ⟨[⟨"u"⟩]⟩))), .service .main,
    .numberOfItemsInSection, .cellForItemAt 0] = some s ∧ s.InRange ∧ s.loads = [0] := by
  let es : List PickerEvent := [.service .getImageURL, .numberOfItemsInSection,
    .service (.response 0 (.data (some ⟨[⟨"u"⟩]⟩))), .service .main, .numberOfItemsInSection,
    .cellForItemAt 0]
  let s : ImagePicker := (run step launched es).get rfl
  have hrun : run step launched es = some s := (Option.some_get _).symm
  exact ⟨s, hrun, inRange_of_one_call hrun (by decide), rfl⟩

/-! ### What is picked -/

/-- The address that an event hands to `newProfileImageURLClosure`. -/
def picks (s : ImagePicker) : PickerEvent → Option String
  | .didSelectItemAt item true => if item < s.reported then s.service.imageURLs[item]? else none
  | _ => none

/-- What an event is for the service. -/
def serviceEvent : PickerEvent → Option ServiceEvent
  | .service e => some e
  | _ => none

/-- The service makes a run of its own. -/
theorem service_of_run {es : List PickerEvent} (hrun : run step launched es = some s) :
    run NetworkImageService.step .launched (es.filterMap serviceEvent) = some s.service := by
  rw [← observe_eq_filterMap serviceEvent hrun]
  refine run_observe service _ es launched s (meets_of_forall es fun t e t' h => ?_) hrun
  rcases service_of_step h with ⟨e', rfl, hservice⟩ | ⟨hne, heq⟩
  · exact (run_cons_eq_some _).mpr ⟨_, hservice, rfl⟩
  · cases e with
    | service e => exact absurd rfl (hne e)
    | _ => exact congrArg some heq.symm

/-- **An address that is picked is the one at its place in some response**, also when the list
has been replaced since the collection view showed it. -/
theorem picked_of_run {es : List PickerEvent} (hrun : run step launched es = some s)
    {item : ℕ} {address : String} (h : s.picks (.didSelectItemAt item true) = some address) :
    ∃ call model, NetworkImageService.Fetched (es.filterMap serviceEvent) call model ∧
      model.hits[item]?.map Hit.webformatURL = some address := by
  obtain ⟨-, hitem⟩ := Option.ite_none_right_eq_some.mp h
  have hnonempty : s.service.imageURLs ≠ [] := by
    intro hnil
    rw [hnil] at hitem
    cases hitem
  have hpos : 0 < s.service.ran :=
    Nat.pos_of_ne_zero fun hzero => hnonempty ((calledOnce_of_run hrun).unpublished hzero)
  rcases (NetworkImageService.published_of_run (service_of_run hrun)).shown hpos with
    ⟨model, hmodel, heq⟩ | ⟨-, hnil⟩
  · refine ⟨_, model, hmodel.mono (NetworkImageService.isPrefix_beforeLastBlock _).subset, ?_⟩
    rw [← List.getElem?_map, ← hitem, heq]
    rfl
  · exact absurd hnil hnonempty

/-- The list of the second call replaces the one that the collection view has shown. -/
theorem picked_of_run_replaced : ∃ (es : List PickerEvent) (s : ImagePicker),
    run step launched es = some s ∧ s.picks (.didSelectItemAt 0 true) = some "v" ∧
      ∃ call model, NetworkImageService.Fetched (es.filterMap serviceEvent) call model ∧
        model.hits[0]?.map Hit.webformatURL = some "v" := by
  let es : List PickerEvent := [.service .getImageURL,
    .service (.response 0 (.data (some ⟨[⟨"u"⟩]⟩))), .service .main, .numberOfItemsInSection,
    .service .getImageURL, .service (.response 1 (.data (some ⟨[⟨"v"⟩]⟩))), .service .main]
  let s : ImagePicker := (run step launched es).get rfl
  have hrun : run step launched es = some s := (Option.some_get _).symm
  have hpicks : s.picks (.didSelectItemAt 0 true) = some "v" := by decide
  exact ⟨es, s, hrun, hpicks, picked_of_run hrun hpicks⟩

end ImagePicker

end MessengerApp
