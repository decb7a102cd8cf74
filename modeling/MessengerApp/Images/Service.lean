import Mathlib.Data.List.DropRight
import Mathlib.Logic.Function.Basic
import MessengerApp.Library.Machine

/-!
# `NetworkImageService`

`getImageURL` sends a request whose completion appends the fetched addresses to a
local variable, and posts a block to the main queue that copies the variable to
`imageURLs`.  Nothing makes the block wait for the response, so what it copies is
whatever has been fetched by then.

## Main definitions

* `ImageResponseModel`, `send` — a response, and what `RequestSender` makes of it.
* `NetworkImageService`, `NetworkImageService.step` — the service and its events.
* `Fetched`, `beforeLastBlock` — what a run has fetched, and the part of the run up to
  the last block.

## Main results

* `published_of_run` — the service publishes what the call of the last block had
  fetched.
* `imageURLs_fetched_iff` — **when fetched addresses reach the picker.**
-/

namespace MessengerApp

open Machine

structure Hit where
  webformatURL : String
  deriving DecidableEq, Repr

structure ImageResponseModel where
  hits : List Hit
  deriving DecidableEq, Repr

/-- The addresses that the loop of `getImageURL` appends. -/
def ImageResponseModel.urls (model : ImageResponseModel) : List String :=
  model.hits.map Hit.webformatURL

/-- How a data task ends: with an error, or with data, which the parser may refuse. -/
inductive TaskResult
  | error
  | data (parsed : Option ImageResponseModel)
  deriving DecidableEq, Repr

/-- `RequestSender.send`: the result handed to the completion, `none` for a failure. -/
def send : TaskResult → Option ImageResponseModel
  | .error => none
  | .data parsed => parsed

/-- The service and its calls of `getImageURL`, which are numbered. -/
structure NetworkImageService where
  imageURLs : List String
  /-- The number of calls made. -/
  calls : ℕ
  /-- The variable `url` of each call. -/
  url : ℕ → List String
  /-- The calls whose requests have not been answered. -/
  requests : List ℕ
  /-- The number of blocks run; the main queue runs them in the order of the calls. -/
  ran : ℕ

/-- What can happen. -/
inductive ServiceEvent
  | getImageURL
  /-- The request of a call is answered. -/
  | response (call : ℕ) (result : TaskResult)
  /-- The main queue runs the next block. -/
  | main
  deriving DecidableEq, Repr

namespace NetworkImageService

/-- The service when the app starts. -/
def launched : NetworkImageService where
  imageURLs := []
  calls := 0
  url := fun _ => []
  requests := []
  ran := 0

/-- `getImageURL`. -/
def getImageURL (s : NetworkImageService) : NetworkImageService :=
  { s with
    calls := s.calls + 1
    url := Function.update s.url s.calls []
    requests := s.requests ++ [s.calls] }

/-- The completion of `getImageData`, for a call.  The appends of its loop are one event. -/
def complete (s : NetworkImageService) (call : ℕ) (result : TaskResult) : NetworkImageService :=
  { s with
    url := match send result with
      | some model => Function.update s.url call (s.url call ++ model.urls)
      | none => s.url
    requests := s.requests.filter (· ≠ call) }

/-- The block that the next call has posted. -/
def publish (s : NetworkImageService) : NetworkImageService :=
  { s with imageURLs := s.url s.ran, ran := s.ran + 1 }

def step (s : NetworkImageService) : ServiceEvent → Option NetworkImageService
  | .getImageURL => some s.getImageURL
  | .response call result => if call ∈ s.requests then some (s.complete call result) else none
  | .main => if s.ran < s.calls then some s.publish else none

/-- Every request has been answered and every block has run. -/
def Done (s : NetworkImageService) : Prop := s.requests = [] ∧ s.ran = s.calls

/-- The request of the call was answered with the model. -/
def Fetched (es : List ServiceEvent) (call : ℕ) (model : ImageResponseModel) : Prop :=
  ∃ result, .response call result ∈ es ∧ send result = some model

/-- The events before the last block that was run. -/
def beforeLastBlock (es : List ServiceEvent) : List ServiceEvent :=
  (es.rdropWhile (· ≠ .main)).dropLast

theorem beforeLastBlock_main (es : List ServiceEvent) : beforeLastBlock (es ++ [.main]) = es := by
  rw [beforeLastBlock, List.rdropWhile_concat_neg _ _ _ (by simp), List.dropLast_concat]

theorem beforeLastBlock_of_ne (es : List ServiceEvent) {e : ServiceEvent} (he : e ≠ .main) :
    beforeLastBlock (es ++ [e]) = beforeLastBlock es := by
  rw [beforeLastBlock, List.rdropWhile_concat_pos _ _ _ (by simpa using he), beforeLastBlock]

theorem isPrefix_beforeLastBlock (es : List ServiceEvent) : beforeLastBlock es <+: es :=
  (List.dropLast_prefix _).trans (List.rdropWhile_prefix _ _)

theorem Fetched.mono {es es' : List ServiceEvent} {call : ℕ} {model : ImageResponseModel}
    (hsub : ∀ e ∈ es, e ∈ es') (h : Fetched es call model) : Fetched es' call model :=
  h.imp fun _ h => ⟨hsub _ h.1, h.2⟩

/-! ### What the variables hold -/

/-- What a call has fetched during `es`: the addresses of its response, or nothing. -/
def Holds (es : List ServiceEvent) (call : ℕ) (url : List String) : Prop :=
  (∃ model, Fetched es call model ∧ url = model.urls) ∨
    ((∀ model, ¬ Fetched es call model) ∧ url = [])

/-- An event that is not the call's response leaves what it has fetched. -/
theorem Holds.snoc {es : List ServiceEvent} {call : ℕ} {url : List String} {e : ServiceEvent}
    (h : Holds es call url) (he : ∀ result, e ≠ .response call result) :
    Holds (es ++ [e]) call url := by
  rcases h with ⟨model, hmodel, rfl⟩ | ⟨hnone, rfl⟩
  · exact Or.inl ⟨model, hmodel.mono fun _ => List.mem_append_left _, rfl⟩
  · refine Or.inr ⟨?_, rfl⟩
    rintro model ⟨result, hmem, hsend⟩
    rcases List.mem_append.mp hmem with hmem | hmem
    · exact hnone model ⟨result, hmem, hsend⟩
    · exact he result (List.mem_singleton.mp hmem).symm

/-- What is known after the events `es`. -/
structure Published (es : List ServiceEvent) (s : NetworkImageService) : Prop where
  unanswered : ∀ call ∈ s.requests, call < s.calls ∧ ∀ result, .response call result ∉ es
  answered : ∀ call result, .response call result ∈ es → call < s.calls
  holds : ∀ call, Holds es call (s.url call)
  ran : s.ran ≤ s.calls
  shown : 0 < s.ran → Holds (beforeLastBlock es) (s.ran - 1) s.imageURLs

theorem published_launched : Published [] launched where
  unanswered := fun _ h => absurd h List.not_mem_nil
  answered := fun _ _ h => absurd h List.not_mem_nil
  holds := fun _ => Or.inr ⟨fun _ ⟨_, h, _⟩ => absurd h List.not_mem_nil, rfl⟩
  ran := Nat.le_refl _
  shown := fun h => absurd h (Nat.lt_irrefl _)

variable {es : List ServiceEvent} {s : NetworkImageService}

theorem Published.getImageURL (h : Published es s) :
    Published (es ++ [.getImageURL]) s.getImageURL := by
  have hold : ∀ call result, .response call result ∈ es ++ [.getImageURL] →
      .response call result ∈ es := fun call result hmem => by simpa using hmem
  refine ⟨?_, ?_, ?_, Nat.le_succ_of_le h.ran, ?_⟩
  · intro call hcall
    rcases List.mem_append.mp hcall with hcall | hcall
    · obtain ⟨hlt, hnone⟩ := h.unanswered call hcall
      exact ⟨Nat.lt_succ_of_lt hlt, fun result hmem => hnone result (hold call result hmem)⟩
    · obtain rfl := List.mem_singleton.mp hcall
      refine ⟨Nat.lt_succ_self _, fun result hmem => ?_⟩
      exact absurd (h.answered _ result (hold _ result hmem)) (Nat.lt_irrefl _)
  · exact fun call result hmem => Nat.lt_succ_of_lt (h.answered call result (hold call result hmem))
  · intro call
    show Holds _ call (Function.update s.url s.calls [] call)
    by_cases hcall : call = s.calls
    · -- the new call has fetched nothing
      subst hcall
      rw [Function.update_self]
      refine Or.inr ⟨?_, rfl⟩
      rintro model ⟨result, hmem, -⟩
      exact absurd (h.answered _ result (hold _ result hmem)) (Nat.lt_irrefl _)
    · rw [Function.update_of_ne hcall]
      exact (h.holds call).snoc (by simp)
  · rw [beforeLastBlock_of_ne es (by decide)]
    exact h.shown

theorem Published.complete (h : Published es s) {call : ℕ} (hcall : call ∈ s.requests)
    (result : TaskResult) :
    Published (es ++ [.response call result]) (s.complete call result) := by
  obtain ⟨hlt, hnone⟩ := h.unanswered call hcall
  refine ⟨?_, ?_, ?_, h.ran, ?_⟩
  · intro other hother
    obtain ⟨hother, hne⟩ := List.mem_filter.mp hother
    have hne : other ≠ call := of_decide_eq_true hne
    refine ⟨(h.unanswered other hother).1, fun result' hmem => ?_⟩
    rcases List.mem_append.mp hmem with hmem | hmem
    · exact (h.unanswered other hother).2 result' hmem
    · exact hne (ServiceEvent.response.inj (List.mem_singleton.mp hmem)).1
  · intro other result' hmem
    rcases List.mem_append.mp hmem with hmem | hmem
    · exact h.answered other result' hmem
    · obtain ⟨rfl, -⟩ := ServiceEvent.response.inj (List.mem_singleton.mp hmem)
      exact hlt
  · intro other
    by_cases hother : other = call
    · subst hother
      -- nothing had been fetched before
      have hempty : s.url other = [] := by
        rcases h.holds other with ⟨model, ⟨result', hmem, -⟩, -⟩ | ⟨-, hempty⟩
        · exact absurd hmem (hnone result')
        · exact hempty
      cases hsend : send result with
      | none =>
        have hurl : (s.complete other result).url other = [] := by
          simp only [NetworkImageService.complete, hsend, hempty]
        rw [hurl]
        refine Or.inr ⟨?_, rfl⟩
        rintro model ⟨result', hmem, hsend'⟩
        rcases List.mem_append.mp hmem with hmem | hmem
        · exact hnone result' hmem
        · obtain ⟨-, rfl⟩ := ServiceEvent.response.inj (List.mem_singleton.mp hmem)
          rw [hsend] at hsend'
          cases hsend'
      | some model =>
        have hurl : (s.complete other result).url other = model.urls := by
          simp only [NetworkImageService.complete, hsend, hempty, Function.update_self,
            List.nil_append]
        rw [hurl]
        exact Or.inl ⟨model, ⟨result, List.mem_append_right _ List.mem_cons_self, hsend⟩, rfl⟩
    · have hurl : (s.complete call result).url other = s.url other := by
        unfold NetworkImageService.complete
        cases send result with
        | none => rfl
        | some model => exact Function.update_of_ne hother _ _
      rw [hurl]
      refine (h.holds other).snoc fun result' heq => ?_
      exact hother (ServiceEvent.response.inj heq).1.symm
  · rw [beforeLastBlock_of_ne es (by simp)]
    exact h.shown

theorem Published.publish (h : Published es s) (hlt : s.ran < s.calls) :
    Published (es ++ [.main]) s.publish := by
  have hold : ∀ call result, .response call result ∈ es ++ [.main] →
      .response call result ∈ es := fun call result hmem => by simpa using hmem
  refine ⟨?_, ?_, ?_, hlt, ?_⟩
  · exact fun call hcall => ⟨(h.unanswered call hcall).1, fun result hmem =>
      (h.unanswered call hcall).2 result (hold call result hmem)⟩
  · exact fun call result hmem => h.answered call result (hold call result hmem)
  · exact fun call => (h.holds call).snoc (by simp)
  · intro _
    rw [beforeLastBlock_main]
    exact h.holds s.ran

theorem published_of_step {e : ServiceEvent} {s' : NetworkImageService} (h : Published es s)
    (hstep : s.step e = some s') : Published (es ++ [e]) s' := by
  cases e with
  | getImageURL =>
    obtain rfl := Option.some.inj hstep
    exact h.getImageURL
  | response call result =>
    obtain ⟨hcall, hs'⟩ := Option.ite_none_right_eq_some.mp hstep
    obtain rfl := Option.some.inj hs'
    exact h.complete hcall result
  | main =>
    obtain ⟨hlt, hs'⟩ := Option.ite_none_right_eq_some.mp hstep
    obtain rfl := Option.some.inj hs'
    exact h.publish hlt

/-- **What is published**: what the call of the last block had fetched by then. -/
theorem published_of_run (hrun : run step launched es = some s) : Published es s :=
  history_invariant Published (fun _ _ _ _ h hstep => published_of_step h hstep)
    published_launched es s hrun

/-- **When fetched addresses reach the picker.**  Once everything has run and a response
was a success, the list is that of a successful response if and only if the response
of the last call was a success and arrived before the call's block ran, or some
successful response has no hits. -/
theorem imageURLs_fetched_iff (hrun : run step launched es = some s) (hdone : s.Done)
    (hsome : ∃ call model, Fetched es call model) :
    (∃ call model, Fetched es call model ∧ s.imageURLs = model.urls) ↔
      (∃ model, Fetched (beforeLastBlock es) (s.calls - 1) model) ∨
        ∃ call model, Fetched es call model ∧ model.hits = [] := by
  have h := published_of_run hrun
  have hpos : 0 < s.ran := by
    obtain ⟨call, -, result, hmem, -⟩ := hsome
    have hlt := h.answered call result hmem
    rw [hdone.2]
    omega
  have hshown := h.shown hpos
  rw [hdone.2] at hshown
  have hmono : ∀ {call model}, Fetched (beforeLastBlock es) call model → Fetched es call model :=
    fun hf => hf.mono (isPrefix_beforeLastBlock es).subset
  constructor
  · rintro ⟨call, model, hmodel, heq⟩
    rcases hshown with ⟨model', hmodel', -⟩ | ⟨-, hempty⟩
    · exact Or.inl ⟨model', hmodel'⟩
    · -- nothing was published, which is right only for a response without hits
      refine Or.inr ⟨call, model, hmodel, ?_⟩
      exact List.map_eq_nil_iff.mp (heq.symm.trans hempty)
  · rintro (⟨model, hmodel⟩ | ⟨call, model, hmodel, hhits⟩)
    · rcases hshown with ⟨model', hmodel', heq⟩ | ⟨hnone, -⟩
      · exact ⟨_, model', hmono hmodel', heq⟩
      · exact absurd hmodel (hnone model)
    · rcases hshown with ⟨model', hmodel', heq⟩ | ⟨-, hempty⟩
      · exact ⟨_, model', hmono hmodel', heq⟩
      · refine ⟨call, model, hmodel, ?_⟩
        rw [hempty, ImageResponseModel.urls, hhits, List.map_nil]

/-- Two calls: the response of the second overtakes both blocks, that of the first comes late. -/
theorem imageURLs_fetched_iff_overlapping : ∃ es s, run step launched es = some s ∧ s.Done ∧
    s.calls = 2 ∧ s.imageURLs = ["u"] ∧
    ((∃ call model, Fetched es call model ∧ s.imageURLs = model.urls) ↔
      (∃ model, Fetched (beforeLastBlock es) (s.calls - 1) model) ∨
        ∃ call model, Fetched es call model ∧ model.hits = []) := by
  let es : List ServiceEvent := [.getImageURL, .getImageURL,
    .response 1 (.data (some ⟨[⟨"u"⟩]⟩)), .main, .main, .response 0 (.data (some ⟨[⟨"v"⟩, ⟨"w"⟩]⟩))]
  let s : NetworkImageService := (run step launched es).get rfl
  have hrun : run step launched es = some s := (Option.some_get _).symm
  have hdone : s.Done := ⟨rfl, rfl⟩
  have hfetched : Fetched es 1 ⟨[⟨"u"⟩]⟩ := ⟨.data (some ⟨[⟨"u"⟩]⟩), by simp [es], rfl⟩
  exact ⟨es, s, hrun, hdone, rfl, rfl, imageURLs_fetched_iff hrun hdone ⟨1, _, hfetched⟩⟩

/-- **The block does not wait for the response**: when it runs first, nothing is ever
published. -/
theorem exists_unpublished : ¬ ∀ es s, run step launched es = some s → s.Done →
    (∃ call model, Fetched es call model) →
      ∃ call model, Fetched es call model ∧ s.imageURLs = model.urls := by
  intro h
  have hmem : Fetched [.getImageURL, .main, .response 0 (.data (some ⟨[⟨"u"⟩]⟩))] 0 ⟨[⟨"u"⟩]⟩ :=
    ⟨_, List.mem_cons_of_mem _ (List.mem_cons_of_mem _ List.mem_cons_self), rfl⟩
  obtain ⟨call, model, ⟨result, hresult, hsend⟩, heq⟩ := h _ _ rfl ⟨rfl, rfl⟩ ⟨_, _, hmem⟩
  obtain ⟨rfl, rfl⟩ : call = 0 ∧ result = .data (some ⟨[⟨"u"⟩]⟩) := by simpa using hresult
  obtain rfl := Option.some.inj hsend
  exact absurd heq (by decide)

end NetworkImageService

end MessengerApp
