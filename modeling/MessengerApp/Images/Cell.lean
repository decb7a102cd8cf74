import Mathlib.Data.List.Basic
import MessengerApp.Library.Machine

/-!
# A reused cell of the image picker

`configureCell` starts a load whose completion sets the picture, whatever the cell
has been given to since.  So the cell ends up with the picture of the load that
arrives last.

## Main definitions

* `ProfileImageCollectionViewCell`, `ProfileImageCollectionViewCell.step` — the cell and
  its loads.
* `configured`, `lastArrival` — the ids the cell is given, and the load that arrived last
  since the cell was given its last id.

## Main results

* `shows_of_run` — the cell shows the picture of the last arrival.
* `image_eq_iff_lastArrival` — **when a reused cell ends with the right picture.**
-/

namespace MessengerApp

open Machine

/-- The picture of a cell; the list of addresses is fixed, so an id stands for the image
at its address. -/
inductive CellImage
  /-- `notImageAvailable.jpeg`, of a new cell. -/
  | notImageAvailable
  /-- The empty image that `prepareForReuse` sets. -/
  | blank
  | loaded (imageID : ℕ)
  deriving DecidableEq, Repr

/-- The cell; its loads are numbered. -/
structure ProfileImageCollectionViewCell where
  image : CellImage
  /-- The ids the cell has been configured for. -/
  ids : List ℕ
  /-- The loads that have not finished. -/
  loads : List ℕ
  deriving DecidableEq, Repr

/-- What can happen. -/
inductive CellEvent
  /-- The collection view dequeues the cell and configures it. -/
  | configureCell (imageID : ℕ)
  /-- A load finishes, with an image or without. -/
  | finish (load : ℕ) (succeeds : Bool)
  deriving DecidableEq, Repr

namespace ProfileImageCollectionViewCell

/-- A newly created cell. -/
def new : ProfileImageCollectionViewCell where
  image := .notImageAvailable
  ids := []
  loads := []

variable (s : ProfileImageCollectionViewCell)

def prepareForReuse : ProfileImageCollectionViewCell := { s with image := .blank }

/-- A cell that has been used before is prepared for reuse when it is dequeued. -/
def dequeue : ProfileImageCollectionViewCell := if s.ids = [] then s else s.prepareForReuse

/-- `configureCell`: a load starts. -/
def configureCell (imageID : ℕ) : ProfileImageCollectionViewCell :=
  { s with ids := s.ids ++ [imageID], loads := s.loads ++ [s.ids.length] }

/-- The completion of a load, which is only called when there is an image. -/
def complete (load : ℕ) : ProfileImageCollectionViewCell :=
  { s with image := (s.ids[load]?).elim s.image .loaded }

def step (s : ProfileImageCollectionViewCell) :
    CellEvent → Option ProfileImageCollectionViewCell
  | .configureCell imageID => some (s.dequeue.configureCell imageID)
  | .finish load succeeds =>
      if load ∈ s.loads then
        let s' := if succeeds then s.complete load else s
        some { s' with loads := s.loads.erase load }
      else none

@[simp] theorem ids_dequeue : s.dequeue.ids = s.ids := by unfold dequeue; split <;> rfl

@[simp] theorem loads_dequeue : s.dequeue.loads = s.loads := by unfold dequeue; split <;> rfl

/-- The ids that a cell is configured for in a run. -/
def configured : List CellEvent → List ℕ :=
  List.filterMap fun
    | .configureCell imageID => some imageID
    | .finish _ _ => none

/-- The load that succeeded last since the cell was last configured. -/
def lastArrival (es : List CellEvent) : Option ℕ :=
  es.foldl (fun arrived e =>
    match e with
    | .configureCell _ => none
    | .finish load succeeds => if succeeds then some load else arrived) none

theorem configured_append (es es' : List CellEvent) :
    configured (es ++ es') = configured es ++ configured es' := List.filterMap_append

theorem lastArrival_configureCell (es : List CellEvent) (imageID : ℕ) :
    lastArrival (es ++ [.configureCell imageID]) = none := by
  rw [lastArrival, List.foldl_append]
  rfl

theorem lastArrival_finish (es : List CellEvent) (load : ℕ) (succeeds : Bool) :
    lastArrival (es ++ [.finish load succeeds]) =
      if succeeds then some load else lastArrival es := by
  rw [lastArrival, List.foldl_append]
  rfl

/-! ### The picture along a run -/

/-- What is known after the events `es`. -/
structure Shows (es : List CellEvent) (s : ProfileImageCollectionViewCell) : Prop where
  ids : s.ids = configured es
  loads : ∀ load ∈ s.loads, load < s.ids.length
  finished : ∀ load succeeds, .finish load succeeds ∈ es → load < s.ids.length
  /-- A success of the last load has arrived. -/
  last : .finish (s.ids.length - 1) true ∈ es → (lastArrival es).isSome
  arrived : ∀ load, lastArrival es = some load →
    ∃ imageID, s.ids[load]? = some imageID ∧ s.image = .loaded imageID
  empty : lastArrival es = none → ∀ imageID, s.image ≠ .loaded imageID

theorem shows_new : Shows [] new where
  ids := rfl
  loads := fun _ h => absurd h List.not_mem_nil
  finished := fun _ _ h => absurd h List.not_mem_nil
  last := fun h => absurd h List.not_mem_nil
  arrived := fun _ h => by cases h
  empty := fun _ _ h => by cases h

variable {s} {es : List CellEvent}

/-- A cell without an arrival since its last configuration is blank when it is dequeued,
and a cell that has never been configured has received nothing. -/
theorem Shows.image_dequeue (h : Shows es s) (imageID : ℕ) :
    s.dequeue.image ≠ .loaded imageID := by
  unfold dequeue
  split
  · next hnil =>
    cases harrived : lastArrival es with
    | none => exact h.empty harrived imageID
    | some load =>
      obtain ⟨_, hget, -⟩ := h.arrived load harrived
      rw [hnil] at hget
      cases hget
  · exact CellImage.noConfusion

theorem Shows.configureCell (h : Shows es s) (imageID : ℕ) :
    Shows (es ++ [.configureCell imageID]) (s.dequeue.configureCell imageID) := by
  have hids : (s.dequeue.configureCell imageID).ids = s.ids ++ [imageID] := by
    rw [ProfileImageCollectionViewCell.configureCell, ids_dequeue]
  have hlen : (s.dequeue.configureCell imageID).ids.length = s.ids.length + 1 := by
    rw [hids, List.length_append, List.length_singleton]
  have hfinished : ∀ load succeeds, .finish load succeeds ∈ es ++ [.configureCell imageID] →
      load < s.ids.length := fun load succeeds hmem =>
    h.finished load succeeds (by simpa using hmem)
  refine ⟨?_, ?_, ?_, ?_, ?_, ?_⟩
  · rw [hids, configured_append, h.ids]
    rfl
  · intro load hload
    rw [hlen]
    have hload : load ∈ s.loads ++ [s.ids.length] := by
      rwa [ProfileImageCollectionViewCell.configureCell, ids_dequeue, loads_dequeue] at hload
    rcases List.mem_append.mp hload with hload | hload
    · exact Nat.lt_succ_of_lt (h.loads load hload)
    · obtain rfl := List.mem_singleton.mp hload
      exact Nat.lt_succ_self _
  · intro load succeeds hmem
    rw [hlen]
    exact Nat.lt_succ_of_lt (hfinished load succeeds hmem)
  · -- the new load cannot have finished
    intro hmem
    rw [hlen, Nat.add_sub_cancel] at hmem
    exact absurd (hfinished _ _ hmem) (Nat.lt_irrefl _)
  · intro load harrived
    rw [lastArrival_configureCell] at harrived
    cases harrived
  · exact fun _ => h.image_dequeue

theorem Shows.finish (h : Shows es s) {load : ℕ} (hload : load ∈ s.loads) (succeeds : Bool) :
    Shows (es ++ [.finish load succeeds])
      { (if succeeds then s.complete load else s) with loads := s.loads.erase load } := by
  have hlt := h.loads load hload
  have hids : (if succeeds then s.complete load else s).ids = s.ids := by split <;> rfl
  have hfinished : ∀ other succeeds', .finish other succeeds' ∈ es ++ [.finish load succeeds] →
      other < s.ids.length := by
    intro other succeeds' hmem
    rcases List.mem_append.mp hmem with hmem | hmem
    · exact h.finished other succeeds' hmem
    · obtain ⟨rfl, -⟩ := CellEvent.finish.inj (List.mem_singleton.mp hmem)
      exact hlt
  refine ⟨?_, ?_, ?_, ?_, ?_, ?_⟩
  · show (if succeeds then s.complete load else s).ids = _
    rw [hids, configured_append, h.ids]
    exact (List.append_nil _).symm
  · intro other hother
    show other < (if succeeds then s.complete load else s).ids.length
    rw [hids]
    exact h.loads other (List.mem_of_mem_erase hother)
  · intro other succeeds' hmem
    show other < (if succeeds then s.complete load else s).ids.length
    rw [hids]
    exact hfinished other succeeds' hmem
  · show CellEvent.finish ((if succeeds then s.complete load else s).ids.length - 1) true ∈ _ → _
    rw [hids, lastArrival_finish]
    intro hmem
    cases succeeds with
    | true => rfl
    | false =>
      rcases List.mem_append.mp hmem with hmem | hmem
      · exact h.last hmem
      · exact absurd (List.mem_singleton.mp hmem) (by simp)
  · intro other harrived
    show ∃ imageID, (if succeeds then s.complete load else s).ids[other]? = _ ∧ _
    rw [hids]
    rw [lastArrival_finish] at harrived
    cases succeeds with
    | true =>
      obtain rfl := Option.some.inj harrived
      refine ⟨s.ids[load], List.getElem?_eq_getElem hlt, ?_⟩
      show (s.ids[load]?).elim s.image CellImage.loaded = _
      rw [List.getElem?_eq_getElem hlt, Option.elim_some]
    | false => exact h.arrived other harrived
  · intro harrived
    rw [lastArrival_finish] at harrived
    cases succeeds with
    | true => cases harrived
    | false => exact h.empty harrived

theorem shows_of_step {e : CellEvent} {s' : ProfileImageCollectionViewCell} (h : Shows es s)
    (hstep : s.step e = some s') : Shows (es ++ [e]) s' := by
  cases e with
  | configureCell imageID =>
    obtain rfl := Option.some.inj hstep
    exact h.configureCell imageID
  | finish load succeeds =>
    obtain ⟨hload, hstep⟩ := Option.ite_none_right_eq_some.mp hstep
    obtain rfl := Option.some.inj hstep
    have hs := h.finish hload succeeds
    cases succeeds <;> exact hs

/-- **The cell shows the picture of the last arrival.** -/
theorem shows_of_run (hrun : run step new es = some s) : Shows es s :=
  history_invariant Shows (fun _ _ _ _ h hstep => shows_of_step h hstep) shows_new es s hrun

/-- **When a reused cell ends with the right picture.**  It shows the image of its last id
if that load succeeded, and of no other id, if and only if the load that succeeded last
since its last configuration, if there is one, is a load of that id. -/
theorem image_eq_iff_lastArrival {imageID : ℕ} (hrun : run step new es = some s)
    (hid : (configured es).getLast? = some imageID) :
    ((.finish ((configured es).length - 1) true ∈ es → s.image = .loaded imageID) ∧
        ∀ other, s.image = .loaded other → other = imageID) ↔
      ∀ load, lastArrival es = some load → (configured es)[load]? = some imageID := by
  have h := shows_of_run hrun
  rw [← h.ids]
  cases harrived : lastArrival es with
  | none =>
    have hempty := h.empty harrived
    constructor
    · exact fun _ load hload => by cases hload
    · refine fun _ => ⟨fun hmem => ?_, fun other hother => absurd hother (hempty other)⟩
      have hsome := h.last hmem
      rw [harrived] at hsome
      cases hsome
  | some load =>
    obtain ⟨other, hget, himage⟩ := h.arrived load harrived
    rw [himage]
    constructor
    · rintro ⟨-, honly⟩ load' hload'
      obtain rfl := Option.some.inj hload'
      rw [hget, honly other rfl]
    · intro hall
      have heq := hall load rfl
      rw [hget] at heq
      obtain rfl := Option.some.inj heq
      exact ⟨fun _ => rfl, fun other' hother => (CellImage.loaded.inj hother).symm⟩

/-- A cell whose first load finishes before the cell is reused. -/
theorem image_eq_iff_lastArrival_inOrder : ∃ es s, run step new es = some s ∧ s.loads = [] ∧
    (((.finish ((configured es).length - 1) true ∈ es → s.image = .loaded 8) ∧
        ∀ other, s.image = .loaded other → other = 8) ↔
      ∀ load, lastArrival es = some load → (configured es)[load]? = some 8) := by
  let es : List CellEvent :=
    [.configureCell 7, .finish 0 true, .configureCell 8, .finish 1 true]
  have hrun : run step new es = some ⟨.loaded 8, [7, 8], []⟩ := rfl
  exact ⟨es, _, hrun, rfl, image_eq_iff_lastArrival hrun rfl⟩

/-- **A load of an earlier id may arrive last.** -/
theorem exists_wrong_picture : ¬ ∀ es s imageID, run step new es = some s → s.loads = [] →
    (configured es).getLast? = some imageID →
      (.finish ((configured es).length - 1) true ∈ es → s.image = .loaded imageID) ∧
        ∀ other, s.image = .loaded other → other = imageID := by
  intro h
  obtain ⟨-, honly⟩ := h [.configureCell 7, .configureCell 8, .finish 1 true, .finish 0 true]
    _ 8 rfl rfl rfl
  exact absurd (honly 7 rfl) (by decide)

end ProfileImageCollectionViewCell

end MessengerApp
