import Mathlib.Data.List.Basic
import MessengerApp.Library.Machine

/-!
# Saving and loading the profile

`GCDManager.saveUserProfile` hands every request to the concurrent global queue
as a job of its own: the job encodes the profile, writes the whole file, sleeps,
and posts its result to the main queue.  Nothing orders the jobs, so the queue
may run the writes of waiting jobs in any order, whatever order they were
requested in.

## Main definitions

* `JSON` — the encoder and the decoder, as far as they are relied on.
* `loadUserProfile`, `saveUserProfileSettings`, `getUserProfile` — the functions
  of the source.
* `ProfileQueue` — the file and the jobs; `ProfileQueue.step` — what can happen.
* `requests`, `lastWriter` — the requests of a run, and the job that wrote last.

## Main results

* `written_of_run` — the file holds the profile of the job that wrote last.
* `getUserProfile_eq_iff_lastWriter` — when the last request wins.
-/

namespace MessengerApp

open Machine

structure UserProfileModel where
  userName : Option String
  userInfo : Option String
  deriving DecidableEq, Repr

/-- `JSONEncoder` and `JSONDecoder` for `UserProfileModel`, with `δ` for `Data`. -/
structure JSON (δ : Type*) where
  encode : UserProfileModel → δ
  decode : δ → Option UserProfileModel
  decode_encode : ∀ p, decode (encode p) = some p

/-- A keyed container. -/
abbrev Keyed := List (String × String)

/-- The keyed container the coders agree on: an absent field has no key. -/
def JSON.keyed : JSON Keyed where
  encode := fun p =>
    (p.userName.map fun v => ("userName", v)).toList ++
      (p.userInfo.map fun v => ("userInfo", v)).toList
  decode := fun d => some ⟨d.lookup "userName", d.lookup "userInfo"⟩
  decode_encode := by
    rintro ⟨userName, userInfo⟩
    cases userName <;> cases userInfo <;> rfl

section Functions

variable {δ : Type*} (json : JSON δ)

/-- `loadUserProfile`: the profile handed to the completion, if it is called. -/
def loadUserProfile (file : Option δ) : Option UserProfileModel := file.bind json.decode

/-- `UserProfile.getUserProfile`. -/
def getUserProfile (file : Option δ) : UserProfileModel :=
  (loadUserProfile json file).getD ⟨some "User Name", some "User Info"⟩

/-- `saveUserProfileSettings`: the file afterwards and the result for the
completion; `fails` says whether the encoder or the write throws, and `left` what is
in the file then, which need not be what was there before. -/
def saveUserProfileSettings (userData : UserProfileModel) (fails : Bool) (left : Option δ) :
    Option δ × Bool :=
  if fails then (left, false) else (some (json.encode userData), true)

end Functions

/-- A request to save, with its number. -/
structure Job where
  number : ℕ
  userData : UserProfileModel
  deriving DecidableEq, Repr

/-- `ProfileSettings.json` and the jobs of the global queue. -/
structure ProfileQueue (δ : Type*) where
  file : Option δ
  /-- The number of requests made. -/
  issued : ℕ
  /-- The jobs that have not written yet. -/
  waiting : List Job
  /-- The jobs that have written and sleep, with the results they will post. -/
  sleeping : List (Job × Bool)

/-- What can happen. -/
inductive ProfileEvent (δ : Type*)
  /-- The profile screen requests a save. -/
  | saveUserProfile (userData : UserProfileModel)
  /-- The job with this number encodes and writes; where that fails, it leaves `left`. -/
  | write (number : ℕ) (fails : Bool) (left : Option δ)
  /-- The job with this number wakes up and posts its result. -/
  | complete (number : ℕ)
  deriving DecidableEq, Repr

namespace ProfileQueue

variable {δ : Type*} (json : JSON δ)

/-- No request has been made; the file is whatever it is. -/
def idle (file : Option δ) : ProfileQueue δ where
  file := file
  issued := 0
  waiting := []
  sleeping := []

/-- The next state: any waiting job may write, any sleeping job may complete. -/
def step (s : ProfileQueue δ) : ProfileEvent δ → Option (ProfileQueue δ)
  | .saveUserProfile userData =>
      some { s with issued := s.issued + 1, waiting := s.waiting ++ [⟨s.issued, userData⟩] }
  | .write number fails left =>
      (s.waiting.find? (·.number = number)).map fun job =>
        let saved := saveUserProfileSettings json job.userData fails left
        { s with
          file := saved.1
          waiting := s.waiting.erase job
          sleeping := s.sleeping ++ [(job, saved.2)] }
  | .complete number =>
      (s.sleeping.find? (·.1.number = number)).map fun job =>
        { s with sleeping := s.sleeping.erase job }

/-- Every request has written and reported. -/
def Done (s : ProfileQueue δ) : Prop := s.waiting = [] ∧ s.sleeping = []

/-- The profiles requested in a run, in order. -/
def requests : List (ProfileEvent δ) → List UserProfileModel :=
  List.filterMap fun
    | .saveUserProfile userData => some userData
    | _ => none

/-- The number of the job that wrote last. -/
def lastWriter (es : List (ProfileEvent δ)) : Option ℕ :=
  (es.filterMap fun
    | .write number _ _ => some number
    | _ => none).getLast?

/-- The profile that was written last: that of the request with the number of the
last writer. -/
def lastWritten (es : List (ProfileEvent δ)) : Option UserProfileModel :=
  (lastWriter es).bind fun number => (requests es)[number]?

theorem lastWriter_append (es es' : List (ProfileEvent δ)) :
    lastWriter (es ++ es') = (lastWriter es').or (lastWriter es) := by
  rw [lastWriter, List.filterMap_append, List.getLast?_append, lastWriter, lastWriter]

theorem requests_append (es es' : List (ProfileEvent δ)) :
    requests (es ++ es') = requests es ++ requests es' := List.filterMap_append

/-! ### The file along a run -/

/-- What is known after the events `es`, none of whose writes fails: the numbers of
the waiting jobs are those of their requests, and the file holds the profile of
the last writer, or still what it held when every request is waiting. -/
structure Written (json : JSON δ) (file : Option δ) (es : List (ProfileEvent δ))
    (s : ProfileQueue δ) : Prop where
  issued : s.issued = (requests es).length
  waiting : ∀ job ∈ s.waiting, (requests es)[job.number]? = some job.userData
  unwritten : lastWriter es = none → s.waiting.length = s.issued ∧ s.file = file
  written : ∀ number, lastWriter es = some number →
    ∃ p, (requests es)[number]? = some p ∧ s.file = some (json.encode p)

variable {json}

/-- A request extends the list of requests and leaves the file alone. -/
theorem Written.saveUserProfile {file : Option δ} {es : List (ProfileEvent δ)} {s : ProfileQueue δ}
    (h : Written json file es s) (userData : UserProfileModel) :
    Written json file (es ++ [.saveUserProfile userData])
      { s with issued := s.issued + 1, waiting := s.waiting ++ [⟨s.issued, userData⟩] } := by
  have hreq : requests (es ++ [.saveUserProfile userData]) = requests es ++ [userData] := by
    rw [requests_append]; rfl
  have hlast : lastWriter (es ++ [.saveUserProfile userData]) = lastWriter es := by
    rw [lastWriter_append]; simp [lastWriter]
  have hold : ∀ (n : ℕ) (p : UserProfileModel), (requests es)[n]? = some p →
      (requests es ++ [userData])[n]? = some p := by
    intro n p hn
    obtain ⟨hlt, -⟩ := List.getElem?_eq_some_iff.mp hn
    rw [List.getElem?_append_left hlt, hn]
  refine ⟨?_, ?_, ?_, ?_⟩
  · rw [hreq, List.length_append, h.issued]; rfl
  · intro job hjob
    rw [hreq]
    rcases List.mem_append.mp hjob with hjob | hjob
    · exact hold _ _ (h.waiting job hjob)
    · obtain rfl := List.mem_singleton.mp hjob
      simp [h.issued]
  · intro hnone
    obtain ⟨hlen, hfile⟩ := h.unwritten (hlast ▸ hnone)
    exact ⟨by simp [hlen], hfile⟩
  · intro n hn
    obtain ⟨p, hp, hfile⟩ := h.written n (hlast ▸ hn)
    exact ⟨p, hreq ▸ hold n p hp, hfile⟩

/-- A write replaces the file by the profile of its own job. -/
theorem Written.write {file : Option δ} {es : List (ProfileEvent δ)} {s : ProfileQueue δ}
    (h : Written json file es s) {job : Job} (hjob : job ∈ s.waiting)
    (left : Option δ) (sleeping : List (Job × Bool)) :
    Written json file (es ++ [.write job.number false left])
      { s with
        file := some (json.encode job.userData)
        waiting := s.waiting.erase job
        sleeping := sleeping } := by
  have hreq : requests (es ++ [.write job.number false left]) = requests es := by
    rw [requests_append]; exact List.append_nil _
  have hlast : lastWriter (es ++ [.write job.number false left]) = some job.number := by
    rw [lastWriter_append]; simp [lastWriter]
  refine ⟨hreq ▸ h.issued, ?_, ?_, ?_⟩
  · intro job' hjob'
    rw [hreq]
    exact h.waiting job' (List.mem_of_mem_erase hjob')
  · intro hnone
    exact absurd hnone (by simp [hlast])
  · intro n hn
    rw [hlast, Option.some.injEq] at hn
    exact ⟨job.userData, by rw [hreq, ← hn]; exact h.waiting job hjob, rfl⟩

theorem written_of_step {file : Option δ} {es : List (ProfileEvent δ)} {s s' : ProfileQueue δ}
    {e : ProfileEvent δ} (h : Written json file es s) (hfail : ∀ n left, e ≠ .write n true left)
    (hstep : s.step json e = some s') : Written json file (es ++ [e]) s' := by
  cases e with
  | saveUserProfile userData =>
    obtain rfl := Option.some.inj hstep
    exact h.saveUserProfile userData
  | write number fails left =>
    obtain ⟨job, hjob, rfl⟩ := Option.map_eq_some_iff.mp hstep
    have hmem := List.mem_of_find?_eq_some hjob
    have hnum : job.number = number := by simpa using List.find?_some hjob
    cases fails with
    | true => exact absurd rfl (hfail number left)
    | false => exact hnum ▸ h.write hmem left _
  | complete number =>
    obtain ⟨job, -, rfl⟩ := Option.map_eq_some_iff.mp hstep
    have hreq : requests (es ++ [.complete number]) = requests es := by
      rw [requests_append]; exact List.append_nil _
    have hlast : lastWriter (es ++ [.complete number]) = lastWriter es := by
      rw [lastWriter_append]; simp [lastWriter]
    exact ⟨hreq ▸ h.issued, hreq ▸ h.waiting, hlast ▸ h.unwritten, hreq ▸ hlast ▸ h.written⟩

/-- **The file holds the profile of the job that wrote last.** -/
theorem written_of_run {file : Option δ} {es : List (ProfileEvent δ)} {s : ProfileQueue δ}
    (hfail : ∀ n left, .write n true left ∉ es) (hrun : run (step json) (idle file) es = some s) :
    Written json file es s := by
  have hall : (∀ n left, .write n true left ∉ es) → Written json file es s :=
    history_invariant (fun es s => (∀ n left, .write n true left ∉ es) → Written json file es s)
      (fun es s e s' hI hstep hno => written_of_step
        (hI fun n left hn => hno n left (List.mem_append_left _ hn))
        (fun n left hn => hno n left (List.mem_append_right _ (hn ▸ List.mem_cons_self))) hstep)
      (fun _ => ⟨rfl, by simp [idle], fun _ => ⟨rfl, rfl⟩, by simp [lastWriter]⟩) es s hrun
  exact hall hfail

/-- **When the last request wins.**  Once all requests have completed, the profile
read back is that of the request made last exactly when the job that wrote last
carried that profile. -/
theorem getUserProfile_eq_iff_lastWriter (json : JSON δ) {file : Option δ}
    {es : List (ProfileEvent δ)} {s : ProfileQueue δ} (hfail : ∀ n left, .write n true left ∉ es)
    (hrun : run (step json) (idle file) es = some s) (hdone : s.Done) {p : UserProfileModel}
    (hp : (requests es).getLast? = some p) :
    getUserProfile json s.file = p ↔ lastWritten es = some p := by
  have hw := written_of_run hfail hrun
  cases hlast : lastWriter es with
  | none =>
    -- nothing waits any more, so a request has been written
    obtain ⟨hlen, -⟩ := hw.unwritten hlast
    rw [hdone.1, List.length_nil, hw.issued] at hlen
    rw [List.length_eq_zero_iff.mp hlen.symm] at hp
    exact absurd hp (by simp)
  | some n =>
    obtain ⟨q, hq, hfile⟩ := hw.written n hlast
    have hget : getUserProfile json s.file = q := by
      rw [getUserProfile, loadUserProfile, hfile, Option.bind_some, json.decode_encode,
        Option.getD_some]
    have hwritten : lastWritten es = some q := by
      rw [lastWritten, hlast, Option.bind_some, hq]
    rw [hget, hwritten, Option.some.injEq]

/-- Two requests whose writes run in order. -/
theorem getUserProfile_eq_iff_lastWriter_two :
    ∃ (es : List (ProfileEvent Keyed)) (s : ProfileQueue _),
      run (step .keyed) (idle none) es = some s ∧ s.Done ∧
      (requests es).getLast? = some ⟨some "Bob", none⟩ ∧
      (getUserProfile .keyed s.file = ⟨some "Bob", none⟩ ↔
        lastWritten es = some ⟨some "Bob", none⟩) := by
  have hrun : run (step .keyed) (idle none) [.saveUserProfile ⟨some "Ann", none⟩,
      .saveUserProfile ⟨some "Bob", none⟩, .write 0 false none, .write 1 false none, .complete 0,
      .complete 1] = some ⟨some [("userName", "Bob")], 2, [], []⟩ := rfl
  exact ⟨_, _, hrun, ⟨rfl, rfl⟩, rfl,
    getUserProfile_eq_iff_lastWriter .keyed (by simp) hrun ⟨rfl, rfl⟩ rfl⟩

/-- **A later save can lose against an earlier one**: the job of the second request
writes first, and the file ends up with the first request's profile. -/
theorem exists_lost_request : ¬ ∀ (json : JSON Keyed) (file : Option Keyed)
    (es : List (ProfileEvent Keyed)) (s : ProfileQueue _) (p : UserProfileModel),
    (∀ n left, .write n true left ∉ es) → run (step json) (idle file) es = some s →
      s.Done → (requests es).getLast? = some p → getUserProfile json s.file = p := by
  intro h
  have hrun := h .keyed none [.saveUserProfile ⟨some "Ann", none⟩,
    .saveUserProfile ⟨some "Bob", none⟩, .write 1 false none, .write 0 false none, .complete 0,
    .complete 1] _ ⟨some "Bob", none⟩ (by simp) rfl ⟨rfl, rfl⟩ rfl
  exact absurd hrun (by decide)

end ProfileQueue

end MessengerApp
