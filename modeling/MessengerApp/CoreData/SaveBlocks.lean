import MessengerApp.CoreData.Manager

/-!
# One background context for all saves

Every call to `saveChannelsWithCoreData` or `saveMessagesWithCoreData` schedules
a save block of its own, but a block saves, or rolls back, whatever the shared
context holds when it runs.  So the fate of an inserted object is decided by the
first block that runs after the insert, which may have been scheduled long
before by another call; the object's own block may find nothing left to save and
end without an error.

## Main definitions

* `Object` — a channel or a message that a call inserts.
* `stored`, `objects` — the objects in the store, and those in the store or pending.
* `firstBlock` — the outcome of the first save block in a list of operations.

## Main results

* `mem_stored_commit` — a save keeps an object that conflicts with nothing.
* `fate_of_run` — a pending object is saved or dropped by the first block.
* `mem_stored_iff_firstBlock` — an object that conflicts with nothing is in the
  store at the end exactly when the first block after its insert succeeds.
-/

namespace MessengerApp

open Machine UniqueTable

/-- What a call inserts. -/
inductive Object
  | channel (channel : ChannelModel)
  | message (message : Message)
  deriving DecidableEq, Repr

/-- Two objects that a uniqueness constraint does not allow together. -/
def Object.Conflicts : Object → Object → Prop
  | .channel c, .channel c' => c.Conflicts c'
  | .message m, .message m' => m.content = m'.content
  | _, _ => False

instance : DecidableRel Object.Conflicts := fun x y =>
  match x, y with
  | .channel c, .channel c' => inferInstanceAs (Decidable (c.Conflicts c'))
  | .message m, .message m' => inferInstanceAs (Decidable (m.content = m'.content))
  | .channel _, .message _ => isFalse not_false
  | .message _, .channel _ => isFalse not_false

@[simp] theorem Object.conflicts_self (x : Object) : x.Conflicts x := by
  cases x with
  | channel c => exact Or.inl rfl
  | message m => exact Eq.refl m.content

namespace CoreDataManager

/-- The object a call inserts. -/
def Call.object : Call → Option Object
  | .saveChannel channel => some (.channel channel)
  | .saveMessage message _ => some (.message message)
  | .deleteChannel _ => none

/-- The object an operation inserts. -/
def Op.object : Op → Option Object
  | .call c _ => c.object
  | .saveBlock _ => none

/-- The operations of the background context: saves and their blocks. -/
def Op.IsSave : Op → Prop
  | .call (.deleteChannel _) _ => False
  | _ => True

/-- The outcome of the first save block: whether its save throws. -/
def firstBlock : List Op → Option Bool
  | [] => none
  | .saveBlock fails :: _ => some fails
  | .call _ _ :: ops => firstBlock ops

variable (cd : CoreData) (m : CoreDataManager)

/-- The objects in the persistent store. -/
def stored : List Object :=
  m.store.channels.map (fun r => .channel r.model) ++
    m.store.messages.map fun r => .message r.message

/-- The objects in the store or pending in the background context. -/
def objects : List Object :=
  (m.store.channels ++ m.insertedChannels).map (fun r => .channel r.model) ++
    (m.store.messages ++ m.insertedMessages).map fun r => .message r.message

theorem stored_sublist_objects : m.stored.Sublist m.objects :=
  ((List.sublist_append_left _ _).map _).append ((List.sublist_append_left _ _).map _)

theorem objects_eq_stored {m : CoreDataManager} (hc : m.insertedChannels = [])
    (hm : m.insertedMessages = []) : m.objects = m.stored := by
  rw [objects, hc, hm, List.append_nil, List.append_nil, stored]

/-- The number of objects that conflict with `x`. -/
abbrev rivals (x : Object) (l : List Object) : ℕ := l.countP fun y => y.Conflicts x

theorem rivals_pos {x : Object} {l : List Object} (hx : x ∈ l) : 0 < rivals x l :=
  List.countP_pos_iff.mpr ⟨x, hx, by simp⟩

theorem stored_commit_sublist : (m.commit cd).stored.Sublist m.objects := by
  refine List.Sublist.append ((cd.channels.sublist _ _).map _) ?_
  have hmap : (m.commit cd).store.messages.map (fun r => Object.message r.message) =
      (cd.messages.keep m.store.messages m.insertedMessages).map
        fun r => Object.message r.message := by
    simp [commit, Function.comp_def]
  rw [hmap]
  exact (cd.messages.sublist _ _).map _

/-- **An object without rivals survives the save**, however conflicts are resolved. -/
theorem mem_stored_commit {x : Object} (hx : x ∈ m.objects) (hr : rivals x m.objects ≤ 1) :
    x ∈ (m.commit cd).stored := by
  rw [objects, rivals, List.countP_append, List.countP_map, List.countP_map] at hr
  rw [objects, List.mem_append, List.mem_map, List.mem_map] at hx
  rcases hx with ⟨r, hrow, rfl⟩ | ⟨r, hrow, rfl⟩
  · have hle : (m.store.channels ++ m.insertedChannels).countP
        (fun r' => decide (r'.Conflicts r)) ≤ 1 := Nat.le_trans (Nat.le_add_right _ _) hr
    refine List.mem_append_left _ (List.mem_map.mpr ⟨r, ?_, rfl⟩)
    refine cd.channels.mem_keep hrow fun r' hr' hc => ?_
    exact eq_of_countP_le_one hle hr' hrow (decide_eq_true hc) (decide_eq_true (Or.inl rfl))
  · have hle : (m.store.messages ++ m.insertedMessages).countP
        (fun r' => decide (r'.content = r.content)) ≤ 1 := Nat.le_trans (Nat.le_add_left _ _) hr
    refine List.mem_append_right _
      (List.mem_map.mpr ⟨r.nullify _, List.mem_map.mpr ⟨r, ?_, rfl⟩, rfl⟩)
    refine cd.messages.mem_keep hrow fun r' hr' hc => ?_
    exact eq_of_countP_le_one hle hr' hrow (decide_eq_true hc) (decide_eq_true rfl)

/-! ### One operation -/

variable {cd m} {m' : CoreDataManager} {x : Object}

/-- A save puts its object among the pending ones and leaves the store alone. -/
theorem perform_save {c : Call} {y : Object} (fails : Bool) (hc : c.object = some y) :
    (m.perform cd fails c).stored = m.stored ∧
      (m.perform cd fails c).objects.Perm (y :: m.objects) := by
  cases c with
  | saveChannel channel =>
    obtain rfl := Option.some.inj hc
    refine ⟨rfl, ?_⟩
    have h : (m.perform cd fails (.saveChannel channel)).objects =
        (m.store.channels ++ m.insertedChannels).map (fun r => .channel r.model) ++
          .channel channel ::
            (m.store.messages ++ m.insertedMessages).map fun r => .message r.message := by
      simp [objects, perform]
    rw [h]
    exact List.perm_middle
  | saveMessage message identifier =>
    obtain rfl := Option.some.inj hc
    refine ⟨rfl, ?_⟩
    have h : (m.perform cd fails (.saveMessage message identifier)).objects =
        m.objects ++ [.message message] := by
      simp [objects, perform]
    rw [h]
    exact List.perm_append_singleton _ _
  | deleteChannel object => exact absurd hc (by simp [Call.object])

/-- A save of another object is no rival. -/
theorem rivals_perform {c : Call} {y : Object} (fails : Bool) (hc : c.object = some y)
    (hfree : ¬ y.Conflicts x) :
    rivals x (m.perform cd fails c).objects = rivals x m.objects := by
  rw [rivals, (perform_save fails hc).2.countP_eq, List.countP_cons_of_neg (by simpa using hfree)]

/-- After a block nothing is pending any more, and what is stored was there before. -/
theorem objects_of_block {fails : Bool} (h : m.runSaveBlock cd fails = some m') :
    m'.objects = m'.stored ∧ m'.stored.Sublist m.objects := by
  obtain ⟨-, ⟨hch, rfl⟩ | ⟨-, -, rfl⟩ | ⟨-, -, rfl⟩⟩ := runSaveBlock_cases h
  · obtain ⟨hc, hm⟩ := hasChanges_eq_false_iff.mp hch
    exact ⟨objects_eq_stored hc hm, m.stored_sublist_objects⟩
  · exact ⟨objects_eq_stored rfl rfl, m.stored_sublist_objects⟩
  · exact ⟨objects_eq_stored rfl rfl, m.stored_commit_sublist cd⟩

/-- An object in the store without rivals stays there through a block. -/
theorem mem_stored_of_block {fails : Bool} (hx : x ∈ m.stored) (hr : rivals x m.objects ≤ 1)
    (h : m.runSaveBlock cd fails = some m') : x ∈ m'.stored := by
  obtain ⟨-, ⟨-, rfl⟩ | ⟨-, -, rfl⟩ | ⟨-, -, rfl⟩⟩ := runSaveBlock_cases h
  · exact hx
  · exact hx
  · exact mem_stored_commit cd m (m.stored_sublist_objects.subset hx) hr

/-! ### The fate of an object -/

/-- In the store, with no rival anywhere. -/
def Saved (x : Object) (m : CoreDataManager) : Prop := x ∈ m.stored ∧ rivals x m.objects ≤ 1

/-- Pending, with no rival anywhere. -/
def Pending (x : Object) (m : CoreDataManager) : Prop :=
  x ∈ m.objects ∧ rivals x m.objects ≤ 1 ∧ rivals x m.stored = 0

/-- Neither in the store nor pending, and no rival of it either. -/
def Absent (x : Object) (m : CoreDataManager) : Prop := rivals x m.objects = 0

/-- A save that does not conflict with `x`, or a save block. -/
def Harmless (x : Object) (op : Op) : Prop :=
  op.IsSave ∧ ∀ y ∈ op.object, ¬ y.Conflicts x

/-- A harmless call saves something, and that is no rival. -/
theorem Harmless.exists_object {c : Call} {fails : Bool} (h : Harmless x (.call c fails)) :
    ∃ y, c.object = some y ∧ ¬ y.Conflicts x := by
  cases c with
  | saveChannel channel => exact ⟨_, rfl, h.2 _ rfl⟩
  | saveMessage message identifier => exact ⟨_, rfl, h.2 _ rfl⟩
  | deleteChannel object => exact absurd h.1 not_false

theorem saved_of_step {op : Op} (hop : Harmless x op) (hx : Saved x m)
    (h : m.step cd op = some m') : Saved x m' := by
  obtain ⟨hmem, hr⟩ := hx
  cases op with
  | call c fails =>
    obtain rfl := Option.some.inj h
    obtain ⟨y, hc, hfree⟩ := hop.exists_object
    have hstored : (m.perform cd fails c).stored = m.stored := (perform_save fails hc).1
    have hrivals : rivals x (m.perform cd fails c).objects = rivals x m.objects :=
      rivals_perform fails hc hfree
    exact ⟨hstored ▸ hmem, by omega⟩
  | saveBlock fails =>
    obtain ⟨heq, hsub⟩ := objects_of_block h
    refine ⟨mem_stored_of_block hmem hr h, ?_⟩
    have hle : rivals x m'.stored ≤ rivals x m.objects := hsub.countP_le
    rw [heq]
    omega

theorem absent_of_step {op : Op} (hop : Harmless x op) (hx : Absent x m)
    (h : m.step cd op = some m') : Absent x m' := by
  unfold Absent at hx ⊢
  cases op with
  | call c fails =>
    obtain rfl := Option.some.inj h
    obtain ⟨y, hc, hfree⟩ := hop.exists_object
    rw [rivals_perform fails hc hfree, hx]
  | saveBlock fails =>
    obtain ⟨heq, hsub⟩ := objects_of_block h
    have hle : rivals x m'.stored ≤ rivals x m.objects := hsub.countP_le
    rw [heq]
    omega

theorem pending_of_call {c : Call} {fails : Bool} (hop : Harmless x (.call c fails))
    (hx : Pending x m) : Pending x (m.perform cd fails c) := by
  obtain ⟨hmem, hr, hn⟩ := hx
  obtain ⟨y, hc, hfree⟩ := hop.exists_object
  have hstored : (m.perform cd fails c).stored = m.stored := (perform_save fails hc).1
  have hperm : (m.perform cd fails c).objects.Perm (y :: m.objects) := (perform_save fails hc).2
  refine ⟨hperm.mem_iff.mpr (List.mem_cons_of_mem _ hmem), ?_, hstored ▸ hn⟩
  rw [rivals_perform fails hc hfree]
  exact hr

/-- A context with a pending object has changes. -/
theorem Pending.hasChanges (hx : Pending x m) : m.hasChanges = true := by
  cases hch : m.hasChanges with
  | true => rfl
  | false =>
    -- nothing pending would put `x` into the store, where it has no rival
    obtain ⟨hc, hm⟩ := hasChanges_eq_false_iff.mp hch
    have hpos := rivals_pos (objects_eq_stored hc hm ▸ hx.1)
    exact absurd hx.2.2 (by omega)

theorem saved_of_block (hx : Pending x m) (h : m.runSaveBlock cd false = some m') :
    Saved x m' := by
  obtain ⟨heq, hsub⟩ := objects_of_block h
  have hle : rivals x m'.stored ≤ rivals x m.objects := hsub.countP_le
  have hr := hx.2.1
  obtain ⟨-, ⟨hch, -⟩ | ⟨-, hfails, -⟩ | ⟨-, -, rfl⟩⟩ := runSaveBlock_cases h
  · exact absurd hx.hasChanges (by simp [hch])
  · exact absurd hfails (by decide)
  · exact ⟨mem_stored_commit cd m hx.1 hr, by rw [heq]; omega⟩

theorem absent_of_block (hx : Pending x m) (h : m.runSaveBlock cd true = some m') :
    Absent x m' := by
  obtain ⟨heq, -⟩ := objects_of_block h
  obtain ⟨-, ⟨hch, -⟩ | ⟨-, -, rfl⟩ | ⟨-, hfails, -⟩⟩ := runSaveBlock_cases h
  · exact absurd hx.hasChanges (by simp [hch])
  · exact (congrArg (rivals x) heq).trans hx.2.2
  · exact absurd hfails (by decide)

/-- **The fate of a pending object is decided by the first block to run.** -/
theorem fate_of_run : ∀ (ops : List Op) (m m' : CoreDataManager),
    (∀ op ∈ ops, Harmless x op) → Pending x m → run (step cd) m ops = some m' →
      (firstBlock ops = none ∧ Pending x m') ∨ (firstBlock ops = some false ∧ Saved x m') ∨
        (firstBlock ops = some true ∧ Absent x m') := by
  intro ops
  induction ops with
  | nil =>
    intro m m' _ hx hrun
    obtain rfl := Option.some.inj hrun
    exact Or.inl ⟨rfl, hx⟩
  | cons op ops ih =>
    intro m m' hops hx hrun
    obtain ⟨m₁, hstep, hrest⟩ := (run_cons_eq_some _).mp hrun
    have hop := hops op List.mem_cons_self
    have hops' : ∀ op ∈ ops, Harmless x op := fun o ho => hops o (List.mem_cons_of_mem _ ho)
    cases op with
    | call c fails =>
      obtain rfl := Option.some.inj hstep
      exact ih _ m' hops' (pending_of_call hop hx) hrest
    | saveBlock fails =>
      cases fails with
      | false =>
        refine Or.inr (Or.inl ⟨rfl, ?_⟩)
        exact invariant (Saved x) (Harmless x) (fun _ _ _ hI ha hs => saved_of_step ha hI hs)
          hops' (saved_of_block hx hstep) hrest
      | true =>
        refine Or.inr (Or.inr ⟨rfl, ?_⟩)
        exact invariant (Absent x) (Harmless x) (fun _ _ _ hI ha hs => absent_of_step ha hI hs)
          hops' (absent_of_block hx hstep) hrest

/-! ### The result -/

/-- In the run `pre ++ call c :: post` the call `c` inserts `x`, no other object of
the run conflicts with `x`, and every block that was scheduled has run. -/
structure Inserts (cd : CoreData) (m : CoreDataManager) (pre : List Op) (c : Call)
    (post : List Op) (x : Object) (m' : CoreDataManager) : Prop where
  scheduled : m.Scheduled
  object : c.object = some x
  free : ∀ y ∈ m.objects, ¬ y.Conflicts x
  others : ∀ op ∈ pre ++ post, Harmless x op
  run : run (step cd) m (pre ++ .call c false :: post) = some m'
  done : m'.ran = m'.issued

/-- The number of the block that the call after `pre` schedules. -/
def ownBlock (m : CoreDataManager) (pre : List Op) : ℕ :=
  m.issued + pre.countP fun op => op.object.isSome

/-- **A save block decides about everything pending.**  An object that conflicts
with nothing is in the store, once all blocks have run, exactly when the first
block that ran after its insert succeeded. -/
theorem mem_stored_iff_firstBlock {pre post : List Op} {c : Call}
    (h : Inserts cd m pre c post x m') :
    x ∈ m'.stored ↔ firstBlock post = some false := by
  obtain ⟨hsched, hobj, hfree, hothers, hrun, hdone⟩ := h
  obtain ⟨m₁, hpre, hrest⟩ := (run_append_eq_some _).mp hrun
  obtain ⟨m₂, hcall, hpost⟩ := (run_cons_eq_some _).mp hrest
  obtain rfl := Option.some.inj hcall
  -- before the call, neither `x` nor a rival is around
  have habsent : Absent x m := List.countP_eq_zero.mpr fun y hy => by simpa using hfree y hy
  have h₁ : Absent x m₁ := invariant (Absent x) (Harmless x)
    (fun _ _ _ hI ha hs => absent_of_step ha hI hs)
    (fun op hop => hothers op (List.mem_append_left _ hop)) habsent hpre
  -- the call leaves it pending
  have hstored : (m₁.perform cd false c).stored = m₁.stored := (perform_save false hobj).1
  have hperm : (m₁.perform cd false c).objects.Perm (x :: m₁.objects) :=
    (perform_save false hobj).2
  have h₂ : Pending x (m₁.perform cd false c) := by
    have hle : rivals x m₁.stored ≤ rivals x m₁.objects := m₁.stored_sublist_objects.countP_le
    have hcount : rivals x (m₁.perform cd false c).objects = rivals x m₁.objects + 1 := by
      rw [rivals, hperm.countP_eq, List.countP_cons_of_pos (by simp)]
    refine ⟨hperm.mem_iff.mpr List.mem_cons_self, ?_, ?_⟩
    · unfold Absent at h₁
      omega
    · rw [hstored]
      exact Nat.le_zero.mp (h₁ ▸ hle)
  -- and the blocks decide
  rcases fate_of_run post _ m' (fun op hop => hothers op (List.mem_append_right _ hop)) h₂ hpost
    with ⟨-, hx⟩ | ⟨hfirst, hx⟩ | ⟨hfirst, hx⟩
  · -- without a block the insert would still be pending, but every block has run
    have hsched' : m'.Scheduled := invariant Scheduled (fun _ => True)
      (fun _ _ _ hI _ hs => scheduled_of_step hI hs) (fun _ _ => trivial) hsched hrun
    exact absurd (hsched'.2 hx.hasChanges) (by omega)
  · exact iff_of_true hx.1 hfirst
  · refine iff_of_false (fun hmem => ?_) (by simp [hfirst])
    have hpos := rivals_pos (m'.stored_sublist_objects.subset hmem)
    exact absurd hx (by unfold Absent; omega)

/-- A message of one channel and a channel share their first block. -/
theorem mem_stored_iff_firstBlock_shared : ∃ m', Inserts .inOrder empty
    [.call (.saveMessage ⟨"hi", 0, "u", "U"⟩ "a") false] (.saveChannel ⟨"b", "B", none, none⟩)
    [.saveBlock false, .saveBlock true] (.channel ⟨"b", "B", none, none⟩) m' ∧
      (.channel ⟨"b", "B", none, none⟩ ∈ m'.stored ↔
        firstBlock [.saveBlock false, .saveBlock true] = some false) := by
  have hins : Inserts .inOrder empty
      [.call (.saveMessage ⟨"hi", 0, "u", "U"⟩ "a") false] (.saveChannel ⟨"b", "B", none, none⟩)
      [.saveBlock false, .saveBlock true] (.channel ⟨"b", "B", none, none⟩) _ :=
    { scheduled := scheduled_empty
      object := rfl
      free := by simp [objects, empty, PersistentStore.empty]
      others := by
        simp [Harmless, Op.IsSave, Op.object, Call.object, Object.Conflicts,
          ChannelModel.Conflicts]
      run := rfl
      done := rfl }
  exact ⟨_, hins, mem_stored_iff_firstBlock hins⟩

/-- **A failed save loses more than its own object.**  Channel `b` is inserted
while the block of channel `a` is still waiting; that block fails and rolls both
back, and then `b`'s own block finds no changes and ends without an error. -/
theorem exists_lost_object : ¬ ∀ (cd : CoreData) (m : CoreDataManager) (pre : List Op) (c : Call)
    (post : List Op) (x : Object) (m' : CoreDataManager), Inserts cd m pre c post x m' →
      ownBlock m pre ∉ m'.failed → x ∈ m'.stored := by
  intro h
  have hins : Inserts .inOrder empty
      [.call (.saveChannel ⟨"a", "A", none, none⟩) false] (.saveChannel ⟨"b", "B", none, none⟩)
      [.saveBlock true, .saveBlock false] (.channel ⟨"b", "B", none, none⟩) _ :=
    { scheduled := scheduled_empty
      object := rfl
      free := by simp [objects, empty, PersistentStore.empty]
      others := by
        simp [Harmless, Op.IsSave, Op.object, Call.object, Object.Conflicts,
          ChannelModel.Conflicts]
      run := rfl
      done := rfl }
  exact absurd (h _ _ _ _ _ _ _ hins (by decide)) (by decide)

end CoreDataManager

end MessengerApp
