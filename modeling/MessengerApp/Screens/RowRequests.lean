import Mathlib.Data.List.Nodup
import MessengerApp.Screens.Tables

/-!
# Rows that tables ask for

A table may ask for any row below the number last reported to it, and the data
source then looks that row up in a new fetch.  Saving never makes a fetch
shorter; only deleting a channel does, for the list of channels and for the
messages of that channel.

## Main definitions

* `Fits` — what the tables were told does not exceed what a fetch finds.
* `Screens.InRange` — every row that a table may ask for is there.
* `Screens.Roomy` — the condition on a step.

## Main results

* `fits_commit`, `rows_delete_iff`, `messageRows_delete_iff` — saving and deleting.
* `inRange_of_step_iff` — one step.
* `inRange_iff_roomy` — **every row request of a run stays in range if and only if
  every step is roomy.**
-/

namespace MessengerApp

open Machine UniqueTable CoreDataManager

/-- What the tables were told does not exceed what a fetch finds. -/
def Fits (rows : ℕ) (messageRows : String → ℕ) (st : PersistentStore) : Prop :=
  rows ≤ st.channels.length ∧ ∀ c, messageRows c ≤ (fetchedResult c st).length

section Store

variable {F : Fetch} {m : CoreDataManager} {rows : ℕ} {messageRows : String → ℕ} {o : ObjectID}

/-- Saving makes no fetch shorter. -/
theorem fits_commit (h : Fits rows messageRows m.store) :
    Fits rows messageRows (m.commit (.propertyStoreTrump F)).store := by
  have hsub : m.store.channels <+: (m.commit (.propertyStoreTrump F)).store.channels :=
    prefix_insertAll _ _ _
  refine ⟨Nat.le_trans h.1 hsub.length_le, fun c => Nat.le_trans (h.2 c) ?_⟩
  by_cases hc : ∃ r ∈ m.store.channels, r.identifier = c
  · obtain ⟨r, hr, rfl⟩ := hc
    have hr' : r ∈ (m.commit (.propertyStoreTrump F)).store.channels := hsub.subset hr
    rw [length_fetchedResult hr, length_fetchedResult hr']
    have hmsgs : m.store.messages <+: (m.commit (.propertyStoreTrump F)).store.messages :=
      PersistentStore.messages_prefix_save _ _
    exact (hmsgs.sublist.filter _).length_le
  · rw [fetchedResult_of_notStored fun r hr hid => hc ⟨r, hr, hid⟩]
    exact Nat.zero_le _

/-- Deleting a stored channel leaves one less. -/
theorem length_channels_delete {r : DBChannel} (hr : r ∈ m.store.channels) :
    (m.store.delete r.objectID).channels.length + 1 = m.store.channels.length := by
  have hnodup := m.stored_ids_nodup
  have herase : (m.store.delete r.objectID).channels.map DBChannel.objectID =
      (m.store.channels.map DBChannel.objectID).erase r.objectID := by
    rw [hnodup.erase_eq_filter, List.filter_map, PersistentStore.delete_channels]
    congr 1
    refine List.filter_congr fun r' _ => ?_
    simp [bne, beq_eq_decide]
  have hmem : r.objectID ∈ m.store.channels.map DBChannel.objectID := List.mem_map_of_mem hr
  have hpos : 0 < m.store.channels.length := List.length_pos_of_mem hr
  have hlen := congrArg List.length herase
  rw [List.length_map, List.length_erase_of_mem hmem, List.length_map] at hlen
  omega

theorem rows_delete_iff (h : rows ≤ m.store.channels.length) :
    rows ≤ (m.store.delete o).channels.length ↔
      ∀ r ∈ m.store.channels, r.objectID = o → rows < m.store.channels.length := by
  by_cases ho : ∃ r ∈ m.store.channels, r.objectID = o
  · obtain ⟨r, hr, rfl⟩ := ho
    have hlen := length_channels_delete hr
    constructor
    · intro hle r' _ _
      omega
    · intro hlt
      have := hlt r hr rfl
      omega
  · have hself : m.store.channels.filter (·.objectID ≠ o) = m.store.channels := by
      rw [List.filter_eq_self]
      exact fun r hr => decide_eq_true fun hro => ho ⟨r, hr, hro⟩
    refine iff_of_true ?_ fun r hr hro => absurd ⟨r, hr, hro⟩ ho
    rw [PersistentStore.delete_channels, hself]
    exact h

theorem messageRows_delete_iff (h : ∀ c, messageRows c ≤ (fetchedResult c m.store).length) :
    (∀ c, messageRows c ≤ (fetchedResult c (m.store.delete o)).length) ↔
      ∀ r ∈ m.store.channels, r.objectID = o → messageRows r.identifier = 0 := by
  constructor
  · rintro hle r hr rfl
    -- no other row has the identifier of the deleted one
    have hnone : fetchedResult r.identifier (m.store.delete r.objectID) = [] := by
      apply fetchedResult_of_notStored
      intro r' hr' hid
      obtain ⟨hr', hne⟩ := List.mem_filter.mp hr'
      have heq : r' = r := PersistentStore.eq_of_identifier hr' hr hid
      exact absurd (congrArg DBChannel.objectID heq) (by simpa using hne)
    have hzero := hle r.identifier
    rw [hnone] at hzero
    exact Nat.le_zero.mp hzero
  · intro hzero c
    by_cases hc : ∃ r ∈ m.store.channels, r.identifier = c
    · obtain ⟨r, hr, rfl⟩ := hc
      by_cases ho : r.objectID = o
      · rw [hzero r hr ho]
        exact Nat.zero_le _
      · have hr' : r ∈ (m.deleteChannel o false).store.channels :=
          List.mem_filter.mpr ⟨hr, by simpa using ho⟩
        have hlen := length_fetchedResult hr'
        rw [deleteChannel_store_false, PersistentStore.attached_delete hr ho] at hlen
        rw [hlen, ← length_fetchedResult hr]
        exact h r.identifier
    · have hle := h c
      rw [fetchedResult_of_notStored fun r hr hid => hc ⟨r, hr, hid⟩] at hle
      exact Nat.le_trans hle (Nat.zero_le _)

end Store

namespace Screens

/-- Every row that a table may ask for is in the fetch that answers it. -/
def InRange (s : Screens) : Prop :=
  (∀ row < s.rows, (s.cellForRowAt row).isSome) ∧
    ∀ c, ∀ row < s.messageRows c, (s.messageCellForRowAt c row).isSome

/-- A stored channel is only pruned while the channels table was told of fewer rows
than are stored, and only pruned or deleted by the user while its messages table
was told of no rows. -/
def Roomy (s : Screens) : ScreenEvent → Prop
  | .app (.next false) => ∀ r ∈ s.app.core.store.channels,
      s.app.main.head? = some (.deleteChannel r.objectID) →
        s.rows < s.app.core.store.channels.length ∧ s.messageRows r.identifier = 0
  | .confirmSwipe false => s.app.main = [] → ∀ row x, s.swipe = some (row, x) →
      ∀ y, s.object row = some y → ∀ r ∈ s.app.core.store.channels, r.objectID = y.objectID →
        s.messageRows r.identifier = 0
  | _ => True

variable {F : Fetch} {s s' : Screens}

theorem inRange_iff : s.InRange ↔ Fits s.rows s.messageRows s.app.core.store := by
  have hle : ∀ {α : Type} (n : ℕ) (l : List α),
      (∀ row < n, (l[row]?).isSome) ↔ n ≤ l.length := by
    intro α n l
    constructor
    · intro h
      by_contra hlt
      have hrow := h l.length (by omega)
      rw [List.getElem?_eq_none (Nat.le_refl _)] at hrow
      exact absurd hrow (by simp)
    · intro h row hrow
      rw [List.getElem?_eq_getElem (Nat.lt_of_lt_of_le hrow h)]
      rfl
  unfold InRange Fits cellForRowAt messageCellForRowAt
  rw [hle, length_fetchChannels]
  simp only [hle]

theorem inRange_load (app : App) : (load app).InRange := by
  rw [inRange_iff]
  exact ⟨Nat.zero_le _, fun _ => Nat.zero_le _⟩

/-! ### One step -/

/-- What happens to the app by itself. -/
theorem fits_of_app_iff {e : Event} {app : App}
    (hs : Fits s.rows s.messageRows s.app.core.store)
    (h : s.app.step (.propertyStoreTrump F) e = some app)
    (hswipe : ∀ o fails, e ≠ .deleteChannel o fails) :
    Fits s.rows s.messageRows app.core.store ↔ s.Roomy (.app e) := by
  cases e with
  | channelsSnapshot snap =>
    obtain ⟨-, rfl⟩ := App.step_channelsSnapshot.mp h
    exact iff_of_true hs trivial
  | messagesSnapshot c snap =>
    obtain ⟨-, rfl⟩ := App.step_messagesSnapshot.mp h
    exact iff_of_true hs trivial
  | next fails =>
    obtain ⟨c, cs, hmain, rfl⟩ := App.step_next.mp h
    cases fails with
    | true =>
      refine iff_of_true ?_ trivial
      cases c with
      | saveChannel channel => exact hs
      | saveMessage message identifier => exact hs
      | deleteChannel object => exact hs
    | false =>
      have hhead : s.app.main.head? = some c := by rw [hmain, List.head?_cons]
      unfold Roomy
      rw [hhead]
      cases c with
      | saveChannel channel => exact iff_of_true hs fun r _ hr => absurd hr (by simp)
      | saveMessage message identifier => exact iff_of_true hs fun r _ hr => absurd hr (by simp)
      | deleteChannel object =>
        show Fits s.rows s.messageRows (s.app.core.store.delete object) ↔ _
        unfold Fits
        rw [rows_delete_iff hs.1, messageRows_delete_iff hs.2]
        constructor
        · rintro ⟨hrows, hmsgs⟩ r hr heq
          have ho : object = r.objectID := by simpa using heq
          exact ⟨hrows r hr ho.symm, hmsgs r hr ho.symm⟩
        · intro hroomy
          exact ⟨fun r hr ho => (hroomy r hr (by rw [ho])).1,
            fun r hr ho => (hroomy r hr (by rw [ho])).2⟩
  | saveBlock fails =>
    obtain ⟨core, hcore, rfl⟩ := App.step_saveBlock.mp h
    refine iff_of_true ?_ trivial
    obtain ⟨-, ⟨-, rfl⟩ | ⟨-, -, rfl⟩ | ⟨-, -, rfl⟩⟩ := runSaveBlock_cases hcore
    · exact hs
    · exact hs
    · exact fits_commit hs
  | deleteChannel o fails => exact absurd rfl (hswipe o fails)
  | merge objects =>
    obtain ⟨-, rfl⟩ := App.step_merge.mp h
    exact iff_of_true hs trivial

/-- **One step keeps the tables in range exactly when it is roomy.** -/
theorem inRange_of_step_iff {e : ScreenEvent} (hs : s.InRange)
    (h : s.step (.propertyStoreTrump F) e = some s') : s'.InRange ↔ s.Roomy e := by
  rw [inRange_iff] at hs ⊢
  cases e with
  | app e =>
    obtain ⟨hswipe, app, happ, rfl⟩ := step_app.mp h
    exact fits_of_app_iff hs happ hswipe
  | reloadChannels =>
    obtain ⟨-, rfl⟩ := step_reloadChannels.mp h
    refine iff_of_true ⟨?_, hs.2⟩ trivial
    exact Nat.le_of_eq (length_fetchChannels _)
  | channelCell row =>
    obtain ⟨-, x, -, rfl⟩ := step_channelCell.mp h
    exact iff_of_true hs trivial
  | select row =>
    obtain ⟨-, hselect⟩ := step_select.mp h
    obtain ⟨x, -, rfl⟩ := didSelectRowAt_eq_some.mp hselect
    exact iff_of_true hs trivial
  | openSwipe row =>
    obtain ⟨-, x, -, rfl⟩ := step_openSwipe.mp h
    exact iff_of_true hs trivial
  | confirmSwipe fails =>
    obtain ⟨hmain, row, x, hswipe, hdelete⟩ := step_confirmSwipe.mp h
    obtain ⟨y, hy, rfl⟩ := contextualDeleteAction_eq_some.mp hdelete
    cases fails with
    | true => exact iff_of_true ⟨Nat.le_of_eq (length_fetchChannels _), hs.2⟩ trivial
    | false =>
      -- the channels table has just been reloaded
      have hiff := messageRows_delete_iff (m := s.app.core) (o := y.objectID) hs.2
      constructor
      · rintro ⟨-, hmsgs⟩ - row' x' hswipe' y' hy' r hr ho
        obtain ⟨rfl, rfl⟩ : row = row' ∧ x = x' := by simpa [hswipe] using hswipe'
        obtain rfl := Option.some.inj (hy.symm.trans hy')
        exact hiff.mp hmsgs r hr ho
      · intro hroomy
        exact ⟨Nat.le_of_eq (length_fetchChannels _),
          hiff.mpr fun r hr ho => hroomy hmain row x hswipe y hy r hr ho⟩
  | reloadMessages c =>
    obtain ⟨-, rfl⟩ := step_reloadMessages.mp h
    refine iff_of_true ⟨hs.1, fun c' => ?_⟩ trivial
    show Function.update s.messageRows c _ c' ≤ _
    by_cases hc : c' = c
    · subst hc
      rw [Function.update_self]
    · rw [Function.update_of_ne hc]
      exact hs.2 c'
  | messageCell c row =>
    obtain ⟨-, m, -, rfl⟩ := step_messageCell.mp h
    exact iff_of_true hs trivial
  | closeConversation c =>
    obtain ⟨-, rfl⟩ := step_closeConversation.mp h
    refine iff_of_true ⟨hs.1, fun c' => ?_⟩ trivial
    show Function.update s.messageRows c 0 c' ≤ _
    by_cases hc : c' = c
    · subst hc
      rw [Function.update_self]
      exact Nat.zero_le _
    · rw [Function.update_of_ne hc]
      exact hs.2 c'

/-- An event that cannot occur is roomy. -/
theorem roomy_of_step_eq_none {e : ScreenEvent} (h : s.step (.propertyStoreTrump F) e = none) :
    s.Roomy e := by
  cases e with
  | app e =>
    cases e with
    | next fails =>
      cases fails with
      | true => trivial
      | false =>
        intro r _ hhead
        obtain ⟨cs, hmain⟩ := List.head?_eq_some_iff.mp hhead
        have hstep : s.step (.propertyStoreTrump F) (.app (.next false)) = some _ :=
          step_app.mpr ⟨by simp, _, App.step_next.mpr ⟨_, cs, hmain, rfl⟩, rfl⟩
        exact absurd (h.symm.trans hstep) (by simp)
    | channelsSnapshot snap => trivial
    | messagesSnapshot c snap => trivial
    | saveBlock fails => trivial
    | deleteChannel o fails => trivial
    | merge objects => trivial
  | confirmSwipe fails =>
    cases fails with
    | true => trivial
    | false =>
      intro hmain row x hswipe y hy _ _ _
      have hstep : s.step (.propertyStoreTrump F) (.confirmSwipe false) = some _ :=
        step_confirmSwipe.mpr
          ⟨hmain, row, x, hswipe, contextualDeleteAction_eq_some.mpr ⟨y, hy, rfl⟩⟩
      exact absurd (h.symm.trans hstep) (by simp)
  | reloadChannels => trivial
  | channelCell row => trivial
  | select row => trivial
  | openSwipe row => trivial
  | reloadMessages c => trivial
  | messageCell c row => trivial
  | closeConversation c => trivial

/-- **When every row request stays in range.**  From the loading of the screen on, in
every state of a run, if and only if every step of it is roomy. -/
theorem inRange_iff_roomy (app : App) (es : List ScreenEvent) :
    (∀ t, Visits (step (.propertyStoreTrump F)) (load app) es t → t.InRange) ↔
      Meets (step (.propertyStoreTrump F)) Roomy (load app) es :=
  forall_visits_iff_meets (fun _ _ _ hs h => inRange_of_step_iff hs h)
    (fun _ _ h => roomy_of_step_eq_none h) es (load app) (inRange_load app)

/-- **A table asks for a row that is gone.**  The channels table was told of two
channels; then one of them is pruned, and the table has not been reloaded yet. -/
theorem exists_row_out_of_range : ¬ ∀ (app : App) (es : List ScreenEvent) (t : Screens),
    Visits (step .inOrder) (load app) es t → t.InRange := by
  intro h
  let a : Document := ⟨"a", [("name", .string "A"), ("lastActivity", .timestamp ⟨1⟩)]⟩
  let b : Document := ⟨"b", [("name", .string "B"), ("lastActivity", .timestamp ⟨2⟩)]⟩
  let es : List ScreenEvent := [.app (.channelsSnapshot [(a, 5), (b, 5)]), .app (.next false),
    .app (.next false), .app (.saveBlock false), .app (.merge [0, 1]), .reloadChannels,
    .app (.channelsSnapshot [(b, 6)]), .app (.next false)]
  let t : Screens := (run (step .inOrder) (load .empty) es).get (by decide +kernel)
  have hvisits : Visits (step .inOrder) (load .empty) es t :=
    visits_of_run _ (Option.some_get _).symm
  have hcell := (h .empty es t hvisits).1 1 (by decide +kernel)
  exact absurd hcell (by decide +kernel)

end Screens

end MessengerApp
