import Mathlib.Data.List.Infix
import MessengerApp.Channels.Retained
import MessengerApp.Launches

/-!
# Where the rows of the channels screen come from

Every row that is stored is, field by field, a channel that a snapshot listed.
It is that channel as the *first* snapshot that got it stored had it: what is
stored wins every conflict, so while a row has the identifier, or the name, no
later snapshot changes it or takes its place, in this launch of the app or in a
later one.

## Main definitions

* `Listed` — a channel was decoded from a snapshot of the channels.
* `App.Originates` — everything stored, pending or still to be saved was listed.

## Main results

* `listed_of_stored` — **every stored channel was listed.**
* `channel_constant_of_run` — **the row of a channel that stays stored never changes.**
-/

namespace MessengerApp

open Machine UniqueTable CoreDataManager

/-- Some snapshot among the events lists the channel. -/
def Listed (es : List Event) (channel : ChannelModel) : Prop :=
  ∃ snap, .channelsSnapshot snap ∈ es ∧ channel ∈ actualChannels snap

theorem Listed.append {es : List Event} {channel : ChannelModel} (h : Listed es channel)
    (e : Event) : Listed (es ++ [e]) channel := by
  obtain ⟨snap, hsnap, hc⟩ := h
  exact ⟨snap, List.mem_append_left _ hsnap, hc⟩

namespace App

variable {cd : CoreData} {F : Fetch} {es : List Event} {s s' t : App}

/-! ### Only what was listed is stored -/

/-- Everything stored, pending or about to be saved was listed by a snapshot. -/
structure Originates (es : List Event) (s : App) : Prop where
  main : ∀ channel, .saveChannel channel ∈ s.main → Listed es channel
  core : ∀ r ∈ s.core.channelObjects, Listed es r.model

theorem originates_empty : Originates [] App.empty where
  main := fun _ h => absurd h List.not_mem_nil
  core := fun _ h => absurd h List.not_mem_nil

/-- A listener that is running has the rest of its calls to make; a new one saves what
its snapshot lists. -/
theorem saveChannel_mem_main {e : Event} {channel : ChannelModel} (h : s.step cd e = some s')
    (hc : .saveChannel channel ∈ s'.main) :
    .saveChannel channel ∈ s.main ∨
      ∃ snap, e = .channelsSnapshot snap ∧ channel ∈ actualChannels snap := by
  cases e with
  | channelsSnapshot snap =>
    obtain ⟨-, rfl⟩ := step_channelsSnapshot.mp h
    rcases mem_checkingTheRelevance hc with ⟨r, -, -, heq⟩ | ⟨channel', hmem, heq⟩
    · exact absurd heq (by simp)
    · obtain rfl : channel = channel' := by simpa using heq
      exact Or.inr ⟨snap, rfl, hmem⟩
  | messagesSnapshot channelIdentifier snap =>
    obtain ⟨-, rfl⟩ := step_messagesSnapshot.mp h
    obtain ⟨message, -, heq⟩ := mem_checkingTheMessages hc
    exact absurd heq (by simp)
  | next fails =>
    obtain ⟨c, cs, hmain, rfl⟩ := step_next.mp h
    exact Or.inl (hmain ▸ List.mem_cons_of_mem c hc)
  | saveBlock fails =>
    obtain ⟨core, -, rfl⟩ := step_saveBlock.mp h
    exact Or.inl hc
  | deleteChannel object fails =>
    obtain ⟨-, rfl⟩ := step_deleteChannel.mp h
    exact Or.inl hc
  | merge objects =>
    obtain ⟨-, rfl⟩ := step_merge.mp h
    exact Or.inl hc

/-- Only a listener saves channels. -/
theorem saveChannel_mem_of_op {e : Event} {channel : ChannelModel} {fails : Bool}
    (h : s.op e = some (.call (.saveChannel channel) fails)) : .saveChannel channel ∈ s.main := by
  cases e with
  | next fails' =>
    obtain ⟨c, hc, heq⟩ := Option.map_eq_some_iff.mp h
    obtain ⟨rfl, -⟩ : c = .saveChannel channel ∧ fails' = fails := by simpa using heq
    exact List.mem_of_head? hc
  | channelsSnapshot _ => simp [op] at h
  | messagesSnapshot _ _ => simp [op] at h
  | saveBlock _ => simp [op] at h
  | deleteChannel _ _ => simp [op] at h
  | merge _ => simp [op] at h

theorem originates_of_step {e : Event} (hs : Originates es s) (h : s.step cd e = some s') :
    Originates (es ++ [e]) s' := by
  constructor
  · intro channel hc
    rcases saveChannel_mem_main h hc with hc | ⟨snap, rfl, hmem⟩
    · exact (hs.main channel hc).append e
    · exact ⟨snap, List.mem_append_right _ (List.mem_singleton.mpr rfl), hmem⟩
  · intro r hr
    rcases step_core h with ⟨-, hcore⟩ | ⟨op, hop, hstep⟩
    · exact (hs.core r (hcore ▸ hr)).append e
    · rcases channelObject_origin hstep hr with hr | ⟨channel, fails, rfl, rfl⟩
      · exact (hs.core r hr).append e
      · exact (hs.main channel (saveChannel_mem_of_op hop)).append e

theorem Originates.loses {a b : App} (h : a.Loses b) (ha : Originates es a) : Originates es b where
  main := fun channel hc => ha.main channel (h.main _ hc)
  core := fun r hr => ha.core r (h.channelObjects hr)

theorem originates_of_run {es : List Life} (hrun : run (lifeStep cd) .empty es = some s) :
    Originates (es.filterMap Life.event?) s :=
  life_invariant Originates (fun _ _ _ h ha => ha.loses h)
    (fun _ _ _ _ hI hstep => originates_of_step hI hstep) originates_empty hrun

/-- **Every stored channel was listed**: all four fields of its row are those of a channel
decoded from one and the same snapshot. -/
theorem listed_of_stored {es : List Life} (hrun : run (lifeStep cd) .empty es = some s)
    {r : DBChannel} (hr : r ∈ s.core.store.channels) :
    Listed (es.filterMap Life.event?) r.model :=
  (originates_of_run hrun).core r (List.mem_append_left _ hr)

/-- A channel whose name is missing and whose date is decoded, after another launch. -/
theorem listed_of_stored_defaults : ∃ (es : List Life) (s : App) (r : DBChannel),
    run (lifeStep .inOrder) .empty es = some s ∧ r ∈ s.core.store.channels ∧
      r.model = ⟨"a", "Channel Name", some "Last Message", some 4⟩ ∧
      Listed (es.filterMap Life.event?) r.model := by
  let a : Document := ⟨"a", [("lastActivity", .timestamp ⟨4⟩)]⟩
  let s : App := (run (lifeStep .inOrder) .empty [.event (.channelsSnapshot [(a, 5)]),
    .event (.next false), .event (.saveBlock false), .launch]).get (by decide +kernel)
  have hrun : run (lifeStep .inOrder) .empty _ = some s := (Option.some_get _).symm
  have hr : ⟨0, "a", "Channel Name", some "Last Message", some 4⟩ ∈ s.core.store.channels := by
    decide +kernel
  exact ⟨_, s, _, hrun, hr, rfl, listed_of_stored hrun hr⟩

/-! ### What is stored does not change -/

/-- Two rows stored before and after an event are the same if they conflict. -/
theorem eq_of_conflicts_step {e : Life} (h : lifeStep (.propertyStoreTrump F) s e = some s')
    {r r' : DBChannel} (hr : r ∈ s.core.store.channels) (hr' : r' ∈ s'.core.store.channels)
    (hc : r.Conflicts r') : r' = r := by
  have hsymm : ∀ r r' : DBChannel, r.Conflicts r' → r'.Conflicts r :=
    fun _ _ h => h.imp Eq.symm Eq.symm
  have hkept : r ∈ s'.core.store.channels → r' = r := fun hr =>
    (s'.core.store.channels_unique.eq_of_conflict hsymm hr hr' hc).symm
  cases e with
  | launch =>
    obtain rfl := Option.some.inj h
    exact hkept hr
  | event e =>
    rcases step_core h with ⟨-, hcore⟩ | ⟨op, hop, hstep⟩
    · exact hkept (hcore ▸ hr)
    · cases op with
      | call c fails =>
        -- what is stored after a call was stored before
        have hcall := Option.some.inj hstep
        have hmem := (channels_perform_sublist (.propertyStoreTrump F) s.core fails c).subset
          (hcall ▸ hr')
        exact (s.core.store.channels_unique.eq_of_conflict hsymm hr hmem hc).symm
      | saveBlock fails =>
        obtain ⟨-, ⟨-, hcore⟩ | ⟨-, -, hcore⟩ | ⟨-, -, hcore⟩⟩ := runSaveBlock_cases hstep
        · exact hkept (hcore ▸ hr)
        · exact hkept (hcore ▸ hr)
        · exact hkept (hcore ▸ PersistentStore.mem_save_channels_of_mem _ _ hr)

/-- **The row of a channel that stays stored never changes**: as long as some row has the
identifier (or the name), it is the row that had it at first, whatever later snapshots say
of the channel and however often the app is launched. -/
theorem channel_constant_of_run {key : DBChannel → String}
    (hkey : key = DBChannel.identifier ∨ key = DBChannel.name) {r : DBChannel} {es : List Life}
    (hr : r ∈ s.core.store.channels) (hrun : run (lifeStep (.propertyStoreTrump F)) s es = some t)
    (hstays : ∀ u, Visits (lifeStep (.propertyStoreTrump F)) s es u →
      ∃ r' ∈ u.core.store.channels, key r' = key r) :
    r ∈ t.core.store.channels ∧ ∀ r' ∈ t.core.store.channels, key r' = key r → r' = r := by
  have hconf : ∀ r' : DBChannel, key r' = key r → r.Conflicts r' := by
    intro r' h
    rcases hkey with rfl | rfl
    · exact Or.inl h.symm
    · exact Or.inr h.symm
  have hstored : r ∈ t.core.store.channels := by
    induction es using List.reverseRecOn generalizing t with
    | nil => exact Option.some.inj hrun ▸ hr
    | append_singleton es e ih =>
      obtain ⟨u, hu, hstep⟩ := (run_snoc_eq_some _).mp hrun
      have hbefore : r ∈ u.core.store.channels := ih hu fun v hv => by
        obtain ⟨pre, hpre, hv⟩ := hv
        exact hstays v ⟨pre, hpre.trans (List.prefix_append _ _), hv⟩
      obtain ⟨r', hr', hid⟩ := hstays t (visits_of_run _ hrun)
      exact eq_of_conflicts_step hstep hbefore hr' (hconf r' hid) ▸ hr'
  refine ⟨hstored, fun r' hr' hid => ?_⟩
  exact (t.core.store.channels_unique.eq_of_conflict (fun _ _ h => h.imp Eq.symm Eq.symm)
    hstored hr' (hconf r' hid)).symm

/-- The channel is renamed, and saved again beside another one that takes its old name. -/
theorem channel_constant_of_run_renamed : ∃ (es : List Life) (s t : App) (r : DBChannel),
    run (lifeStep .inOrder) s es = some t ∧ r ∈ s.core.store.channels ∧
      r ∈ t.core.store.channels ∧
      ∀ r' ∈ t.core.store.channels, r'.identifier = r.identifier → r' = r := by
  let a : Document := ⟨"a", [("name", .string "A")]⟩
  let a' : Document := ⟨"a", [("name", .string "B"), ("lastMessage", .string "hi")]⟩
  let b : Document := ⟨"b", [("name", .string "A")]⟩
  let r : DBChannel := ⟨0, "a", "A", some "Last Message", some 5⟩
  let es : List Life := .launch :: [.channelsSnapshot [(a', 8), (b, 8)], .next false,
    .next false, .saveBlock false, .saveBlock true, .merge [2]].map .event
  let s : App := (run (lifeStep .inOrder) .empty ([.channelsSnapshot [(a, 5)],
    .next false, .saveBlock false].map .event)).get (by decide +kernel)
  let t : App := (run (lifeStep .inOrder) s es).get (by decide +kernel)
  have hrun : run (lifeStep .inOrder) s es = some t := (Option.some_get _).symm
  have hr : r ∈ s.core.store.channels := by decide +kernel
  have hstays : ∀ pre ∈ es.inits, ∀ u ∈ run (lifeStep .inOrder) s pre,
      ∃ r' ∈ u.core.store.channels, r'.identifier = r.identifier := by decide +kernel
  obtain ⟨hstored, honly⟩ := channel_constant_of_run (Or.inl rfl) hr hrun fun u hu => by
    obtain ⟨pre, hpre, hu⟩ := hu
    exact hstays pre ((List.mem_inits _ _).mpr hpre) u hu
  exact ⟨es, s, t, r, hrun, hr, hstored, honly⟩

end App

end MessengerApp
