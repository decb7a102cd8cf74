import MessengerApp.Launches

/-!
# A channel that stays

While the row of a channel stays on a device, no message that is saved for it goes astray, as
long as a fetch finds the row before anything that is pending: a save keeps it and the links
to it, and a new launch loses pending messages only together with their links.

## Main definitions

* `App.Tracks` — what was delivered for the channel is linked to its row, or will be.

## Main results

* `fetchChannel_of_stored` — what the fetch for a stored channel finds.
* `tracks_of_step`, `Tracks.loses` — **an app that tracks a channel goes on tracking it.**
-/

namespace MessengerApp

open Machine CoreDataManager

namespace CoreDataManager

variable {cd : CoreData} {F : Fetch} {m m' : CoreDataManager} {op : Op}

/-- A fetch that takes the first match finds the stored row, whatever is pending. -/
theorem fetchChannel_of_stored (hF : F.TakesFirst) {r : DBChannel} (hr : r ∈ m.store.channels) :
    m.fetchChannel (.propertyStoreTrump F) r.identifier = some r := by
  rw [fetchChannel_of_takesFirst hF, channelObjects, List.find?_append]
  cases hfind : m.store.channels.find? (·.identifier = r.identifier) with
  | none => exact absurd (by simp) (List.find?_eq_none.mp hfind r hr)
  | some r' =>
    have heq : r' = r := PersistentStore.eq_of_identifier (List.mem_of_find?_eq_some hfind) hr
      (by simpa using List.find?_some hfind)
    rw [heq]
    rfl

end CoreDataManager

namespace App

variable {cd : CoreData} {F : Fetch} {c : String} {es : List Event} {s s' : App}

/-- Some row is stored for the channel. -/
def Stores (c : String) (s : App) : Prop := ∃ r ∈ s.core.store.channels, r.identifier = c

/-- The app after the events `es`, as far as the channel is concerned: its row is stored while
messages are to be saved for it, and linked to all that have been. -/
structure Tracks (c : String) (es : List Event) (s : App) : Prop where
  /-- The controller holds stored rows. -/
  live : ∀ rows ∈ s.live, rows ⊆ s.core.store.channels
  main : ∀ message identifier, .saveMessage message identifier ∈ s.main →
    Delivered es identifier message ∧ (identifier = c → s.Stores c)
  core : ∀ p ∈ s.core.messageObjects, ∃ identifier, Delivered es identifier p.message ∧
    (identifier = c → ∃ r ∈ s.core.store.channels, r.identifier = c ∧
      p.channel = some r.objectID)

theorem tracks_empty (c : String) : Tracks c [] empty where
  live := fun _ h => absurd h (by simp [empty])
  main := fun _ _ h => absurd h List.not_mem_nil
  core := fun _ h => absurd h List.not_mem_nil

/-- What the controller shows, also when it is used for the first time. -/
theorem Tracks.fetchedObjects (hs : Tracks c es s) : s.fetchedObjects ⊆ s.core.store.channels := by
  unfold App.fetchedObjects
  cases hlive : s.live with
  | none => exact (fetchChannels_perm _).subset
  | some rows => exact hs.live rows hlive

/-- A listener that is running has the rest of its calls to make; a new one saves what its
snapshot delivers. -/
theorem saveMessage_mem_main {e : Event} {message : Message} {identifier : String}
    (h : s.step cd e = some s') (hc : .saveMessage message identifier ∈ s'.main) :
    .saveMessage message identifier ∈ s.main ∨
      ∃ snap, e = .messagesSnapshot identifier snap ∧ message ∈ channelMessages snap := by
  cases e with
  | channelsSnapshot snap =>
    obtain ⟨-, rfl⟩ := step_channelsSnapshot.mp h
    rcases mem_checkingTheRelevance hc with ⟨r, -, -, heq⟩ | ⟨channel, -, heq⟩
    · cases heq
    · cases heq
  | messagesSnapshot identifier' snap =>
    obtain ⟨-, rfl⟩ := step_messagesSnapshot.mp h
    obtain ⟨message', hm, heq⟩ := mem_checkingTheMessages hc
    obtain ⟨rfl, rfl⟩ := Call.saveMessage.inj heq
    exact Or.inr ⟨snap, rfl, hm⟩
  | next fails =>
    obtain ⟨c, cs, hmain, rfl⟩ := step_next.mp h
    exact Or.inl (hmain ▸ List.mem_cons_of_mem c hc)
  | saveBlock fails =>
    obtain ⟨core, -, rfl⟩ := step_saveBlock.mp h
    exact Or.inl hc
  | deleteChannel object fails =>
    obtain ⟨-, rfl⟩ := step_deleteChannel.mp h
    exact Or.inl hc
  | merge objects =>
    obtain ⟨-, rfl⟩ := step_merge.mp h
    exact Or.inl hc

/-- A call leaves the controller with rows that are still stored. -/
theorem forget_subset {rows : List DBChannel} (hrows : rows ⊆ s.core.store.channels) (c : Call)
    (fails : Bool) : forget c fails rows ⊆ (s.core.perform cd fails c).store.channels := by
  cases c with
  | saveChannel channel => exact hrows
  | saveMessage message identifier => exact hrows
  | deleteChannel object =>
    cases fails with
    | true => exact hrows
    | false => exact List.filter_subset _ hrows

/-- The controller goes on holding stored rows. -/
theorem live_of_step {e : Event} (hs : Tracks c es s)
    (h : s.step (.propertyStoreTrump F) e = some s') :
    ∀ rows ∈ s'.live, rows ⊆ s'.core.store.channels := by
  have hforget : ∀ (call : Call) (fails : Bool), ∀ rows ∈ s.live.map (forget call fails),
      rows ⊆ (s.core.perform (.propertyStoreTrump F) fails call).store.channels := by
    intro call fails rows hrows
    obtain ⟨rows₀, hrows₀, rfl⟩ := Option.map_eq_some_iff.mp hrows
    exact forget_subset (hs.live rows₀ hrows₀) call fails
  cases e with
  | channelsSnapshot snap =>
    obtain ⟨-, rfl⟩ := step_channelsSnapshot.mp h
    rintro rows hrows
    obtain rfl := Option.some.inj hrows
    exact hs.fetchedObjects
  | messagesSnapshot identifier snap =>
    obtain ⟨-, rfl⟩ := step_messagesSnapshot.mp h
    exact hs.live
  | next fails =>
    obtain ⟨call, cs, -, rfl⟩ := step_next.mp h
    exact hforget call fails
  | deleteChannel object fails =>
    obtain ⟨-, rfl⟩ := step_deleteChannel.mp h
    exact hforget _ fails
  | saveBlock fails =>
    obtain ⟨core, hcore, rfl⟩ := step_saveBlock.mp h
    intro rows hrows r hr
    have hstored := hs.live rows hrows hr
    obtain ⟨-, ⟨-, rfl⟩ | ⟨-, -, rfl⟩ | ⟨-, -, rfl⟩⟩ := runSaveBlock_cases hcore
    · exact hstored
    · exact hstored
    · exact PersistentStore.mem_save_channels_of_mem _ _ hstored
  | merge objects =>
    obtain ⟨-, rfl⟩ := step_merge.mp h
    rintro rows hrows r hr
    obtain ⟨rows₀, -, rfl⟩ := Option.map_eq_some_iff.mp hrows
    exact (fetchChannels_perm _).subset (List.mem_of_mem_filter hr)

/-- **An app that tracks a channel goes on tracking it**, if its rows stay and messages are only
delivered for it while it has one. -/
theorem tracks_of_step (hF : F.TakesFirst) {e : Event} (hs : Tracks c es s)
    (hkept : ∀ r ∈ s.core.store.channels, r.identifier = c → r ∈ s'.core.store.channels)
    (hsnap : ∀ snap, e = .messagesSnapshot c snap → s.Stores c)
    (h : s.step (.propertyStoreTrump F) e = some s') : Tracks c (es ++ [e]) s' := by
  have hstores : s.Stores c → s'.Stores c := fun ⟨r, hr, hid⟩ => ⟨r, hkept r hr hid, hid⟩
  refine ⟨live_of_step hs h, fun message identifier hc => ?_, fun p hp => ?_⟩
  · rcases saveMessage_mem_main h hc with hc | ⟨snap, rfl, hm⟩
    · obtain ⟨hd, hrow⟩ := hs.main message identifier hc
      exact ⟨hd.append e, fun hid => hstores (hrow hid)⟩
    · refine ⟨⟨snap, List.mem_append_right _ List.mem_cons_self, hm⟩, ?_⟩
      rintro rfl
      exact hstores (hsnap snap rfl)
  · -- whatever was linked to the row is, since the row has stayed
    have hold : ∀ p₀ ∈ s.core.messageObjects, p₀.message = p.message →
        (∀ r ∈ s.core.store.channels, r ∈ s'.core.store.channels →
          p₀.channel = some r.objectID → p.channel = some r.objectID) →
        ∃ identifier, Delivered (es ++ [e]) identifier p.message ∧
          (identifier = c → ∃ r ∈ s'.core.store.channels, r.identifier = c ∧
            p.channel = some r.objectID) := by
      intro p₀ hp₀ hmsg hlink
      obtain ⟨identifier, hd, hrow⟩ := hs.core p₀ hp₀
      refine ⟨identifier, hmsg ▸ hd.append e, fun hid => ?_⟩
      obtain ⟨r, hr, hrid, hchan⟩ := hrow hid
      have hr' := hkept r hr hrid
      exact ⟨r, hr', hrid, hlink r hr hr' hchan⟩
    rcases step_core h with ⟨-, hcore⟩ | ⟨op, hop, hstep⟩
    · exact hold p (hcore ▸ hp) rfl fun _ _ _ h => h
    · rcases messageObject_of_step hstep hp with
        ⟨p₀, hp₀, hbecomes⟩ | ⟨message, identifier, fails, rfl, rfl⟩
      · refine hold p₀ hp₀ hbecomes.message fun r hr hr' hchan => ?_
        rcases hbecomes.kept r (List.mem_append_left _ hr) hchan with ⟨-, hchan'⟩ | hremoves
        · exact hchan'
        · exact absurd (List.mem_append_left _ hr') (hremoves.notMem hstep)
      · obtain ⟨hd, hrow⟩ := hs.main message identifier (mem_main_of_op hop)
        refine ⟨identifier, hd.append e, ?_⟩
        rintro rfl
        obtain ⟨r, hr, hid⟩ := hrow rfl
        refine ⟨r, hkept r hr hid, hid, ?_⟩
        rw [← hid, fetchChannel_of_stored hF hr]
        rfl

/-- A new launch tracks what the one before has tracked. -/
theorem Tracks.loses {a b : App} (h : a.Loses b) (ha : Tracks c es a) : Tracks c es b where
  live := by
    intro rows hrows
    rw [h.store]
    rcases h.live with heq | heq | heq
    · exact ha.live rows (heq ▸ hrows)
    · rw [heq] at hrows
      exact Option.some.inj hrows ▸ ha.fetchedObjects
    · rw [heq] at hrows
      cases hrows
  main := by
    intro message identifier hc
    obtain ⟨hd, hrow⟩ := ha.main message identifier (h.main _ hc)
    exact ⟨hd, fun hid => by rw [Stores, h.store]; exact hrow hid⟩
  core := by
    intro p hp
    rw [h.store]
    exact ha.core p (h.messageObjects hp)

end App

end MessengerApp
