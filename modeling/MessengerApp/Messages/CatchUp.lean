import Mathlib.Data.List.Perm.Subperm
import MessengerApp.Launches
import MessengerApp.Messages.Sync

/-!
# Catching up with a channel

A device that has lost none of the channel's messages, and whose stored texts are not in the
way of new ones, shows just what the snapshot lists after any delivery that goes through: it
either saves the snapshot, or has everything already.

* `Received` — every message object was delivered for some channel.
* `Current` — the state before the delivery.
* `shownMessages_perm_of_delivery` — **what is shown afterwards.**
-/

namespace MessengerApp

open Machine UniqueTable CoreDataManager

namespace App

/-! ### Where a message object comes from -/

/-- Every message object, attached to a channel or not, was delivered for some channel. -/
def Received (es : List Event) (s : App) : Prop :=
  Attributed es s ∧ ∀ p ∈ s.core.messageObjects, ∃ c, Delivered es c p.message

theorem received_empty : Received [] App.empty :=
  ⟨attributed_empty, fun _ h => absurd h List.not_mem_nil⟩

theorem received_of_step {cd : CoreData} {es : List Event} {s s' : App} {e : Event}
    (hs : Received es s) (h : s.step cd e = some s') : Received (es ++ [e]) s' := by
  refine ⟨attributed_of_appStep hs.1 h, fun p hp => ?_⟩
  have hold : ∀ p₀ ∈ s.core.messageObjects, ∃ c, Delivered (es ++ [e]) c p₀.message := by
    intro p₀ hp₀
    obtain ⟨c, hc⟩ := hs.2 p₀ hp₀
    exact ⟨c, hc.append e⟩
  rcases step_core h with ⟨-, hcore⟩ | ⟨op, hop, hstep⟩
  · exact hold p (hcore ▸ hp)
  · rcases messageObject_of_step hstep hp with
      ⟨p₀, hp₀, hbecomes⟩ | ⟨message, identifier, fails, rfl, rfl⟩
    · exact hbecomes.message ▸ hold p₀ hp₀
    · exact ⟨identifier, (hs.1.main message identifier (mem_main_of_op hop)).append e⟩

/-- And what is left of an app was. -/
theorem Received.loses {es : List Event} {a b : App} (h : a.Loses b) (ha : Received es a) :
    Received es b :=
  ⟨ha.1.loses h, fun p hp => ha.2 p (h.messageObjects hp)⟩

/-! ### One delivery -/

variable {F : Fetch} {s s' : App} {r : DBChannel} {snap : Snapshot} {es : List Event}

/-- Nothing is under way, the channel is stored, and of the snapshot's messages, whose contents
differ, those whose content is stored are stored as they are and attached to the channel, which
shows nothing else. -/
structure Current (r : DBChannel) (snap : Snapshot) (s : App) : Prop where
  settled : s.Settled
  scheduled : s.core.Scheduled
  stored : r ∈ s.core.store.channels
  nodup : ((channelMessages snap).map Message.content).Nodup
  kept : ∀ p ∈ s.core.store.messages, ∀ message ∈ channelMessages snap,
    p.content = message.content → p.message = message ∧ p.channel = some r.objectID
  listed : shownMessages r.identifier s.core.store ⊆ channelMessages snap

/-- The channel is still stored after the delivery. -/
theorem stored_of_delivery (hs : s.Current r snap) (hes : ∀ e ∈ es, e.Finishes)
    (hrun : run (step (.propertyStoreTrump F)) s (.messagesSnapshot r.identifier snap :: es) =
      some s') : r ∈ s'.core.store.channels := by
  have hm := messaging_of_settled hs.settled hs.scheduled
  have hchannels := (messaging_of_run hm (fun e he => by
    rcases List.mem_cons.mp he with rfl | he
    · exact ⟨r.identifier, Or.inl ⟨snap, rfl⟩⟩
    · exact ⟨r.identifier, Or.inr (hes e he)⟩) hrun).channels
  exact hchannels ▸ hs.stored

/-- Everything stored for the channel after the delivery is in the snapshot. -/
theorem shownMessages_subset_of_delivery (hs : s.Current r snap) (hes : ∀ e ∈ es, e.Finishes)
    (hrun : run (step (.propertyStoreTrump F)) s (.messagesSnapshot r.identifier snap :: es) =
      some s')
    (hs' : s'.Settled) : shownMessages r.identifier s'.core.store ⊆ channelMessages snap := by
  have hm := messaging_of_settled hs.settled hs.scheduled
  have hmessages := messages_of_run hm hs.scheduled hes hrun hs'
  rw [promisedMessages_of_settled hs.settled hs.scheduled] at hmessages
  have hr' := stored_of_delivery hs hes hrun
  intro message hmessage
  obtain ⟨p, hp, rfl⟩ := List.mem_map.mp hmessage
  obtain ⟨hstored, r', hr'', hchan, hid⟩ := mem_fetchedResult.mp hp
  obtain rfl : r' = r := PersistentStore.eq_of_identifier hr'' hr' hid
  have hlink := (PersistentStore.channelOf_eq_some hchan).2
  -- what was stored before was shown before
  have hbefore : p ∈ s.core.store.messages → p.message ∈ channelMessages snap := by
    intro hp₀
    refine hs.listed (List.mem_map_of_mem (mem_fetchedResult.mpr ⟨hp₀, r', hs.stored, ?_, rfl⟩))
    exact (channelOf_eq_some_iff hs.stored).mpr hlink
  rw [hmessages] at hstored
  split at hstored
  · rcases mem_or_mem_of_mem_insertAll _ hstored with hp₀ | hp₀
    · exact hbefore hp₀
    · obtain ⟨m, hm, rfl⟩ := List.mem_map.mp hp₀
      exact hm
  · exact hbefore hstored

/-- **After a delivery that goes through, the channel shows what the snapshot lists**, in
whatever order the calls and the save blocks run. -/
theorem shownMessages_perm_of_delivery (hF : F.Succeeds) (hs : s.Current r snap)
    (hes : ∀ e ∈ es, e.Finishes)
    (hrun : run (step (.propertyStoreTrump F)) s (.messagesSnapshot r.identifier snap :: es) =
      some s') (hs' : s'.Settled) :
    (shownMessages r.identifier s'.core.store).Perm (channelMessages snap) := by
  have hm := messaging_of_settled hs.settled hs.scheduled
  have hmessages := messages_of_run hm hs.scheduled hes hrun hs'
  have hsub := shownMessages_subset_of_delivery hs hes hrun hs'
  have hr' := stored_of_delivery hs hes hrun
  have hsubperm : (shownMessages r.identifier s'.core.store).Subperm (channelMessages snap) :=
    List.subperm_of_subset (nodup_shownMessages _ _) hsub
  by_cases hlt : (fetchedResult r.identifier s.core.store).length < snap.length
  · -- the whole snapshot is saved, and nothing stored is in its way
    have hall : channelMessages snap ⊆ shownMessages r.identifier s'.core.store := by
      intro message hmessage
      obtain ⟨p, hp, rfl⟩ : ∃ p ∈ s'.core.store.messages, p.message = message := by
        rw [← List.mem_map, mem_stored_iff hs.settled.1 s'.core.store.messages_unique hmessages
          hs.nodup hmessage]
        split
        · next p hp =>
          have hobj := List.mem_of_find?_eq_some hp
          rw [messageObjects, (hs.scheduled.inserted_eq_nil hs.settled.2).2,
            List.append_nil] at hobj
          exact (hs.kept p hobj message hmessage (by simpa using List.find?_some hp)).1
        · exact hlt
      refine List.mem_map_of_mem (mem_fetchedResult.mpr ⟨hp, r, hr', ?_, rfl⟩)
      rw [channelOf_eq_some_iff hr']
      rw [hmessages, promisedMessages_of_settled hs.settled hs.scheduled, if_pos hlt] at hp
      rcases mem_or_mem_of_mem_insertAll _ hp with hp | hp
      · exact (hs.kept p hp p.message hmessage rfl).2
      · obtain ⟨m, -, rfl⟩ := List.mem_map.mp hp
        rw [fetchChannel_of_messaging hF hm hs.stored]
        rfl
    exact hsubperm.antisymm (List.subperm_of_subset (List.Nodup.of_map _ hs.nodup) hall)
  · -- nothing is saved, as there is nothing new
    have hsame : s'.core.store.messages = s.core.store.messages := by
      rw [hmessages, if_neg hlt, promisedMessages_of_settled hs.settled hs.scheduled]
    have hlength : (fetchedResult r.identifier s'.core.store).length =
        (fetchedResult r.identifier s.core.store).length := by
      rw [length_fetchedResult hr', length_fetchedResult hs.stored, PersistentStore.attached,
        PersistentStore.attached, hsame]
    refine hsubperm.perm_of_length_le ?_
    rw [length_channelMessages, shownMessages, List.length_map, hlength]
    omega

end App

end MessengerApp
