import MessengerApp.Channels.Redelivery
import MessengerApp.Network.Agreement
import MessengerApp.Network.Channels

/-!
# The channels on the devices

A device whose channels have not been deleted by anyone gets the list right with one
delivery: it can then only be shorter than the list of the server, so that the sync inserts
what is missing and has nothing to prune.

But the listener for the channels has to be added: `getActualChannels`, which does it, has no
caller.  Without it there is nothing to select, and nobody ever gets into a conversation.

## Main definitions

* `storedListings` — the channels that a device stores.
* `Device.Dormant` — a device that has stored, shown and opened nothing.

## Main results

* `listings_eq_live_of_delivery` — **a delivery makes the list of the device that of the server.**
* `nothing_sent_of_unlistened` — **without the listener, no message is ever sent.**
-/

namespace MessengerApp

open Machine UniqueTable CoreDataManager

/-! ### A list that lacks nothing but what is missing -/

/-- A channel that is stored afterwards was stored before or is listed. -/
theorem mem_or_mem_of_mem_syncResult {T S : List ChannelModel} {c : ChannelModel}
    (hc : c ∈ syncResult T S) : c ∈ T ∨ c ∈ S := by
  unfold syncResult at hc
  split at hc
  · exact Or.inl (List.mem_filter.mp hc).1
  · split at hc
    · exact mem_or_mem_of_mem_insertAll _ hc
    · exact Or.inl hc

/-- **A delivery makes the listings those of the snapshot**, if all that is stored is listed as
it is, and neither identifiers nor names are listed twice. -/
theorem mem_listings_syncResult {T S : List ChannelModel} (hT : Unique ChannelModel.Conflicts T)
    (hsub : ∀ c ∈ T, c.listing ∈ S.map ChannelModel.listing)
    (hids : ∀ p ∈ S.map ChannelModel.listing, ∀ q ∈ S.map ChannelModel.listing, p.1 = q.1 → p = q)
    (hnames : NamesDiffer (S.map ChannelModel.listing)) (p : String × String) :
    p ∈ (syncResult T S).map ChannelModel.listing ↔ p ∈ S.map ChannelModel.listing := by
  have hlisted : ∀ q ∈ T.map ChannelModel.listing ++ S.map ChannelModel.listing,
      q ∈ S.map ChannelModel.listing := by
    intro q hq
    rcases List.mem_append.mp hq with hq | hq
    · obtain ⟨c, hc, rfl⟩ := List.mem_map.mp hq
      exact hsub c hc
    · exact hq
  have hnames' : NamesDiffer (T.map ChannelModel.listing ++ S.map ChannelModel.listing) :=
    fun q hq q' hq' => hnames q (hlisted q hq) q' (hlisted q' hq')
  have hwithin : Within S T := by
    intro id hid
    obtain ⟨c, hc, rfl⟩ := List.mem_map.mp hid
    obtain ⟨c', hc', hlisting⟩ := List.mem_map.mp (hsub c hc)
    exact List.mem_map.mpr ⟨c', hc', congrArg Prod.fst hlisting⟩
  have hfrom : ∀ c ∈ syncResult T S, c.listing ∈ S.map ChannelModel.listing := fun c hc =>
    (mem_or_mem_of_mem_syncResult hc).elim (hsub c) List.mem_map_of_mem
  constructor
  · intro hp
    obtain ⟨c, hc, rfl⟩ := List.mem_map.mp hp
    exact hfrom c hc
  · intro hp
    obtain ⟨c, hc, rfl⟩ := List.mem_map.mp hp
    obtain ⟨c', hc', hid⟩ := List.mem_map.mp
      ((identifiers_of_within hT hwithin hnames' c.identifier).mpr (List.mem_map_of_mem hc))
    -- what is stored under its identifier has the name that is listed
    rw [hids c.listing hp c'.listing (hfrom c' hc') hid.symm]
    exact List.mem_map_of_mem hc'

namespace Network

variable {F : Fetch} {ι δ : Type*} [DecidableEq ι] {P : Platform ι δ} {n n' : Network ι δ}
  {file : ι → Option δ} {es post : List (ι × DeviceEvent δ)}

/-- The identifiers and names of the channels that a device stores. -/
def storedListings (n : Network ι δ) (i : ι) : List (String × String) :=
  (n.device i).screens.app.core.store.models.map ChannelModel.listing

/-- A stored row has the identifier and the name of a document. -/
theorem listing_of_stored (hrun : run (step P) (initial file) es = some n) {i : ι}
    {p : String × String} (hp : p ∈ n.storedListings i) :
    ∃ d ∈ n.database.channels.added, d.listing = p := by
  obtain ⟨c, hc, rfl⟩ := List.mem_map.mp hp
  obtain ⟨r, hr, rfl⟩ := List.mem_map.mp hc
  obtain ⟨d, now, hd, hmodel⟩ := document_of_stored hrun hr
  exact ⟨d, hd, congrArg ChannelModel.listing hmodel.symm⟩

omit [DecidableEq ι] in
/-- Of the documents of one run, those with one identifier have one name. -/
theorem eq_of_listing_fst {d d' : Document} (hd : d ∈ n.database.channels.added)
    (hd' : d' ∈ n.database.channels.added) (h : d.listing.1 = d'.listing.1) :
    d.listing = d'.listing := by
  rw [Collection.eq_of_documentID hd hd' h]

/-- **A delivery makes the list of the device that of the server**: if the snapshot lists the
channels of the server, no two of which have the same name, and no channel stored on the device
has been deleted, then once the delivery has gone through without a save failing, the device
stores just the channels of the server, with their names, whatever the other devices do. -/
theorem listings_eq_live_of_delivery (hcd : P.cd = .propertyStoreTrump F)
    (hrun : run (step P) (initial file) es = some n)
    (hnames : NamesDiffer (n.database.channels.live.map Document.listing)) {i : ι}
    (hrest : (n.device i).screens.app.AtRest)
    (hkept : ∀ p ∈ n.storedListings i, p.1 ∈ n.database.channels.live.map Document.documentID)
    {snap : Snapshot} (hsnap : ∀ d, d ∈ snap.map Prod.fst ↔ d ∈ n.database.channels.live)
    (hpost : ∀ e ∈ post, FinishesOn i e)
    (hrun' : run (step P) n ((i, .screen (.app (.channelsSnapshot snap))) :: post) = some n')
    (hdone : (n'.device i).screens.app.Settled) (p : String × String) :
    p ∈ n'.storedListings i ↔ p ∈ n.database.channels.live.map Document.listing := by
  obtain ⟨finishing, hfin, happ⟩ := app_of_delivery hpost hrun'
  rw [hcd] at happ
  have hmodels := App.channels_of_run hrest hfin happ hdone
  have hlive : ∀ d ∈ n.database.channels.live, d ∈ n.database.channels.added := fun d hd =>
    n.database.channels.live_sublist.subset hd
  have hS : ∀ q, q ∈ (actualChannels snap).map ChannelModel.listing ↔
      q ∈ n.database.channels.live.map Document.listing := by
    intro q
    rw [map_listing_actualChannels, List.mem_map, List.mem_map]
    simp only [hsnap]
  have hids : ∀ p ∈ n.database.channels.live.map Document.listing,
      ∀ q ∈ n.database.channels.live.map Document.listing, p.1 = q.1 → p = q := by
    intro p hp q hq hid
    obtain ⟨d, hd, rfl⟩ := List.mem_map.mp hp
    obtain ⟨d', hd', rfl⟩ := List.mem_map.mp hq
    exact eq_of_listing_fst (hlive d hd) (hlive d' hd') hid
  -- what is stored before is listed, with the name of its document
  have hsub : ∀ c ∈ (n.device i).screens.app.core.store.models,
      c.listing ∈ n.database.channels.live.map Document.listing := by
    intro c hc
    obtain ⟨d, hd, hlisting⟩ := listing_of_stored hrun (List.mem_map_of_mem hc)
    obtain ⟨d', hd', hid⟩ := List.mem_map.mp (hkept _ (List.mem_map_of_mem hc))
    have hfst : d'.listing.1 = d.listing.1 := by
      rw [hlisting]
      exact hid
    rw [← hlisting, ← eq_of_listing_fst (hlive d' hd') hd hfst]
    exact List.mem_map_of_mem hd'
  unfold storedListings
  rw [hmodels, mem_listings_syncResult (PersistentStore.models_unique _)
    (fun c hc => (hS _).mpr (hsub c hc))
    (fun p hp q hq => hids p ((hS p).mp hp) q ((hS q).mp hq))
    (fun p hp q hq => hnames p ((hS p).mp hp) q ((hS q).mp hq)), hS]

/-- The first device stores the channel of the second beside its own. -/
theorem listings_eq_live_of_delivery_second : ∃ n' : Network Bool Keyed,
    n'.storedListings false = [("a", "News"), ("b", "Tech")] ∧
      ∀ p, p ∈ n'.storedListings false ↔
        p ∈ n'.database.channels.live.map Document.listing := by
  let news := addDocument "a" (createAChannel "News" 1).toDict
  let tech := addDocument "b" (createAChannel "Tech" 2).toDict
  let creating (i : Bool) (name documentID : String) (now : Date) :
      List (Bool × DeviceEvent Keyed) :=
    [(i, .present .newChannel), (i, .textDidChange (some name)),
      (i, .createAChannel now documentID)]
  let es := creating false "News" "a" 1 ++ opening false news 5 ++ creating true "Tech" "b" 2
  let snap : Snapshot := [(tech, 7), (news, 7)]
  let steps : List Event := [.next false, .saveBlock false, .next false, .saveBlock false]
  let post : List (Bool × DeviceEvent Keyed) := (true, .present .newChannel) ::
    steps.map fun e => (false, .screen (.app e))
  let n := (run (step twoDevices) (initial fun _ => none) es).get (by decide +kernel)
  let n' := (run (step twoDevices) n
    ((false, .screen (.app (.channelsSnapshot snap))) :: post)).get (by decide +kernel)
  have hrun : run (step twoDevices) (initial fun _ => none) es = some n := (Option.some_get _).symm
  have hrun' : run (step twoDevices) n _ = some n' := (Option.some_get _).symm
  have hlive : n.database.channels.live = [news, tech] := by decide +kernel
  have hlive' : n'.database.channels.live = [news, tech] := by decide +kernel
  have hrest : (n.device false).screens.app.AtRest :=
    ⟨⟨by decide +kernel, by decide +kernel⟩, ⟨by decide +kernel, by decide +kernel⟩,
      by decide +kernel⟩
  have hpost : ∀ e ∈ post, FinishesOn false e := by
    intro e he hi
    rcases List.mem_cons.mp he with rfl | he
    · exact absurd hi (by decide)
    · obtain ⟨e', he', rfl⟩ := List.mem_map.mp he
      refine ⟨e', rfl, ?_⟩
      revert e'
      simp [steps, Event.Finishes]
  have hsnap : ∀ d, d ∈ snap.map Prod.fst ↔ d ∈ n.database.channels.live := by
    intro d
    simp [hlive, snap, or_comm]
  refine ⟨n', by decide +kernel, fun p => ?_⟩
  rw [hlive', ← hlive]
  exact listings_eq_live_of_delivery rfl hrun (by decide +kernel) hrest (by decide +kernel) hsnap
    hpost hrun' ⟨by decide +kernel, by decide +kernel⟩ p

end Network

/-! ### Without the listener for the channels -/

variable {ι δ : Type*} {P : Platform ι δ}

/-- No channel has been stored or shown, and no listener is running. -/
structure Screens.Dormant (s : Screens) : Prop where
  core : s.app.core = .empty
  main : s.app.main = []
  drawn : ∀ row, s.drawn row = none
  swipe : s.swipe = none

/-- And no conversation has been opened. -/
structure Device.Dormant (d : Device δ) : Prop where
  screens : d.screens.Dormant
  conversation : d.conversation = none
  listening : d.listening = []

/-- The app only wakes up when a listener is handed something. -/
theorem App.dormant_of_step {cd : CoreData} {s s' : App} {e : Event} (hcore : s.core = .empty)
    (hmain : s.main = []) (hchannels : ∀ snap, e ≠ .channelsSnapshot snap)
    (hmessages : ∀ c snap, e ≠ .messagesSnapshot c snap)
    (hdelete : ∀ object fails, e ≠ .deleteChannel object fails) (h : s.step cd e = some s') :
    s'.core = .empty ∧ s'.main = [] := by
  cases e with
  | channelsSnapshot snap => exact absurd rfl (hchannels snap)
  | messagesSnapshot c snap => exact absurd rfl (hmessages c snap)
  | deleteChannel object fails => exact absurd rfl (hdelete object fails)
  | next fails =>
    obtain ⟨c, cs, hnext, -⟩ := App.step_next.mp h
    exact absurd (hmain.symm.trans hnext) (by simp)
  | saveBlock fails =>
    -- no block has been scheduled
    obtain ⟨core, hblock, -⟩ := App.step_saveBlock.mp h
    have hlt := (runSaveBlock_cases hblock).1
    rw [hcore] at hlt
    exact absurd hlt (by decide)
  | merge objects =>
    obtain ⟨-, rfl⟩ := App.step_merge.mp h
    exact ⟨hcore, hmain⟩

theorem Screens.dormant_of_step {cd : CoreData} {s s' : Screens} {e : ScreenEvent}
    (hs : s.Dormant) (hchannels : ∀ snap, e ≠ .app (.channelsSnapshot snap))
    (hmessages : ∀ c snap, e ≠ .app (.messagesSnapshot c snap)) (h : s.step cd e = some s') :
    s'.Dormant ∧ ∀ row, e ≠ .select row := by
  obtain ⟨hcore, hmain, hdrawn, hswipe⟩ := hs
  cases e with
  | app e =>
    obtain ⟨hdelete, app, happ, rfl⟩ := Screens.step_app.mp h
    obtain ⟨hcore, hmain⟩ := App.dormant_of_step hcore hmain
      (fun snap heq => hchannels snap (congrArg _ heq))
      (fun c snap heq => hmessages c snap (congrArg _ heq)) hdelete happ
    exact ⟨⟨hcore, hmain, hdrawn, hswipe⟩, by simp⟩
  | reloadChannels =>
    obtain ⟨-, rfl⟩ := Screens.step_reloadChannels.mp h
    exact ⟨⟨hcore, hmain, fun _ => rfl, hswipe⟩, by simp⟩
  | channelCell row =>
    obtain ⟨-, x, hx, -⟩ := Screens.step_channelCell.mp h
    unfold Screens.cellForRowAt at hx
    rw [hcore] at hx
    exact absurd hx (by simp [fetchChannels, CoreDataManager.empty, PersistentStore.empty])
  | select row =>
    obtain ⟨⟨-, hsome⟩, -⟩ := Screens.step_select.mp h
    exact absurd hsome (by simp [hdrawn row])
  | openSwipe row =>
    obtain ⟨-, x, hx, -⟩ := Screens.step_openSwipe.mp h
    exact absurd ((hdrawn row).symm.trans hx) (by simp)
  | confirmSwipe fails =>
    obtain ⟨-, row, x, hx, -⟩ := Screens.step_confirmSwipe.mp h
    exact absurd (hswipe.symm.trans hx) (by simp)
  | reloadMessages c =>
    obtain ⟨-, rfl⟩ := Screens.step_reloadMessages.mp h
    exact ⟨⟨hcore, hmain, hdrawn, hswipe⟩, by simp⟩
  | messageCell c row =>
    obtain ⟨-, m, -, rfl⟩ := Screens.step_messageCell.mp h
    exact ⟨⟨hcore, hmain, hdrawn, hswipe⟩, by simp⟩
  | closeConversation c =>
    obtain ⟨-, rfl⟩ := Screens.step_closeConversation.mp h
    exact ⟨⟨hcore, hmain, hdrawn, hswipe⟩, by simp⟩

theorem Device.dormant_initial (file : Option δ) : (Device.initial file).Dormant :=
  ⟨⟨rfl, rfl, fun _ => rfl, rfl⟩, rfl, rfl⟩

theorem Device.dormant_of_step {d d' : Device δ} {e : DeviceEvent δ} (hd : d.Dormant)
    (hchannels : ∀ snap, e ≠ .screen (.app (.channelsSnapshot snap)))
    (hmessages : ∀ c snap, e ≠ .screen (.app (.messagesSnapshot c snap)))
    (h : d.step P e = some d') : d'.Dormant := by
  obtain ⟨hscreens, hconversation, hlistening⟩ := hd
  cases e with
  | screen e =>
    obtain ⟨screens, hs, rfl⟩ := Device.step_screen.mp h
    obtain ⟨hscreens, hselect⟩ := Screens.dormant_of_step hscreens
      (fun snap heq => hchannels snap (congrArg _ heq))
      (fun c snap heq => hmessages c snap (congrArg _ heq)) hs
    cases e with
    | select row => exact absurd rfl (hselect row)
    | closeConversation c =>
      exact ⟨hscreens, by simp [Device.visit, hconversation], hlistening⟩
    | _ => exact ⟨hscreens, hconversation, hlistening⟩
  | profile e =>
    obtain ⟨profile, -, rfl⟩ := Device.step_profile.mp h
    exact ⟨hscreens, hconversation, hlistening⟩
  | present kind =>
    obtain ⟨-, rfl⟩ := Device.step_present.mp h
    exact ⟨hscreens, hconversation, hlistening⟩
  | textDidChange text =>
    obtain ⟨-, a, -, rfl⟩ := Device.step_textDidChange.mp h
    exact ⟨hscreens, hconversation, hlistening⟩
  | dismiss =>
    obtain ⟨-, rfl⟩ := Device.step_dismiss.mp h
    exact ⟨hscreens, hconversation, hlistening⟩
  | sendMessage now documentID =>
    obtain ⟨⟨-, -, hopen⟩, -⟩ := Device.step_sendMessage.mp h
    exact absurd hopen (by simp [hconversation])
  | sendImage imageURL now documentID =>
    obtain ⟨⟨-, hopen⟩, -⟩ := Device.step_sendImage.mp h
    exact absurd hopen (by simp [hconversation])
  | createAChannel now documentID =>
    obtain ⟨-, rfl⟩ := Device.step_createAChannel.mp h
    exact ⟨⟨hscreens.core, hscreens.main, fun _ => rfl, hscreens.swipe⟩, hconversation, hlistening⟩
  | relaunch =>
    obtain rfl := Device.step_relaunch.mp h
    refine ⟨⟨?_, rfl, fun _ => rfl, rfl⟩, rfl, rfl⟩
    show d.screens.app.core.relaunch = .empty
    rw [hscreens.core]
    rfl

/-- In a dormant device there is no conversation to send to. -/
theorem Device.Dormant.sends_eq_none {d : Device δ} (hd : d.Dormant) (i : ι) (e : DeviceEvent δ) :
    d.sends P i e = none := by
  cases e <;> simp [Device.sends, hd.conversation]

namespace Network

variable [DecidableEq ι] {n n' : Network ι δ} {file : ι → Option δ} {es : List (ι × DeviceEvent δ)}

/-- **Without the listener for the channels, no message is ever sent**: whatever channels are
created, no device stores, shows or opens one, and nothing gets into any conversation. -/
theorem nothing_sent_of_unlistened (hrun : run (step P) (initial file) es = some n)
    (hchannels : ∀ i snap, (i, .screen (.app (.channelsSnapshot snap))) ∉ es) :
    (∀ i, (n.device i).Dormant) ∧ ∀ c, (n.database.messages c).added = [] := by
  have hstep : ∀ (n : Network ι δ) e n', (∀ i, (n.device i).Dormant) →
      (∀ snap, e.2 ≠ .screen (.app (.channelsSnapshot snap))) → n.step P e = some n' →
      ∀ i, (n'.device i).Dormant := by
    intro n e n' hn hchannels h i
    have hdelivers := (step_eq_some.mp h).1
    rcases device_of_step h i with ⟨rfl, hdevice⟩ | ⟨-, heq⟩
    · refine Device.dormant_of_step (hn e.1) hchannels (fun c snap heq => ?_) hdevice
      -- a dormant device listens to nothing
      have hdel := hdelivers (some c, snap) (by rw [heq]; rfl)
      exact absurd hdel.1 (by simp [(hn e.1).listening])
    · exact heq ▸ hn i
  have hall : ∀ {es n}, (∀ i snap, (i, .screen (.app (.channelsSnapshot snap))) ∉ es) →
      run (step P) (initial file) es = some n → ∀ i, (n.device i).Dormant := by
    intro es n hes hrun
    refine invariant (fun n => ∀ i, (n.device i).Dormant)
      (fun e => ∀ snap, e.2 ≠ .screen (.app (.channelsSnapshot snap)))
      (fun n e n' hn he h => hstep n e n' hn he h) (fun e he snap heq => ?_)
      (fun i => Device.dormant_initial (file i)) hrun
    exact hes e.1 snap (heq ▸ he)
  refine ⟨hall hchannels hrun, fun c => List.eq_nil_iff_forall_not_mem.mpr fun d hd => ?_⟩
  obtain ⟨i, m, documentID, hsent, -⟩ := sent_of_mem_messages hrun hd
  obtain ⟨pre, e, post, u, v, rfl, hpre, -, -, hobs⟩ := (mem_observe hrun).mp hsent
  have hu := hall (fun i snap hmem => hchannels i snap (List.mem_append_left _ hmem)) hpre e.1
  rw [sent, hu.sends_eq_none] at hobs
  exact absurd hobs (by simp)

/-- A channel is created, but the device that created it does not list it. -/
theorem nothing_sent_of_unlistened_created : ∃ n : Network Bool Keyed,
    n.database.channels.live.map Document.listing = [("a", "News")] ∧
      (∀ i, (n.device i).Dormant) ∧ ∀ c, (n.database.messages c).added = [] := by
  let es : List (Bool × DeviceEvent Keyed) := [(false, .present .newChannel),
    (false, .textDidChange (some "News")), (false, .createAChannel 1 "a"),
    (false, .screen .reloadChannels), (false, .screen (.app (.merge [])))]
  let n := (run (step twoDevices) (initial fun _ => none) es).get (by decide +kernel)
  have hrun : run (step twoDevices) (initial fun _ => none) es = some n := (Option.some_get _).symm
  exact ⟨n, by decide +kernel, nothing_sent_of_unlistened hrun (by simp [es])⟩

end Network

end MessengerApp
