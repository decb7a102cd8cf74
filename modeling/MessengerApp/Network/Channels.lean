import MessengerApp.Channels.Cell
import MessengerApp.Channels.Provenance
import MessengerApp.Network.System

/-!
# Channels between the devices

The document of a channel holds its name and nothing else.  So every row of the channels
screen, on every device and at any time, has the name that some user once gave the channel,
and beside it two defaults: the preview "Last Message", and the time at which this device
decoded the snapshot that got the row stored.

## Main definitions

* `createdChannels` — who created which channel in a run.

## Main results

* `labels_of_stored` — **what the cell of a channel says**, on any device.
* `name_eq_of_stored` — **no two devices ever disagree on the name of a channel.**
* `swiped_of_deleted` — **only a confirmed swipe deletes a channel for everyone.**
-/

namespace MessengerApp

open Machine CoreDataManager

namespace Network

variable {ι δ : Type*} [DecidableEq ι] {P : Platform ι δ} {n n' : Network ι δ}
  {file : ι → Option δ} {es es' : List (ι × DeviceEvent δ)}

/-- The channels created in a run, with their creators and documents. -/
def createdChannels (P : Platform ι δ) (file : ι → Option δ) (es : List (ι × DeviceEvent δ)) :
    List (ι × String × ChannelModel) := observe (step P) created (initial file) es

/-- A created channel has the name that was entered, and nobody can enter an empty one. -/
theorem name_ne_empty_of_created (hrun : run (step P) (initial file) es = some n) {i : ι}
    {documentID : String} {channel : ChannelModel}
    (h : (i, documentID, channel) ∈ createdChannels P file es) : channel.name ≠ "" := by
  obtain ⟨pre, e, post, u, v, rfl, hpre, -, -, hcreated⟩ := (mem_observe hrun).mp h
  obtain ⟨⟨documentID', channel'⟩, hc, heq⟩ := Option.map_eq_some_iff.mp hcreated
  obtain ⟨-, -, rfl⟩ : e.1 = i ∧ documentID' = documentID ∧ channel' = channel := by
    simpa using heq
  obtain ⟨name, now, -, hname, rfl⟩ := Device.creates_eq_some hc
  exact (Device.entered_eq_some (sound_of_run hpre e.1) hname).1

/-- **Where the row of a channel comes from**: a document of the database, as the device decoded
it from a snapshot it was handed. -/
theorem document_of_stored (hrun : run (step P) (initial file) es = some n) {i : ι}
    {r : DBChannel} (hr : r ∈ (n.device i).screens.app.core.store.channels) :
    ∃ d now, d ∈ n.database.channels.added ∧ r.model = decodeChannel d now := by
  have horiginates := app_history_invariant App.Originates (fun _ _ _ h ha => ha.loses h)
    (fun _ _ _ _ h hstep => App.originates_of_step h hstep) App.originates_empty hrun i
  obtain ⟨snap, hsnap, hmem⟩ := horiginates.core r (List.mem_append_left _ hr)
  obtain ⟨⟨d, now⟩, hd, heq⟩ := List.mem_map.mp hmem
  exact ⟨d, now, (added_of_received hrun hsnap).1 _ rfl _ hd, heq.symm⟩

/-- The row has the channel's name and the defaults. -/
theorem created_of_stored (hrun : run (step P) (initial file) es = some n) {i : ι}
    {r : DBChannel} (hr : r ∈ (n.device i).screens.app.core.store.channels) :
    ∃ j channel now, (j, r.identifier, channel) ∈ createdChannels P file es ∧
      r.model = ⟨r.identifier, channel.name, some "Last Message", some now⟩ := by
  obtain ⟨d, now, hd, hmodel⟩ := document_of_stored hrun hr
  obtain ⟨j, channel, documentID, hcreated, rfl⟩ := created_of_mem_channels hrun hd
  rw [decodeChannel_addDocument] at hmodel
  obtain rfl : r.identifier = documentID := congrArg ChannelModel.identifier hmodel
  exact ⟨j, channel, now, hcreated, hmodel⟩

/-- **What the cell of a channel says**, on any device and at any time: the name its creator
entered, which is not empty, and the preview "Last Message", never that there are no messages
yet, that there is nothing in it, or what was said last. -/
theorem labels_of_stored (hrun : run (step P) (initial file) es = some n) {i : ι}
    {r : DBChannel} (hr : r ∈ (n.device i).screens.app.core.store.channels) {α : Type*}
    (F : CellFormat α) (now now' : Date) :
    ∃ j channel, (j, r.identifier, channel) ∈ createdChannels P file es ∧ channel.name ≠ "" ∧
      (ConversationTableViewCell.configure F r.model now now').nameLabel = some channel.name ∧
      (ConversationTableViewCell.configure F r.model now now').messageLabel =
        some "Last Message" := by
  obtain ⟨j, channel, date, hcreated, hmodel⟩ := created_of_stored hrun hr
  refine ⟨j, channel, hcreated, name_ne_empty_of_created hrun hcreated, ?_, ?_⟩
  · rw [hmodel]
    rfl
  · rw [hmodel, ConversationTableViewCell.messageLabel_eq_iff]
    exact Or.inr (Or.inr ⟨rfl, by decide⟩)

/-- The row of the second device, whoever created the channel. -/
theorem labels_of_stored_conversation : ∃ n : Network Bool Keyed,
    run (step twoDevices) (initial fun _ => none) conversation = some n ∧
      ∃ r ∈ (n.device true).screens.app.core.store.channels, ∀ now now', ∃ j channel,
        (j, r.identifier, channel) ∈ createdChannels twoDevices (fun _ => none) conversation ∧
          channel.name ≠ "" ∧
          (ConversationTableViewCell.configure ⟨fun d d' => decide (d < d'), fun s _ => s, id, id⟩
            r.model now now').nameLabel = some channel.name ∧
          (ConversationTableViewCell.configure ⟨fun d d' => decide (d < d'), fun s _ => s, id, id⟩
            r.model now now').messageLabel = some "Last Message" := by
  let n := (run (step twoDevices) (initial fun _ => none) conversation).get (by decide +kernel)
  have hrun : run (step twoDevices) (initial fun _ => none) conversation = some n :=
    (Option.some_get _).symm
  have hr : ⟨0, "a", "News", some "Last Message", some 6⟩ ∈
      (n.device true).screens.app.core.store.channels := by decide +kernel
  exact ⟨n, hrun, _, hr, fun now now' => labels_of_stored hrun hr _ now now'⟩

/-- **No two devices ever disagree on a channel**: the rows of one identifier, on any devices and
at any two times of a run, have one name and one preview. -/
theorem name_eq_of_stored (hpre : run (step P) (initial file) es = some n)
    (hpost : run (step P) n es' = some n') {i j : ι} {r r' : DBChannel}
    (hr : r ∈ (n.device i).screens.app.core.store.channels)
    (hr' : r' ∈ (n'.device j).screens.app.core.store.channels)
    (hid : r.identifier = r'.identifier) :
    r.name = r'.name ∧ r.lastMessage = r'.lastMessage := by
  obtain ⟨d, now, hd, hmodel⟩ := document_of_stored hpre hr
  obtain ⟨d', now', hd', hmodel'⟩ :=
    document_of_stored ((run_append_eq_some _).mpr ⟨n, hpre, hpost⟩) hr'
  have hdoc : r.identifier = d.documentID := congrArg ChannelModel.identifier hmodel
  have hdoc' : r'.identifier = d'.documentID := congrArg ChannelModel.identifier hmodel'
  have heq : d = d' := Collection.eq_of_documentID ((added_subset_of_run hpre hpost).1 hd) hd'
    (hdoc.symm.trans (hid.trans hdoc'))
  subst heq
  exact ⟨(congrArg ChannelModel.name hmodel).trans (congrArg ChannelModel.name hmodel').symm,
    (congrArg ChannelModel.lastMessage hmodel).trans
      (congrArg ChannelModel.lastMessage hmodel').symm⟩

/-- The same channel on both devices, stored at different times. -/
theorem name_eq_of_stored_conversation : ∃ (n n' : Network Bool Keyed)
    (r r' : DBChannel),
    run (step twoDevices) (initial fun _ => none) (conversation.take 14) = some n ∧
      run (step twoDevices) n (conversation.drop 14) = some n' ∧
      r ∈ (n.device false).screens.app.core.store.channels ∧
      r' ∈ (n'.device true).screens.app.core.store.channels ∧ r ≠ r' ∧
      r.name = r'.name ∧ r.lastMessage = r'.lastMessage := by
  let n := (run (step twoDevices) (initial fun _ => none) (conversation.take 14)).get
    (by decide +kernel)
  let n' := (run (step twoDevices) n (conversation.drop 14)).get (by decide +kernel)
  have hpre : run (step twoDevices) (initial fun _ => none) _ = some n := (Option.some_get _).symm
  have hpost : run (step twoDevices) n _ = some n' := (Option.some_get _).symm
  have hr : ⟨0, "a", "News", some "Last Message", some 5⟩ ∈
      (n.device false).screens.app.core.store.channels := by decide +kernel
  have hr' : ⟨0, "a", "News", some "Last Message", some 6⟩ ∈
      (n'.device true).screens.app.core.store.channels := by decide +kernel
  exact ⟨n, n', _, _, hpre, hpost, hr, hr', by decide,
    name_eq_of_stored hpre hpost hr hr' rfl⟩

/-! ### Deletions -/

/-- **Only a confirmed swipe deletes a channel for everyone**: if the document of a channel is
gone, some user confirmed a deletion while the row of the open swipe was, for the controller, a
channel with its identifier.  What the sync removes from a device stays in the database, and so
do all messages, also those of deleted channels. -/
theorem swiped_of_deleted (hrun : run (step P) (initial file) es = some n) :
    (∀ d ∈ n.database.channels.added, d ∉ n.database.channels.live →
      ∃ pre j fails post u row shown x, es = pre ++ (j, .screen (.confirmSwipe fails)) :: post ∧
        run (step P) (initial file) pre = some u ∧
        (u.device j).screens.swipe = some (row, shown) ∧
        (u.device j).screens.object row = some x ∧ x.identifier = d.documentID) ∧
      ∀ c, (n.database.messages c).live = (n.database.messages c).added := by
  obtain ⟨hchannels, hmessages⟩ := Database.live_of_run (database_of_run hrun)
  refine ⟨fun d hd hn => ?_, hmessages⟩
  obtain ⟨pre, ⟨j, e⟩, post, u, v, rfl, hpre, -, -, hwrite⟩ :=
    (mem_observe hrun).mp (hchannels d hd hn)
  obtain ⟨fails, row, shown, x, rfl, hswipe, hx, hid⟩ := write_eq_deleteChannel hwrite
  exact ⟨pre, j, fails, post, u, row, shown, x, rfl, hpre, hswipe, hx, hid⟩

/-- The second device deletes the channel of the first, which keeps its row. -/
theorem swiped_of_deleted_conversation :
    ∃ (n : Network Bool Keyed) (d : Document),
    run (step twoDevices) (initial fun _ => none) (conversation ++
        [(true, .screen (.openSwipe 0)), (true, .screen (.confirmSwipe false))]) = some n ∧
      d ∈ n.database.channels.added ∧ d ∉ n.database.channels.live ∧
      (∃ r ∈ (n.device false).screens.app.core.store.channels, r.identifier = d.documentID) ∧
      ∃ pre j fails post u row shown x, conversation ++
          [(true, .screen (.openSwipe 0)), (true, .screen (.confirmSwipe false))] =
          pre ++ (j, .screen (.confirmSwipe fails)) :: post ∧
        run (step twoDevices) (initial fun _ => none) pre = some u ∧
        (u.device j).screens.swipe = some (row, shown) ∧
        (u.device j).screens.object row = some x ∧ x.identifier = d.documentID := by
  let n := (run (step twoDevices) (initial fun _ => none) (conversation ++
    [(true, .screen (.openSwipe 0)), (true, .screen (.confirmSwipe false))])).get
      (by decide +kernel)
  have hrun : run (step twoDevices) (initial fun _ => none) _ = some n := (Option.some_get _).symm
  let d := addDocument "a" (createAChannel "News" 1).toDict
  have hd : d ∈ n.database.channels.added := by decide +kernel
  have hn : d ∉ n.database.channels.live := by decide +kernel
  have hr : ∃ r ∈ (n.device false).screens.app.core.store.channels,
      r.identifier = d.documentID := by decide +kernel
  exact ⟨n, d, hrun, hd, hn, hr, (swiped_of_deleted hrun).1 d hd hn⟩

end Network

end MessengerApp
