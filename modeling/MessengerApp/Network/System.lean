import Mathlib.Logic.Function.Basic
import MessengerApp.Library.Simulation
import MessengerApp.Network.Device

/-!
# The devices and their database

Any number of devices write to one database and listen to it.  A listener is
handed documents of its collection as of any time: from the cache of the
device, from the server, or with writes of the device that the server has not
seen, in any order.  So all that is known of a snapshot is that its documents
have been added to the collection, and that it lists none of them twice.
Deleting the document of a channel leaves the collection of its messages alone.

## Main definitions

* `Collection`, `Database`, `Database.perform` — what is stored, and the writes.
* `Network`, `Network.step` — the devices with the database.
* `Network.sent`, `Network.created` — the message that an event sends, the channel that it
  creates.

## Main results

* `app_history_invariant`, `profile_history_invariant` — **what holds of a part of a device
  holds of it in the network**, however often the apps are launched.
* `database_of_run` — a run of the network is one of its database.
* `sent_of_mem_messages`, `created_of_mem_channels` — what the database holds is what the
  devices sent and created.
* `added_of_received` — what a device is handed is in the database.
-/

namespace MessengerApp

open Machine

/-! ### The database -/

/-- A collection: the documents added so far, those of them that are not deleted.  No ID is
chosen twice. -/
structure Collection where
  added : List Document
  live : List Document
  ids_nodup : (added.map Document.documentID).Nodup
  live_sublist : live.Sublist added

namespace Collection

def empty : Collection where
  added := []
  live := []
  ids_nodup := List.nodup_nil
  live_sublist := List.nil_sublist _

/-- `addDocument(data:)`, if the ID is one that can be chosen. -/
def add (c : Collection) (document : Document) : Option Collection :=
  if h : document.documentID ∉ c.added.map Document.documentID then
    some {
      added := c.added ++ [document]
      live := c.live ++ [document]
      ids_nodup := by
        rw [List.map_append, List.nodup_append]
        refine ⟨c.ids_nodup, List.nodup_singleton _, ?_⟩
        rintro a ha b hb rfl
        rw [List.map_singleton, List.mem_singleton] at hb
        exact h (hb ▸ ha)
      live_sublist := c.live_sublist.append (List.Sublist.refl _) }
  else none

/-- `document(identifier).delete()`. -/
def delete (c : Collection) (identifier : String) : Collection :=
  { c with
    live := c.live.filter (·.documentID ≠ identifier)
    live_sublist := List.filter_sublist.trans c.live_sublist }

/-- What a listener can be handed. -/
def Delivers (c : Collection) (snap : Snapshot) : Prop :=
  (snap.map fun d => d.1.documentID).Nodup ∧ ∀ d ∈ snap, d.1 ∈ c.added

instance (c : Collection) : DecidablePred c.Delivers := fun snap =>
  inferInstanceAs (Decidable ((snap.map fun d => d.1.documentID).Nodup ∧ ∀ d ∈ snap, d.1 ∈ c.added))

@[simp] theorem delete_added (c : Collection) (identifier : String) :
    (c.delete identifier).added = c.added := rfl

theorem add_eq_some {c c' : Collection} {document : Document} (h : c.add document = some c') :
    c'.added = c.added ++ [document] ∧ c'.live = c.live ++ [document] := by
  unfold add at h
  split at h
  · obtain rfl := Option.some.inj h
    exact ⟨rfl, rfl⟩
  · exact absurd h (by simp)

/-- Two documents with one ID are one. -/
theorem eq_of_documentID {c : Collection} {d d' : Document} (hd : d ∈ c.added)
    (hd' : d' ∈ c.added) (h : d.documentID = d'.documentID) : d = d' :=
  List.inj_on_of_nodup_map c.ids_nodup hd hd' h

end Collection

/-- The collection `channels`, and under each of its documents the collection `messages`,
which `getMessagesReferenceFormFirebase` refers to. -/
structure Database where
  channels : Collection
  messages : String → Collection

/-- The document that a write adds to `channels`. -/
def Write.channel : Write → Option Document
  | .addChannel document => some document
  | _ => none

/-- The document that a write adds to the messages of a channel. -/
def Write.messageTo (c : String) : Write → Option Document
  | .addMessage channelIdentifier document =>
      if channelIdentifier = c then some document else none
  | _ => none

namespace Database

def empty : Database where
  channels := .empty
  messages := fun _ => .empty

/-- The database after a write. -/
def perform (db : Database) : Write → Option Database
  | .addChannel document =>
      (db.channels.add document).map fun channels => { db with channels := channels }
  | .addMessage channelIdentifier document =>
      ((db.messages channelIdentifier).add document).map fun messages =>
        { db with messages := Function.update db.messages channelIdentifier messages }
  | .deleteChannel identifier => some { db with channels := db.channels.delete identifier }

variable {db : Database} {ws : List Write}

/-- **What has been added** to either kind of collection: just what was written, in this order. -/
theorem added_of_run (hrun : run perform .empty ws = some db) :
    db.channels.added = ws.filterMap Write.channel ∧
      ∀ c, (db.messages c).added = ws.filterMap (Write.messageTo c) := by
  refine history_invariant (fun ws db =>
    db.channels.added = ws.filterMap Write.channel ∧
      ∀ c, (db.messages c).added = ws.filterMap (Write.messageTo c)) ?_
    ⟨rfl, fun _ => rfl⟩ ws db hrun
  rintro ws db w db' ⟨hchannels, hmessages⟩ h
  cases w with
  | addChannel document =>
    obtain ⟨channels, hadd, rfl⟩ := Option.map_eq_some_iff.mp h
    refine ⟨?_, fun c => by simpa [Write.messageTo, List.filterMap_cons] using hmessages c⟩
    show channels.added = _
    rw [(Collection.add_eq_some hadd).1, hchannels, List.filterMap_append]
    rfl
  | addMessage channelIdentifier document =>
    obtain ⟨messages, hadd, rfl⟩ := Option.map_eq_some_iff.mp h
    refine ⟨by simpa [Write.channel, List.filterMap_cons] using hchannels, fun c => ?_⟩
    show (Function.update db.messages channelIdentifier messages c).added = _
    rw [List.filterMap_append]
    by_cases hc : channelIdentifier = c
    · subst hc
      rw [Function.update_self, (Collection.add_eq_some hadd).1, hmessages]
      simp [Write.messageTo]
    · rw [Function.update_of_ne (Ne.symm hc), hmessages]
      simp [Write.messageTo, hc]
  | deleteChannel identifier =>
    obtain rfl := Option.some.inj h
    exact ⟨by simpa [Write.channel, List.filterMap_cons] using hchannels,
      fun c => by simpa [Write.messageTo, List.filterMap_cons] using hmessages c⟩

theorem mem_channels_of_run (hrun : run perform .empty ws = some db) {d : Document} :
    d ∈ db.channels.added ↔ .addChannel d ∈ ws := by
  rw [(added_of_run hrun).1, List.mem_filterMap]
  constructor
  · rintro ⟨w, hw, hd⟩
    cases w with
    | addChannel document =>
      obtain rfl := Option.some.inj hd
      exact hw
    | _ => cases hd
  · exact fun h => ⟨_, h, rfl⟩

theorem mem_messages_of_run (hrun : run perform .empty ws = some db) {c : String}
    {d : Document} : d ∈ (db.messages c).added ↔ .addMessage c d ∈ ws := by
  rw [(added_of_run hrun).2, List.mem_filterMap]
  constructor
  · rintro ⟨w, hw, hd⟩
    cases w with
    | addMessage channelIdentifier document =>
      obtain ⟨rfl, heq⟩ := Option.ite_none_right_eq_some.mp hd
      obtain rfl := Option.some.inj heq
      exact hw
    | _ => cases hd
  · exact fun h => ⟨_, h, by simp [Write.messageTo]⟩

/-- **What is deleted**: a channel only by name, and no message. -/
theorem live_of_run (hrun : run perform .empty ws = some db) :
    (∀ d ∈ db.channels.added, d ∉ db.channels.live → .deleteChannel d.documentID ∈ ws) ∧
      ∀ c, (db.messages c).live = (db.messages c).added := by
  refine history_invariant (fun ws db =>
    (∀ d ∈ db.channels.added, d ∉ db.channels.live → .deleteChannel d.documentID ∈ ws) ∧
      ∀ c, (db.messages c).live = (db.messages c).added) ?_
    ⟨by simp [empty, Collection.empty], fun _ => rfl⟩ ws db hrun
  rintro ws db w db' ⟨hchannels, hmessages⟩ h
  have hold : ∀ d ∈ db.channels.added, d ∉ db.channels.live →
      .deleteChannel d.documentID ∈ ws ++ [w] := fun d hd hn =>
    List.mem_append_left _ (hchannels d hd hn)
  cases w with
  | addChannel document =>
    obtain ⟨channels, hadd, rfl⟩ := Option.map_eq_some_iff.mp h
    obtain ⟨hadded, hlive⟩ := Collection.add_eq_some hadd
    refine ⟨fun d hd hn => ?_, hmessages⟩
    change d ∈ channels.added at hd
    change d ∉ channels.live at hn
    rw [hadded, List.mem_append] at hd
    rw [hlive, List.mem_append, not_or] at hn
    rcases hd with hd | hd
    · exact hold d hd hn.1
    · exact absurd hd hn.2
  | addMessage channelIdentifier document =>
    obtain ⟨messages, hadd, rfl⟩ := Option.map_eq_some_iff.mp h
    obtain ⟨hadded, hlive⟩ := Collection.add_eq_some hadd
    refine ⟨hold, fun c => ?_⟩
    show (Function.update db.messages channelIdentifier messages c).live =
      (Function.update db.messages channelIdentifier messages c).added
    by_cases hc : c = channelIdentifier
    · subst hc
      rw [Function.update_self, hadded, hlive, hmessages c]
    · rw [Function.update_of_ne hc, hmessages c]
  | deleteChannel identifier =>
    obtain rfl := Option.some.inj h
    refine ⟨fun d hd hn => ?_, hmessages⟩
    by_cases hlive : d ∈ db.channels.live
    · -- it was there until now, so it is the one that is named
      have hid : d.documentID = identifier := by
        by_contra hne
        exact hn (List.mem_filter.mpr ⟨hlive, by simpa using hne⟩)
      rw [hid]
      exact List.mem_append_right _ List.mem_cons_self
    · exact hold d hd hlive

end Database

/-! ### The network -/

/-- The database and the devices. -/
structure Network (ι δ : Type*) where
  database : Database
  device : ι → Device δ

namespace Network

variable {ι δ : Type*} [DecidableEq ι]

/-- Nothing is written, and every app is started for the first time. -/
def initial (file : ι → Option δ) : Network ι δ where
  database := .empty
  device := fun i => .initial (file i)

variable (P : Platform ι δ) (n : Network ι δ)

/-- The snapshot that an event hands to a listener, with the channel if it is one of messages. -/
def received : DeviceEvent δ → Option (Option String × Snapshot)
  | .screen (.app (.channelsSnapshot snap)) => some (none, snap)
  | .screen (.app (.messagesSnapshot c snap)) => some (some c, snap)
  | _ => none

/-- What the listeners of a device can be handed. -/
def Delivers (i : ι) : Option String × Snapshot → Prop
  | (none, snap) => n.database.channels.Delivers snap
  | (some c, snap) => c ∈ (n.device i).listening ∧ (n.database.messages c).Delivers snap

instance (i : ι) : DecidablePred (n.Delivers i)
  | (none, snap) => inferInstanceAs (Decidable (n.database.channels.Delivers snap))
  | (some c, snap) =>
      inferInstanceAs (Decidable
        (c ∈ (n.device i).listening ∧ (n.database.messages c).Delivers snap))

/-- The next state, after an event on one of the devices. -/
def step (n : Network ι δ) (e : ι × DeviceEvent δ) : Option (Network ι δ) :=
  if ∀ r ∈ received e.2, n.Delivers e.1 r then
    ((n.device e.1).step P e.2).bind fun device =>
      (run Database.perform n.database ((n.device e.1).write P e.1 e.2).toList).map fun database =>
        { database := database, device := Function.update n.device e.1 device }
  else none

/-- The sender, the channel and the message of an event that sends one. -/
def sent (e : ι × DeviceEvent δ) : Option (ι × String × Message) :=
  ((n.device e.1).sends P e.1 e.2).map fun m => (e.1, m)

/-- The creator, the document's ID and the channel of an event that creates one. -/
def created (e : ι × DeviceEvent δ) : Option (ι × String × ChannelModel) :=
  ((n.device e.1).creates e.2).map fun c => (e.1, c)

/-- What an event is for the app of a device. -/
def appEvent (i : ι) (n : Network ι δ) (e : ι × DeviceEvent δ) : Option Event :=
  if e.1 = i then (n.device i).appEvent e.2 else none

/-- What an event is for the profile of a device. -/
def profileEvent (i : ι) (_ : Network ι δ) (e : ι × DeviceEvent δ) : Option (ProfileEvent δ) :=
  if e.1 = i then Device.profileEvent e.2 else none

/-- What an event writes. -/
def write (n : Network ι δ) (e : ι × DeviceEvent δ) : Option Write := (n.device e.1).write P e.1 e.2

/-! ### The parts of the network -/

variable {P n} {n' : Network ι δ} {e : ι × DeviceEvent δ}

theorem step_eq_some : n.step P e = some n' ↔
    (∀ r ∈ received e.2, n.Delivers e.1 r) ∧
      ∃ device database, (n.device e.1).step P e.2 = some device ∧
        run Database.perform n.database (n.write P e).toList = some database ∧
        n' = { database := database, device := Function.update n.device e.1 device } := by
  unfold step write
  rw [Option.ite_none_right_eq_some, Option.bind_eq_some_iff]
  simp only [Option.map_eq_some_iff]
  constructor
  · rintro ⟨hdel, device, hdevice, database, hdatabase, rfl⟩
    exact ⟨hdel, device, database, hdevice, hdatabase, rfl⟩
  · rintro ⟨hdel, device, database, hdevice, hdatabase, rfl⟩
    exact ⟨hdel, device, hdevice, database, hdatabase, rfl⟩

/-- An event on another device leaves a device alone, one on the device is a step of it. -/
theorem device_of_step (h : n.step P e = some n') (i : ι) :
    (e.1 = i ∧ (n.device i).step P e.2 = some (n'.device i)) ∨
      (e.1 ≠ i ∧ n'.device i = n.device i) := by
  obtain ⟨-, device, database, hdevice, -, rfl⟩ := step_eq_some.mp h
  by_cases hi : e.1 = i
  · subst hi
    refine Or.inl ⟨rfl, ?_⟩
    show _ = some (Function.update n.device e.1 device e.1)
    rw [hdevice, Function.update_self]
  · exact Or.inr ⟨hi, Function.update_of_ne (Ne.symm hi) _ _⟩

variable {es : List (ι × DeviceEvent δ)} {file : ι → Option δ}

/-- **What holds of a part of every device**, over the events on the device, if it also holds
of what is left of the part when something of it is lost. -/
theorem part_history_invariant {σ' ε' : Type*} {step' : σ' → ε' → Option σ'}
    (part : Device δ → σ') (event : Device δ → DeviceEvent δ → Option ε') (loses : σ' → σ' → Prop)
    (hrefl : ∀ a, loses a a)
    (hpart : ∀ (d d' : Device δ) e, d.step P e = some d' →
      ∃ a, loses (part d) a ∧ run step' a (event d e).toList = some (part d'))
    (I : List ε' → σ' → Prop) (hloses : ∀ es a b, loses a b → I es a → I es b)
    (hstep : ∀ es a e b, I es a → step' a e = some b → I (es ++ [e]) b) (i : ι)
    (hs : I [] (part (.initial (file i)))) (hrun : run (step P) (initial file) es = some n) :
    I (observe (step P) (fun n e => if e.1 = i then event (n.device i) e.2 else none)
      (initial file) es) (part (n.device i)) := by
  refine history_invariant_upTo (fun n : Network ι δ => part (n.device i)) I loses hloses hstep
    (fun n e n' h => ?_) hs es n hrun
  rcases device_of_step h i with ⟨hi, hdevice⟩ | ⟨hne, heq⟩
  · rw [if_pos hi]
    exact hpart _ _ _ hdevice
  · rw [if_neg hne]
    exact ⟨_, hrefl _, congrArg (some ∘ part) heq.symm⟩

/-- **What holds of the app of every device**: what holds of an app over its events, and of what
is left of it when it is launched again. -/
theorem app_history_invariant (I : List Event → App → Prop)
    (hloses : ∀ es a b, App.Loses a b → I es a → I es b)
    (hstep : ∀ es a e b, I es a → App.step P.cd a e = some b → I (es ++ [e]) b)
    (hs : I [] .empty) (hrun : run (step P) (initial file) es = some n) (i : ι) :
    I (observe (step P) (appEvent i) (initial file) es) (n.device i).screens.app :=
  part_history_invariant (fun d => d.screens.app) Device.appEvent App.Loses
    App.loses_refl (fun _ _ _ h => (Device.step_parts h).1) I hloses hstep i hs hrun

/-- **What holds of the queue of the profile of every device.** -/
theorem profile_history_invariant (I : List (ProfileEvent δ) → ProfileQueue δ → Prop)
    (hidle : ∀ es a, I es a → I es (.idle a.file))
    (hstep : ∀ es a e b, I es a → ProfileQueue.step P.json a e = some b → I (es ++ [e]) b) (i : ι)
    (hs : I [] (.idle (file i))) (hrun : run (step P) (initial file) es = some n) :
    I (observe (step P) (profileEvent i) (initial file) es) (n.device i).profile :=
  part_history_invariant Device.profile (fun _ => Device.profileEvent)
    (fun a a' => a' = a ∨ a' = .idle a.file) (fun _ => Or.inl rfl)
    (fun _ _ _ h => (Device.step_parts h).2) I
    (fun es a _ h ha => h.elim (fun h => h ▸ ha) fun h => h ▸ hidle es a ha) hstep i hs hrun

/-- **The database performs the writes of all devices.** -/
theorem database_of_run (hrun : run (step P) n es = some n') :
    run Database.perform n.database (observe (step P) (write P) n es) = some n'.database :=
  run_observe Network.database _ es n n'
    (meets_of_forall _ fun n e n' h => by
      obtain ⟨-, device, database, -, hdatabase, rfl⟩ := step_eq_some.mp h
      exact hdatabase) hrun

/-! ### What the database holds -/

omit [DecidableEq ι] in
theorem write_eq_addMessage {c : String} {d : Document}
    (h : n.write P e = some (.addMessage c d)) :
    ∃ m documentID, n.sent P e = some (e.1, c, m) ∧ d = addDocument documentID m.toDict := by
  rcases Device.write_cases h with ⟨c', m, documentID, hsends, hw⟩ | ⟨_, _, -, hw⟩ | ⟨_, -, hw⟩
  · obtain ⟨rfl, rfl⟩ := Write.addMessage.inj hw
    exact ⟨m, documentID, by rw [sent, hsends, Option.map_some], rfl⟩
  · cases hw
  · cases hw

omit [DecidableEq ι] in
theorem write_eq_addChannel {d : Document} (h : n.write P e = some (.addChannel d)) :
    ∃ c documentID, n.created e = some (e.1, documentID, c) ∧
      d = addDocument documentID c.toDict := by
  rcases Device.write_cases h with ⟨_, _, _, -, hw⟩ | ⟨c, documentID, hcreates, hw⟩ | ⟨_, -, hw⟩
  · cases hw
  · obtain rfl := Write.addChannel.inj hw
    exact ⟨c, documentID, by rw [created, hcreates, Option.map_some], rfl⟩
  · cases hw

omit [DecidableEq ι] in
theorem write_eq_deleteChannel {identifier : String}
    (h : n.write P e = some (.deleteChannel identifier)) :
    ∃ fails row shown x, e.2 = .screen (.confirmSwipe fails) ∧
      (n.device e.1).screens.swipe = some (row, shown) ∧
      (n.device e.1).screens.object row = some x ∧ x.identifier = identifier := by
  rcases Device.write_cases h with ⟨_, _, _, -, hw⟩ | ⟨_, _, -, hw⟩ | ⟨identifier', hdeletes, hw⟩
  · cases hw
  · cases hw
  · obtain rfl := Write.deleteChannel.inj hw
    exact Device.deletes_eq_some hdeletes

/-- **A document of messages was sent**, by one of the devices and for that channel. -/
theorem sent_of_mem_messages (hrun : run (step P) (initial file) es = some n) {c : String}
    {d : Document} (hd : d ∈ (n.database.messages c).added) :
    ∃ i m documentID, (i, c, m) ∈ observe (step P) (sent P) (initial file) es ∧
      d = addDocument documentID m.toDict := by
  have hw := (Database.mem_messages_of_run (database_of_run hrun)).mp hd
  obtain ⟨pre, e, post, u, v, rfl, hpre, hstep, hpost, hobs⟩ := (mem_observe hrun).mp hw
  obtain ⟨m, documentID, hsent, rfl⟩ := write_eq_addMessage hobs
  exact ⟨e.1, m, documentID,
    (mem_observe hrun).mpr ⟨pre, e, post, u, v, rfl, hpre, hstep, hpost, hsent⟩, rfl⟩

/-- **A document of a channel was created** by one of the devices. -/
theorem created_of_mem_channels (hrun : run (step P) (initial file) es = some n) {d : Document}
    (hd : d ∈ n.database.channels.added) :
    ∃ i c documentID, (i, documentID, c) ∈ observe (step P) created (initial file) es ∧
      d = addDocument documentID c.toDict := by
  have hw := (Database.mem_channels_of_run (database_of_run hrun)).mp hd
  obtain ⟨pre, e, post, u, v, rfl, hpre, hstep, hpost, hobs⟩ := (mem_observe hrun).mp hw
  obtain ⟨c, documentID, hcreated, rfl⟩ := write_eq_addChannel hobs
  exact ⟨e.1, c, documentID,
    (mem_observe hrun).mpr ⟨pre, e, post, u, v, rfl, hpre, hstep, hpost, hcreated⟩, rfl⟩

/-- Nothing that was added is forgotten. -/
theorem added_subset_of_run (hpre : run (step P) (initial file) es = some n)
    {es' : List (ι × DeviceEvent δ)} (hpost : run (step P) n es' = some n') :
    n.database.channels.added ⊆ n'.database.channels.added ∧
      ∀ c, (n.database.messages c).added ⊆ (n'.database.messages c).added := by
  have hrun : run (step P) (initial file) (es ++ es') = some n' :=
    (run_append_eq_some _).mpr ⟨n, hpre, hpost⟩
  obtain ⟨hchannels, hmessages⟩ := Database.added_of_run (database_of_run hpre)
  obtain ⟨hchannels', hmessages'⟩ := Database.added_of_run (database_of_run hrun)
  have hobs : observe (step P) (write P) (initial file) (es ++ es') =
      observe (step P) (write P) (initial file) es ++ observe (step P) (write P) n es' :=
    observe_append hpre es'
  rw [hobs, List.filterMap_append] at hchannels'
  refine ⟨fun d hd => ?_, fun c d hd => ?_⟩
  · rw [hchannels']
    exact List.mem_append_left _ (hchannels ▸ hd)
  · rw [hmessages' c, hobs, List.filterMap_append]
    exact List.mem_append_left _ (hmessages c ▸ hd)

/-- **A snapshot that a device was handed lists documents of its collection.** -/
theorem added_of_received (hrun : run (step P) (initial file) es = some n) {i : ι} {e : Event}
    (h : e ∈ observe (step P) (appEvent i) (initial file) es) :
    (∀ snap, e = .channelsSnapshot snap → ∀ d ∈ snap, d.1 ∈ n.database.channels.added) ∧
      ∀ c snap, e = .messagesSnapshot c snap →
        ∀ d ∈ snap, d.1 ∈ (n.database.messages c).added := by
  obtain ⟨pre, ⟨i', e'⟩, post, u, v, rfl, hpre, hstep, hpost, hobs⟩ := (mem_observe hrun).mp h
  obtain ⟨-, hobs⟩ := Option.ite_none_right_eq_some.mp hobs
  rcases Device.appEvent_cases hobs with rfl | ⟨object, fails, rfl⟩
  · have hsub := added_subset_of_run hpre ((run_cons_eq_some _).mpr ⟨v, hstep, hpost⟩ :
      run (step P) u ((i', .screen (.app e)) :: post) = some n)
    have hdelivers := (step_eq_some.mp hstep).1
    constructor
    · rintro snap rfl d hd
      exact hsub.1 ((hdelivers _ rfl).2 d hd)
    · rintro c snap rfl d hd
      exact hsub.2 c ((hdelivers _ rfl).2.2 d hd)
  · exact ⟨nofun, nofun⟩

/-- On every device, what can be tapped is sound. -/
theorem sound_of_run (hrun : run (step P) (initial file) es = some n) (i : ι) :
    (n.device i).Sound := by
  refine invariant (fun n => (n.device i).Sound) (fun _ => True) ?_ (fun _ _ => trivial)
    (Device.sound_initial (file i)) hrun
  intro n e n' hn _ h
  rcases device_of_step h i with ⟨-, hdevice⟩ | ⟨-, heq⟩
  · exact Device.sound_of_step hn hdevice
  · exact heq ▸ hn

/-! ### Two devices in a conversation -/

/-- Two devices over a store that resolves conflicts for the stored row. -/
def twoDevices : Platform Bool Keyed where
  cd := .inOrder
  json := .keyed
  userSenderId := fun i => if i then "Y" else "X"

/-- A device receives the channel and opens it. -/
def opening (i : Bool) (channel : Document) (now : Date) : List (Bool × DeviceEvent Keyed) :=
  let steps : List ScreenEvent := [.app (.channelsSnapshot [(channel, now)]), .app (.next false),
    .app (.saveBlock false), .app (.merge [0]), .reloadChannels, .channelCell 0, .select 0]
  steps.map fun e => (i, .screen e)

/-- A device receives messages. -/
def receiving (i : Bool) (c : String) (messages : Snapshot) : List (Bool × DeviceEvent Keyed) :=
  let steps : List Event := .messagesSnapshot c messages ::
    messages.map (fun _ => .next false) ++ messages.map (fun _ => .saveBlock false)
  steps.map fun e => (i, .screen (.app e))

/-- The first device creates a channel, both open it, and each sends a message. -/
def conversation : List (Bool × DeviceEvent Keyed) :=
  let news := addDocument "a" (createAChannel "News" 1).toDict
  let hi := addDocument "m" (Message.toDict ⟨"hi", 7, "X", "Ann"⟩)
  let yes := addDocument "n" (Message.toDict ⟨"yes", 8, "Y", "User Name"⟩)
  [(false, .profile (.saveUserProfile ⟨some "Ann", none⟩)), (false, .profile (.write 0 false none)),
    (false, .present .newChannel), (false, .textDidChange (some "N")),
    (false, .textDidChange (some "")), (false, .textDidChange (some "News")),
    (false, .createAChannel 1 "a")] ++ opening false news 5 ++ opening true news 6 ++
  [(false, .present .newMessage), (false, .textDidChange (some "hi")),
    (false, .sendMessage 7 "m"), (true, .sendImage "yes" 8 "n")] ++
  receiving true "a" [(yes, 9), (hi, 9)] ++ receiving false "a" [(hi, 10), (yes, 10)]

end Network

end MessengerApp
