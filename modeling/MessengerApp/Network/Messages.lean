import MessengerApp.Messages.Cell
import MessengerApp.Network.System

/-!
# Messages between the devices

Whatever the devices do and in whatever order the snapshots come, a device shows only
messages that were sent in that conversation, as they were sent: the identifier is that of
the sending device, the name is what its profile file held then, and the text was entered
there or picked from the images.

## Main definitions

* `Composed` — a message as an event sends it.
* `sentMessages` — who sent what to which channel in a run.
* `ProfileQueue.Available` — where a profile that can be loaded may come from.

## Main results

* `composed_of_shown` — **every message shown was sent to that channel.**
* `senderName_of_shown` — where its sender's name comes from.
* `trailing_iff_sent` — **a message is shown as the user's own if and only if this device
  sent it.**
* `filter_shownMessages_comm` — **any two devices show the messages they have in common in
  the same order.**
-/

namespace MessengerApp

open Machine CoreDataManager

namespace ProfileQueue

variable {δ : Type*} {json : JSON δ}

/-- What failing writes left in the file, in order. -/
def leftovers : List (ProfileEvent δ) → List (Option δ) :=
  List.filterMap fun
    | .write _ true left => some left
    | _ => none

theorem leftovers_append (es es' : List (ProfileEvent δ)) :
    leftovers (es ++ es') = leftovers es ++ leftovers es' := List.filterMap_append

/-- Where a profile that can be loaded after the events `es` comes from: it was requested, or it
was in the file at first, or a failing write left it there. -/
def Available (json : JSON δ) (file : Option δ) (es : List (ProfileEvent δ))
    (p : UserProfileModel) : Prop :=
  p ∈ requests es ∨ loadUserProfile json file = some p ∨
    ∃ left ∈ leftovers es, loadUserProfile json left = some p

theorem Available.append {file : Option δ} {es : List (ProfileEvent δ)} {p : UserProfileModel}
    (h : Available json file es p) (e : ProfileEvent δ) : Available json file (es ++ [e]) p := by
  rcases h with h | h | ⟨left, hleft, h⟩
  · exact Or.inl (requests_append es [e] ▸ List.mem_append_left _ h)
  · exact Or.inr (Or.inl h)
  · exact Or.inr (Or.inr ⟨left, leftovers_append es [e] ▸ List.mem_append_left _ hleft, h⟩)

/-- The waiting jobs carry profiles of requests, and a profile that can be loaded is available. -/
structure Requested (json : JSON δ) (file : Option δ) (es : List (ProfileEvent δ))
    (s : ProfileQueue δ) : Prop where
  waiting : ∀ job ∈ s.waiting, job.userData ∈ requests es
  file : ∀ p, loadUserProfile json s.file = some p → Available json file es p

theorem requested_idle (file : Option δ) : Requested json file [] (.idle file) where
  waiting := fun _ h => absurd h List.not_mem_nil
  file := fun _ h => Or.inr (Or.inl h)

theorem Requested.idle {file : Option δ} {es : List (ProfileEvent δ)} {s : ProfileQueue δ}
    (hs : Requested json file es s) : Requested json file es (.idle s.file) where
  waiting := fun _ h => absurd h List.not_mem_nil
  file := hs.file

theorem requested_of_step {file : Option δ} {es : List (ProfileEvent δ)} {s s' : ProfileQueue δ}
    {e : ProfileEvent δ} (hs : Requested json file es s) (h : s.step json e = some s') :
    Requested json file (es ++ [e]) s' := by
  obtain ⟨hwaiting, hfile⟩ := hs
  have hold : ∀ p ∈ requests es, p ∈ requests (es ++ [e]) := fun p hp => by
    rw [requests_append]
    exact List.mem_append_left _ hp
  have hfile' : ∀ p, loadUserProfile json s.file = some p → Available json file (es ++ [e]) p :=
    fun p hp => (hfile p hp).append e
  cases e with
  | saveUserProfile userData =>
    obtain rfl := Option.some.inj h
    refine ⟨fun job hjob => ?_, hfile'⟩
    rcases List.mem_append.mp hjob with hjob | hjob
    · exact hold _ (hwaiting job hjob)
    · obtain rfl := List.mem_singleton.mp hjob
      rw [requests_append]
      exact List.mem_append_right _ List.mem_cons_self
  | write number fails left =>
    obtain ⟨job, hjob, rfl⟩ := Option.map_eq_some_iff.mp h
    refine ⟨fun job' hjob' => hold _ (hwaiting job' (List.mem_of_mem_erase hjob')), fun p hp => ?_⟩
    cases fails with
    | true =>
      have hleft : left ∈ leftovers (es ++ [.write number true left]) := by
        rw [leftovers_append]
        exact List.mem_append_right _ List.mem_cons_self
      exact Or.inr (Or.inr ⟨left, hleft, hp⟩)
    | false =>
      -- what is read back is what the job has just encoded
      have hdecoded : json.decode (json.encode job.userData) = some p := hp
      rw [json.decode_encode, Option.some.injEq] at hdecoded
      exact Or.inl (hdecoded ▸ hold _ (hwaiting job (List.mem_of_find?_eq_some hjob)))
  | complete number =>
    obtain ⟨job, -, rfl⟩ := Option.map_eq_some_iff.mp h
    exact ⟨fun job hjob => hold _ (hwaiting job hjob), hfile'⟩

end ProfileQueue

namespace Network

variable {ι δ : Type*} [DecidableEq ι] {P : Platform ι δ} {n : Network ι δ}
  {file : ι → Option δ} {es : List (ι × DeviceEvent δ)}

/-! ### Sent and shown -/

/-- The event sends the message to the channel: from the open conversation, under the device's
own identifier and the name in its profile file, the text in the field of the alert or an
address from the image picker. -/
structure Composed (P : Platform ι δ) (n : Network ι δ) (e : ι × DeviceEvent δ) (c : String)
    (message : Message) : Prop where
  conversation : (n.device e.1).conversation = some c
  senderid : message.senderid = P.userSenderId e.1
  senderName : message.senderName = (n.device e.1).userName P
  content : (∃ documentID a, e.2 = .sendMessage message.created documentID ∧
      (n.device e.1).alert = some (.newMessage, a) ∧ a.text = some message.content ∧
      message.content ≠ "") ∨
    ∃ documentID, e.2 = .sendImage message.content message.created documentID

omit [DecidableEq ι] in
theorem composed_of_sent {e : ι × DeviceEvent δ} (hn : (n.device e.1).Sound) {i : ι} {c : String}
    {message : Message} (h : n.sent P e = some (i, c, message)) :
    i = e.1 ∧ Composed P n e c message := by
  obtain ⟨⟨c', message'⟩, hsends, heq⟩ := Option.map_eq_some_iff.mp h
  obtain ⟨rfl, rfl, rfl⟩ : e.1 = i ∧ c' = c ∧ message' = message := by simpa using heq
  obtain ⟨hc, hwrites⟩ := Device.sends_eq_some hsends
  refine ⟨rfl, ?_⟩
  rcases hwrites with ⟨text, documentID, he, htext, hm⟩ | ⟨imageURL, documentID, he, hm⟩
  · rw [hm] at he ⊢
    obtain ⟨hne, a, ha, hat⟩ := Device.entered_eq_some hn htext
    exact ⟨hc, rfl, rfl, Or.inl ⟨documentID, a, he, ha, hat, hne⟩⟩
  · rw [hm] at he ⊢
    exact ⟨hc, rfl, rfl, Or.inr ⟨documentID, he⟩⟩

/-- The messages sent in a run, with their senders and channels. -/
def sentMessages (P : Platform ι δ) (file : ι → Option δ) (es : List (ι × DeviceEvent δ)) :
    List (ι × String × Message) := observe (step P) (sent P) (initial file) es

/-- What was sent was composed. -/
theorem composed_of_mem_sent (hrun : run (step P) (initial file) es = some n) {i : ι} {c : String}
    {message : Message} (h : (i, c, message) ∈ sentMessages P file es) :
    ∃ pre e post u, es = pre ++ e :: post ∧ run (step P) (initial file) pre = some u ∧ i = e.1 ∧
      Composed P u e c message := by
  obtain ⟨pre, e, post, u, v, rfl, hpre, -, -, hsent⟩ := (mem_observe hrun).mp h
  obtain ⟨hi, hcomposed⟩ := composed_of_sent (sound_of_run hpre e.1) hsent
  exact ⟨pre, e, post, u, rfl, hpre, hi, hcomposed⟩

/-- The devices' own identifiers are on what they send. -/
theorem senderid_of_sent (hrun : run (step P) (initial file) es = some n) {i : ι} {c : String}
    {message : Message} (h : (i, c, message) ∈ sentMessages P file es) :
    message.senderid = P.userSenderId i := by
  obtain ⟨_, _, _, _, -, -, rfl, hcomposed⟩ := composed_of_mem_sent hrun h
  exact hcomposed.senderid

/-- The links on every device lead to channels for which the messages were delivered. -/
theorem attributed_of_run (hrun : run (step P) (initial file) es = some n) (i : ι) :
    App.Attributed (observe (step P) (appEvent i) (initial file) es) (n.device i).screens.app :=
  app_history_invariant App.Attributed (fun _ _ _ h ha => ha.loses h)
    (fun _ _ _ _ h hstep => App.attributed_of_appStep h hstep) App.attributed_empty hrun i

/-- **What was delivered to a device for a channel was sent to that channel.** -/
theorem sent_of_delivered (hrun : run (step P) (initial file) es = some n) {i : ι} {c : String}
    {message : Message}
    (h : Delivered (observe (step P) (appEvent i) (initial file) es) c message) :
    ∃ j, (j, c, message) ∈ sentMessages P file es := by
  obtain ⟨snap, hsnap, hmem⟩ := h
  obtain ⟨⟨d, now⟩, hd, heq⟩ := List.mem_map.mp hmem
  have hadded := (added_of_received hrun hsnap).2 _ _ rfl _ hd
  obtain ⟨j, m, documentID, hsent, hdoc⟩ := sent_of_mem_messages hrun hadded
  have hm : message = m := by
    rw [← heq, ← decodeMessage_addDocument m documentID now, ← hdoc]
  exact ⟨j, hm ▸ hsent⟩

/-- What a device shows in a channel was sent to that channel. -/
theorem sent_of_mem_shown (hrun : run (step P) (initial file) es = some n) {i : ι} {c : String}
    {message : Message}
    (h : message ∈ shownMessages c (n.device i).screens.app.core.store) :
    ∃ j, (j, c, message) ∈ sentMessages P file es := by
  obtain ⟨p, hp, rfl⟩ := List.mem_map.mp h
  obtain ⟨hstored, r, hr, hchan, rfl⟩ := mem_fetchedResult.mp hp
  have hlink := (PersistentStore.channelOf_eq_some hchan).2
  exact sent_of_delivered hrun ((attributed_of_run hrun i).core p
    (List.mem_append_left _ hstored) r (List.mem_append_left _ hr) hlink)

/-- **Every message shown was sent to that channel, as it is shown**, from a device on which
the conversation was open, and nothing in it was made up on the way. -/
theorem composed_of_shown (hrun : run (step P) (initial file) es = some n) {i : ι} {c : String}
    {message : Message}
    (h : message ∈ shownMessages c (n.device i).screens.app.core.store) :
    ∃ pre e post u, es = pre ++ e :: post ∧ run (step P) (initial file) pre = some u ∧
      Composed P u e c message := by
  obtain ⟨j, hj⟩ := sent_of_mem_shown hrun h
  obtain ⟨pre, e, post, u, hes, hpre, -, hcomposed⟩ := composed_of_mem_sent hrun hj
  exact ⟨pre, e, post, u, hes, hpre, hcomposed⟩

/-- The second device shows the message of the first. -/
theorem composed_of_shown_conversation : ∃ n : Network Bool Keyed,
    run (step twoDevices) (initial fun _ => none) conversation = some n ∧
      ⟨"hi", 7, "X", "Ann"⟩ ∈ shownMessages "a" (n.device true).screens.app.core.store ∧
      ∃ pre e post u, conversation = pre ++ e :: post ∧
        run (step twoDevices) (initial fun _ => none) pre = some u ∧
        Composed twoDevices u e "a" ⟨"hi", 7, "X", "Ann"⟩ := by
  let n := (run (step twoDevices) (initial fun _ => none) conversation).get (by decide +kernel)
  have hrun : run (step twoDevices) (initial fun _ => none) conversation = some n :=
    (Option.some_get _).symm
  have hm : ⟨"hi", 7, "X", "Ann"⟩ ∈ shownMessages "a" (n.device true).screens.app.core.store := by
    decide +kernel
  exact ⟨n, hrun, hm, composed_of_shown hrun hm⟩

/-- **Whose name a message carries**: as it was sent, the default, or the user name of a profile
that was available on the sending device then. -/
theorem senderName_of_shown (hrun : run (step P) (initial file) es = some n) {i : ι} {c : String}
    {message : Message}
    (h : message ∈ shownMessages c (n.device i).screens.app.core.store) :
    ∃ pre e post u, es = pre ++ e :: post ∧ run (step P) (initial file) pre = some u ∧
      Composed P u e c message ∧
      (message.senderName = "User Name" ∨ ∃ p, p.userName = some message.senderName ∧
        ProfileQueue.Available P.json (file e.1)
          (observe (step P) (profileEvent e.1) (initial file) pre) p) := by
  obtain ⟨j, hj⟩ := sent_of_mem_shown hrun h
  obtain ⟨pre, e, post, u, hes, hpre, -, hcomposed⟩ := composed_of_mem_sent hrun hj
  refine ⟨pre, e, post, u, hes, hpre, hcomposed, ?_⟩
  have hfile := (profile_history_invariant (ProfileQueue.Requested P.json (file e.1))
    (fun _ _ h => h.idle) (fun _ _ _ _ h hstep => ProfileQueue.requested_of_step h hstep) e.1
    (ProfileQueue.requested_idle _) hpre).file
  have hname := hcomposed.senderName
  unfold Device.userName at hname
  -- the profile is the one that is loaded, or the default one
  cases hload : loadUserProfile P.json (u.device e.1).profile.file with
  | none =>
    rw [getUserProfile, hload] at hname
    exact Or.inl hname
  | some p =>
    rw [getUserProfile, hload, Option.getD_some] at hname
    cases huser : p.userName with
    | none =>
      rw [huser] at hname
      exact Or.inl hname
    | some name =>
      rw [huser, Option.getD_some] at hname
      exact Or.inr ⟨p, hname ▸ huser, hfile p hload⟩

/-- A name that was asked for before. -/
theorem senderName_of_shown_conversation : ∃ n : Network Bool Keyed,
    run (step twoDevices) (initial fun _ => none) conversation = some n ∧
      ⟨"hi", 7, "X", "Ann"⟩ ∈ shownMessages "a" (n.device true).screens.app.core.store ∧
      ∃ pre e post u, conversation = pre ++ e :: post ∧
        run (step twoDevices) (initial fun _ => none) pre = some u ∧
        Composed twoDevices u e "a" ⟨"hi", 7, "X", "Ann"⟩ ∧
        ("Ann" = "User Name" ∨ ∃ p, p.userName = some "Ann" ∧
          ProfileQueue.Available twoDevices.json none
            (observe (step twoDevices) (profileEvent e.1) (initial fun _ => none) pre) p) := by
  let n := (run (step twoDevices) (initial fun _ => none) conversation).get (by decide +kernel)
  have hrun : run (step twoDevices) (initial fun _ => none) conversation = some n :=
    (Option.some_get _).symm
  have hm : ⟨"hi", 7, "X", "Ann"⟩ ∈ shownMessages "a" (n.device true).screens.app.core.store := by
    decide +kernel
  exact ⟨n, hrun, hm, senderName_of_shown hrun hm⟩

/-! ### The side of a message -/

/-- What a message cell of a device depends on. -/
def cellSettings (P : Platform ι δ) (i : ι) (validateURL : String → Bool)
    (url : String → Option String) : MessageSettings where
  userSenderId := P.userSenderId i
  validateURL := validateURL
  url := url

/-- **A message is on the user's own side, in the user's own colour, if and only if it was sent
from this device**, whatever the cell was used for before. -/
theorem trailing_iff_sent (hids : Function.Injective P.userSenderId)
    (hrun : run (step P) (initial file) es = some n) {i : ι} {c : String} {p : DBMessage}
    (hp : p ∈ fetchedResult c (n.device i).screens.app.core.store) {α : Type*}
    (validateURL : String → Bool) (url : String → Option String)
    (s : MessageTableViewCell.Reused α) :
    let cell := (MessageTableViewCell.cellForRowAt (cellSettings P i validateURL url) p.row s).cell
    (cell.trailingActive = true ↔ (i, c, p.message) ∈ sentMessages P file es) ∧
      (cell.leadingActive = true ↔ (i, c, p.message) ∉ sentMessages P file es) ∧
      cell.backgroundColor = some (if cell.trailingActive then .sendingMessageColor
        else .messageColor) := by
  intro cell
  obtain ⟨j, hj⟩ := sent_of_mem_shown hrun (List.mem_map_of_mem hp)
  have hown : p.senderId = P.userSenderId i ↔ (i, c, p.message) ∈ sentMessages P file es := by
    constructor
    · intro h
      have hji : j = i := hids ((senderid_of_sent hrun hj).symm.trans h)
      exact hji ▸ hj
    · exact fun h => senderid_of_sent hrun h
  have htrailing : cell.trailingActive = (p.senderId == P.userSenderId i) := by
    show (MessageTableViewCell.cellForRowAt _ p.row s).cell.trailingActive = _
    rw [MessageTableViewCell.cell_cellForRowAt]
    rfl
  have hleading : cell.leadingActive = (p.senderId != P.userSenderId i) := by
    show (MessageTableViewCell.cellForRowAt _ p.row s).cell.leadingActive = _
    rw [MessageTableViewCell.cell_cellForRowAt]
    rfl
  have hcolor : cell.backgroundColor =
      some (MessageTableViewCell.bubbleColor (cellSettings P i validateURL url) p.senderId) := by
    show (MessageTableViewCell.cellForRowAt _ p.row s).cell.backgroundColor = _
    rw [MessageTableViewCell.cell_cellForRowAt]
    rfl
  refine ⟨by rw [htrailing, beq_iff_eq, hown], by rw [hleading, bne_iff_ne, ne_eq, hown], ?_⟩
  rw [hcolor, htrailing]
  by_cases h : p.senderId = P.userSenderId i
  · simp [MessageTableViewCell.bubbleColor, cellSettings, h]
  · simp [MessageTableViewCell.bubbleColor, cellSettings, h]

/-- The first device's message, on the first device, in a cell that showed nothing before. -/
theorem trailing_iff_sent_conversation : ∃ n : Network Bool Keyed,
    run (step twoDevices) (initial fun _ => none) conversation = some n ∧
      ∃ p ∈ fetchedResult "a" (n.device false).screens.app.core.store,
        let cell := (MessageTableViewCell.cellForRowAt
          (cellSettings twoDevices false (fun _ => false) some) p.row
          (MessageTableViewCell.new (α := Unit))).cell
        (cell.trailingActive = true ↔
            (false, "a", p.message) ∈ sentMessages twoDevices (fun _ => none) conversation) ∧
          (cell.leadingActive = true ↔
            (false, "a", p.message) ∉ sentMessages twoDevices (fun _ => none) conversation) ∧
          cell.backgroundColor = some (if cell.trailingActive then .sendingMessageColor
            else .messageColor) := by
  let n := (run (step twoDevices) (initial fun _ => none) conversation).get (by decide +kernel)
  have hrun : run (step twoDevices) (initial fun _ => none) conversation = some n :=
    (Option.some_get _).symm
  have hids : Function.Injective twoDevices.userSenderId := fun i j h => by
    cases i <;> cases j <;> first | rfl | exact absurd h (by decide)
  have hp : ⟨"hi", 7, "X", "Ann", some 0⟩ ∈
      fetchedResult "a" (n.device false).screens.app.core.store := by decide +kernel
  exact ⟨n, hrun, _, hp, trailing_iff_sent hids hrun hp (fun _ => false) some
    MessageTableViewCell.new⟩

/-! ### The order of messages -/

/-- The messages of a channel are shown in the order in which they were created. -/
theorem pairwise_shownMessages (c : String) (st : PersistentStore) :
    (shownMessages c st).Pairwise fun m m' => m.created ≤ m'.created := by
  have : Std.Total fun m m' : DBMessage => m.created ≤ m'.created :=
    ⟨fun m m' => Int.le_total m.created m'.created⟩
  have : IsTrans DBMessage fun m m' => m.created ≤ m'.created :=
    ⟨fun _ _ _ h h' => Int.le_trans h h'⟩
  exact List.pairwise_map.mpr (List.pairwise_insertionSort _ _)

/-- **Any two devices show the messages they have in common in the same order**, if no two
messages were sent to the channel at the same time. -/
theorem filter_shownMessages_comm (hrun : run (step P) (initial file) es = some n) {c : String}
    (htimes : ∀ i m i' m', (i, c, m) ∈ sentMessages P file es →
      (i', c, m') ∈ sentMessages P file es → m.created = m'.created → m = m') (i j : ι) :
    (shownMessages c (n.device i).screens.app.core.store).filter
        (· ∈ shownMessages c (n.device j).screens.app.core.store) =
      (shownMessages c (n.device j).screens.app.core.store).filter
        (· ∈ shownMessages c (n.device i).screens.app.core.store) := by
  refine List.Perm.eq_of_pairwise ?_ ((pairwise_shownMessages c _).filter _)
    ((pairwise_shownMessages c _).filter _) ?_
  · intro m m' hm hm' hle hle'
    obtain ⟨k, hk⟩ := sent_of_mem_shown hrun (List.mem_filter.mp hm).1
    obtain ⟨k', hk'⟩ := sent_of_mem_shown hrun (List.mem_filter.mp hm').1
    exact htimes k m k' m' hk hk' (Int.le_antisymm hle hle')
  · -- neither list has a message twice, and they have the same ones
    rw [List.perm_ext_iff_of_nodup ((nodup_shownMessages c _).filter _)
      ((nodup_shownMessages c _).filter _)]
    intro m
    simp only [List.mem_filter, decide_eq_true_eq]
    exact and_comm

/-- The second device gets the later message first. -/
theorem filter_shownMessages_comm_conversation : ∃ n : Network Bool Keyed,
    run (step twoDevices) (initial fun _ => none) conversation = some n ∧
      (shownMessages "a" (n.device true).screens.app.core.store).filter
          (· ∈ shownMessages "a" (n.device false).screens.app.core.store) =
        (shownMessages "a" (n.device false).screens.app.core.store).filter
          (· ∈ shownMessages "a" (n.device true).screens.app.core.store) := by
  let n := (run (step twoDevices) (initial fun _ => none) conversation).get (by decide +kernel)
  have hrun : run (step twoDevices) (initial fun _ => none) conversation = some n :=
    (Option.some_get _).symm
  have htimes : ∀ x ∈ sentMessages twoDevices (fun _ => none) conversation,
      ∀ y ∈ sentMessages twoDevices (fun _ => none) conversation,
        x.2.2.created = y.2.2.created → x.2.2 = y.2.2 := by decide +kernel
  exact ⟨n, hrun, filter_shownMessages_comm hrun
    (fun i m i' m' h h' => htimes (i, "a", m) h (i', "a", m') h') true false⟩

end Network

end MessengerApp
