import FileSync.ChangeBuffer
import FileSync.Messages

/-!
# The broadcast of the change buffer

The drain of `handleUdp` applies the buffer to the table, broadcasts it in one pid-6 datagram
and clears it, whatever `broadcast` returns. A datagram can fail: SFML sends nothing of a packet
above 65507 bytes, and the socket may refuse a smaller one.
-/

namespace FileSync

open TransitionSystem

section

variable (layout : Layout) (platform : Platform)

/-- `UdpConnection::send` (UdpConnection.cpp 13-19), where `accepted` tells what the socket does with
    a packet that is not too large. -/
def udpSend (packet : Packet) (accepted : Bool) : Bool :=
  decide (packet.data.length ≤ maxDatagramSize) && accepted

/-- The watcher and the drain, with what became of the changes. -/
structure Announcer where
  monitor : Monitor
  /-- The lists in the pid-6 datagrams that were sent, in order. -/
  sent : List (List FileChangeData)
  /-- All changes that the watcher has buffered so far, in order. -/
  buffered : List FileChangeData

/-- The steps of the watcher and the drain, with what the socket does with a broadcast. -/
inductive AnnouncerAction where
  | scan (newDir : FileTable)
  | lock
  | update
  | broadcast (accepted : Bool)
  | clear

/-- One step of the watcher (DirectoryMonitor.cpp 56-65) or of the drain (Node.cpp 186-207), which
    ignores what `broadcast` returns (202) and clears the buffer. -/
def announcerStep : AnnouncerAction → Announcer → Option Announcer
  | .scan newDir, s => (monitorStep (.scan newDir) s.monitor).map fun monitor => { s with
      monitor
      buffered := s.buffered ++ (getDirectoryChangesScan newDir s.monitor.prevDir).1 }
  | .lock, s => (monitorStep .lock s.monitor).map fun monitor => { s with monitor }
  | .update, s => (monitorStep .update s.monitor).map fun monitor => { s with monitor }
  | .broadcast accepted, s => (monitorStep .broadcast s.monitor).map fun monitor => { s with
      monitor
      sent :=
        if udpSend (changesPacket layout platform s.monitor.fileChangeBuf) accepted then
          s.sent ++ [s.monitor.fileChangeBuf]
        else s.sent }
  | .clear, s => (monitorStep .clear s.monitor).map fun monitor => { s with monitor }

/-- Nothing has been sent yet. -/
def Announcer.start (monitor : Monitor) : Announcer :=
  { monitor, sent := [], buffered := monitor.fileChangeBuf }

/-- The size of a pid-6 datagram: the pid, the count, and for each record the length of the
    path, four bytes for each of its characters, the hash and the kind of change. -/
def datagramSize (changes : List FileChangeData) : Nat :=
  1 + platform.sizeTBytes +
    (changes.map fun change => 4 + 4 * change.filePath.length + 8 + 1).sum

/-- A broadcast fits into a datagram and is accepted by the socket. -/
def delivers (s : Announcer) : AnnouncerAction → Prop
  | .broadcast accepted =>
    datagramSize platform s.monitor.fileChangeBuf ≤ maxDatagramSize ∧ accepted = true
  | _ => True

/-! ## The size of the packet -/

theorem length_insertWString (packet : Packet) (s : WString) :
    (packet.insertWString layout s).data.length = packet.data.length + (4 + 4 * s.length) := by
  rw [insertWString_data, List.length_append, List.length_append, layout.length_put,
    length_characters]
  omega

theorem length_insertFileChange (packet : Packet) (change : FileChangeData) :
    (insertFileChange layout packet change).data.length =
      packet.data.length + (4 + 4 * change.filePath.length + 8 + 1) := by
  rw [insertFileChange, insertUInt8_data, insertUInt64_data, List.length_append,
    List.length_append, layout.length_put, layout.length_put, length_insertWString]
  omega

theorem length_foldl_insertFileChange (changes : List FileChangeData) : ∀ packet : Packet,
    (changes.foldl (insertFileChange layout) packet).data.length = packet.data.length +
      (changes.map fun change => 4 + 4 * change.filePath.length + 8 + 1).sum := by
  induction changes with
  | nil => exact fun packet => rfl
  | cons change changes ih =>
    intro packet
    rw [List.foldl_cons, ih, length_insertFileChange, List.map_cons, List.sum_cons]
    omega

theorem length_changesPacket (changes : List FileChangeData) :
    (changesPacket layout platform changes).data.length = datagramSize platform changes := by
  rw [changesPacket, insertFileChanges, length_foldl_insertFileChange, Packet.insertSizeT,
    insertInt_data, insertUInt8_data, List.length_append, List.length_append, layout.length_put,
    layout.length_put]
  rfl

theorem udpSend_changesPacket (changes : List FileChangeData) (accepted : Bool) :
    udpSend (changesPacket layout platform changes) accepted = true ↔
      datagramSize platform changes ≤ maxDatagramSize ∧ accepted = true := by
  rw [udpSend, length_changesPacket, Bool.and_eq_true, decide_eq_true_iff]

/-! ## Accounts of the changes -/

/-- Each change that was buffered is in a datagram that was sent, or is still to be broadcast. -/
def Announcer.Accounted (s : Announcer) : Prop :=
  s.sent.flatten ++ s.monitor.unbroadcast = s.buffered

/-- Some change has been lost. -/
def Announcer.Short (s : Announcer) : Prop :=
  s.sent.flatten.length + s.monitor.unbroadcast.length < s.buffered.length

/-- A drain is only under way for a buffer with something in it. -/
def Announcer.Filled (s : Announcer) : Prop :=
  s.monitor.phase ≠ .idle → s.monitor.fileChangeBuf ≠ []

/-- What a step does to the accounts: it buffers some changes, or sends the unbroadcast ones, or
    loses them. -/
inductive AccountEffect (s : Announcer) (action : AnnouncerAction) (next : Announcer) : Prop where
  | buffers (changes : List FileChangeData) : delivers platform s action →
      next.sent = s.sent → next.monitor.unbroadcast = s.monitor.unbroadcast ++ changes →
      next.buffered = s.buffered ++ changes → AccountEffect s action next
  | sends : delivers platform s action →
      next.sent = s.sent ++ [s.monitor.unbroadcast] → next.monitor.unbroadcast = [] →
      next.buffered = s.buffered → AccountEffect s action next
  | loses : ¬ delivers platform s action → s.monitor.unbroadcast ≠ [] →
      next.sent = s.sent → next.monitor.unbroadcast = [] →
      next.buffered = s.buffered → AccountEffect s action next

variable {layout platform}

theorem filled_step {action : AnnouncerAction} {s next : Announcer} (filled : s.Filled)
    (taken : announcerStep layout platform action s = some next) : next.Filled := by
  unfold Announcer.Filled at filled ⊢
  cases action with
  | scan newDir =>
    obtain ⟨monitor, moved, rfl⟩ := Option.map_eq_some_iff.mp taken
    cases monitorEffect_of_step moved with
    | scan _ idle => exact fun busy => absurd idle busy
  | lock =>
    obtain ⟨monitor, moved, rfl⟩ := Option.map_eq_some_iff.mp taken
    cases monitorEffect_of_step moved with
    | lock idle nonempty => exact fun _ => nonempty
  | update =>
    obtain ⟨monitor, moved, rfl⟩ := Option.map_eq_some_iff.mp taken
    cases monitorEffect_of_step moved with
    | update updating => exact fun _ => filled (by rw [updating]; rintro ⟨⟩)
  | broadcast accepted =>
    obtain ⟨monitor, moved, rfl⟩ := Option.map_eq_some_iff.mp taken
    cases monitorEffect_of_step moved with
    | broadcast updating => exact fun _ => filled (by rw [updating]; rintro ⟨⟩)
  | clear =>
    obtain ⟨monitor, moved, rfl⟩ := Option.map_eq_some_iff.mp taken
    cases monitorEffect_of_step moved with
    | clear sent => exact fun busy => absurd rfl busy

theorem accountEffect_of_step {action : AnnouncerAction} {s next : Announcer}
    (filled : s.Filled) (taken : announcerStep layout platform action s = some next) :
    AccountEffect platform s action next := by
  obtain ⟨⟨prevDir, fileHashes, fileChangeBuf, phase, broadcasts⟩, sent, buffered⟩ := s
  cases action with
  | scan newDir =>
    obtain ⟨monitor, moved, rfl⟩ := Option.map_eq_some_iff.mp taken
    cases monitorEffect_of_step moved with
    | scan _ idle =>
      cases idle
      refine .buffers (updates prevDir newDir ++ deletions prevDir newDir) trivial rfl rfl ?_
      rw [getDirectoryChangesScan_eq]
  | lock =>
    obtain ⟨monitor, moved, rfl⟩ := Option.map_eq_some_iff.mp taken
    cases monitorEffect_of_step moved with
    | lock idle nonempty =>
      cases idle
      exact .buffers [] trivial rfl (List.append_nil _).symm (List.append_nil _).symm
  | update =>
    obtain ⟨monitor, moved, rfl⟩ := Option.map_eq_some_iff.mp taken
    cases monitorEffect_of_step moved with
    | update updating =>
      cases updating
      exact .buffers [] trivial rfl (List.append_nil _).symm (List.append_nil _).symm
  | broadcast accepted =>
    obtain ⟨monitor, moved, rfl⟩ := Option.map_eq_some_iff.mp taken
    cases monitorEffect_of_step moved with
    | broadcast updating =>
      cases updating
      have outcome := udpSend_changesPacket layout platform fileChangeBuf accepted
      cases status : udpSend (changesPacket layout platform fileChangeBuf) accepted with
      | true =>
        refine .sends (outcome.mp status) ?_ rfl rfl
        simp only [if_true]
        rfl
      | false =>
        refine .loses (fun delivered => ?_) (filled nofun) ?_ rfl rfl
        · rw [outcome.mpr delivered] at status
          cases status
        · simp only [Bool.false_eq_true, if_false]
  | clear =>
    obtain ⟨monitor, moved, rfl⟩ := Option.map_eq_some_iff.mp taken
    cases monitorEffect_of_step moved with
    | clear isSent =>
      cases isSent
      exact .buffers [] trivial rfl rfl (List.append_nil _).symm

theorem accounted_step {action : AnnouncerAction} {s next : Announcer}
    (accounted : s.Accounted) (delivered : delivers platform s action)
    (effect : AccountEffect platform s action next) : next.Accounted := by
  unfold Announcer.Accounted at accounted ⊢
  cases effect with
  | buffers changes _ sent unbroadcast buffered =>
    rw [sent, unbroadcast, buffered, ← accounted, List.append_assoc]
  | sends _ sent unbroadcast buffered =>
    rw [sent, unbroadcast, buffered, ← accounted]
    simp
  | loses lost => exact absurd delivered lost

/-- Once a change has been lost, no later step makes up for it. -/
theorem short_step {action : AnnouncerAction} {s next : Announcer} (short : s.Short)
    (effect : AccountEffect platform s action next) : next.Short := by
  unfold Announcer.Short at short ⊢
  cases effect with
  | buffers changes _ sent unbroadcast buffered =>
    rw [sent, unbroadcast, buffered, List.length_append, List.length_append]
    omega
  | sends _ sent unbroadcast buffered =>
    rw [sent, unbroadcast, buffered]
    simp only [List.flatten_append, List.flatten_singleton, List.length_append, List.length_nil]
    omega
  | loses _ _ sent unbroadcast buffered =>
    rw [sent, unbroadcast, buffered, List.length_nil]
    omega

theorem short_of_loses {action : AnnouncerAction} {s next : Announcer}
    (accounted : s.Accounted) (lost : ¬ delivers platform s action)
    (effect : AccountEffect platform s action next) : next.Short := by
  unfold Announcer.Accounted at accounted
  unfold Announcer.Short
  cases effect with
  | buffers _ delivered => exact absurd delivered lost
  | sends delivered => exact absurd delivered lost
  | loses _ nonempty sent unbroadcast buffered =>
    have some := List.length_pos_iff.mpr nonempty
    rw [sent, unbroadcast, buffered, ← accounted, List.length_append, List.length_nil]
    omega

theorem short_of_run {actions : List AnnouncerAction} {s t : Announcer}
    (run : Run (announcerStep layout platform) anyStep s actions t) :
    s.Filled → s.Short → t.Short := by
  induction run with
  | nil => exact fun _ short => short
  | cons _ taken _ ih =>
    intro filled short
    exact ih (filled_step filled taken) (short_step short (accountEffect_of_step filled taken))

/-- A run that delivers each broadcast keeps the accounts, and any other loses a change. -/
theorem delivers_or_short {actions : List AnnouncerAction} {s t : Announcer}
    (run : Run (announcerStep layout platform) anyStep s actions t) :
    s.Filled → s.Accounted →
      (Run (announcerStep layout platform) (delivers platform) s actions t ∧ t.Accounted) ∨
        ¬ Run (announcerStep layout platform) (delivers platform) s actions t ∧ t.Short := by
  induction run with
  | nil s => exact fun _ accounted => Or.inl ⟨.nil s, accounted⟩
  | @cons s next t action actions _ taken rest ih =>
    intro filled accounted
    have effect := accountEffect_of_step filled taken
    by_cases delivered : delivers platform s action
    · rcases ih (filled_step filled taken) (accounted_step accounted delivered effect) with
        ⟨all, whole⟩ | ⟨some, short⟩
      · exact Or.inl ⟨.cons delivered taken all, whole⟩
      · refine Or.inr ⟨fun all => some ?_, short⟩
        cases all with
        | cons _ same later =>
          cases same.symm.trans taken
          exact later
    · refine Or.inr ⟨fun all => ?_, short_of_run rest (filled_step filled taken)
        (short_of_loses accounted delivered effect)⟩
      cases all with
      | cons now => exact delivered now

/-! ## Broadcasts that are delivered and others -/

/-- Between drains, every change that was ever buffered is in exactly one datagram that was sent
    or still in the buffer exactly if each broadcast so far was delivered. -/
theorem changes_announced_iff {monitor : Monitor} (idle : monitor.phase = .idle)
    {actions : List AnnouncerAction} {s : Announcer}
    (run : Run (announcerStep layout platform) anyStep (Announcer.start monitor) actions s)
    (drained : s.monitor.phase = .idle) :
    s.sent.flatten ++ s.monitor.fileChangeBuf = s.buffered ↔
      Run (announcerStep layout platform) (delivers platform) (Announcer.start monitor) actions s := by
  have filled : (Announcer.start monitor).Filled := fun busy => absurd idle busy
  have accounted : (Announcer.start monitor).Accounted := by
    rw [Announcer.Accounted, Announcer.start, Monitor.unbroadcast, idle]
    rfl
  have buffer : s.monitor.unbroadcast = s.monitor.fileChangeBuf := by
    rw [Monitor.unbroadcast, drained]
  rcases delivers_or_short run filled accounted with ⟨all, whole⟩ | ⟨some, short⟩
  · rw [Announcer.Accounted, buffer] at whole
    exact ⟨fun _ => all, fun _ => whole⟩
  · refine ⟨fun whole => ?_, fun all => absurd all some⟩
    rw [Announcer.Short, buffer, ← whole, List.length_append] at short
    exact absurd short (Nat.lt_irrefl _)

/-- A buffer with one addition is broadcast. -/
theorem changes_announced_iff_one :
    let monitor : Monitor :=
      { prevDir := (∅ : FileTable).insert (wide "\\a") 7, fileHashes := ∅
        fileChangeBuf := [⟨wide "\\a", 7, .addition⟩], phase := .idle, broadcasts := [] }
    Run (announcerStep bigEndian .win32) (delivers .win32) (Announcer.start monitor)
      [.lock, .update, .broadcast true, .clear]
      { monitor := { monitor with
          fileHashes := (∅ : FileTable).insert (wide "\\a") 7, fileChangeBuf := []
          broadcasts := [[⟨wide "\\a", 7, .addition⟩]] }
        sent := [[⟨wide "\\a", 7, .addition⟩]]
        buffered := [⟨wide "\\a", 7, .addition⟩] } := by
  intro monitor
  have run : Run (announcerStep bigEndian .win32) anyStep (Announcer.start monitor)
      [.lock, .update, .broadcast true, .clear] _ := Run.of_exec rfl
  exact (changes_announced_iff rfl run rfl).mp rfl

/-- The rounds of the drain's loop. -/
theorem updates_run (rest : List FileChangeData) : ∀ (done : List FileChangeData)
    (prevDir fileHashes : FileTable) (fileChangeBuf : List FileChangeData)
    (broadcasts sent : List (List FileChangeData)) (buffered : List FileChangeData),
    Run (announcerStep layout platform) anyStep
      ⟨⟨prevDir, fileHashes, fileChangeBuf, .updating done rest, broadcasts⟩, sent, buffered⟩
      (List.replicate rest.length .update)
      ⟨⟨prevDir, applyChanges fileHashes rest, fileChangeBuf, .updating (done ++ rest) [],
        broadcasts⟩, sent, buffered⟩ := by
  induction rest with
  | nil =>
    intro done prevDir fileHashes fileChangeBuf broadcasts sent buffered
    rw [List.append_nil]
    exact .nil _
  | cons changeData rest ih =>
    intro done prevDir fileHashes fileChangeBuf broadcasts sent buffered
    have later := ih (done ++ [changeData]) prevDir (updateFileHashes fileHashes changeData)
      fileChangeBuf broadcasts sent buffered
    rw [List.append_assoc] at later
    exact .cons trivial rfl later

/-- A drain whose datagram is too large removes the whole buffer and sends nothing. -/
theorem large_lost {changes : List FileChangeData} (nonempty : changes ≠ [])
    (large : maxDatagramSize < datagramSize platform changes) :
    ∃ (actions : List AnnouncerAction) (s : Announcer),
      Run (announcerStep layout platform) anyStep
        (Announcer.start ⟨∅, ∅, changes, .idle, []⟩) actions s ∧
      s.monitor.phase = .idle ∧ s.monitor.fileChangeBuf = [] ∧ s.sent = [] ∧
      s.buffered = changes := by
  have unsent : udpSend (changesPacket layout platform changes) true = false := by
    rw [udpSend, length_changesPacket, decide_eq_false (Nat.not_le.mpr large)]
    rfl
  have lock : announcerStep layout platform .lock (Announcer.start ⟨∅, ∅, changes, .idle, []⟩) =
      some ⟨⟨∅, ∅, changes, .updating [] changes, []⟩, [], changes⟩ := by
    cases changes with
    | nil => exact absurd rfl nonempty
    | cons => rfl
  have broadcast : announcerStep layout platform (.broadcast true)
      ⟨⟨∅, applyChanges ∅ changes, changes, .updating ([] ++ changes) [], []⟩, [], changes⟩ =
      some ⟨⟨∅, applyChanges ∅ changes, changes, .sent, [changes]⟩, [], changes⟩ := by
    simp only [announcerStep, unsent]
    rfl
  have updates : Run (announcerStep layout platform) anyStep _ _ _ :=
    updates_run changes [] ∅ ∅ changes [] [] changes
  have clear : Run (announcerStep layout platform) anyStep
      ⟨⟨∅, applyChanges ∅ changes, changes, .updating ([] ++ changes) [], []⟩, [], changes⟩
      [.broadcast true, .clear]
      ⟨⟨∅, applyChanges ∅ changes, [], .idle, [changes]⟩, [], changes⟩ :=
    .cons trivial broadcast (.one trivial rfl)
  exact ⟨_, _, .cons trivial lock (updates.append clear), rfl, rfl, rfl, rfl⟩

/-- The announcement of a picture in a folder that is copied into the shared folder. -/
def picture (n : Nat) : FileChangeData :=
  { filePath := wide "\\pictures\\" ++ [UInt16.ofNat (48 + n / 100),
      UInt16.ofNat (48 + n / 10 % 10), UInt16.ofNat (48 + n % 10)] ++ wide ".jpg"
    fileHash := 7
    change := .addition }

theorem datagramSize_pictures :
    datagramSize .win32 ((List.range 900).map picture) = 72905 := by
  have size (n : Nat) : 4 + 4 * (picture n).filePath.length + 8 + 1 = 81 := rfl
  rw [datagramSize, List.map_map, Function.comp_def]
  simp only [size, List.map_const', List.sum_replicate_nat, List.length_range]
  rfl

/-- 900 pictures are too much for a datagram: the drain removes them all, and sends none. -/
theorem pictures_lost : ∃ (actions : List AnnouncerAction) (s : Announcer),
    Run (announcerStep bigEndian .win32) anyStep
      (Announcer.start ⟨∅, ∅, (List.range 900).map picture, .idle, []⟩) actions s ∧
    s.monitor.phase = .idle ∧ s.monitor.fileChangeBuf = [] ∧ s.sent = [] ∧
    s.buffered = (List.range 900).map picture := by
  have nonempty : (List.range 900).map picture ≠ [] := by
    rw [Ne, List.map_eq_nil_iff, List.range_eq_nil]
    exact nofun
  apply large_lost nonempty
  rw [datagramSize_pictures]
  decide

end

end FileSync
