import FileSync.OutputStream
import FileSync.ReceivedWrites
import FileSync.Sync

/-!
# One request on the wire

What a request does to a folder, with the bytes of all packets: the datagram of `requestFiles`,
the reply of `handleUdp`, and the packets of `sendFile` and `receiveFile`. The server sends its
reply before it listens, so that the client may connect too early; then it loops in `receiveFile`
without a connection. No thread of a third party takes part.
-/

namespace FileSync

open TransitionSystem

/-- Where the client is in `requestFiles`, `negotiateTCPTransfer` and `receiveFile`. -/
inductive AskPhase where
  /-- At the change. -/
  | requesting
  | awaitingReply
  /-- The reply names the file and the port. -/
  | opening (filePath : WString) (tcpPort : UInt16)
  | connecting (filePath : WString) (tcpPort : UInt16)
  /-- The connection was refused, and nobody asks for the result of `startClient`. -/
  | stranded (filePath : WString)
  | receiving (filePath : WString)
  | writing (filePath : WString) (contents : Bytes)
  | responding (filePath : WString)
  /-- Out of the loop, before the empty packet is sent. -/
  | ending (filePath : WString)
  | returned

/-- Where the server is in case 5 of `handleUdp`. -/
inductive ServingPhase where
  | waiting
  | opening (filePath : WString)
  /-- In `sendFile` with the file. -/
  | sending (source : Bytes)

/-- One request of a client to a server. -/
structure Exchange where
  /-- The client's folder, as it is on its disk. -/
  folder : Folder
  asking : AskPhase
  /-- The variables of `receiveFile`. -/
  vars : ReceiveVars
  serving : ServingPhase
  server : SendFile
  /-- The client has connected to the server. -/
  connected : Bool
  request : Option Bytes
  /-- What is on its way to the negotiation port. -/
  reply : Option Bytes
  toClient : List Bytes
  toServer : List Bytes

/-- The steps of the client and of the server of a request. -/
inductive ExchangeAction where
  | ask
  | serve
  | openSource
  | readReply
  | openTarget
  | transfer (action : TransferAction)

/-- The port that `requestFiles` puts into a request. -/
def tcpNegotiationPort : UInt16 := 25565

/-- The port that case 5 of `handleUdp` puts into its reply. -/
def tcpPort : UInt16 := 45016

/-- The packets of `sendFile` (Node.cpp 118-125, 140-142). -/
def ServerPacket.packet (platform : Platform) : ServerPacket → Packet
  | .chunk pos contents => chunkPacket bigEndian platform pos contents
  | .finished => Packet.empty.insertUInt8 bigEndian 101

/-- The packets of `receiveFile` (Node.cpp 169-170, 181). -/
def ClientPacket.packet : ClientPacket → Packet
  | .position pos => Packet.empty.insertUInt32 bigEndian pos
  | .empty => Packet.empty

section

variable (platform : Platform) (buffering : Buffering) (garbage : Uninitialized)
  (memory : Nat → UInt8)

/-- The integers that `receiveFile` declares without a value. -/
def Uninitialized.leftover : Leftover := ⟨garbage.uint8, garbage.uint32, garbage.uint32⟩

/-- The steps of `startClient`, `sendFile` and `receiveFile` (Node.cpp 104-183) on the bytes of
    their packets, and the `file.close()` after them (331). -/
def wireTransferStep : TransferAction → Exchange → Option Exchange
  | .connect, s =>
    match s.asking, s.serving with
    | .connecting filePath port, .sending _ =>
      if port = tcpPort then some { s with asking := .receiving filePath, connected := true }
      else some { s with asking := .stranded filePath }
    -- the server does not listen yet
    | .connecting filePath _, _ => some { s with asking := .stranded filePath }
    | _, _ => none
  | .accept, s =>
    match s.serving, s.server.phase, s.connected with
    | .sending source, .accepting, true => some { s with server := { s.server with
        phase := .testing, length := UInt32.ofNat source.length, pos := 0, offset := 0 } }
    | _, _, _ => none
  | .test, s =>
    match s.serving, s.server.phase with
    | .sending source, .testing =>
      if s.server.pos < s.server.length then
        let contents := readChunk source s.server.offset s.server.failed
        some { s with server := { s.server with
          phase := .sending contents
          offset := s.server.offset + contents.length
          failed := s.server.failed || decide (contents.length < chunkSize) } }
      else some { s with server := { s.server with phase := .ending } }
    | _, _ => none
  | .send, s =>
    match s.server.phase with
    | .sending contents => some { s with
        server := { s.server with phase := .receiving }
        toClient := s.toClient ++
          [((ServerPacket.chunk s.server.pos contents).packet platform).data] }
    | _ => none
  | .receive, s =>
    match s.asking, s.toClient with
    | .receiving filePath, data :: toClient =>
      match (extractPacket bigEndian s.vars.left (Packet.received data)).1 with
      | some (left, contents) => some { s with
          asking := .writing filePath contents
          vars := { s.vars with left }
          toClient }
      | none => some { s with asking := .ending filePath, toClient }
    | _, _ => none
  | .write, s =>
    match s.asking with
    | .writing filePath contents =>
      if s.vars.pos = s.vars.left.serverPos then
        let file := s.vars.file ++ writtenBytes memory contents s.vars.left.length.toNat
        some { s with
          folder := s.folder.set filePath (some (buffering.stored file))
          asking := .responding filePath
          vars := { s.vars with pos := UInt32.ofNat file.length, file } }
      else some { s with asking := .responding filePath }
    | _ => none
  | .respond, s =>
    match s.asking with
    | .responding filePath => some { s with
        asking := .receiving filePath
        toServer := s.toServer ++ [(ClientPacket.position s.vars.pos).packet.data] }
    | _ => none
  | .receiveResponse, s =>
    match s.server.phase, s.toServer with
    | .receiving, data :: toServer =>
      let clientPos := (extractUInt32 bigEndian garbage.uint32 (Packet.received data)).1
      some { s with server := { s.server with phase := .testing, pos := clientPos }, toServer }
    | _, _ => none
  | .sendEnd, s =>
    match s.server.phase with
    | .ending => some { s with
        server := { s.server with phase := .closing }
        toClient := s.toClient ++ [(ServerPacket.finished.packet platform).data] }
    | _ => none
  | .respondEnd, s =>
    match s.asking with
    | .ending filePath => some { s with
        folder := s.folder.set filePath (some s.vars.file)
        asking := .returned
        toServer := s.toServer ++ [ClientPacket.empty.packet.data] }
    | _ => none
  | .receiveEnd, s =>
    match s.server.phase, s.toServer with
    | .closing, _ :: toServer => some { s with
        server := { s.server with phase := .done }, toServer }
    | _, _ => none

/-- A step of a request for `fileChange` to a server with the folder `theirs`: of `requestFiles`
    (Node.cpp 395-427) and `negotiateTCPTransfer` (299-336), or of case 5 of `handleUdp`
    (236-275). -/
def exchangeStep (theirs : Folder) (fileChange : FileChangeData) :
    ExchangeAction → Exchange → Option Exchange
  | .ask, s =>
    match s.asking, fileChange.change with
    | .requesting, .deletion =>
      some { s with folder := s.folder.set fileChange.filePath none, asking := .returned }
    | .requesting, _ =>
      if s.folder.has platform fileChange then some { s with asking := .returned }
      else some { s with
        asking := .awaitingReply
        request := some (requestPacket bigEndian fileChange tcpNegotiationPort).data }
    | _, _ => none
  | .serve, s =>
    match s.serving, s.request with
    | .waiting, some data =>
      let (_, fileChange, port) := (readRequest bigEndian garbage (Packet.received data)).1
      let abandon := !theirs.contains fileChange.filePath
      some { s with
        serving := if abandon then .waiting else .opening fileChange.filePath
        request := none
        reply :=
          if port = tcpNegotiationPort then
            some (replyPacket bigEndian abandon fileChange tcpPort).data
          else s.reply }
    | _, _ => none
  | .openSource, s =>
    match s.serving with
    | .opening filePath => some { s with serving := .sending (theirs[filePath]?.getD []) }
    | _ => none
  | .readReply, s =>
    match s.asking, s.reply with
    | .awaitingReply, some data =>
      let (abandon, fileChange, tcpPort) := (readReply bigEndian garbage (Packet.received data)).1
      some { s with
        asking := if abandon then .returned else .opening fileChange.filePath tcpPort
        reply := none }
    | _, _ => none
  | .openTarget, s =>
    match s.asking with
    | .opening filePath tcpPort => some { s with
        folder := s.folder.set filePath (some [])
        asking := .connecting filePath tcpPort
        vars := ReceiveVars.start garbage.leftover }
    | _ => none
  | .transfer action, s => wireTransferStep platform buffering garbage memory action s

/-- The client is about to look at the change, and the server waits for datagrams. -/
def Exchange.start (folder : Folder) : Exchange where
  folder
  asking := .requesting
  vars := ReceiveVars.start garbage.leftover
  serving := .waiting
  server := Transfer.start.server
  connected := false
  request := none
  reply := none
  toClient := []
  toServer := []

end

/-! ## The loops on bytes do what the loops on packets do -/

/-- The client in a phase of `receiveFile`. -/
def ClientPhase.asking (filePath : WString) : ClientPhase → AskPhase
  | .connecting => .connecting filePath tcpPort
  | .receiving => .receiving filePath
  | .writing _ _ contents => .writing filePath contents
  | .responding => .responding filePath
  | .ending => .ending filePath
  | .done => .returned

/-- What is on the client's disk, where it closes its file with its last packet. -/
def Transfer.onDisk (buffering : Buffering) (t : Transfer) : Bytes :=
  match t.client.phase with
  | .done => t.client.file
  | _ => buffering.stored t.client.file

/-- Both sides are in the transfer of a file to a path of the client's folder as it was before. -/
structure Joined (buffering : Buffering) (before : Folder) (filePath : WString) (s : Exchange)
    (t : Transfer) : Prop where
  server : s.server = t.server
  asking : s.asking = t.client.phase.asking filePath
  pos : s.vars.pos = t.client.pos
  file : s.vars.file = t.client.file
  label : ∀ serverPos length contents, t.client.phase = .writing serverPos length contents →
    s.vars.left.serverPos = serverPos ∧ s.vars.left.length = length
  folder : s.folder = before.set filePath (some (t.onDisk buffering))
  connected : s.connected = true ↔ t.client.phase ≠ .connecting
  request : s.request = none
  reply : s.reply = none
  toClient : s.toClient = t.toClient.map fun sent => (sent.packet .win32).data
  toServer : s.toServer = t.toServer.map fun sent => sent.packet.data

variable {buffering : Buffering} {garbage : Uninitialized} {memory : Nat → UInt8}
  {before theirs : Folder} {filePath : WString} {fileChange : FileChangeData} {source : Bytes}
  {s : Exchange} {t : Transfer}

theorem extract_finished (left : Leftover) : (extractPacket bigEndian left
    (Packet.received (ServerPacket.finished.packet .win32).data)).1 = none := by
  rfl

theorem extract_chunk (left : Leftover) (pos : UInt32) {contents : Bytes}
    (short : contents.length ≤ chunkSize) : (extractPacket bigEndian left
      (Packet.received ((ServerPacket.chunk pos contents).packet .win32).data)).1 =
      some (⟨100, pos, UInt32.ofNat contents.length⟩, contents) :=
  extractPacket_chunk .win32 left pos (Nat.lt_of_le_of_lt short (by decide))

theorem extract_position (pos : UInt32) : (extractUInt32 bigEndian garbage.uint32
    (Packet.received (ClientPacket.position pos).packet.data)).1 = pos := by
  have whole : (Packet.received (ClientPacket.position pos).packet.data).left =
      some (bigEndian.put 4 pos.toNat ++ []) := by
    simp [Packet.received, Packet.left, ClientPacket.packet, Packet.empty]
  obtain ⟨after, result, -⟩ := extractUInt32_yields bigEndian garbage.uint32 pos _ _ whole
  rw [result]

/-- What is received and what is written is not longer than a chunk. -/
theorem short_of_coupled (coupled : Coupled source t) :
    (∀ pos contents, .chunk pos contents ∈ t.toClient → contents.length ≤ chunkSize) ∧
    ∀ serverPos length contents, t.client.phase = .writing serverPos length contents →
      length.toNat = contents.length := by
  obtain ⟨⟨phase, length, pos, offset, failed⟩, ⟨clientPhase, clientPos, file⟩, toClient,
    toServer⟩ := t
  obtain ⟨⟨inFlight, control, -, short⟩, -, -, -, -, -, -⟩ := coupled
  simp only at control ⊢
  constructor
  · intro chunkPos contents member
    cases control <;> simp at member
    rw [member.2]
    exact short
  · intro serverPos size contents writing
    cases control <;> cases writing
    exact UInt32.toNat_ofNat_of_lt (Nat.lt_of_le_of_lt short (by decide))

theorem set_set (folder : Folder) (path : WString) (first second : Option Bytes) :
    (folder.set path first).set path second = folder.set path second := by
  apply Std.ExtTreeMap.ext_getElem?
  intro other
  by_cases same : path = other
  · rw [same, set_self, set_self]
  · rw [set_of_ne same, set_of_ne same, set_of_ne same]

/-- The exchange that a transfer is, with what the packets do not tell. -/
def Transfer.exchange (buffering : Buffering) (before : Folder) (filePath : WString)
    (source : Bytes) (left : Leftover) (connected : Bool) (t : Transfer) : Exchange where
  folder := before.set filePath (some (t.onDisk buffering))
  asking := t.client.phase.asking filePath
  vars := ⟨left, t.client.pos, t.client.file⟩
  serving := .sending source
  server := t.server
  connected
  request := none
  reply := none
  toClient := t.toClient.map fun sent => (sent.packet .win32).data
  toServer := t.toServer.map fun sent => sent.packet.data

theorem Joined.eq_exchange (joined : Joined buffering before filePath s t)
    (sending : s.serving = .sending source) :
    s = t.exchange buffering before filePath source s.vars.left s.connected := by
  obtain ⟨folder, asking, ⟨left, pos, file⟩, serving, server, connected, request, reply, toClient,
    toServer⟩ := s
  obtain ⟨rfl, rfl, rfl, rfl, -, rfl, -, rfl, rfl, rfl, rfl⟩ := joined
  cases sending
  rfl

/-- The exchange is joined to the transfer that it is. -/
theorem joined_some (left : Leftover) (connected : Bool)
    (label : ∀ serverPos length contents, t.client.phase = .writing serverPos length contents →
      left.serverPos = serverPos ∧ left.length = length)
    (isConnected : connected = true ↔ t.client.phase ≠ .connecting)
    (same : s = t.exchange buffering before filePath source left connected) :
    Option.Rel (fun next nextTransfer => Joined buffering before filePath next nextTransfer ∧
      next.serving = .sending source) (some s) (some t) := by
  subst same
  exact .some ⟨⟨rfl, rfl, rfl, rfl, label, rfl, isConnected, rfl, rfl, rfl, rfl⟩, rfl⟩

section

variable {left : Leftover} {connected : Bool}
  (label : ∀ serverPos length contents, t.client.phase = .writing serverPos length contents →
    left.serverPos = serverPos ∧ left.length = length)
  (isConnected : connected = true ↔ t.client.phase ≠ .connecting)

include label isConnected

/-- The steps of `sendFile`. -/
theorem joined_server (coupled : Coupled source t) {action : TransferAction}
    (ofServer : action = .accept ∨ action = .test ∨ action = .send ∨ action = .receiveResponse ∨
      action = .sendEnd ∨ action = .receiveEnd) :
    Option.Rel (fun next nextTransfer => Joined buffering before filePath next nextTransfer ∧
        next.serving = .sending source)
      (wireTransferStep .win32 buffering garbage memory action
        (t.exchange buffering before filePath source left connected))
      (transferStep .win32 source action t) := by
  obtain ⟨⟨phase, length, serverPos, offset, failed⟩, ⟨clientPhase, pos, file⟩, sent,
    responses⟩ := t
  simp only at label isConnected
  rcases ofServer with rfl | rfl | rfl | rfl | rfl | rfl
  · cases phase with
    | accepting =>
      cases clientPhase with
      | connecting =>
        obtain rfl : connected = false := by simpa using isConnected
        exact .none
      | _ =>
        obtain rfl : connected = true := by simpa using isConnected
        exact joined_some left true label isConnected rfl
    | _ => cases clientPhase <;> exact .none
  · cases phase with
    | testing =>
      by_cases running : serverPos < length
      · simp only [wireTransferStep, transferStep, Transfer.exchange, running, if_true]
        exact joined_some left connected label isConnected rfl
      · simp only [wireTransferStep, transferStep, Transfer.exchange, running, if_false]
        exact joined_some left connected label isConnected rfl
    | _ => exact .none
  · cases phase with
    | sending contents =>
      exact joined_some left connected label isConnected
        (by simp [Transfer.exchange, Transfer.onDisk])
    | _ => exact .none
  · cases phase with
    | receiving =>
      cases responses with
      | nil => exact .none
      | cons response responses =>
        obtain ⟨⟨inFlight, control, -, -⟩, -, -, -, -, -, -⟩ := coupled
        simp only at control
        cases control
        simp only [wireTransferStep, transferStep, Transfer.exchange, List.map_cons,
          extract_position]
        exact joined_some left connected label isConnected rfl
    | _ => exact .none
  · cases phase with
    | ending =>
      exact joined_some left connected label isConnected
        (by simp [Transfer.exchange, Transfer.onDisk])
    | _ => exact .none
  · cases phase with
    | closing =>
      cases responses with
      | nil => exact .none
      | cons response responses => exact joined_some left connected label isConnected rfl
    | _ => exact .none

/-- The steps of `startClient` and `receiveFile`. -/
theorem joined_client (coupled : Coupled source t) {action : TransferAction}
    (ofClient : action = .connect ∨ action = .receive ∨ action = .write ∨ action = .respond ∨
      action = .respondEnd) :
    Option.Rel (fun next nextTransfer => Joined buffering before filePath next nextTransfer ∧
        next.serving = .sending source)
      (wireTransferStep .win32 buffering garbage memory action
        (t.exchange buffering before filePath source left connected))
      (transferStep .win32 source action t) := by
  have shorts := short_of_coupled coupled
  obtain ⟨server, ⟨clientPhase, pos, file⟩, sent, responses⟩ := t
  simp only at label isConnected shorts
  rcases ofClient with rfl | rfl | rfl | rfl | rfl
  · cases clientPhase with
    | connecting => exact joined_some left true (by simp) (by simp) rfl
    | _ => exact .none
  · cases clientPhase with
    | receiving =>
      cases sent with
      | nil => exact .none
      | cons packet sent =>
        cases packet with
        | chunk chunkPos contents =>
          have short := shorts.1 chunkPos contents (List.mem_cons_self ..)
          simp only [wireTransferStep, transferStep, Transfer.exchange, ClientPhase.asking,
            List.map_cons, extract_chunk left chunkPos short]
          exact joined_some ⟨100, chunkPos, UInt32.ofNat contents.length⟩ connected
            (by simp [extractContents]) (by simpa using isConnected) rfl
        | finished =>
          simp only [wireTransferStep, transferStep, Transfer.exchange, ClientPhase.asking,
            List.map_cons, extract_finished]
          exact joined_some left connected (by simp) (by simpa using isConnected) rfl
    | _ => exact .none
  · cases clientPhase with
    | writing serverPos length contents =>
      obtain ⟨rfl, rfl⟩ := label _ _ _ rfl
      have exactly := shorts.2 _ _ _ rfl
      by_cases same : pos = left.serverPos
      · simp only [wireTransferStep, transferStep, Transfer.exchange, ClientPhase.asking,
          same, if_true, writtenBytes_of_le memory (Nat.le_of_eq exactly), set_set]
        exact joined_some left connected (by simp) (by simpa using isConnected) rfl
      · simp only [wireTransferStep, transferStep, Transfer.exchange, ClientPhase.asking,
          same, if_false]
        exact joined_some left connected (by simp) (by simpa using isConnected) rfl
    | _ => exact .none
  · cases clientPhase with
    | responding =>
      exact joined_some left connected (by simp) (by simpa using isConnected)
        (by simp [Transfer.exchange, Transfer.onDisk, ClientPhase.asking])
    | _ => exact .none
  · cases clientPhase with
    | ending =>
      exact joined_some left connected (by simp) (by simpa using isConnected)
        (by simp [Transfer.exchange, Transfer.onDisk, ClientPhase.asking, set_set])
    | _ => exact .none

end

/-- While the server is in `sendFile`, a step on the bytes is possible when the step on the packets
    is, and does the same. -/
theorem joined_step (coupled : Coupled source t) (joined : Joined buffering before filePath s t)
    (sending : s.serving = .sending source) (action : TransferAction) :
    Option.Rel (fun next nextTransfer => Joined buffering before filePath next nextTransfer ∧
        next.serving = .sending source)
      (wireTransferStep .win32 buffering garbage memory action s)
      (transferStep .win32 source action t) := by
  rw [joined.eq_exchange sending]
  cases action with
  | connect | receive | write | respond | respondEnd =>
    exact joined_client joined.label joined.connected coupled (by simp)
  | _ => exact joined_server joined.label joined.connected coupled (by simp)

/-! ## The invariant of a request -/

/-- No packet of a transfer has been sent. -/
structure Exchange.Apart (s : Exchange) : Prop where
  server : s.server = Transfer.start.server
  connected : s.connected = false
  toClient : s.toClient = []
  toServer : s.toServer = []

/-- The client is in the loop of `receiveFile` or behind it. -/
def AskPhase.talks : AskPhase → Bool
  | .receiving _ | .writing .. | .responding _ | .ending _ => true
  | _ => false

/-- The change makes the client send a request. -/
structure Asks (before : Folder) (fileChange : FileChangeData) : Prop where
  kept : fileChange.change ≠ .deletion
  lacks : before.has .win32 fileChange = false

/-- How far a request has got, with what is on the disk and on its way then. -/
inductive ExchangeInv (buffering : Buffering) (garbage : Uninitialized) (theirs before : Folder)
    (fileChange : FileChangeData) : Exchange → Prop where
  | requesting :
      ExchangeInv buffering garbage theirs before fileChange (Exchange.start garbage before)
  /-- Nothing was requested, or the server has abandoned. -/
  | settled {s : Exchange} : s.Apart → s.asking = .returned → s.serving = .waiting →
      s.request = none → s.folder = Folder.request .win32 before theirs fileChange →
      ExchangeInv buffering garbage theirs before fileChange s
  | asked {s : Exchange} : s.Apart → Asks before fileChange → s.asking = .awaitingReply →
      s.serving = .waiting → s.folder = before → s.reply = none →
      s.request = some (requestPacket bigEndian fileChange tcpNegotiationPort).data →
      ExchangeInv buffering garbage theirs before fileChange s
  | refused {s : Exchange} : s.Apart → Asks before fileChange → s.asking = .awaitingReply →
      s.serving = .waiting → s.folder = before → s.request = none →
      s.reply = some (replyPacket bigEndian true fileChange tcpPort).data →
      theirs[fileChange.filePath]? = none → ExchangeInv buffering garbage theirs before fileChange s
  | granted {s : Exchange} {source : Bytes} : s.Apart → Asks before fileChange →
      s.asking = .awaitingReply ∧
          s.reply = some (replyPacket bigEndian false fileChange tcpPort).data ∨
        s.asking = .opening fileChange.filePath tcpPort ∧ s.reply = none →
      s.serving = .opening fileChange.filePath ∨ s.serving = .sending source →
      s.folder = before → s.request = none → theirs[fileChange.filePath]? = some source →
      ExchangeInv buffering garbage theirs before fileChange s
  /-- The client has connected before the server listens. -/
  | stranded {s : Exchange} {source : Bytes} : s.Apart →
      s.asking = .stranded fileChange.filePath →
      s.serving = .opening fileChange.filePath ∨ s.serving = .sending source →
      s.folder = before.set fileChange.filePath (some []) → s.request = none → s.reply = none →
      theirs[fileChange.filePath]? = some source →
      ExchangeInv buffering garbage theirs before fileChange s
  | joined {s : Exchange} {t : Transfer} {source : Bytes} : Asks before fileChange →
      Joined buffering before fileChange.filePath s t → Coupled source t →
      s.serving = .opening fileChange.filePath ∧ t = Transfer.start ∨
        s.serving = .sending source →
      theirs[fileChange.filePath]? = some source →
      ExchangeInv buffering garbage theirs before fileChange s

/-- Before the two sides have joined no step of the loops is possible but a `connect`. -/
theorem wireTransferStep_apart (apart : s.Apart) (quiet : s.asking.talks = false)
    (action : TransferAction)
    (unconnecting : action = .connect → ∀ filePath port, s.asking ≠ .connecting filePath port) :
    wireTransferStep .win32 buffering garbage memory action s = none := by
  obtain ⟨folder, asking, vars, serving, server, connected, request, reply, toClient, toServer⟩ := s
  obtain ⟨rfl, rfl, rfl, rfl⟩ := apart
  cases action with
  | connect => cases asking <;> first | rfl | exact absurd rfl (unconnecting rfl _ _)
  | accept => cases serving <;> rfl
  | test => cases serving <;> rfl
  | receive => cases asking <;> rfl
  | write => cases asking <;> first | rfl | cases quiet
  | respond => cases asking <;> first | rfl | cases quiet
  | respondEnd => cases asking <;> first | rfl | cases quiet
  | _ => rfl

theorem ask_eq_none (asking : s.asking ≠ .requesting) :
    exchangeStep .win32 buffering garbage memory theirs fileChange .ask s = none := by
  cases phase : s.asking with
  | requesting => exact absurd phase asking
  | _ => simp only [exchangeStep, phase]

theorem serve_eq_none (request : s.request = none) :
    exchangeStep .win32 buffering garbage memory theirs fileChange .serve s = none := by
  cases serving : s.serving <;> simp only [exchangeStep, serving, request]

theorem readReply_eq_none (reply : s.reply = none) :
    exchangeStep .win32 buffering garbage memory theirs fileChange .readReply s = none := by
  cases asking : s.asking <;> simp only [exchangeStep, asking, reply]

theorem openTarget_eq_none (asking : ∀ filePath port, s.asking ≠ .opening filePath port) :
    exchangeStep .win32 buffering garbage memory theirs fileChange .openTarget s = none := by
  cases phase : s.asking with
  | opening filePath port => exact absurd phase (asking filePath port)
  | _ => simp only [exchangeStep, phase]

/-- A client in the transfer is behind the request and behind the reply. -/
theorem asking_behind (phase : ClientPhase) (filePath : WString) :
    phase.asking filePath ≠ .requesting ∧
      ∀ other port, phase.asking filePath ≠ .opening other port := by
  cases phase <;> simp [ClientPhase.asking]

/-- A step of the loops in a joined exchange. -/
theorem exchangeInv_transfer {action : TransferAction} {next : Exchange}
    (asks : Asks before fileChange) (joined : Joined buffering before fileChange.filePath s t)
    (coupled : Coupled source t)
    (serving : s.serving = .opening fileChange.filePath ∧ t = Transfer.start ∨
      s.serving = .sending source)
    (found : theirs[fileChange.filePath]? = some source)
    (taken : wireTransferStep .win32 buffering garbage memory action s = some next) :
    ExchangeInv buffering garbage theirs before fileChange next := by
  rcases serving with ⟨serving, rfl⟩ | serving
  · have apart : s.Apart := by
      refine ⟨joined.server, ?_, joined.toClient, joined.toServer⟩
      simpa [Transfer.start] using joined.connected
    have asking : s.asking = .connecting fileChange.filePath tcpPort := joined.asking
    by_cases connects : action = .connect
    · subst connects
      simp only [wireTransferStep, asking, serving] at taken
      cases taken
      refine .stranded ⟨apart.server, apart.connected, apart.toClient, apart.toServer⟩ rfl
        (Or.inl rfl) ?_ joined.request joined.reply found
      rw [joined.folder, Transfer.onDisk]
      exact congrArg (fun bytes => before.set _ (some bytes)) buffering.stored_nil
    · rw [wireTransferStep_apart apart (by rw [asking]; rfl) action (absurd · connects)] at taken
      cases taken
  · have step := @joined_step buffering garbage memory before fileChange.filePath source s t coupled
      joined serving action
    rw [taken] at step
    cases moved : transferStep .win32 source action t with
    | none =>
      rw [moved] at step
      cases step
    | some nextTransfer =>
      rw [moved] at step
      cases step with
      | some both =>
        exact .joined asks both.1 (coupled_step (Or.inl rfl) coupled moved) (Or.inr both.2) found

theorem ask_start : exchangeStep .win32 buffering garbage memory theirs fileChange .ask
    (Exchange.start garbage before) =
      if fileChange.change = .deletion then some { Exchange.start garbage before with
        folder := before.set fileChange.filePath none
        asking := .returned }
      else if before.has .win32 fileChange then
        some { Exchange.start garbage before with asking := .returned }
      else some { Exchange.start garbage before with
        asking := .awaitingReply
        request := some (requestPacket bigEndian fileChange tcpNegotiationPort).data } := by
  obtain ⟨filePath, fileHash, change⟩ := fileChange
  cases change <;> rfl

theorem request_eq : Folder.request .win32 before theirs fileChange =
    if fileChange.change = .deletion then before.set fileChange.filePath none
    else if before.has .win32 fileChange then before
    else
      match theirs[fileChange.filePath]? with
      | some bytes => before.set fileChange.filePath (some bytes)
      | none => before := by
  obtain ⟨filePath, fileHash, change⟩ := fileChange
  cases change <;> rfl

theorem request_of_asks (asks : Asks before fileChange) :
    Folder.request .win32 before theirs fileChange =
      match theirs[fileChange.filePath]? with
      | some bytes => before.set fileChange.filePath (some bytes)
      | none => before := by
  rw [request_eq, if_neg asks.kept, asks.lacks, if_neg Bool.false_ne_true]

theorem exchangeInv_ask {next : Exchange}
    (taken : exchangeStep .win32 buffering garbage memory theirs fileChange .ask
      (Exchange.start garbage before) = some next) :
    ExchangeInv buffering garbage theirs before fileChange next := by
  have settled {folder : Folder}
      (same : folder = Folder.request .win32 before theirs fileChange) :
      ExchangeInv buffering garbage theirs before fileChange
        { Exchange.start garbage before with folder, asking := .returned } :=
    .settled ⟨rfl, rfl, rfl, rfl⟩ rfl rfl rfl same
  rw [request_eq] at settled
  rw [ask_start] at taken
  by_cases kept : fileChange.change = .deletion
  · rw [if_pos kept] at taken settled
    cases taken
    exact settled rfl
  · rw [if_neg kept] at taken settled
    split at taken
    · rename_i has
      rw [if_pos has] at settled
      cases taken
      exact settled rfl
    · rename_i lacks
      cases taken
      exact .asked ⟨rfl, rfl, rfl, rfl⟩ ⟨kept, by simpa using lacks⟩ rfl rfl rfl rfl rfl

theorem serve_asked (sized : fileChange.Sized) (serving : s.serving = .waiting)
    (request : s.request = some (requestPacket bigEndian fileChange tcpNegotiationPort).data) :
    exchangeStep .win32 buffering garbage memory theirs fileChange .serve s = some { s with
      serving := if !theirs.contains fileChange.filePath then .waiting
        else .opening fileChange.filePath
      request := none
      reply := some (replyPacket bigEndian (!theirs.contains fileChange.filePath) fileChange
        tcpPort).data } := by
  simp only [exchangeStep, serving, request,
    (request_roundTrip bigEndian garbage tcpNegotiationPort sized).1]
  rfl

theorem readReply_awaiting (sized : fileChange.Sized) {abandon : Bool}
    (asking : s.asking = .awaitingReply)
    (reply : s.reply = some (replyPacket bigEndian abandon fileChange tcpPort).data) :
    exchangeStep .win32 buffering garbage memory theirs fileChange .readReply s = some { s with
      asking := if abandon then .returned else .opening fileChange.filePath tcpPort
      reply := none } := by
  simp only [exchangeStep, asking, reply,
    (reply_roundTrip bigEndian garbage abandon tcpPort sized).1]

theorem exchangeInv_serve {next : Exchange} (sized : fileChange.Sized) (apart : s.Apart)
    (asks : Asks before fileChange) (asking : s.asking = .awaitingReply)
    (serving : s.serving = .waiting) (folder : s.folder = before)
    (request : s.request = some (requestPacket bigEndian fileChange tcpNegotiationPort).data)
    (taken : exchangeStep .win32 buffering garbage memory theirs fileChange .serve s = some next) :
    ExchangeInv buffering garbage theirs before fileChange next := by
  rw [serve_asked sized serving request] at taken
  cases found : theirs[fileChange.filePath]? with
  | none =>
    have absent : theirs.contains fileChange.filePath = false := by
      rw [Std.ExtTreeMap.contains_eq_isSome_getElem?, found]
      rfl
    rw [absent] at taken
    cases taken
    exact .refused ⟨apart.server, apart.connected, apart.toClient, apart.toServer⟩ asks asking rfl
      folder rfl rfl found
  | some source =>
    have present : theirs.contains fileChange.filePath = true := by
      rw [Std.ExtTreeMap.contains_eq_isSome_getElem?, found]
      rfl
    rw [present] at taken
    cases taken
    exact .granted ⟨apart.server, apart.connected, apart.toClient, apart.toServer⟩ asks
      (Or.inl ⟨asking, rfl⟩) (Or.inl rfl) folder rfl found

/-- Before the two sides have joined, and but for a `connect`, the loops stand still. -/
theorem transfer_eq_none (apart : s.Apart) (quiet : s.asking.talks = false)
    (unconnecting : ∀ filePath port, s.asking ≠ .connecting filePath port)
    (action : TransferAction) :
    exchangeStep .win32 buffering garbage memory theirs fileChange (.transfer action) s = none :=
  wireTransferStep_apart apart quiet action fun _ => unconnecting

theorem exchangeInv_requesting {action : ExchangeAction} {next : Exchange}
    (taken : exchangeStep .win32 buffering garbage memory theirs fileChange action
      (Exchange.start garbage before) = some next) :
    ExchangeInv buffering garbage theirs before fileChange next := by
  cases action with
  | ask => exact exchangeInv_ask taken
  | transfer action =>
    rw [transfer_eq_none ⟨rfl, rfl, rfl, rfl⟩ rfl (by simp [Exchange.start])] at taken
    cases taken
  | _ => cases taken

/-- After the return of a client that has not been served there are no more steps. -/
theorem exchangeStep_settled {action : ExchangeAction} (apart : s.Apart)
    (asking : s.asking = .returned) (serving : s.serving = .waiting) (request : s.request = none) :
    exchangeStep .win32 buffering garbage memory theirs fileChange action s = none := by
  cases action with
  | transfer action => exact transfer_eq_none apart (by rw [asking]; rfl) (by simp [asking]) action
  | _ => simp only [exchangeStep, asking, serving, request]

theorem exchangeInv_asked {action : ExchangeAction} {next : Exchange} (sized : fileChange.Sized)
    (apart : s.Apart) (asks : Asks before fileChange) (asking : s.asking = .awaitingReply)
    (serving : s.serving = .waiting) (folder : s.folder = before) (reply : s.reply = none)
    (request : s.request = some (requestPacket bigEndian fileChange tcpNegotiationPort).data)
    (taken : exchangeStep .win32 buffering garbage memory theirs fileChange action s = some next) :
    ExchangeInv buffering garbage theirs before fileChange next := by
  cases action with
  | serve => exact exchangeInv_serve sized apart asks asking serving folder request taken
  | transfer action =>
    rw [transfer_eq_none apart (by rw [asking]; rfl) (by simp [asking])] at taken
    cases taken
  | _ =>
    simp only [exchangeStep, asking, serving, reply] at taken
    cases taken

theorem exchangeInv_refused {action : ExchangeAction} {next : Exchange} (sized : fileChange.Sized)
    (apart : s.Apart) (asks : Asks before fileChange) (asking : s.asking = .awaitingReply)
    (serving : s.serving = .waiting) (folder : s.folder = before) (request : s.request = none)
    (reply : s.reply = some (replyPacket bigEndian true fileChange tcpPort).data)
    (lacks : theirs[fileChange.filePath]? = none)
    (taken : exchangeStep .win32 buffering garbage memory theirs fileChange action s = some next) :
    ExchangeInv buffering garbage theirs before fileChange next := by
  cases action with
  | readReply =>
    rw [readReply_awaiting sized asking reply] at taken
    cases taken
    refine .settled ⟨apart.server, apart.connected, apart.toClient, apart.toServer⟩ rfl serving
      request ?_
    rw [request_of_asks asks, lacks]
    exact folder
  | transfer action =>
    rw [transfer_eq_none apart (by rw [asking]; rfl) (by simp [asking])] at taken
    cases taken
  | _ =>
    simp only [exchangeStep, asking, serving, request] at taken
    cases taken

/-- The client truncates its file, and the loops start. -/
theorem exchangeInv_openTarget {source : Bytes} {next : Exchange}
    (apart : s.Apart) (asks : Asks before fileChange)
    (asking : s.asking = .opening fileChange.filePath tcpPort) (reply : s.reply = none)
    (serving : s.serving = .opening fileChange.filePath ∨ s.serving = .sending source)
    (folder : s.folder = before) (request : s.request = none)
    (found : theirs[fileChange.filePath]? = some source)
    (taken : exchangeStep .win32 buffering garbage memory theirs fileChange .openTarget s =
      some next) :
    ExchangeInv buffering garbage theirs before fileChange next := by
  simp only [exchangeStep, asking] at taken
  cases taken
  refine .joined asks ⟨apart.server, rfl, rfl, rfl, ?_, ?_, ?_, request, reply,
    apart.toClient, apart.toServer⟩ (coupled_start _)
    (serving.imp_left fun opening => ⟨opening, rfl⟩) found
  · simp [Transfer.start]
  · have empty : Transfer.start.onDisk buffering = [] := buffering.stored_nil
    rw [empty]
    exact congrArg (fun folder : Folder => folder.set fileChange.filePath (some [])) folder
  · simp [Transfer.start, apart.connected]

theorem exchangeInv_granted {action : ExchangeAction} {source : Bytes} {next : Exchange}
    (sized : fileChange.Sized) (apart : s.Apart) (asks : Asks before fileChange)
    (asking : s.asking = .awaitingReply ∧
        s.reply = some (replyPacket bigEndian false fileChange tcpPort).data ∨
      s.asking = .opening fileChange.filePath tcpPort ∧ s.reply = none)
    (serving : s.serving = .opening fileChange.filePath ∨ s.serving = .sending source)
    (folder : s.folder = before) (request : s.request = none)
    (found : theirs[fileChange.filePath]? = some source)
    (taken : exchangeStep .win32 buffering garbage memory theirs fileChange action s = some next) :
    ExchangeInv buffering garbage theirs before fileChange next := by
  cases action with
  | openSource =>
    rcases serving with serving | serving
    · simp only [exchangeStep, serving, found] at taken
      cases taken
      exact .granted ⟨apart.server, apart.connected, apart.toClient, apart.toServer⟩ asks asking
        (Or.inr rfl) folder request found
    · simp only [exchangeStep, serving] at taken
      cases taken
  | readReply =>
    rcases asking with ⟨asking, reply⟩ | ⟨asking, reply⟩
    · rw [readReply_awaiting sized asking reply] at taken
      cases taken
      exact .granted ⟨apart.server, apart.connected, apart.toClient, apart.toServer⟩ asks
        (Or.inr ⟨rfl, rfl⟩) serving folder request found
    · simp only [exchangeStep, asking] at taken
      cases taken
  | openTarget =>
    rcases asking with ⟨asking, reply⟩ | ⟨asking, reply⟩
    · simp only [exchangeStep, asking] at taken
      cases taken
    · exact exchangeInv_openTarget apart asks asking reply serving folder request found taken
  | transfer action =>
    have quiet : s.asking.talks = false := by
      rcases asking with ⟨asking, _⟩ | ⟨asking, _⟩ <;> rw [asking] <;> rfl
    have unconnecting (filePath : WString) (port : UInt16) :
        s.asking ≠ .connecting filePath port := by
      rcases asking with ⟨asking, _⟩ | ⟨asking, _⟩ <;> simp [asking]
    rw [transfer_eq_none apart quiet unconnecting] at taken
    cases taken
  | ask =>
    rcases asking with ⟨asking, _⟩ | ⟨asking, _⟩ <;> simp [exchangeStep, asking] at taken
  | serve =>
    rw [serve_eq_none request] at taken
    cases taken

/-- A client that has connected too early stays where it is. -/
theorem exchangeInv_stranded {action : ExchangeAction} {source : Bytes} {next : Exchange}
    (apart : s.Apart) (asking : s.asking = .stranded fileChange.filePath)
    (serving : s.serving = .opening fileChange.filePath ∨ s.serving = .sending source)
    (folder : s.folder = before.set fileChange.filePath (some [])) (request : s.request = none)
    (reply : s.reply = none) (found : theirs[fileChange.filePath]? = some source)
    (taken : exchangeStep .win32 buffering garbage memory theirs fileChange action s = some next) :
    ExchangeInv buffering garbage theirs before fileChange next := by
  cases action with
  | openSource =>
    rcases serving with serving | serving
    · simp only [exchangeStep, serving, found] at taken
      cases taken
      exact .stranded ⟨apart.server, apart.connected, apart.toClient, apart.toServer⟩ asking
        (Or.inr rfl) folder request reply found
    · simp only [exchangeStep, serving] at taken
      cases taken
  | transfer action =>
    rw [transfer_eq_none apart (by rw [asking]; rfl) (by simp [asking])] at taken
    cases taken
  | serve =>
    rw [serve_eq_none request] at taken
    cases taken
  | _ =>
    simp only [exchangeStep, asking] at taken
    cases taken

theorem exchangeInv_joined {action : ExchangeAction} {t : Transfer} {source : Bytes}
    {next : Exchange} (asks : Asks before fileChange)
    (joined : Joined buffering before fileChange.filePath s t) (coupled : Coupled source t)
    (serving : s.serving = .opening fileChange.filePath ∧ t = Transfer.start ∨
      s.serving = .sending source) (found : theirs[fileChange.filePath]? = some source)
    (taken : exchangeStep .win32 buffering garbage memory theirs fileChange action s = some next) :
    ExchangeInv buffering garbage theirs before fileChange next := by
  cases action with
  | openSource =>
    rcases serving with ⟨serving, start⟩ | serving
    · simp only [exchangeStep, serving, found] at taken
      cases taken
      exact .joined asks ⟨joined.server, joined.asking, joined.pos, joined.file, joined.label,
        joined.folder, joined.connected, joined.request, joined.reply, joined.toClient,
        joined.toServer⟩ coupled (Or.inr rfl) found
    · simp only [exchangeStep, serving] at taken
      cases taken
  | transfer action => exact exchangeInv_transfer asks joined coupled serving found taken
  | serve =>
    rw [serve_eq_none joined.request] at taken
    cases taken
  | readReply =>
    rw [readReply_eq_none joined.reply] at taken
    cases taken
  | ask =>
    rw [ask_eq_none (joined.asking ▸ (asking_behind _ _).1)] at taken
    cases taken
  | openTarget =>
    rw [openTarget_eq_none (joined.asking ▸ (asking_behind _ _).2)] at taken
    cases taken

/-- A step keeps the invariant, by the phase of the request. -/
theorem exchangeInv_step {action : ExchangeAction} {next : Exchange}
    (sized : fileChange.Sized) (inv : ExchangeInv buffering garbage theirs before fileChange s)
    (taken : exchangeStep .win32 buffering garbage memory theirs fileChange action s = some next) :
    ExchangeInv buffering garbage theirs before fileChange next := by
  cases inv with
  | requesting => exact exchangeInv_requesting taken
  | settled apart asking serving request folder =>
    rw [exchangeStep_settled apart asking serving request] at taken
    cases taken
  | asked apart asks asking serving folder reply request =>
    exact exchangeInv_asked sized apart asks asking serving folder reply request taken
  | refused apart asks asking serving folder request reply lacks =>
    exact exchangeInv_refused sized apart asks asking serving folder request reply lacks taken
  | granted apart asks asking serving folder request found =>
    exact exchangeInv_granted sized apart asks asking serving folder request found taken
  | stranded apart asking serving folder request reply found =>
    exact exchangeInv_stranded apart asking serving folder request reply found taken
  | joined asks joined coupled serving found =>
    exact exchangeInv_joined asks joined coupled serving found taken

theorem exchangeInv_run {folder : Folder} {actions : List ExchangeAction} (sized : fileChange.Sized)
    (run : Run (exchangeStep .win32 buffering garbage memory theirs fileChange) anyStep
      (Exchange.start garbage folder) actions s) :
    ExchangeInv buffering garbage theirs folder fileChange s :=
  run.invariant (fun _ _ _ inv _ taken => exchangeInv_step sized inv taken) .requesting

/-! ## The request returns -/

/-- The steps until the two sides have joined. -/
def Exchange.ahead (s : Exchange) : Nat :=
  (match s.asking with
    | .requesting => 8
    | .awaitingReply => 4
    | .opening .. => 2
    | _ => 0) +
  (match s.serving with
    | .waiting => 2
    | .opening _ => 1
    | .sending _ => 0) + s.request.toList.length

/-- The client has tried to connect before the server listened. -/
def Exchange.Stranded (s : Exchange) : Prop :=
  ∃ filePath, s.asking = .stranded filePath

/-- The client has returned, or the transfer is under way. -/
def Exchange.Decided (buffering : Buffering) (theirs before : Folder)
    (fileChange : FileChangeData) (s : Exchange) : Prop :=
  s.asking = .returned ∨ ∃ source t, Joined buffering before fileChange.filePath s t ∧
    Coupled source t ∧ s.serving = .sending source ∧
    theirs[fileChange.filePath]? = some source

theorem exchange_progress (garbage : Uninitialized) (memory : Nat → UInt8)
    (sized : fileChange.Sized) (inv : ExchangeInv buffering garbage theirs before fileChange s)
    (connects : ¬ s.Stranded) (undecided : ¬ s.Decided buffering theirs before fileChange) :
    ∃ action next,
      exchangeStep .win32 buffering garbage memory theirs fileChange action s = some next ∧
      (ExchangeInv buffering garbage theirs before fileChange next ∧ ¬ next.Stranded) ∧
      next.ahead < s.ahead := by
  have stays (action : ExchangeAction) {next : Exchange}
      (taken : exchangeStep .win32 buffering garbage memory theirs fileChange action s = some next)
      (free : ¬ next.Stranded) (less : next.ahead < s.ahead) : ∃ action next,
        exchangeStep .win32 buffering garbage memory theirs fileChange action s = some next ∧
        (ExchangeInv buffering garbage theirs before fileChange next ∧ ¬ next.Stranded) ∧
        next.ahead < s.ahead :=
    ⟨action, next, taken, ⟨exchangeInv_step sized inv taken, free⟩, less⟩
  cases inv with
  | requesting =>
    by_cases kept : fileChange.change = .deletion
    · apply stays .ask (ask_start.trans (if_pos kept)) (by simp [Exchange.Stranded])
      simp [Exchange.ahead, Exchange.start]
    · by_cases has : before.has .win32 fileChange = true
      · apply stays .ask (ask_start.trans ((if_neg kept).trans (if_pos has)))
          (by simp [Exchange.Stranded])
        simp [Exchange.ahead, Exchange.start]
      · apply stays .ask (ask_start.trans ((if_neg kept).trans (if_neg has)))
          (by simp [Exchange.Stranded])
        simp [Exchange.ahead, Exchange.start]
  | settled apart asking serving request folder => exact absurd (Or.inl asking) undecided
  | asked apart asks asking serving folder reply request =>
    apply stays .serve (serve_asked sized serving request) (by simp [Exchange.Stranded, asking])
    simp only [Exchange.ahead, asking, serving, request]
    split <;> simp_all
  | refused apart asks asking serving folder request reply lacks =>
    apply stays .readReply (readReply_awaiting sized asking reply) (by simp [Exchange.Stranded])
    simp [Exchange.ahead, asking]
  | granted apart asks asking serving folder request found =>
    rcases asking with ⟨asking, reply⟩ | ⟨asking, reply⟩
    · apply stays .readReply (readReply_awaiting sized asking reply) (by simp [Exchange.Stranded])
      simp [Exchange.ahead, asking]
    · have opened : exchangeStep .win32 buffering garbage memory theirs fileChange .openTarget s =
          some { s with
            folder := s.folder.set fileChange.filePath (some [])
            asking := .connecting fileChange.filePath tcpPort
            vars := ReceiveVars.start garbage.leftover } := by
        simp only [exchangeStep, asking]
      apply stays .openTarget opened (by simp [Exchange.Stranded])
      simp [Exchange.ahead, asking]
  | @stranded s source apart asking => exact absurd ⟨_, asking⟩ connects
  | joined asks joined coupled serving found =>
    rcases serving with ⟨serving, start⟩ | serving
    · have opened : exchangeStep .win32 buffering garbage memory theirs fileChange .openSource s =
          some { s with serving := .sending (theirs[fileChange.filePath]?.getD []) } := by
        simp only [exchangeStep, serving]
      apply stays .openSource opened connects
      simp [Exchange.ahead, serving]
    · exact absurd (Or.inr ⟨_, _, joined, coupled, serving, found⟩) undecided

/-- The loops on bytes can follow the loops on packets. -/
theorem joined_run (buffering : Buffering) (garbage : Uninitialized) (memory : Nat → UInt8)
    (theirs : Folder) (fileChange : FileChangeData) {actions : List TransferAction} {u : Transfer}
    (run : Run (transferStep .win32 source) anyStep t actions u) (coupled : Coupled source t)
    (joined : Joined buffering before filePath s t) (sending : s.serving = .sending source) :
    ∃ v, Reaches (exchangeStep .win32 buffering garbage memory theirs fileChange) s v ∧
      Joined buffering before filePath v u := by
  induction run generalizing s with
  | nil => exact ⟨s, .refl s, joined⟩
  | @cons t next u action actions _ taken rest ih =>
    have step := @joined_step buffering garbage memory before filePath source s t coupled joined
      sending action
    rw [taken] at step
    cases moved : wireTransferStep .win32 buffering garbage memory action s with
    | none =>
      rw [moved] at step
      cases step
    | some following =>
      rw [moved] at step
      cases step with
      | some both =>
        obtain ⟨v, later, same⟩ := ih (coupled_step (Or.inl rfl) coupled taken) both.1 both.2
        have head : exchangeStep .win32 buffering garbage memory theirs fileChange
            (.transfer action) s = some following := moved
        exact ⟨v, later.head head, same⟩

/-- What the mesh takes for one step: what the exchange of packets may do to the client's folder on
    the way, and what it has done when the client returns. -/
structure Requests (buffering : Buffering) (garbage : Uninitialized) (memory : Nat → UInt8)
    (theirs before : Folder) (fileChange : FileChangeData) (s : Exchange) : Prop where
  result : s.asking = .returned → s.folder = Folder.request .win32 before theirs fileChange
  elsewhere : ∀ path, path ≠ fileChange.filePath → s.folder[path]? = before[path]?
  partly : s.asking ≠ .returned → s.folder[fileChange.filePath]? = before[fileChange.filePath]? ∨
    ∃ bytes source, s.folder[fileChange.filePath]? = some bytes ∧
      theirs[fileChange.filePath]? = some source ∧ bytes <+: source
  returns : ¬ s.Stranded → ∃ u,
    Reaches (exchangeStep .win32 buffering garbage memory theirs fileChange) s u ∧
      u.asking = .returned
  /-- A client that has connected too early loops for ever, with an empty file. -/
  stranded : s.Stranded → ∀ u,
    Reaches (exchangeStep .win32 buffering garbage memory theirs fileChange) s u →
      u.Stranded ∧ u.folder[fileChange.filePath]? = some []

/-- The client of a joined exchange returns after the server has left its loop. -/
theorem whole_of_joined (joined : Joined buffering before filePath s t)
    (coupled : Coupled source t) (transferable : Transferable .win32 source)
    (returned : s.asking = .returned) : s.folder = before.set filePath (some source) := by
  have done : t.client.phase = .done := by
    rw [joined.asking] at returned
    cases phase : t.client.phase <;> rw [phase] at returned <;> first | rfl | cases returned
  have closed : t.onDisk buffering = t.client.file := by rw [Transfer.onDisk, done]
  rw [joined.folder, closed, whole_of_coupled transferable coupled
    (leftLoop_of_client coupled (Or.inr done))]

/-- What is on the disk is a prefix of what was written. -/
theorem onDisk_isPrefix (buffering : Buffering) (t : Transfer) :
    t.onDisk buffering <+: t.client.file := by
  unfold Transfer.onDisk
  split
  · exact List.prefix_rfl
  · exact List.take_prefix ..

theorem stranded_step {action : ExchangeAction} {next : Exchange} (stranded : s.Stranded)
    (taken : exchangeStep .win32 buffering garbage memory theirs fileChange action s = some next) :
    next.asking = s.asking ∧ next.folder = s.folder := by
  obtain ⟨path, asking⟩ := stranded
  cases action with
  | ask | readReply | openTarget =>
    simp only [exchangeStep, asking] at taken
    cases taken
  | serve | openSource =>
    simp only [exchangeStep] at taken
    split at taken <;> cases taken
    exact ⟨rfl, rfl⟩
  | transfer action =>
    rw [exchangeStep] at taken
    cases action with
    | connect | receive | write | respond | respondEnd =>
      simp only [wireTransferStep, asking] at taken
      cases taken
    | test =>
      simp only [wireTransferStep] at taken
      split at taken
      · split at taken <;> cases taken <;> exact ⟨rfl, rfl⟩
      · cases taken
    | _ =>
      simp only [wireTransferStep] at taken
      split at taken <;> cases taken
      exact ⟨rfl, rfl⟩

/-- A client without a connection loops for ever. -/
theorem stranded_reaches {u : Exchange} (stranded : s.Stranded)
    (reaches : Reaches (exchangeStep .win32 buffering garbage memory theirs fileChange) s u) :
    u.Stranded ∧ u.folder = s.folder := by
  have preserved (v : Exchange) (action : ExchangeAction) (next : Exchange)
      (kept : v.Stranded ∧ v.folder = s.folder)
      (taken : exchangeStep .win32 buffering garbage memory theirs fileChange action v =
        some next) : next.Stranded ∧ next.folder = s.folder := by
    obtain ⟨stays, same⟩ := stranded_step kept.1 taken
    obtain ⟨path, asking⟩ := kept.1
    exact ⟨⟨path, stays.trans asking⟩, same.trans kept.2⟩
  exact reaches.invariant preserved ⟨stranded, rfl⟩

theorem client_done (coupled : Coupled source t) (done : t.server.phase = .done) :
    t.client.phase = .done := by
  obtain ⟨⟨inFlight, control, -, -⟩, -, -, -, -, -, -⟩ := coupled
  obtain ⟨⟨phase, length, pos, offset, failed⟩, ⟨clientPhase, clientPos, file⟩, toClient,
    toServer⟩ := t
  simp only at control done ⊢
  subst done
  cases control
  rfl

theorem returns_of_joined (garbage : Uninitialized) (memory : Nat → UInt8)
    (joined : Joined buffering before filePath s t) (coupled : Coupled source t)
    (sending : s.serving = .sending source) (transferable : Transferable .win32 source) :
    ∃ u, Reaches (exchangeStep .win32 buffering garbage memory theirs fileChange) s u ∧
      u.asking = .returned := by
  obtain ⟨u, ⟨actions, run⟩, done⟩ := reaches_goal (Transfer.remaining source)
    (fun _ coupled unfinished => transfer_progress transferable coupled unfinished) t coupled
  obtain ⟨v, reaches, same⟩ :=
    joined_run buffering garbage memory theirs fileChange run coupled joined sending
  have ended : Coupled source u := run.invariant
    (fun _ _ _ coupled _ taken => coupled_step (Or.inl rfl) coupled taken) coupled
  refine ⟨v, reaches, ?_⟩
  rw [same.asking, client_done ended done]
  rfl

/-- From each state of a request whose client has not connected too early the client can go on to
    its return. -/
theorem exchange_returns (garbage : Uninitialized) (memory : Nat → UInt8)
    (sized : fileChange.Sized)
    (transferable : ∀ source, theirs[fileChange.filePath]? = some source →
      Transferable .win32 source)
    (inv : ExchangeInv buffering garbage theirs before fileChange s) (connects : ¬ s.Stranded) :
    ∃ u, Reaches (exchangeStep .win32 buffering garbage memory theirs fileChange) s u ∧
      u.asking = .returned := by
  obtain ⟨u, reaches, decided⟩ := reaches_goal Exchange.ahead
    (fun _ kept undecided =>
      exchange_progress garbage memory sized kept.1 kept.2 undecided) s ⟨inv, connects⟩
  rcases decided with returned | ⟨source, t, joined, coupled, sending, found⟩
  · exact ⟨u, reaches, returned⟩
  · obtain ⟨v, later, returned⟩ :=
      returns_of_joined garbage memory joined coupled sending (transferable source found)
    exact ⟨v, reaches.trans later, returned⟩

/-- A request on the wire is the step that the mesh takes for it, for a file of a transferable size
    and a client that connects only once the server listens: no other file is touched, what is on
    the client's disk meanwhile is the old content or a prefix of the new one, and the client gets
    to its return. A client that connects too early is left with an empty file and does not
    return. -/
theorem exchange_requests {folder : Folder} {actions : List ExchangeAction}
    (sized : fileChange.Sized)
    (transferable : ∀ source, theirs[fileChange.filePath]? = some source →
      Transferable .win32 source)
    (run : Run (exchangeStep .win32 buffering garbage memory theirs fileChange) anyStep
      (Exchange.start garbage folder) actions s) :
    Requests buffering garbage memory theirs folder fileChange s := by
  have inv := exchangeInv_run sized run
  have returns := exchange_returns garbage memory sized transferable inv
  have untouched (same : s.folder = folder) (waiting : s.asking ≠ .returned)
      (connects : ¬ s.Stranded) :
      Requests buffering garbage memory theirs folder fileChange s :=
    ⟨fun returned => absurd returned waiting, fun path _ => by rw [same],
      fun _ => Or.inl (by rw [same]), returns, fun stranded => absurd stranded connects⟩
  cases inv with
  | requesting =>
    exact untouched rfl (by simp [Exchange.start]) (by simp [Exchange.Stranded, Exchange.start])
  | settled apart asking serving request result =>
    refine ⟨fun _ => result, fun path elsewhere => ?_, fun waiting => absurd asking waiting,
      returns, fun stranded => ?_⟩
    · rw [result]
      exact request_of_none (if_neg (Ne.symm elsewhere))
    · obtain ⟨path, stranded⟩ := stranded
      cases asking.symm.trans stranded
  | asked apart asks asking serving same reply request =>
    exact untouched same (by simp [asking]) (by simp [Exchange.Stranded, asking])
  | refused apart asks asking serving same request reply lacks =>
    exact untouched same (by simp [asking]) (by simp [Exchange.Stranded, asking])
  | granted apart asks asking serving same request found =>
    rcases asking with ⟨asking, _⟩ | ⟨asking, _⟩ <;>
      exact untouched same (by simp [asking]) (by simp [Exchange.Stranded, asking])
  | @stranded s source apart asking serving same request reply found =>
    have empty : s.folder[fileChange.filePath]? = some [] := by rw [same, set_self]
    refine ⟨fun returned => ?_, fun path elsewhere => ?_,
      fun _ => Or.inr ⟨[], source, empty, found, List.nil_prefix⟩, returns,
      fun stranded u reaches => ?_⟩
    · cases asking.symm.trans returned
    · rw [same, set_of_ne (Ne.symm elsewhere)]
    · obtain ⟨stays, kept⟩ := stranded_reaches stranded reaches
      exact ⟨stays, kept ▸ empty⟩
  | @joined s t source asks joined coupled serving found =>
    refine ⟨fun returned => ?_, fun path elsewhere => ?_, fun _ => Or.inr ?_, returns,
      fun stranded => ?_⟩
    · rw [request_of_asks asks, found,
        whole_of_joined joined coupled (transferable source found) returned]
    · rw [joined.folder, set_of_ne (Ne.symm elsewhere)]
    · refine ⟨_, source, ?_, found,
        (onDisk_isPrefix buffering t).trans (prefixInvariant_of_coupled coupled).isPrefix⟩
      rw [joined.folder, set_self]
    · obtain ⟨path, stranded⟩ := stranded
      rw [joined.asking] at stranded
      cases phase : t.client.phase <;> rw [phase] at stranded <;> cases stranded

/-- A file of two bytes gets to an empty folder. -/
theorem exchange_requests_two : ∃ (actions : List ExchangeAction) (s : Exchange),
    Run (exchangeStep .win32 (.blocks 4096) ⟨9, 9, 9, 9, true, .deletion⟩ (fun _ => 7)
      ((∅ : Folder).insert (wide "\\a") [104, 105]) ⟨wide "\\a", 5, .addition⟩) anyStep
      (Exchange.start ⟨9, 9, 9, 9, true, .deletion⟩ ∅) actions s ∧
    s.asking = .returned ∧ s.folder = (∅ : Folder).insert (wide "\\a") [104, 105] := by
  have sized : (⟨wide "\\a", 5, .addition⟩ : FileChangeData).Sized := by
    unfold FileChangeData.Sized
    decide
  have transferable (source : Bytes)
      (found : ((∅ : Folder).insert (wide "\\a") [104, 105])[wide "\\a"]? = some source) :
      Transferable .win32 source := by
    rw [Std.ExtTreeMap.getElem?_insert_self] at found
    cases found
    exact Or.inr ⟨rfl, Or.inl (by decide)⟩
  have connects {garbage : Uninitialized} : ¬ (Exchange.start garbage ∅).Stranded := by
    simp [Exchange.Stranded, Exchange.start]
  obtain ⟨s, ⟨actions, run⟩, returned⟩ :=
    (exchange_requests sized transferable (.nil _)).returns connects
  refine ⟨actions, s, run, returned, ?_⟩
  rw [(exchange_requests sized transferable run).result returned]
  rfl

end FileSync
