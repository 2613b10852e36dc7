import FileSync.BuildPlatforms
import FileSync.MeshConvergence
import Mathlib.Algebra.Order.BigOperators.Group.List

/-!
# The mesh on the wire

The mesh once more, with the bytes of its datagrams: they are sent if they are not too large, and
the receivers look at the first byte and decode the rest. On Win32 it does what the mesh does as
long as all datagrams fit.
-/

namespace FileSync

open TransitionSystem

/-- What a node has still to process, where `readTable` and `readChanges` have not read it yet. -/
@[ext]
structure WireInbox (N : Type) where
  inFlight : List (N × Bytes)
  /-- The packets of the messages in the queue. -/
  todoUdp : List (N × Bytes)
  tableManagerMessage : Option (N × Bytes)
  arrived : Option (N × FileTable)
  received : Option (N × FileTable)
  requesting : RequestingThread → List (N × FileChangeData)

/-- A node whose messages are bytes. -/
structure WireNode (N : Type) extends WireInbox N where
  online : Bool
  folder : Folder
  prevDir : FileTable
  fileHashes : FileTable
  fileChangeBuf : List FileChangeData

/-- All nodes, with the folder that their users mean. -/
structure WireMesh (N : Type) where
  nodes : N → WireNode N
  user : Folder

variable {N : Type} [DecidableEq N]

/-- A node that does not run has its folder only. -/
def WireNode.stopped (folder : Folder) : WireNode N where
  inFlight := []
  todoUdp := []
  tableManagerMessage := none
  arrived := none
  received := none
  requesting := fun _ => []
  online := false
  folder
  prevDir := ∅
  fileHashes := ∅
  fileChangeBuf := []

/-- A node that has hashed its folder for both of its tables. -/
def WireNode.started (platform : Platform) (folder : Folder) : WireNode N :=
  { WireNode.stopped folder with
    online := true
    prevDir := folder.table platform
    fileHashes := folder.table platform }

/-- The mesh with one node replaced. -/
def WireMesh.set (s : WireMesh N) (name : N) (node : WireNode N) : WireMesh N :=
  { s with nodes := Function.update s.nodes name node }

/-- Bytes on their way to a node. -/
def WireMesh.deliver (s : WireMesh N) (sender receiver : N) (data : Bytes) : WireMesh N :=
  s.set receiver { s.nodes receiver with
    inFlight := (s.nodes receiver).inFlight ++ [(sender, data)] }

/-- `udp.send` to one address. -/
def WireMesh.send (s : WireMesh N) (sender receiver : N) (packet : Packet) : WireMesh N :=
  if udpSend packet true then s.deliver sender receiver packet.data else s

/-- `udp.send` to `sf::IpAddress::Broadcast`. -/
def WireMesh.broadcast (s : WireMesh N) (sender : N) (packet : Packet) : WireMesh N :=
  if udpSend packet true then
    { s with nodes := fun name =>
        if (s.nodes name).online then
          { s.nodes name with inFlight := (s.nodes name).inFlight ++ [(sender, packet.data)] }
        else s.nodes name }
  else s

/-- `requestFiles` is called with a list of changes and the server to ask. -/
def WireNode.call (node : WireNode N) (thread : RequestingThread) (server : N)
    (fileChanges : List FileChangeData) : WireNode N :=
  { node with
    requesting := Function.update node.requesting thread
      (fileChanges.map fun fileChange => (server, fileChange)) }

section

variable (platform : Platform) (garbage : Uninitialized)

/-- The step of `threadAct`, with the decoding of what is received (Node.cpp 64-68, 221-291,
    365-371). A pid-5 request is no message here: the client's step is the server's as well. -/
def wireThreadAct (name : N) (s : WireMesh N) : ThreadAction → Option (WireMesh N)
  | .scan =>
    let node := s.nodes name
    let (dirChanges, prevDir) := getDirectoryChangesScan (node.folder.table platform) node.prevDir
    some (s.set name { node with prevDir, fileChangeBuf := node.fileChangeBuf ++ dirChanges })
  | .drain =>
    let node := s.nodes name
    if node.requesting .handler = [] ∧ node.fileChangeBuf ≠ [] then
      some ((s.set name { node with
        fileHashes := applyChanges node.fileHashes node.fileChangeBuf
        fileChangeBuf := [] }).broadcast name
          (changesPacket bigEndian platform node.fileChangeBuf))
    else none
  | .collect index =>
    let node := s.nodes name
    match node.arrived, node.requesting .collector, node.inFlight[index]? with
    | none, [], some (sender, data) =>
      let node := { node with inFlight := node.inFlight.eraseIdx index }
      -- `isMyOwn`
      if sender = name then some (s.set name node)
      else
        match getPacketID (.received data) with
        -- a null pointer is dereferenced
        | none => none
        | some 0 =>
          let (_, foreignHashes) := (readTable bigEndian garbage (.received data)).1
          some ((s.set name { node with arrived := some (sender, foreignHashes) }).send name sender
            (tablePacket bigEndian 1 node.fileHashes))
        | some _ => some (s.set name { node with todoUdp := node.todoUdp ++ [(sender, data)] })
    | _, _, _ => none
  | .compareArrival =>
    let node := s.nodes name
    match node.arrived, node.requesting .collector with
    | some (sender, table), [] =>
      some (s.set name ({ node with arrived := none }.call .collector sender
        (dealWithHashTable node.fileHashes table true)))
    | _, _ => none
  | .handle =>
    let node := s.nodes name
    match node.requesting .handler, node.todoUdp with
    | [], (sender, data) :: todoUdp =>
      let node := { node with todoUdp }
      match getPacketID (.received data) with
      | none => none
      | some 1 => some (s.set name { node with tableManagerMessage := some (sender, data) })
      -- a request is answered in the step of its client
      | some 5 => none
      | some 6 =>
        some (s.set name (node.call .handler sender
          (readChanges bigEndian garbage (.received data)).1))
      -- case 2 and `unknownPacket`
      | some _ => some (s.set name node)
    | _, _ => none
  | .take =>
    let node := s.nodes name
    match node.received, node.requesting .tableManager, node.tableManagerMessage with
    | none, [], some (sender, data) =>
      let (_, table) := (readTable bigEndian garbage (.received data)).1
      some (s.set name { node with
        tableManagerMessage := none
        received := some (sender, table) })
    | _, _, _ => none
  | .compareResponse =>
    let node := s.nodes name
    match node.received, node.requesting .tableManager with
    | some (sender, table), [] =>
      some (s.set name ({ node with received := none }.call .tableManager sender
        (dealWithHashTable node.fileHashes table false)))
    | _, _ => none
  | .request thread =>
    let node := s.nodes name
    match node.requesting thread with
    | (server, fileChange) :: rest => some (s.set name { node with
        folder := Folder.request platform node.folder (s.nodes server).folder fileChange
        requesting := Function.update node.requesting thread rest })
    | [] => none

/-- The step of `meshStep`, with the bytes of its messages. -/
def wireStep [Fintype N] : MeshAction N → WireMesh N → Option (WireMesh N)
  | .change name path content, s =>
    let node := s.nodes name
    some { s.set name { node with folder := node.folder.set path content } with
      user := if node.online then s.user.set path content else s.user }
  | .arrive name, s =>
    if (s.nodes name).online then none
    else
      let folder := (s.nodes name).folder
      let joined := (s.set name (.started platform folder)).broadcast name
        (tablePacket bigEndian 0 (folder.table platform))
      some { joined with
        user := if ∃ other, (s.nodes other).online = true then folder ∪ s.user else folder }
  | .leave name, s =>
    if (s.nodes name).online then some (s.set name (.stopped (s.nodes name).folder)) else none
  | .duplicate name index, s =>
    match (s.nodes name).inFlight[index]? with
    | some (sender, data) => some (s.deliver sender name data)
    | none => none
  | .run name action, s =>
    if (s.nodes name).online then wireThreadAct platform garbage name s action else none

/-- The packet that an action sends fits a datagram of 65507 bytes. A node does not answer its own
    arrival. -/
def sendFits (s : WireMesh N) : MeshAction N → Prop
  | .arrive name =>
    udpSend (tablePacket bigEndian 0 ((s.nodes name).folder.table platform)) true = true
  | .run name .drain =>
    udpSend (changesPacket bigEndian platform (s.nodes name).fileChangeBuf) true = true
  | .run name (.collect index) =>
    (∃ sender data, (s.nodes name).inFlight[index]? = some (sender, 0 :: data) ∧
      sender ≠ name) →
    udpSend (tablePacket bigEndian 1 (s.nodes name).fileHashes) true = true
  | _ => True

/-- No node runs. -/
def WireMesh.start (folders : N → Folder) : WireMesh N where
  nodes := fun name => .stopped (folders name)
  user := ∅

end

/-! ## A mesh as it is on the wire -/

/-- The packet that a message is sent in. -/
def MeshMessage.packet : MeshMessage → Packet
  | .arrival table => tablePacket bigEndian 0 table
  | .response table => tablePacket bigEndian 1 table
  | .changes fileChanges => changesPacket bigEndian .win32 fileChanges

/-- The packet of the message is small enough for a datagram. -/
def MeshMessage.Fits (message : MeshMessage) : Prop := udpSend message.packet true = true

/-- A message as its bytes. -/
def onWire (sent : N × MeshMessage) : N × Bytes := (sent.1, sent.2.packet.data)

/-- What a node has to process, as bytes. -/
def Inbox.wire (box : Inbox N) : WireInbox N where
  inFlight := box.inFlight.map onWire
  todoUdp := box.todoUdp.map onWire
  tableManagerMessage := box.tableManagerMessage.map fun (sender, table) =>
    (sender, (MeshMessage.response table).packet.data)
  arrived := box.arrived
  received := box.received
  requesting := box.requesting

/-- A node on the wire. -/
def MeshNode.wire (node : MeshNode N) : WireNode N :=
  { node.toInbox.wire with
    online := node.online
    folder := node.folder
    prevDir := node.prevDir
    fileHashes := node.fileHashes
    fileChangeBuf := node.fileChangeBuf }

/-- A mesh on the wire. -/
def Mesh.wire (s : Mesh N) : WireMesh N where
  nodes := fun name => (s.nodes name).wire
  user := s.user

/-- All messages of a node were small enough to be sent. -/
structure Inbox.Fitting (box : Inbox N) : Prop where
  inFlight : ∀ sent ∈ box.inFlight, sent.2.Fits
  todoUdp : ∀ sent ∈ box.todoUdp, sent.2.Fits
  slot : ∀ sent ∈ box.tableManagerMessage, (MeshMessage.response sent.2).Fits

/-- All messages of all nodes were small enough to be sent. -/
def Mesh.Fitting (s : Mesh N) : Prop := ∀ name, (s.nodes name).toInbox.Fitting

/-! ## Reading a message -/

/-- The first byte of a message. -/
def MeshMessage.pid : MeshMessage → UInt8
  | .arrival _ => 0
  | .response _ => 1
  | .changes _ => 6

theorem put_uint8 (pid : UInt8) : bigEndian.put 1 pid.toNat = [pid] := by
  show [UInt8.ofNat pid.toNat] = [pid]
  rw [UInt8.ofNat_toNat]

theorem packet_eq_cons (message : MeshMessage) :
    ∃ rest, message.packet.data = message.pid :: rest := by
  have table (pid : UInt8) (fileHashes : FileTable) :
      ∃ rest, (tablePacket bigEndian pid fileHashes).data = pid :: rest := by
    rw [tablePacket, insertTable_data, insertUInt8_data, put_uint8]
    exact ⟨_, rfl⟩
  cases message with
  | arrival fileHashes => exact table 0 fileHashes
  | response fileHashes => exact table 1 fileHashes
  | changes fileChanges =>
    rw [MeshMessage.packet, changesPacket, insertFileChanges,
      foldl_data fun packet item _ => insertFileChange_eq packet item, Packet.insertSizeT,
      insertInt_data, insertUInt8_data, put_uint8]
    exact ⟨_, rfl⟩

theorem getPacketID_packet (message : MeshMessage) :
    getPacketID (.received message.packet.data) = some message.pid := by
  obtain ⟨rest, data⟩ := packet_eq_cons message
  rw [getPacketID, data]
  rfl

theorem fits_iff {message : MeshMessage} :
    message.Fits ↔ message.packet.data.length ≤ maxDatagramSize := by
  rw [MeshMessage.Fits, udpSend, Bool.and_true, decide_eq_true_iff]

section

variable (garbage : Uninitialized)

theorem readTable_tablePacket {pid : UInt8} {table : FileTable}
    (fits : udpSend (tablePacket bigEndian pid table) true = true) :
    (readTable bigEndian garbage (.received (tablePacket bigEndian pid table).data)).1 =
      (pid, table) := by
  rw [udpSend, Bool.and_true, decide_eq_true_iff] at fits
  exact ((messages_round_trip bigEndian garbage).table pid table fits).2.1

theorem readChanges_changesPacket {fileChanges : List FileChangeData}
    (fits : udpSend (changesPacket bigEndian .win32 fileChanges) true = true) :
    (readChanges bigEndian garbage
      (.received (changesPacket bigEndian .win32 fileChanges).data)).1 = fileChanges := by
  rw [udpSend_changesPacket, datagramSize] at fits
  have small := fits.1
  unfold maxDatagramSize at small
  have count := List.length_le_sum_of_one_le
    (fileChanges.map fun change => 4 + 4 * change.filePath.length + 8 + 1) ?_
  · rw [List.length_map] at count
    apply ((messages_round_trip bigEndian garbage).changes fileChanges (by omega) _).1
    intro fileChange member
    have one := List.single_le_sum (fun _ _ => Nat.zero_le _) _ (List.mem_map_of_mem
      (f := fun change : FileChangeData => 4 + 4 * change.filePath.length + 8 + 1) member)
    unfold FileChangeData.Sized
    omega
  · intro size member
    obtain ⟨fileChange, _, rfl⟩ := List.mem_map.mp member
    omega

end

/-! ## The mesh and its wire take the same steps -/

variable {s : Mesh N} {name : N}

omit [DecidableEq N] in
@[simp] theorem wire_nodes (s : Mesh N) (name : N) :
    s.wire.nodes name = (s.nodes name).wire := rfl

omit [DecidableEq N] in
@[simp] theorem wire_user (s : Mesh N) : s.wire.user = s.user := rfl

section

variable (node : MeshNode N)

omit [DecidableEq N]

@[simp] theorem wire_inFlight : node.wire.inFlight = node.inFlight.map onWire := rfl

@[simp] theorem wire_todoUdp : node.wire.todoUdp = node.todoUdp.map onWire := rfl

@[simp] theorem wire_tableManagerMessage : node.wire.tableManagerMessage =
    node.tableManagerMessage.map fun (sender, table) =>
      (sender, (MeshMessage.response table).packet.data) := rfl

@[simp] theorem wire_arrived : node.wire.arrived = node.arrived := rfl

@[simp] theorem wire_received : node.wire.received = node.received := rfl

@[simp] theorem wire_requesting : node.wire.requesting = node.requesting := rfl

@[simp] theorem wire_online : node.wire.online = node.online := rfl

@[simp] theorem wire_folder : node.wire.folder = node.folder := rfl

@[simp] theorem wire_prevDir : node.wire.prevDir = node.prevDir := rfl

@[simp] theorem wire_fileHashes : node.wire.fileHashes = node.fileHashes := rfl

@[simp] theorem wire_fileChangeBuf : node.wire.fileChangeBuf = node.fileChangeBuf := rfl

end

theorem wire_set (s : Mesh N) (name : N) (node : MeshNode N) :
    (s.set name node).wire = s.wire.set name node.wire := by
  simp only [Mesh.wire, WireMesh.set, Mesh.set, WireMesh.mk.injEq, and_true]
  funext other
  by_cases same : other = name
  · rw [same, Function.update_self, Function.update_self]
  · rw [Function.update_of_ne same, Function.update_of_ne same]

theorem wire_deliver (s : Mesh N) (sender receiver : N) (message : MeshMessage) :
    (s.send sender receiver message).wire =
      s.wire.deliver sender receiver message.packet.data := by
  rw [Mesh.send, wire_set]
  simp [WireMesh.deliver, MeshNode.wire, Inbox.wire, onWire]

theorem wire_send {message : MeshMessage} (fits : udpSend message.packet true = true) (s : Mesh N)
    (sender receiver : N) :
    (s.send sender receiver message).wire = s.wire.send sender receiver message.packet := by
  rw [wire_deliver, WireMesh.send, if_pos fits]

omit [DecidableEq N] in
theorem wire_broadcast {message : MeshMessage} (fits : udpSend message.packet true = true)
    (s : Mesh N) (sender : N) :
    (s.broadcast sender message).wire = s.wire.broadcast sender message.packet := by
  rw [WireMesh.broadcast, if_pos fits]
  simp only [Mesh.broadcast, Mesh.wire, WireMesh.mk.injEq, and_true]
  funext other
  by_cases online : (s.nodes other).online = true
  · simp [online, MeshNode.wire, Inbox.wire, onWire]
  · simp [online]

theorem wire_threadAct (garbage : Uninitialized) {action : ThreadAction} (fitting : s.Fitting)
    (fits : sendFits .win32 s.wire (.run name action)) :
    wireThreadAct .win32 garbage name s.wire action =
      (threadAct .win32 name s action).map Mesh.wire := by
  cases action with
  | scan => simp [threadAct, wireThreadAct, wire_set, MeshNode.wire, Inbox.wire]
  | drain =>
    have sends : udpSend (MeshMessage.changes (s.nodes name).fileChangeBuf).packet true = true :=
      fits
    by_cases ready : (s.nodes name).requesting .handler = [] ∧ (s.nodes name).fileChangeBuf ≠ []
    · have wireReady : (s.wire.nodes name).requesting .handler = [] ∧
          (s.wire.nodes name).fileChangeBuf ≠ [] := ready
      rw [threadAct, wireThreadAct, if_pos ready, if_pos wireReady, Option.map_some,
        wire_broadcast sends, wire_set]
      rfl
    · have wireBusy : ¬((s.wire.nodes name).requesting .handler = [] ∧
          (s.wire.nodes name).fileChangeBuf ≠ []) := ready
      rw [threadAct, wireThreadAct, if_neg ready, if_neg wireBusy]
      rfl
  | collect index =>
    simp only [threadAct, wireThreadAct, wire_nodes, wire_requesting, wire_arrived, wire_inFlight,
      List.getElem?_map]
    cases arrived : (s.nodes name).arrived with
    | some _ => rfl
    | none =>
      cases calls : (s.nodes name).requesting .collector with
      | cons _ _ => rfl
      | nil =>
        cases flying : (s.nodes name).inFlight[index]? with
        | none => rfl
        | some sent =>
          obtain ⟨sender, message⟩ := sent
          simp only [Option.map_some, onWire, getPacketID_packet]
          by_cases own : sender = name
          · rw [if_pos own, if_pos own, Option.map_some, wire_set]
            simp [MeshNode.wire, Inbox.wire, List.eraseIdx_map]
          · rw [if_neg own, if_neg own]
            have kept := (fitting name).inFlight _ (List.mem_of_getElem? flying)
            cases message with
            | arrival table =>
              obtain ⟨rest, data⟩ := packet_eq_cons (.arrival table)
              have sends : udpSend (MeshMessage.response (s.nodes name).fileHashes).packet true =
                  true := fits ⟨sender, rest, by simp [flying, onWire, data, MeshMessage.pid, own]⟩
              simp only [MeshMessage.pid, MeshMessage.packet, readTable_tablePacket garbage kept]
              rw [Option.map_some, wire_send sends, wire_set]
              simp [MeshNode.wire, Inbox.wire, List.eraseIdx_map, MeshMessage.packet]
            | response table =>
              simp only [MeshMessage.pid]
              rw [Option.map_some, wire_set]
              simp [MeshNode.wire, Inbox.wire, List.eraseIdx_map, onWire]
            | changes fileChanges =>
              simp only [MeshMessage.pid]
              rw [Option.map_some, wire_set]
              simp [MeshNode.wire, Inbox.wire, List.eraseIdx_map, onWire]
  | compareArrival =>
    simp only [threadAct, wireThreadAct, wire_nodes, wire_requesting, wire_arrived,
      wire_fileHashes]
    cases arrived : (s.nodes name).arrived with
    | none => rfl
    | some sent =>
      cases calls : (s.nodes name).requesting .collector with
      | cons _ _ => rfl
      | nil =>
        obtain ⟨sender, table⟩ := sent
        rw [Option.map_some, wire_set]
        rfl
  | handle =>
    simp only [threadAct, wireThreadAct, wire_nodes, wire_requesting, wire_todoUdp]
    cases calls : (s.nodes name).requesting .handler with
    | cons _ _ => rfl
    | nil =>
      cases queue : (s.nodes name).todoUdp with
      | nil => rfl
      | cons sent todoUdp =>
        obtain ⟨sender, message⟩ := sent
        simp only [List.map_cons, onWire, getPacketID_packet]
        have kept := (fitting name).todoUdp (sender, message) (by simp [queue])
        cases message with
        | arrival table =>
          simp only [MeshMessage.pid]
          rw [Option.map_some, wire_set]
          rfl
        | response table =>
          simp only [MeshMessage.pid]
          rw [Option.map_some, wire_set]
          rfl
        | changes fileChanges =>
          simp only [MeshMessage.pid, MeshMessage.packet, readChanges_changesPacket garbage kept]
          rw [Option.map_some, wire_set]
          rfl
  | take =>
    simp only [threadAct, wireThreadAct, wire_nodes, wire_requesting, wire_received,
      wire_tableManagerMessage]
    cases received : (s.nodes name).received with
    | some _ => rfl
    | none =>
      cases calls : (s.nodes name).requesting .tableManager with
      | cons _ _ => rfl
      | nil =>
        cases slot : (s.nodes name).tableManagerMessage with
        | none => rfl
        | some sent =>
          obtain ⟨sender, table⟩ := sent
          have fits : (MeshMessage.response table).Fits :=
            (fitting name).slot (sender, table) slot
          simp only [Option.map_some, MeshMessage.packet, readTable_tablePacket garbage fits]
          rw [wire_set]
          rfl
  | compareResponse =>
    simp only [threadAct, wireThreadAct, wire_nodes, wire_requesting, wire_received,
      wire_fileHashes]
    cases received : (s.nodes name).received with
    | none => rfl
    | some sent =>
      cases calls : (s.nodes name).requesting .tableManager with
      | cons _ _ => rfl
      | nil =>
        obtain ⟨sender, table⟩ := sent
        rw [Option.map_some, wire_set]
        rfl
  | request thread =>
    simp only [threadAct, wireThreadAct, wire_nodes, wire_requesting, wire_folder]
    cases calls : (s.nodes name).requesting thread with
    | nil => rfl
    | cons call rest =>
      obtain ⟨server, fileChange⟩ := call
      rw [Option.map_some, wire_set]
      rfl

/-! ## Messages that fit stay the only ones -/

omit [DecidableEq N] in
theorem fitting_empty : (Inbox.empty : Inbox N).Fitting := by
  constructor <;> simp [Inbox.empty]

theorem fitting_set {node : MeshNode N} (fitting : s.Fitting) (fits : node.toInbox.Fitting) :
    (s.set name node).Fitting := by
  intro other
  by_cases same : other = name
  · rw [same, Mesh.set_nodes_self]
    exact fits
  · rw [Mesh.set_nodes_of_ne _ same]
    exact fitting other

omit [DecidableEq N] in
theorem fitting_append {box : Inbox N} {sender : N} {message : MeshMessage}
    (fitting : box.Fitting) (fits : message.Fits) :
    Inbox.Fitting { box with inFlight := box.inFlight ++ [(sender, message)] } where
  inFlight := by
    intro sent member
    rcases List.mem_append.mp member with known | new
    · exact fitting.inFlight sent known
    · rw [List.mem_singleton.mp new]
      exact fits
  todoUdp := fitting.todoUdp
  slot := fitting.slot

theorem fitting_send {sender receiver : N} {message : MeshMessage} (fitting : s.Fitting)
    (fits : message.Fits) : (s.send sender receiver message).Fitting :=
  fitting_set fitting (fitting_append (fitting receiver) fits)

omit [DecidableEq N] in
theorem fitting_broadcast {sender : N} {message : MeshMessage} (fitting : s.Fitting)
    (fits : message.Fits) : (s.broadcast sender message).Fitting := by
  intro other
  simp only [Mesh.broadcast]
  split
  · exact fitting_append (fitting other) fits
  · exact fitting other

omit [DecidableEq N] in
/-- An inbox with no other messages than one that fits. -/
theorem Inbox.Fitting.shrink {box smaller : Inbox N} (fitting : box.Fitting)
    (inFlight : ∀ sent ∈ smaller.inFlight, sent ∈ box.inFlight)
    (todoUdp : ∀ sent ∈ smaller.todoUdp, sent ∈ box.todoUdp ∨ sent ∈ box.inFlight)
    (slot : ∀ sent ∈ smaller.tableManagerMessage, sent ∈ box.tableManagerMessage ∨
      (sent.1, .response sent.2) ∈ box.todoUdp) : smaller.Fitting where
  inFlight := fun sent member => fitting.inFlight sent (inFlight sent member)
  todoUdp := fun sent member =>
    (todoUdp sent member).elim (fitting.todoUdp sent) (fitting.inFlight sent)
  slot := fun sent member => (slot sent member).elim (fitting.slot sent) (fitting.todoUdp _)

theorem fitting_effect {action : ThreadAction} {next : Mesh N} (fitting : s.Fitting)
    (fits : sendFits .win32 s.wire (.run name action))
    (effect : ThreadEffect .win32 name s action next) : next.Fitting := by
  have fitsNode := fitting name
  have erased (index : Nat) (sent : N × MeshMessage)
      (member : sent ∈ (s.nodes name).inFlight.eraseIdx index) : sent ∈ (s.nodes name).inFlight :=
    List.mem_of_mem_eraseIdx member
  cases effect with
  | scan => exact fitting_set fitting fitsNode
  | drain idle nonempty => exact fitting_broadcast (fitting_set fitting fitsNode) fits
  | @ignore index message flying =>
    apply fitting_set fitting
    exact fitsNode.shrink (erased index) (fun _ => Or.inl) (fun _ => Or.inl)
  | @answer index newcomer table free foreign flying =>
    apply fitting_send
    · apply fitting_set fitting
      exact fitsNode.shrink (erased index) (fun _ => Or.inl) (fun _ => Or.inl)
    · obtain ⟨rest, data⟩ := packet_eq_cons (.arrival table)
      exact fits ⟨newcomer, rest, by simp [flying, onWire, data, MeshMessage.pid, foreign]⟩
  | @queue index sender message foreign other flying =>
    apply fitting_set fitting
    refine fitsNode.shrink (erased index) (fun sent member => ?_) (fun _ => Or.inl)
    rcases List.mem_append.mp member with known | new
    · exact Or.inl known
    · rw [List.mem_singleton.mp new]
      exact Or.inr (List.mem_of_getElem? flying)
  | compareArrival arrived idle =>
    apply fitting_set fitting
    exact fitsNode.shrink (fun _ => id) (fun _ => Or.inl) (fun _ => Or.inl)
  | @store sender table todoUdp queue =>
    apply fitting_set fitting
    refine fitsNode.shrink (fun _ => id) (fun sent member => ?_) (fun sent member => ?_)
    · exact Or.inl (queue ▸ List.mem_cons_of_mem _ member)
    · cases member
      exact Or.inr (queue ▸ List.mem_cons_self ..)
  | @call sender fileChanges todoUdp idle queue =>
    apply fitting_set fitting
    refine fitsNode.shrink (fun _ => id) (fun sent member => ?_) (fun _ => Or.inl)
    exact Or.inl (queue ▸ List.mem_cons_of_mem _ member)
  | @discard sender table todoUdp queue =>
    apply fitting_set fitting
    refine fitsNode.shrink (fun _ => id) (fun sent member => ?_) (fun _ => Or.inl)
    exact Or.inl (queue ▸ List.mem_cons_of_mem _ member)
  | take free slot =>
    apply fitting_set fitting
    refine fitsNode.shrink (fun _ => id) (fun _ => Or.inl) (fun sent member => ?_)
    cases member
  | compareResponse received idle =>
    apply fitting_set fitting
    exact fitsNode.shrink (fun _ => id) (fun _ => Or.inl) (fun _ => Or.inl)
  | request calls =>
    apply fitting_set fitting
    exact fitsNode.shrink (fun _ => id) (fun _ => Or.inl) (fun _ => Or.inl)

section

variable [Fintype N]

theorem fitting_step {action : MeshAction N} {next : Mesh N} (fitting : s.Fitting)
    (fits : sendFits .win32 s.wire action) (taken : meshStep .win32 action s = some next) :
    next.Fitting := by
  cases action with
  | change name path content =>
    cases taken
    exact fitting_set fitting (fitting name)
  | arrive name =>
    simp only [meshStep] at taken
    split at taken
    · cases taken
    · cases taken
      exact fitting_broadcast (fitting_set fitting fitting_empty) fits
  | leave name =>
    simp only [meshStep] at taken
    split at taken
    · cases taken
      exact fitting_set fitting fitting_empty
    · cases taken
  | duplicate name index =>
    simp only [meshStep] at taken
    split at taken
    · rename_i sender message flying
      cases taken
      exact fitting_send fitting ((fitting name).inFlight _ (List.mem_of_getElem? flying))
    · cases taken
  | run name action => exact fitting_effect fitting fits (effect_of_run taken).2

/-- On the wire an action does what it does in the mesh. -/
theorem wire_step (garbage : Uninitialized) {action : MeshAction N} (fitting : s.Fitting)
    (fits : sendFits .win32 s.wire action) :
    wireStep .win32 garbage action s.wire = (meshStep .win32 action s).map Mesh.wire := by
  cases action with
  | change name path content =>
    have edited := wire_set s name
      { s.nodes name with folder := (s.nodes name).folder.set path content }
    rw [meshStep, wireStep, Option.map_some]
    exact congrArg (fun mesh : WireMesh N => some { mesh with
      user := if (s.nodes name).online then s.user.set path content else s.user }) edited.symm
  | arrive name =>
    by_cases online : (s.nodes name).online = true
    · have wireOnline : (s.wire.nodes name).online = true := online
      rw [meshStep, wireStep, if_pos online, if_pos wireOnline]
      rfl
    · have wireOffline : ¬ (s.wire.nodes name).online = true := online
      have sends : udpSend (MeshMessage.arrival ((s.nodes name).folder.table .win32)).packet true =
          true := fits
      have joined := wire_broadcast sends
        (s.set name (.started .win32 (s.nodes name).folder)) name
      rw [wire_set] at joined
      rw [meshStep, wireStep, if_neg online, if_neg wireOffline, Option.map_some]
      exact congrArg (fun mesh : WireMesh N => some { mesh with
        user := if ∃ other, (s.nodes other).online = true then (s.nodes name).folder ∪ s.user
          else (s.nodes name).folder }) joined.symm
  | leave name =>
    by_cases online : (s.nodes name).online = true
    · have wireOnline : (s.wire.nodes name).online = true := online
      rw [meshStep, wireStep, if_pos online, if_pos wireOnline, Option.map_some, wire_set]
      rfl
    · have wireOffline : ¬ (s.wire.nodes name).online = true := online
      rw [meshStep, wireStep, if_neg online, if_neg wireOffline]
      rfl
  | duplicate name index =>
    simp only [meshStep, wireStep, wire_nodes, wire_inFlight, List.getElem?_map]
    cases (s.nodes name).inFlight[index]? with
    | none => rfl
    | some sent =>
      rw [Option.map_some, Option.map_some, wire_deliver]
      rfl
  | run name action =>
    by_cases online : (s.nodes name).online = true
    · have wireOnline : (s.wire.nodes name).online = true := online
      rw [meshStep, wireStep, if_pos online, if_pos wireOnline]
      exact wire_threadAct garbage fitting fits
    · have wireOffline : ¬ (s.wire.nodes name).online = true := online
      rw [meshStep, wireStep, if_neg online, if_neg wireOffline]
      rfl

/-- What runs reach on the wire is what the mesh looks like on the wire: nothing that is not a
    message of the mesh gets into a packet, and nothing that is gets lost in one. -/
theorem wire_run_iff (garbage : Uninitialized) {folders : N → Folder}
    {actions : List (MeshAction N)} {t : WireMesh N} :
    Run (wireStep .win32 garbage) (sendFits .win32) (WireMesh.start folders) actions t ↔
      ∃ s : Mesh N, Run (meshStep .win32) (fun s => sendFits .win32 s.wire)
        (Mesh.start folders) actions s ∧ s.wire = t := by
  have start : (Mesh.start folders).wire = WireMesh.start folders := rfl
  rw [← start]
  apply Run.image_iff
  · exact fun _ _ fitting fits => wire_step garbage fitting fits
  · exact fun _ _ _ fitting fits taken => fitting_step fitting fits taken
  · exact fun _ => fitting_empty

end

end FileSync
