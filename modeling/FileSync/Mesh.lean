import FileSync.DealWithHashTable
import FileSync.Library.Gossip
import FileSync.Negotiation
import FileSync.Sync
import Mathlib.Data.Fintype.Basic

/-!
# A mesh of nodes

Any number of nodes, each of which may be started, stopped and started again, with a user who
changes its files. Datagrams are delivered in any order and may come twice; a file transfer is one
step. Next to the nodes the mesh has the folder that its users mean.
-/

namespace FileSync

open TransitionSystem

/-- What a node sends to the UDP port of other nodes, besides requests. -/
inductive MeshMessage where
  /-- pid 0 -/
  | arrival (table : FileTable)
  /-- pid 1 -/
  | response (table : FileTable)
  /-- pid 6 -/
  | changes (fileChanges : List FileChangeData)

/-- What a node has still to process, with the senders. -/
@[ext]
structure Inbox (N : Type) where
  /-- The datagrams on their way to the node. -/
  inFlight : List (N × MeshMessage)
  todoUdp : List (N × MeshMessage)
  /-- The slot of the table manager, where `none` stands for a false `receivedTable`. -/
  tableManagerMessage : Option (N × FileTable)
  /-- The table of an arrival that the collector has answered. -/
  arrived : Option (N × FileTable)
  /-- The table that the table manager has unpacked. -/
  received : Option (N × FileTable)
  /-- The changes that a thread's loop in `requestFiles` has not reached yet. -/
  requesting : RequestingThread → List (N × FileChangeData)

/-- A node with its folder, its two tables and its change buffer. -/
structure MeshNode (N : Type) extends Inbox N where
  online : Bool
  folder : Folder
  prevDir : FileTable
  fileHashes : FileTable
  fileChangeBuf : List FileChangeData

/-- All nodes, with the folder that their users mean. -/
structure Mesh (N : Type) where
  nodes : N → MeshNode N
  user : Folder

/-- What the threads of a node do. -/
inductive ThreadAction where
  /-- `WatchDirectory` scans the folder. -/
  | scan
  /-- `handleUdp` applies, broadcasts and clears the change buffer. -/
  | drain
  /-- `collectUdpTraffic` receives a datagram, and answers an arrival. -/
  | collect (index : Nat)
  /-- The collector's call of `dealWithHashTable` compares the tables. -/
  | compareArrival
  /-- `handleUdp` pops a message. -/
  | handle
  /-- `tableManagerDriver` takes the message and unpacks it. -/
  | take
  /-- The table manager's call of `dealWithHashTable` compares the tables. -/
  | compareResponse
  /-- One round of the loop of `requestFiles`. -/
  | request (thread : RequestingThread)

/-- The steps of users, of nodes and of the network. -/
inductive MeshAction (N : Type) where
  /-- The user of a node writes a file, or deletes it. -/
  | change (node : N) (path : WString) (content : Option Bytes)
  /-- The program is started. -/
  | arrive (node : N)
  /-- The program is stopped. -/
  | leave (node : N)
  /-- The network delivers a datagram once more. -/
  | duplicate (node : N) (index : Nat)
  | run (node : N) (action : ThreadAction)

variable {N : Type} [DecidableEq N]

/-- Nothing is left to process. -/
def Inbox.empty : Inbox N where
  inFlight := []
  todoUdp := []
  tableManagerMessage := none
  arrived := none
  received := none
  requesting := fun _ => []

/-- A node that does not run has its folder only. -/
def MeshNode.stopped (folder : Folder) : MeshNode N :=
  { Inbox.empty with
    online := false
    folder
    prevDir := ∅
    fileHashes := ∅
    fileChangeBuf := [] }

/-- A node that has hashed its folder for both of its tables. -/
def MeshNode.started (platform : Platform) (folder : Folder) : MeshNode N :=
  { MeshNode.stopped folder with
    online := true
    prevDir := folder.table platform
    fileHashes := folder.table platform }

/-- The mesh with one node replaced. -/
def Mesh.set (s : Mesh N) (name : N) (node : MeshNode N) : Mesh N :=
  { s with nodes := Function.update s.nodes name node }

/-- A datagram on its way to a node. -/
def Mesh.send (s : Mesh N) (sender receiver : N) (message : MeshMessage) : Mesh N :=
  s.set receiver { s.nodes receiver with
    inFlight := (s.nodes receiver).inFlight ++ [(sender, message)] }

/-- A broadcast reaches all nodes that run, and the sender as well. -/
def Mesh.broadcast (s : Mesh N) (sender : N) (message : MeshMessage) : Mesh N :=
  { s with nodes := fun name =>
      if (s.nodes name).online then
        { s.nodes name with inFlight := (s.nodes name).inFlight ++ [(sender, message)] }
      else s.nodes name }

/-- `requestFiles` is called with a list of changes and the server to ask. -/
def MeshNode.call (node : MeshNode N) (thread : RequestingThread) (server : N)
    (fileChanges : List FileChangeData) : MeshNode N :=
  { node with
    requesting := Function.update node.requesting thread
      (fileChanges.map fun fileChange => (server, fileChange)) }

/-- A step of a thread of a running node: the watcher's round (DirectoryMonitor.cpp 56-65), the
    drain (Node.cpp 186-207) and the queue (208-291) of `handleUdp`, `collectUdpTraffic` (51-91)
    with `respondToArrival` (93-98), `tableManagerDriver` (354-382), `dealWithHashTable` (429-452)
    or a round of `requestFiles` (395-427). Scan, drain and transfer are one step each. -/
def threadAct (platform : Platform) (name : N) (s : Mesh N) : ThreadAction → Option (Mesh N)
  | .scan =>
    let node := s.nodes name
    let (dirChanges, prevDir) := getDirectoryChangesScan (node.folder.table platform) node.prevDir
    some (s.set name { node with prevDir, fileChangeBuf := node.fileChangeBuf ++ dirChanges })
  | .drain =>
    let node := s.nodes name
    if node.requesting .handler = [] ∧ node.fileChangeBuf ≠ [] then
      some ((s.set name { node with
        fileHashes := applyChanges node.fileHashes node.fileChangeBuf
        fileChangeBuf := [] }).broadcast name (.changes node.fileChangeBuf))
    else none
  | .collect index =>
    let node := s.nodes name
    match node.arrived, node.requesting .collector, node.inFlight[index]? with
    | none, [], some (sender, message) =>
      let node := { node with inFlight := node.inFlight.eraseIdx index }
      -- `isMyOwn`
      if sender = name then some (s.set name node)
      else
        match message with
        | .arrival table =>
          some ((s.set name { node with arrived := some (sender, table) }).send name sender
            (.response node.fileHashes))
        | _ => some (s.set name { node with todoUdp := node.todoUdp ++ [(sender, message)] })
    | _, _, _ => none
  | .compareArrival =>
    let node := s.nodes name
    match node.arrived, node.requesting .collector with
    | some (sender, table), [] =>
      some (s.set name ({ node with arrived := none }.call .collector sender
        (dealWithHashTable node.fileHashes table true)))
    | _, _ => none
  | .handle =>
    let node := s.nodes name
    match node.requesting .handler, node.todoUdp with
    | [], (sender, message) :: todoUdp =>
      let node := { node with todoUdp }
      match message with
      | .response table =>
        some (s.set name { node with tableManagerMessage := some (sender, table) })
      | .changes fileChanges => some (s.set name (node.call .handler sender fileChanges))
      -- `unknownPacket`
      | .arrival _ => some (s.set name node)
    | _, _ => none
  | .take =>
    let node := s.nodes name
    match node.received, node.requesting .tableManager, node.tableManagerMessage with
    | none, [], some message =>
      some (s.set name { node with tableManagerMessage := none, received := some message })
    | _, _, _ => none
  | .compareResponse =>
    let node := s.nodes name
    match node.received, node.requesting .tableManager with
    | some (sender, table), [] =>
      some (s.set name ({ node with received := none }.call .tableManager sender
        (dealWithHashTable node.fileHashes table false)))
    | _, _ => none
  | .request thread =>
    let node := s.nodes name
    match node.requesting thread with
    | (server, fileChange) :: rest => some (s.set name { node with
        folder := Folder.request platform node.folder (s.nodes server).folder fileChange
        requesting := Function.update node.requesting thread rest })
    | [] => none

/-- One step of a user, of `main` with `Node::Node` and the announcement of `discoverDriver`
    (main.cpp 26-35, Node.cpp 6-11, 338-346), of the network or of a thread. Where some node runs
    already, a starting node brings the files that the others lack. -/
def meshStep [Fintype N] (platform : Platform) : MeshAction N → Mesh N → Option (Mesh N)
  | .change name path content, s =>
    let node := s.nodes name
    some { s.set name { node with folder := node.folder.set path content } with
      user := if node.online then s.user.set path content else s.user }
  | .arrive name, s =>
    if (s.nodes name).online then none
    else
      let folder := (s.nodes name).folder
      let joined := (s.set name (.started platform folder)).broadcast name
        (.arrival (folder.table platform))
      some { joined with
        user := if ∃ other, (s.nodes other).online = true then folder ∪ s.user else folder }
  | .leave name, s =>
    if (s.nodes name).online then some (s.set name (.stopped (s.nodes name).folder)) else none
  | .duplicate name index, s =>
    match (s.nodes name).inFlight[index]? with
    | some (sender, message) => some (s.send sender name message)
    | none => none
  | .run name action, s =>
    if (s.nodes name).online then threadAct platform name s action else none

/-- No node runs. -/
def Mesh.start (folders : N → Folder) : Mesh N where
  nodes := fun name => .stopped (folders name)
  user := ∅

/-- Nothing is on its way, and the watcher has scanned the folder as it is. -/
structure MeshNode.Quiescent (platform : Platform) (node : MeshNode N) : Prop where
  inbox : node.toInbox = Inbox.empty
  buffer : node.fileChangeBuf = []
  scanned : node.prevDir = node.folder.table platform

/-- All nodes that run are quiescent. -/
def Mesh.Quiescent (platform : Platform) (s : Mesh N) : Prop :=
  ∀ name, (s.nodes name).online = true → (s.nodes name).Quiescent platform

/-! ## One path -/

/-- The change is a notice of the path. -/
def FileChangeData.Bears (fileChange : FileChangeData) (path : WString)
    (item : Gossip.Item UInt64) : Prop :=
  ∃ digest, noticeAt path fileChange = some digest ∧ item = .notice digest

/-- What a message means for a path. -/
def MeshMessage.Bears (path : WString) (item : Gossip.Item UInt64) : MeshMessage → Prop
  | .arrival table => item = .announced table[path]? ∨ item = .unanswered
  | .response table => item = .response table[path]?
  | .changes fileChanges => ∃ fileChange ∈ fileChanges, fileChange.Bears path item

/-- What a node has still to process of a sender, as far as it concerns a path. -/
inductive Inbox.Waits (box : Inbox N) (sender : N) (path : WString) : Gossip.Item UInt64 → Prop where
  | requesting (thread : RequestingThread) {fileChange : FileChangeData}
      {item : Gossip.Item UInt64} :
      (sender, fileChange) ∈ box.requesting thread → fileChange.Bears path item →
      Waits box sender path item
  | arrived {table : FileTable} : box.arrived = some (sender, table) →
      Waits box sender path (.announced table[path]?)
  | received {table : FileTable} : box.received = some (sender, table) →
      Waits box sender path (.response table[path]?)
  | slot {table : FileTable} : box.tableManagerMessage = some (sender, table) →
      Waits box sender path (.response table[path]?)
  | queued {message : MeshMessage} {item : Gossip.Item UInt64} :
      (sender, message) ∈ box.todoUdp → message.Bears path item → Waits box sender path item
  | flying {message : MeshMessage} {item : Gossip.Item UInt64} :
      (sender, message) ∈ box.inFlight → message.Bears path item → Waits box sender path item

/-- The node will broadcast a notice of the path. -/
def MeshNode.Buffers (node : MeshNode N) (path : WString) (item : Gossip.Item UInt64) : Prop :=
  ∃ fileChange ∈ node.fileChangeBuf, fileChange.Bears path item

/-- What the nodes hold and announce of a path. -/
def Mesh.cell (s : Mesh N) (path : WString) : Gossip.Cell N Bytes UInt64 where
  online := fun name => (s.nodes name).online = true
  held := fun name => (s.nodes name).folder[path]?
  seen := fun name => (s.nodes name).prevDir[path]?
  shown := fun name => (s.nodes name).fileHashes[path]?
  waits := fun sender name item =>
    (s.nodes sender).online = true ∧ (s.nodes name).online = true ∧ sender ≠ name ∧
      ((s.nodes name).toInbox.Waits sender path item ∨ (s.nodes sender).Buffers path item)

end FileSync
