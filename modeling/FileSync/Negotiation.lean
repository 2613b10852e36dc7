import FileSync.ChangeBuffer
import FileSync.DealWithHashTable
import FileSync.Folder
import Mathlib.Logic.Function.Basic

/-!
# Negotiations between nodes

The threads of any number of nodes with their queues and the datagrams in flight. Every
thread that handles changes requests files with `dirLock` held and waits for the reply. The
collector takes datagrams off the network, and the handler sends the replies; both also make
requests of their own.
-/

namespace FileSync

open TransitionSystem

/-- A datagram to the UDP port of a node. -/
inductive Datagram (N : Type) where
  /-- pid 0 -/
  | arrival (sender : N) (table : FileTable)
  /-- pid 1 -/
  | response (sender : N) (table : FileTable)
  /-- pid 5 -/
  | request (sender : N) (fileChange : FileChangeData)
  /-- pid 6 -/
  | changes (sender : N) (fileChanges : List FileChangeData)

/-- The reply to a pid-5 request. -/
structure Reply (N : Type) where
  sender : N
  abandon : Bool
  fileChange : FileChangeData

/-- A call of `requestFiles`: the server and the changes that the loop has not reached yet. -/
structure Task (N : Type) where
  server : N
  fileChanges : List FileChangeData

/-- Where the collector thread is. -/
inductive CollectorState (N : Type) where
  /-- Before the arrival announcement. -/
  | announcing
  | collecting
  | requesting (task : Task N)

/-- Where the handler thread is. -/
inductive HandlerState (N : Type) where
  | idle
  | requesting (task : Task N)
  /-- In `sendFile`. -/
  | serving (client : N)

/-- The threads that call `requestFiles`. -/
inductive RequestingThread where
  | collector
  | handler
  | tableManager
  deriving DecidableEq

/-- Where `negotiateTCPTransfer` is. -/
inductive NegotiationPhase where
  /-- The request was sent, and the thread is blocked until the reply comes. -/
  | waiting
  | receiving
  deriving DecidableEq

/-- A thread in `negotiateTCPTransfer`, which it enters and leaves with `dirLock` held. -/
structure Negotiation (N : Type) where
  thread : RequestingThread
  server : N
  fileChange : FileChangeData
  phase : NegotiationPhase

/-- A node: its folder and tables, its three threads that make requests, and its queues. -/
structure Node (N : Type) where
  folder : Folder
  prevDir : FileTable
  fileHashes : FileTable
  fileChangeBuf : List FileChangeData
  collector : CollectorState N
  handler : HandlerState N
  tableManager : Option (Task N)
  /-- What the lock is held for. All other holders release it within one step. -/
  dirLock : Option (Negotiation N)
  todoUdp : List (Datagram N)
  tableManagerMessage : Option (N × FileTable)
  /-- The datagrams on their way to the node, which may arrive in any order. -/
  inFlight : List (Datagram N)
  /-- What is on its way to the node's negotiation port. -/
  replies : List (Reply N)

/-- The steps of users, threads and the network. -/
inductive NodeAction (N : Type) where
  /-- A local change of a file. -/
  | edit (node : N) (path : WString) (content : Option Bytes)
  /-- `WatchDirectory` scans the folder. -/
  | scan (node : N)
  /-- `handleUdp` applies, broadcasts and clears the change buffer. -/
  | drain (node : N)
  /-- `discoverDriver` broadcasts the arrival. -/
  | announce (node : N)
  /-- `collectUdpTraffic` receives a datagram in flight. -/
  | collect (node : N) (index : Nat)
  /-- `tableManagerDriver` finds a message in the slot. -/
  | take (node : N)
  /-- `handleUdp` pops a message. -/
  | handle (node : N)
  /-- One round of the loop of `requestFiles` up to its end or to the blocking receive. -/
  | next (node : N) (thread : RequestingThread)
  | receiveReply (node : N)
  /-- The transfer to the node ends. -/
  | finish (node : N)

/-- The call of `requestFiles` that a thread is in. -/
def Node.task {N : Type} (node : Node N) : RequestingThread → Option (Task N)
  | .collector =>
    match node.collector with
    | .requesting task => some task
    | _ => none
  | .handler =>
    match node.handler with
    | .requesting task => some task
    | _ => none
  | .tableManager => node.tableManager

/-- A thread goes on with a call of `requestFiles`, or with its own loop. -/
def Node.setTask {N : Type} (node : Node N) (task : Option (Task N)) : RequestingThread → Node N
  | .collector =>
    match task with
    | some task => { node with collector := .requesting task }
    | none => { node with collector := .collecting }
  | .handler =>
    match task with
    | some task => { node with handler := .requesting task }
    | none => { node with handler := .idle }
  | .tableManager => { node with tableManager := task }

/-- A datagram on its way to a node. -/
def Node.send {N : Type} (node : Node N) (datagram : Datagram N) : Node N :=
  { node with inFlight := node.inFlight ++ [datagram] }

variable {N : Type} [DecidableEq N]

/-- A datagram of a node to all others. -/
def broadcast (net : N → Node N) (node : N) (datagram : Datagram N) : N → Node N :=
  fun other => if other = node then net other else (net other).send datagram

/-- `net` with the node replaced. -/
def setNode (net : N → Node N) (name : N) (node : Node N) : N → Node N :=
  Function.update net name node

/-- The state of `node` in `net` changed by `f`. -/
def modifyNode (net : N → Node N) (name : N) (f : Node N → Node N) : N → Node N :=
  setNode net name (f (net name))

/-- The branches of `handleUdp` for a popped message. -/
def handleMessage (net : N → Node N) (name : N) : Datagram N → N → Node N
  | .arrival _ _ => net
  | .response sender table =>
    modifyNode net name fun node => { node with tableManagerMessage := some (sender, table) }
  | .request sender fileChange =>
    let abandon := !(net name).folder.contains fileChange.filePath
    let net := modifyNode net sender fun node =>
      { node with replies := node.replies ++ [⟨name, abandon, fileChange⟩] }
    if abandon then net
    else modifyNode net name fun node => { node with handler := .serving sender }
  | .changes sender fileChanges =>
    modifyNode net name fun node => { node with handler := .requesting ⟨sender, fileChanges⟩ }

/-- The round of the loop for a change, with the lock free. -/
def requestChange (platform : Platform) (net : N → Node N) (name : N) (thread : RequestingThread)
    (server : N) (fileChange : FileChangeData) (rest : List FileChangeData) : N → Node N :=
  let net := modifyNode net name fun node => node.setTask (some ⟨server, rest⟩) thread
  match fileChange.change with
  | .deletion =>
    modifyNode net name fun node => { node with folder := node.folder.set fileChange.filePath none }
  | _ =>
    if (net name).folder.has platform fileChange then net
    else
      let net := modifyNode net name fun node =>
        { node with dirLock := some ⟨thread, server, fileChange, .waiting⟩ }
      modifyNode net server fun node => node.send (.request name fileChange)

/-- One step of the watcher (DirectoryMonitor.cpp 56-65), of `handleUdp` (Node.cpp 185-296), of
    `discoverDriver` and `collectUdpTraffic` (338-346, 51-91), of `tableManagerDriver` (354-382),
    or of `requestFiles` with `negotiateTCPTransfer` (395-427, 299-336). A thread that waits for
    `dirLock` or for its reply has no step. -/
def nodeStep (platform : Platform) : NodeAction N → (N → Node N) → Option (N → Node N)
  | .edit name path content, net =>
    some (modifyNode net name fun node => { node with folder := node.folder.set path content })
  | .scan name, net =>
    match (net name).dirLock with
    | some _ => none
    | none =>
      let (dirChanges, prevDir) :=
        getDirectoryChangesScan ((net name).folder.table platform) (net name).prevDir
      some (modifyNode net name fun node =>
        { node with prevDir, fileChangeBuf := node.fileChangeBuf ++ dirChanges })
  | .drain name, net =>
    match (net name).handler, (net name).dirLock with
    | .idle, none =>
      if (net name).fileChangeBuf.isEmpty then none
      else
        let net' := modifyNode net name fun node => { node with
          fileHashes := applyChanges node.fileHashes node.fileChangeBuf, fileChangeBuf := [] }
        some (broadcast net' name (.changes name (net name).fileChangeBuf))
    | _, _ => none
  | .announce name, net =>
    match (net name).collector with
    | .announcing =>
      let net := modifyNode net name fun node => { node with collector := .collecting }
      some (broadcast net name (.arrival name (net name).fileHashes))
    | _ => none
  | .collect name index, net =>
    match (net name).collector, (net name).inFlight[index]? with
    | .collecting, some datagram =>
      let net := modifyNode net name fun node =>
        { node with inFlight := node.inFlight.eraseIdx index }
      match datagram with
      | .arrival sender table =>
        let net := modifyNode net sender fun node =>
          node.send (.response name (net name).fileHashes)
        some (modifyNode net name fun node => { node with
          collector := .requesting ⟨sender, dealWithHashTable node.fileHashes table true⟩ })
      | datagram =>
        some (modifyNode net name fun node => { node with todoUdp := node.todoUdp ++ [datagram] })
    | _, _ => none
  | .take name, net =>
    match (net name).tableManager, (net name).tableManagerMessage with
    | none, some (sender, table) => some (modifyNode net name fun node => { node with
        tableManager := some ⟨sender, dealWithHashTable node.fileHashes table false⟩
        tableManagerMessage := none })
    | _, _ => none
  | .handle name, net =>
    match (net name).handler, (net name).todoUdp with
    | .idle, datagram :: todoUdp =>
      some (handleMessage (modifyNode net name fun node => { node with todoUdp }) name datagram)
    | _, _ => none
  | .next name thread, net =>
    match (net name).task thread, (net name).dirLock with
    | some ⟨server, fileChange :: rest⟩, none =>
      some (requestChange platform net name thread server fileChange rest)
    | some ⟨_, []⟩, none => some (modifyNode net name fun node => node.setTask none thread)
    | some ⟨_, []⟩, some negotiation =>
      if negotiation.thread = thread then none
      else some (modifyNode net name fun node => node.setTask none thread)
    | _, _ => none
  | .receiveReply name, net =>
    match (net name).dirLock, (net name).replies with
    | some ⟨thread, _, _, .waiting⟩, ⟨sender, abandon, fileChange⟩ :: replies =>
      some (modifyNode net name fun node => { node with
        replies
        dirLock := if abandon then none else some ⟨thread, sender, fileChange, .receiving⟩ })
    | _, _ => none
  | .finish name, net =>
    match (net name).dirLock with
    | some ⟨_, server, fileChange, .receiving⟩ =>
      match (net server).handler with
      | .serving client =>
        if client = name then
          let bytes := (net server).folder[fileChange.filePath]?.getD []
          let net := modifyNode net name fun node => { node with
            folder := node.folder.set fileChange.filePath (some bytes), dirLock := none }
          some (modifyNode net server fun node => { node with handler := .idle })
        else none
      | _ => none
    | _ => none

/-- Every thread is at its start, the folders have been hashed, and nothing is on its way. -/
def startNode (platform : Platform) (folder : Folder) : Node N :=
  { folder
    prevDir := folder.table platform
    fileHashes := folder.table platform
    fileChangeBuf := []
    collector := .announcing
    handler := .idle
    tableManager := none
    dirLock := none
    todoUdp := []
    tableManagerMessage := none
    inFlight := []
    replies := [] }

/-! ## What each action does -/

/-- The state after an action, with what the action needs. -/
inductive NodeEffect (platform : Platform) (net : N → Node N) :
    NodeAction N → (N → Node N) → Prop where
  | edit (name : N) (path : WString) (content : Option Bytes) :
      NodeEffect platform net (.edit name path content)
        (modifyNode net name fun node => { node with folder := node.folder.set path content })
  | scan {name : N} : (net name).dirLock = none →
      NodeEffect platform net (.scan name) (modifyNode net name fun node => { node with
        prevDir := (getDirectoryChangesScan ((net name).folder.table platform)
          (net name).prevDir).2
        fileChangeBuf := node.fileChangeBuf ++ (getDirectoryChangesScan
          ((net name).folder.table platform) (net name).prevDir).1 })
  | drain {name : N} : (net name).handler = .idle → (net name).dirLock = none →
      NodeEffect platform net (.drain name) (broadcast (modifyNode net name fun node => { node with
          fileHashes := applyChanges node.fileHashes node.fileChangeBuf, fileChangeBuf := [] }) name
        (.changes name (net name).fileChangeBuf))
  | announce {name : N} : (net name).collector = .announcing →
      NodeEffect platform net (.announce name) (broadcast
        (modifyNode net name fun node => { node with collector := .collecting }) name
        (.arrival name (modifyNode net name
          (fun node => { node with collector := .collecting }) name).fileHashes))
  | collectArrival {name : N} {index : Nat} {sender : N} {table : FileTable}
      (hashes : FileTable) : (net name).collector = .collecting →
      (net name).inFlight[index]? = some (.arrival sender table) →
      NodeEffect platform net (.collect name index) (modifyNode (modifyNode (modifyNode net name
          fun node => { node with inFlight := node.inFlight.eraseIdx index }) sender
          fun node => node.send (.response name hashes)) name fun node => { node with
        collector := .requesting ⟨sender, dealWithHashTable node.fileHashes table true⟩ })
  | collect {name : N} {index : Nat} {datagram : Datagram N} :
      (net name).collector = .collecting → (net name).inFlight[index]? = some datagram →
      NodeEffect platform net (.collect name index) (modifyNode net name fun node => { node with
        inFlight := node.inFlight.eraseIdx index
        todoUdp := node.todoUdp ++ [datagram] })
  | take {name sender : N} {table : FileTable} : (net name).tableManager = none →
      NodeEffect platform net (.take name) (modifyNode net name fun node => { node with
        tableManager := some ⟨sender, dealWithHashTable node.fileHashes table false⟩
        tableManagerMessage := none })
  | handle {name : N} {datagram : Datagram N} {todoUdp : List (Datagram N)} :
      (net name).handler = .idle → (net name).todoUdp = datagram :: todoUdp →
      NodeEffect platform net (.handle name)
        (handleMessage (modifyNode net name fun node => { node with todoUdp }) name datagram)
  | nextChange {name server : N} {thread : RequestingThread} {fileChange : FileChangeData}
      {rest : List FileChangeData} :
      (net name).task thread = some ⟨server, fileChange :: rest⟩ → (net name).dirLock = none →
      NodeEffect platform net (.next name thread)
        (requestChange platform net name thread server fileChange rest)
  | nextEnd {name server : N} {thread : RequestingThread} :
      (net name).task thread = some ⟨server, []⟩ →
      (∀ negotiation, (net name).dirLock = some negotiation → negotiation.thread ≠ thread) →
      NodeEffect platform net (.next name thread)
        (modifyNode net name fun node => node.setTask none thread)
  | receiveReply {name server : N} {thread : RequestingThread} {fileChange : FileChangeData}
      {reply : Reply N} {replies : List (Reply N)} :
      (net name).dirLock = some ⟨thread, server, fileChange, .waiting⟩ →
      (net name).replies = reply :: replies →
      NodeEffect platform net (.receiveReply name) (modifyNode net name fun node => { node with
        replies
        dirLock := if reply.abandon then none
          else some ⟨thread, reply.sender, reply.fileChange, .receiving⟩ })
  | finish {name server : N} {thread : RequestingThread} {fileChange : FileChangeData}
      (bytes : Bytes) : (net name).dirLock = some ⟨thread, server, fileChange, .receiving⟩ →
      (net server).handler = .serving name →
      NodeEffect platform net (.finish name) (modifyNode (modifyNode net name fun node =>
          { node with folder := node.folder.set fileChange.filePath (some bytes), dirLock := none })
        server fun node => { node with handler := .idle })

theorem modifyNode_twice (net : N → Node N) (name : N) (f g : Node N → Node N) :
    modifyNode (modifyNode net name f) name g = modifyNode net name fun node => g (f node) := by
  have here : modifyNode net name f name = f (net name) := Function.update_self ..
  rw [modifyNode, here, modifyNode, setNode, setNode, Function.update_idem]
  rfl

/-- A step is one of these effects. -/
theorem nodeEffect_of_step {platform : Platform} {net next : N → Node N} {action : NodeAction N}
    (taken : nodeStep platform action net = some next) : NodeEffect platform net action next := by
  cases action with
  | edit name path content =>
    cases taken
    exact .edit name path content
  | scan name =>
    simp only [nodeStep] at taken
    split at taken
    · cases taken
    · rename_i free
      cases taken
      exact .scan free
  | drain name =>
    simp only [nodeStep] at taken
    split at taken
    · rename_i idle free
      split at taken
      · cases taken
      · cases taken
        exact .drain idle free
    · cases taken
  | announce name =>
    simp only [nodeStep] at taken
    split at taken
    · rename_i announcing
      cases taken
      exact .announce announcing
    · cases taken
  | collect name index =>
    simp only [nodeStep] at taken
    split at taken
    · rename_i datagram collecting found
      split at taken
      · cases taken
        exact .collectArrival _ collecting found
      · rw [modifyNode_twice] at taken
        cases taken
        exact .collect collecting found
    · cases taken
  | take name =>
    simp only [nodeStep] at taken
    split at taken
    · rename_i idle found
      cases taken
      exact .take idle
    · cases taken
  | handle name =>
    simp only [nodeStep] at taken
    split at taken
    · rename_i idle queue
      cases taken
      exact .handle idle queue
    · cases taken
  | next name thread =>
    simp only [nodeStep] at taken
    split at taken
    · rename_i found free
      cases taken
      exact .nextChange found free
    · rename_i found free
      cases taken
      exact .nextEnd found fun _ held => by simp [free] at held
    · rename_i negotiation found held
      split at taken
      · cases taken
      · rename_i apart
        cases taken
        refine .nextEnd found fun other same => ?_
        cases held.symm.trans same
        exact apart
    · cases taken
  | receiveReply name =>
    simp only [nodeStep] at taken
    split at taken
    · rename_i locked found
      cases taken
      exact .receiveReply locked found
    · cases taken
  | finish name =>
    simp only [nodeStep] at taken
    split at taken
    · rename_i receiving
      split at taken
      · rename_i serving
        split at taken
        · rename_i same
          cases taken
          exact .finish _ receiving (same ▸ serving)
        · cases taken
      · cases taken
    · cases taken

end FileSync
