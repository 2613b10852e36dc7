import FileSync.OutputStream
import FileSync.TransferSize
import Mathlib.Logic.Function.Basic

/-!
# Serving and receiving in a network

Any number of nodes request files from each other. A receiver holds its `dirLock`, so that a
node receives one file at a time; the handler serves one client at a time and takes no lock,
so that a node may serve a file while it receives it. What a receiver has written may stay in
the buffer of its stream until the stream is closed, and a server reads what is on the disk.
-/

namespace FileSync

open TransitionSystem

/-- Where `negotiateTCPTransfer` is, from `udp.send` to its return. -/
inductive ReceivePhase where
  /-- The pid-5 request is on its way. -/
  | requested
  /-- The reply is on its way. -/
  | replied (abandon : Bool)
  /-- The target was truncated, and `receiveFile` is at work. -/
  | running (transfer : Transfer)
  /-- `receiveFile` has returned. -/
  | closing (written : Bytes)
  /-- `file.close()` has returned. -/
  | closed

/-- A call of `negotiateTCPTransfer`. -/
structure Receive (N : Type) where
  server : N
  path : WString
  phase : ReceivePhase

/-- What the handler thread of a node is doing in case 5. -/
inductive Serving (N : Type) where
  | idle
  | busy (client : N)
  /-- All was sent and received; the client's empty packet is on its way. -/
  | closing

/-- The disks of all nodes, the call that each of them receives a file with, if any, and what
    its handler serves. -/
structure Network (N : Type) where
  disk : N → WString → Option Bytes
  receives : N → Option (Receive N)
  serving : N → Serving N

/-- The steps of the clients and of the handlers that serve them. -/
inductive NetworkAction (N : Type) where
  | request (client server : N) (path : WString)
  /-- The handler of the server gets to the request of the client. -/
  | reply (client : N)
  | receiveReply (client : N)
  /-- Either end of the client's transfer takes a step. -/
  | transfer (client : N) (action : TransferAction)
  /-- `receiveFile` returns. -/
  | finish (client : N)
  /-- `file.close()` of the client. -/
  | close (client : N)
  /-- `negotiateTCPTransfer` returns. -/
  | leave (client : N)
  /-- `sendFile` returns. -/
  | sent (server : N)

variable {N : Type} [DecidableEq N]

/-- The content of one file of one node replaced. -/
def setFile (disk : N → WString → Option Bytes) (node : N) (path : WString) (bytes : Bytes) :
    N → WString → Option Bytes :=
  Function.update disk node (Function.update (disk node) path (some bytes))

/-- One step of `negotiateTCPTransfer` (Node.cpp 299-336) of some client, of the handler in case 5
    (236-275) of some server, or of the two loops between them. A client whose connection is refused
    does as much as one that never takes its `connect`. -/
def networkStep (platform : Platform) (buffering : Buffering) :
    NetworkAction N → Network N → Option (Network N)
  | .request client server path, net =>
    match net.receives client with
    | none =>
      if server = client then none
      else some { net with
        receives := Function.update net.receives client (some ⟨server, path, .requested⟩) }
    | some _ => none
  | .reply client, net =>
    match net.receives client with
    | some ⟨server, path, .requested⟩ =>
      match net.serving server with
      | .idle =>
        let abandon := (net.disk server path).isNone
        some { net with
          receives := Function.update net.receives client (some ⟨server, path, .replied abandon⟩)
          serving := if abandon then net.serving
            else Function.update net.serving server (.busy client) }
      | _ => none
    | _ => none
  | .receiveReply client, net =>
    match net.receives client with
    | some ⟨_, _, .replied true⟩ =>
      some { net with receives := Function.update net.receives client none }
    | some ⟨server, path, .replied false⟩ => some { net with
        disk := setFile net.disk client path []
        receives := Function.update net.receives client
          (some ⟨server, path, .running Transfer.start⟩) }
    | _ => none
  | .transfer client action, net =>
    match net.receives client with
    | some ⟨server, path, .running transfer⟩ =>
      match net.disk server path with
      | some source =>
        (transferStep platform source action transfer).map fun transfer => { net with
          disk := setFile net.disk client path (buffering.stored transfer.client.file)
          receives := Function.update net.receives client
            (some ⟨server, path, .running transfer⟩) }
      | none => none
    | _ => none
  | .finish client, net =>
    match net.receives client with
    | some ⟨server, path, .running transfer⟩ =>
      match transfer.client.phase with
      | .done => some { net with
          receives := Function.update net.receives client
            (some ⟨server, path, .closing transfer.client.file⟩)
          serving := Function.update net.serving server .closing }
      | _ => none
    | _ => none
  | .close client, net =>
    match net.receives client with
    | some ⟨server, path, .closing written⟩ => some { net with
        disk := setFile net.disk client path written
        receives := Function.update net.receives client (some ⟨server, path, .closed⟩) }
    | _ => none
  | .leave client, net =>
    match net.receives client with
    | some ⟨_, _, .closed⟩ =>
      some { net with receives := Function.update net.receives client none }
    | _ => none
  | .sent server, net =>
    match net.serving server with
    | .closing => some { net with serving := Function.update net.serving server .idle }
    | _ => none

/-- Nobody receives or serves anything. -/
def Network.start (disk : N → WString → Option Bytes) : Network N :=
  { disk, receives := fun _ => none, serving := fun _ => .idle }

/-! ## The versions of a path and the condition -/

/-- The content is what some node held at the path before the run. -/
def IsVersion (before : N → WString → Option Bytes) (path : WString) (bytes : Bytes) : Prop :=
  ∃ holder, before holder path = some bytes

/-- Each receive that got the end message has written a complete version, and what is on the disk
    once it has closed its file is one. -/
structure StoresVersions (before : N → WString → Option Bytes) (net : Network N) : Prop where
  received : ∀ client receive transfer, net.receives client = some receive →
    receive.phase = .running transfer →
    transfer.client.phase = .ending ∨ transfer.client.phase = .done →
    IsVersion before receive.path transfer.client.file
  closed : ∀ client receive, net.receives client = some receive → receive.phase = .closed →
    ∃ bytes, net.disk client receive.path = some bytes ∧ IsVersion before receive.path bytes

/-- The target was truncated, and not all that the server sends is on the disk yet. -/
def ReceivePhase.isPartial (buffering : Buffering) : ReceivePhase → Bool
  | .running transfer =>
    !(transfer.server.phase.leftLoop && buffering.flushed transfer.client.file)
  | .closing written => !buffering.flushed written
  | _ => false

/-- The receive is at work on the path. -/
def Receive.isPartial (buffering : Buffering) (receive : Receive N) (path : WString) : Bool :=
  receive.path == path && receive.phase.isPartial buffering

/-- The node is receiving the file. -/
def partialAt (buffering : Buffering) (net : Network N) (node : N) (path : WString) : Bool :=
  (net.receives node).any fun receive => receive.isPartial buffering path

/-- The server has measured the file and not left its loop. -/
def ServerPhase.reading : ServerPhase → Bool
  | .testing | .sending _ | .receiving => true
  | _ => false

/-- The server of the receive is reading the path. -/
def Receive.isRead (receive : Receive N) (path : WString) : Bool :=
  match receive.phase with
  | .running transfer => receive.path == path && transfer.server.phase.reading
  | _ => false

/-- The node is reading the file for its client. -/
def readingAt (net : Network N) (node : N) (path : WString) : Bool :=
  match net.serving node with
  | .busy client => (net.receives client).any fun receive => receive.isRead path
  | _ => false

/-- A server measures a file only when it is not receiving the file itself and its size is
    transferable, and a receiver truncates a file only when it is not reading it. -/
def exclusive (platform : Platform) (buffering : Buffering) (net : Network N) :
    NetworkAction N → Prop
  | .transfer client .accept =>
    match net.receives client with
    | some ⟨server, path, _⟩ => partialAt buffering net server path = false ∧
        ∀ source, net.disk server path = some source → Transferable platform source
    | none => True
  | .receiveReply client =>
    match net.receives client with
    | some ⟨_, path, .replied false⟩ => readingAt net client path = false
    | _ => True
  | _ => True

/-! ## Steps of a transfer whose source may change -/

/-- Only a measurement and a read look at the file. -/
theorem transferStep_source {platform : Platform} {action : TransferAction} {t : Transfer}
    (notMeasured : action = .accept → t.server.phase ≠ .accepting)
    (notRead : t.server.phase ≠ .testing) (source other : Bytes) :
    transferStep platform source action t = transferStep platform other action t := by
  obtain ⟨⟨phase, length, pos, offset, failed⟩, client, toClient, toServer⟩ := t
  cases action with
  | accept =>
    cases phase with
    | accepting => exact absurd rfl (notMeasured rfl)
    | _ => rfl
  | test =>
    cases phase with
    | testing => exact absurd rfl notRead
    | _ => rfl
  | _ => rfl

theorem transferStep_of_leftLoop {platform : Platform} {action : TransferAction} {t : Transfer}
    (left : t.server.phase.leftLoop = true) (source other : Bytes) :
    transferStep platform source action t = transferStep platform other action t := by
  refine transferStep_source (fun _ accepting => ?_) (fun testing => ?_) source other
  · rw [accepting] at left
    cases left
  · rw [testing] at left
    cases left

/-- Before the file is measured, its content does not matter. -/
theorem coupled_of_accepting {source other : Bytes} {t : Transfer} (coupled : Coupled source t)
    (accepting : t.server.phase = .accepting) : Coupled other t := by
  obtain ⟨⟨inFlight, control, stored, short⟩, within, tell, aligned, fresh, measured, exited⟩ :=
    coupled
  obtain ⟨atStart, unfailed⟩ := fresh accepting
  rw [atStart] at stored
  refine ⟨⟨inFlight, control, ?_, short⟩, ?_, tell, Or.inl ⟨unfailed, ?_⟩, fresh,
    absurd accepting, ?_⟩
  · rw [atStart]
    exact stored
  · rw [atStart]
    exact Nat.zero_le _
  · rw [atStart]
    exact Nat.dvd_zero _
  · rw [accepting]
    exact nofun

theorem leftLoop_step {platform : Platform} {source : Bytes} {action : TransferAction}
    {t next : Transfer} (taken : transferStep platform source action t = some next)
    (left : t.server.phase.leftLoop = true) : next.server.phase.leftLoop = true := by
  cases transferEffect_of_step taken with
  | accept phase | read phase | leave phase | send phase | receiveResponse phase =>
    rw [phase] at left
    cases left
  | sendEnd | receiveEnd => rfl
  | _ => exact left

theorem accepting_step {platform : Platform} {source : Bytes} {action : TransferAction}
    {t next : Transfer} (taken : transferStep platform source action t = some next)
    (accepting : t.server.phase = .accepting) (notMeasured : action ≠ .accept) :
    next.server.phase = .accepting := by
  cases transferEffect_of_step taken with
  | accept => exact absurd rfl notMeasured
  | read phase | leave phase | send phase | receiveResponse phase | sendEnd phase
  | receiveEnd phase =>
    rw [phase] at accepting
    cases accepting
  | _ => exact accepting

/-! ## The invariant -/

/-- The server of the receive is committed to it. -/
def ReceivePhase.open : ReceivePhase → Bool
  | .replied false | .running _ => true
  | _ => false

/-- A transfer of a measured file moves a version of the path, which stays on the server's
    disk, and is not received there, until the server has left its loop. -/
def Moves (platform : Platform) (buffering : Buffering) (before : N → WString → Option Bytes)
    (net : Network N) (server : N) (path : WString) (transfer : Transfer) : Prop :=
  ∃ source, Coupled source transfer ∧ (transfer.server.phase ≠ .accepting →
    IsVersion before path source ∧ Transferable platform source ∧
      (transfer.server.phase.leftLoop = false →
        net.disk server path = some source ∧ partialAt buffering net server path = false))

/-- What the disk of the client holds in each phase of a receive. -/
def ReceiveInv (platform : Platform) (buffering : Buffering)
    (before : N → WString → Option Bytes) (net : Network N) (client : N)
    (receive : Receive N) : Prop :=
  match receive.phase with
  | .running transfer =>
    net.disk client receive.path = some (buffering.stored transfer.client.file) ∧
      Moves platform buffering before net receive.server receive.path transfer
  | .closing written =>
    net.disk client receive.path = some (buffering.stored written) ∧
      IsVersion before receive.path written
  | .closed => ∃ bytes, net.disk client receive.path = some bytes
  | _ => True

/-- A handler in case 5 serves the client that receives from it, and what each client has received
    so far is as it should be. -/
structure NetworkInv (platform : Platform) (buffering : Buffering)
    (before : N → WString → Option Bytes) (net : Network N) : Prop where
  serving : ∀ client receive, net.receives client = some receive → receive.phase.open = true →
    net.serving receive.server = .busy client
  receiving : ∀ client receive, net.receives client = some receive →
    ReceiveInv platform buffering before net client receive
  /-- What is not being received is a version. -/
  whole : ∀ node path bytes, net.disk node path = some bytes →
    partialAt buffering net node path = false → IsVersion before path bytes

omit [DecidableEq N] in
theorem networkInv_start (platform : Platform) (buffering : Buffering)
    (disk : N → WString → Option Bytes) :
    NetworkInv platform buffering disk (Network.start disk) where
  serving := fun _ _ found => by cases found
  receiving := fun _ _ found => by cases found
  whole := fun node _ _ found _ => ⟨node, found⟩

theorem setFile_self (disk : N → WString → Option Bytes) (node : N) (path : WString)
    (bytes : Bytes) : setFile disk node path bytes node path = some bytes := by
  simp [setFile]

theorem setFile_of_ne {disk : N → WString → Option Bytes} {node other : N} {path target : WString}
    {bytes : Bytes} (differ : ¬ (other = node ∧ target = path)) :
    setFile disk node path bytes other target = disk other target := by
  unfold setFile
  by_cases sameNode : other = node
  · subst sameNode
    have samePath : target ≠ path := fun same => differ ⟨rfl, same⟩
    simp [samePath]
  · simp [sameNode]

/-- Only the node whose receive is replaced may get another partial file. -/
theorem partialAt_update {buffering : Buffering} {net next : Network N} {client : N}
    {receive : Option (Receive N)}
    (receives : next.receives = Function.update net.receives client receive) (node : N)
    (path : WString) :
    partialAt buffering next node path =
      if node = client then receive.any fun receive => receive.isPartial buffering path
      else partialAt buffering net node path := by
  unfold partialAt
  rw [receives]
  by_cases same : node = client <;> simp [same]

/-- The servers keep their clients when one receive is replaced. -/
theorem serving_update {platform : Platform} {buffering : Buffering}
    {before : N → WString → Option Bytes} {net : Network N}
    (inv : NetworkInv platform buffering before net) {client : N}
    {receive : Option (Receive N)} {serving : N → Serving N}
    (own : ∀ new, receive = some new → new.phase.open = true → serving new.server = .busy client)
    (others : ∀ other (kept : Receive N), other ≠ client →
      net.serving kept.server = .busy other → serving kept.server = .busy other)
    (other : N) (kept : Receive N)
    (has : Function.update net.receives client receive other = some kept)
    (isOpen : kept.phase.open = true) : serving kept.server = .busy other := by
  by_cases same : other = client
  · subst same
    rw [Function.update_self] at has
    exact own kept has isOpen
  · rw [Function.update_of_ne same] at has
    exact others other kept same (inv.serving other kept has isOpen)

omit [DecidableEq N] in
/-- A transfer whose file is left alone while it is read moves what it has moved before. -/
theorem Moves.of_kept {platform : Platform} {buffering : Buffering}
    {before : N → WString → Option Bytes} {net next : Network N} {server : N} {path : WString}
    {transfer : Transfer} (moves : Moves platform buffering before net server path transfer)
    (kept : transfer.server.phase ≠ .accepting → transfer.server.phase.leftLoop = false →
      ∀ source, net.disk server path = some source → partialAt buffering net server path = false →
        next.disk server path = some source ∧ partialAt buffering next server path = false) :
    Moves platform buffering before next server path transfer := by
  obtain ⟨source, coupled, moved⟩ := moves
  refine ⟨source, coupled, fun measured => ?_⟩
  obtain ⟨version, transferable, reading⟩ := moved measured
  refine ⟨version, transferable, fun inLoop => ?_⟩
  obtain ⟨onDisk, notPartial⟩ := reading inLoop
  exact kept measured inLoop source onDisk notPartial

omit [DecidableEq N] in
/-- A receive whose own file stays as it is depends on the rest through its transfer only. -/
theorem ReceiveInv.of_kept {platform : Platform} {buffering : Buffering}
    {before : N → WString → Option Bytes} {net next : Network N} {client : N}
    {receive : Receive N} (inv : ReceiveInv platform buffering before net client receive)
    (disk : next.disk client receive.path = net.disk client receive.path)
    (moves : ∀ transfer, receive.phase = .running transfer →
      Moves platform buffering before net receive.server receive.path transfer →
      Moves platform buffering before next receive.server receive.path transfer) :
    ReceiveInv platform buffering before next client receive := by
  unfold ReceiveInv at inv ⊢
  split at inv
  · rename_i phase
    exact ⟨disk.trans inv.1, moves _ phase inv.2⟩
  · exact ⟨disk.trans inv.1, inv.2⟩
  · rwa [disk]
  · trivial

/-- The receive of one client is replaced, and no file changes or becomes partial or whole. -/
theorem networkInv_of_receive {platform : Platform} {buffering : Buffering}
    {before : N → WString → Option Bytes} {net : Network N}
    (inv : NetworkInv platform buffering before net) {client : N}
    {receive : Option (Receive N)} {serving : N → Serving N}
    (own : ∀ new, receive = some new → ReceiveInv platform buffering before net client new)
    (partly : ∀ path, (receive.any fun receive => receive.isPartial buffering path) =
      partialAt buffering net client path)
    (committed : ∀ other kept,
      Function.update net.receives client receive other = some kept → kept.phase.open = true →
      serving kept.server = .busy other) :
    NetworkInv platform buffering before
      { net with receives := Function.update net.receives client receive, serving } := by
  have same (node : N) (path : WString) : partialAt buffering
      { net with receives := Function.update net.receives client receive, serving } node path =
      partialAt buffering net node path := by
    rw [partialAt_update rfl]
    split
    · rename_i atClient
      rw [atClient]
      exact partly path
    · rfl
  refine ⟨committed, fun other kept found => ?_, fun node path bytes onDisk notPartial => ?_⟩
  · have before : ReceiveInv platform buffering before net other kept := by
      simp only at found
      by_cases atClient : other = client
      · subst atClient
        rw [Function.update_self] at found
        exact own kept found
      · rw [Function.update_of_ne atClient] at found
        exact inv.receiving other kept found
    exact before.of_kept rfl fun transfer _ moves =>
      moves.of_kept fun _ _ source onDisk notPartial => ⟨onDisk, (same ..).trans notPartial⟩
  · exact inv.whole node path bytes onDisk ((same node path).symm.trans notPartial)

omit [DecidableEq N] in
/-- A node receives one file at a time, so that its receive tells which file is partial. -/
theorem partialAt_of_found {buffering : Buffering} {net : Network N} {client : N}
    {receive : Receive N} (found : net.receives client = some receive) (path : WString) :
    partialAt buffering net client path = receive.isPartial buffering path := by
  rw [partialAt, found]
  rfl

omit [DecidableEq N] in
/-- No file is partial because of a receive that has no bytes in its stream. -/
theorem isPartial_of_phase {buffering : Buffering} {receive : Receive N} {path : WString}
    (phase : receive.phase.isPartial buffering = false) :
    receive.isPartial buffering path = false := by
  rw [Receive.isPartial, phase, Bool.and_false]

theorem networkInv_request {platform : Platform} {buffering : Buffering}
    {before : N → WString → Option Bytes} {net next : Network N}
    (inv : NetworkInv platform buffering before net) {client server : N} {path : WString}
    (taken : networkStep platform buffering (.request client server path) net = some next) :
    NetworkInv platform buffering before next := by
  simp only [networkStep] at taken
  cases found : net.receives client with
  | some _ => simp [found] at taken
  | none =>
    simp only [found] at taken
    split at taken <;> cases taken
    refine networkInv_of_receive inv (fun new has => by cases has; trivial) (fun target => ?_)
      (serving_update inv ?_ fun other kept _ busy => busy)
    · rw [partialAt, found]
      exact isPartial_of_phase rfl
    · intro new has isOpen
      cases has
      cases isOpen

theorem networkInv_reply {platform : Platform} {buffering : Buffering}
    {before : N → WString → Option Bytes} {net next : Network N}
    (inv : NetworkInv platform buffering before net) {client : N}
    (taken : networkStep platform buffering (.reply client) net = some next) :
    NetworkInv platform buffering before next := by
  simp only [networkStep] at taken
  split at taken <;> try cases taken
  rename_i server path found
  split at taken <;> cases taken
  rename_i idle
  refine networkInv_of_receive inv (fun new has => by cases has; trivial) (fun target => ?_)
    (serving_update inv ?_ ?_)
  · rw [partialAt_of_found found]
    exact (isPartial_of_phase rfl).trans (isPartial_of_phase rfl).symm
  · intro new has isOpen
    cases has
    cases abandon : (net.disk server path).isNone with
    | true => simp [abandon, ReceivePhase.open] at isOpen
    | false => simp
  · intro other kept _ busy
    -- the server was idle, so it is not the server of an open receive
    have differ : kept.server ≠ server := by
      intro same
      rw [same] at busy
      cases idle.symm.trans busy
    split
    · exact busy
    · rw [Function.update_of_ne differ]
      exact busy

/-- A server that has measured the file and not left its loop is reading it. -/
theorem reading_of_inLoop {phase : ServerPhase} (measured : phase ≠ .accepting)
    (inLoop : phase.leftLoop = false) : phase.reading = true := by
  cases phase with
  | accepting => exact absurd rfl measured
  | testing | sending | receiving => rfl
  | _ => cases inLoop

omit [DecidableEq N] in
/-- What a client receives is being read by its server while the server is in its loop. -/
theorem readingAt_of_running {platform : Platform} {buffering : Buffering}
    {before : N → WString → Option Bytes} {net : Network N}
    (inv : NetworkInv platform buffering before net) {client : N} {receive : Receive N}
    {transfer : Transfer} (found : net.receives client = some receive)
    (phase : receive.phase = .running transfer) (measured : transfer.server.phase ≠ .accepting)
    (inLoop : transfer.server.phase.leftLoop = false) :
    readingAt net receive.server receive.path = true := by
  have isOpen : receive.phase.open = true := by
    rw [phase]
    rfl
  rw [readingAt, inv.serving client receive found isOpen]
  simp only [found, Option.any_some, Receive.isRead, phase, reading_of_inLoop measured inLoop,
    beq_self_eq_true, Bool.and_self]

/-- The file of one receive is written. -/
theorem networkInv_store {platform : Platform} {buffering : Buffering}
    {before : N → WString → Option Bytes} {net next : Network N}
    (inv : NetworkInv platform buffering before net) {client server : N} {path : WString}
    {old : ReceivePhase} (phase : ReceivePhase) {bytes : Bytes}
    (found : net.receives client = some ⟨server, path, old⟩)
    (committed : phase.open = true → old.open = true)
    (disk : next.disk = setFile net.disk client path bytes)
    (receives : next.receives =
      Function.update net.receives client (some ⟨server, path, phase⟩))
    (serving : next.serving = net.serving)
    (own : ReceiveInv platform buffering before next client ⟨server, path, phase⟩)
    (movesOther : ∀ other kept running, net.receives other = some kept →
      kept.phase = .running running →
      Moves platform buffering before net kept.server kept.path running →
      Moves platform buffering before next kept.server kept.path running)
    (whole : phase.isPartial buffering = false → IsVersion before path bytes) :
    NetworkInv platform buffering before next := by
  refine ⟨?_, ?_, ?_⟩
  · rw [receives, serving]
    apply serving_update inv
    · intro new has isOpen
      cases has
      exact inv.serving client ⟨server, path, old⟩ found (committed isOpen)
    · exact fun other kept _ busy => busy
  · intro other kept has
    rw [receives] at has
    by_cases same : other = client
    · subst same
      rw [Function.update_self] at has
      cases has
      exact own
    · rw [Function.update_of_ne same] at has
      refine (inv.receiving other kept has).of_kept ?_ fun running phaseOf =>
        movesOther other kept running has phaseOf
      rw [disk]
      exact setFile_of_ne fun both => same both.1
  · intro node target held onDisk notPartial
    rw [disk] at onDisk
    rw [partialAt_update receives] at notPartial
    by_cases written : node = client ∧ target = path
    · obtain ⟨rfl, rfl⟩ := written
      have complete : phase.isPartial buffering = false := by
        simpa [Receive.isPartial] using notPartial
      cases (setFile_self ..).symm.trans onDisk
      exact whole complete
    · have unwritten := (setFile_of_ne written).symm.trans onDisk
      refine inv.whole node target held unwritten ?_
      by_cases atClient : node = client
      · subst atClient
        have otherPath : path ≠ target := fun same => written ⟨rfl, same.symm⟩
        rw [partialAt_of_found found]
        simp [Receive.isPartial, otherPath]
      · rwa [if_neg atClient] at notPartial

/-- Where a file that is not partial is not written, a transfer that reads it goes on with it. -/
theorem moves_of_unwritten {platform : Platform} {buffering : Buffering}
    {before : N → WString → Option Bytes} {net next : Network N} {client server reader : N}
    {path target : WString} {old phase : ReceivePhase} {bytes : Bytes} {transfer : Transfer}
    (found : net.receives client = some ⟨server, path, old⟩)
    (disk : next.disk = setFile net.disk client path bytes)
    (receives : next.receives =
      Function.update net.receives client (some ⟨server, path, phase⟩))
    (unwritten : old.isPartial buffering = false →
      net.disk client path = some bytes ∧ phase.isPartial buffering = false)
    (moves : Moves platform buffering before net reader target transfer) :
    Moves platform buffering before next reader target transfer := by
  refine moves.of_kept fun _ _ source onDisk notPartial => ?_
  rw [disk, partialAt_update receives]
  by_cases written : reader = client ∧ target = path
  · obtain ⟨rfl, rfl⟩ := written
    have complete : old.isPartial buffering = false := by
      rw [partialAt_of_found found] at notPartial
      simpa [Receive.isPartial] using notPartial
    obtain ⟨same, still⟩ := unwritten complete
    rw [setFile_self, if_pos rfl]
    exact ⟨same.symm.trans onDisk, isPartial_of_phase still⟩
  · refine ⟨(setFile_of_ne written).trans onDisk, ?_⟩
    split
    · rename_i atClient
      have otherPath : path ≠ target := fun same => written ⟨atClient, same.symm⟩
      simp [Receive.isPartial, otherPath]
    · exact notPartial

theorem networkInv_receiveReply {platform : Platform} {buffering : Buffering}
    {before : N → WString → Option Bytes} {net next : Network N}
    (inv : NetworkInv platform buffering before net) {client : N}
    (allowed : exclusive platform buffering net (.receiveReply client))
    (taken : networkStep platform buffering (.receiveReply client) net = some next) :
    NetworkInv platform buffering before next := by
  simp only [networkStep] at taken
  split at taken <;> cases taken
  · rename_i found
    refine networkInv_of_receive inv (fun new has => by cases has) (fun target => ?_)
      (serving_update inv (fun new has => by cases has) fun other kept _ busy => busy)
    rw [partialAt_of_found found]
    exact (isPartial_of_phase rfl).symm
  · rename_i server path found
    simp only [exclusive, found] at allowed
    refine networkInv_store inv (.running Transfer.start) found (fun _ => rfl) rfl rfl rfl
      ⟨(setFile_self ..).trans (congrArg some (buffering.stored_nil).symm), ?_⟩ ?_ nofun
    · exact ⟨[], coupled_start [], absurd rfl⟩
    · intro other kept transfer has phase moves
      refine moves.of_kept fun measured inLoop source onDisk notPartial => ?_
      -- the node does not truncate a file that it is reading
      have differ : ¬ (kept.server = client ∧ kept.path = path) := by
        intro both
        have reading := readingAt_of_running inv has phase measured inLoop
        rw [both.1, both.2, allowed] at reading
        cases reading
      refine ⟨(setFile_of_ne differ).trans onDisk, ?_⟩
      rw [partialAt_update rfl]
      split
      · rename_i atClient
        have otherPath : path ≠ kept.path := fun same => differ ⟨atClient, same.symm⟩
        simp [Receive.isPartial, otherPath]
      · exact notPartial

omit [DecidableEq N] in
/-- A step of a transfer keeps what the invariant says about it, as long as no disk changes. -/
theorem moves_step {platform : Platform} {buffering : Buffering}
    {before : N → WString → Option Bytes} {net : Network N}
    (inv : NetworkInv platform buffering before net) {client server : N} {path : WString}
    {transfer next : Transfer} {bytes : Bytes} {action : TransferAction}
    (found : net.receives client = some ⟨server, path, .running transfer⟩)
    (content : net.disk server path = some bytes)
    (allowed : exclusive platform buffering net (.transfer client action))
    (taken : transferStep platform bytes action transfer = some next) :
    Moves platform buffering before net server path next := by
  obtain ⟨-, source, coupled, moved⟩ := inv.receiving client _ found
  by_cases accepting : transfer.server.phase = .accepting
  · by_cases measures : action = .accept
    · -- the content that is measured is a version
      subst measures
      simp only [exclusive, found] at allowed
      obtain ⟨notPartial, transferable⟩ := allowed
      have transferable := transferable bytes content
      exact ⟨bytes, coupled_step transferable.agree (coupled_of_accepting coupled accepting) taken,
        fun _ => ⟨inv.whole server path bytes content notPartial, transferable,
          fun _ => ⟨content, notPartial⟩⟩⟩
    · have notRead : transfer.server.phase ≠ .testing := by
        rw [accepting]
        exact nofun
      rw [transferStep_source (fun same => absurd same measures) notRead bytes []] at taken
      exact ⟨[], coupled_step (Or.inr rfl) (coupled_of_accepting coupled accepting) taken,
        fun measured => absurd (accepting_step taken accepting measures) measured⟩
  · obtain ⟨version, transferable, reading⟩ := moved accepting
    cases left : transfer.server.phase.leftLoop with
    | false =>
      obtain ⟨onDisk, notPartial⟩ := reading left
      cases content.symm.trans onDisk
      exact ⟨bytes, coupled_step transferable.agree coupled taken,
        fun _ => ⟨version, transferable, fun _ => ⟨onDisk, notPartial⟩⟩⟩
    | true =>
      have inLoop (inLoop : next.server.phase.leftLoop = false) : False := by
        rw [leftLoop_step taken left] at inLoop
        cases inLoop
      rw [transferStep_of_leftLoop left bytes source] at taken
      exact ⟨source, coupled_step transferable.agree coupled taken,
        fun _ => ⟨version, transferable, fun looping => (inLoop looping).elim⟩⟩

omit [DecidableEq N] in
/-- A transfer that has left its loop has written a version, and writes nothing more. -/
theorem written_of_leftLoop {platform : Platform} {buffering : Buffering}
    {before : N → WString → Option Bytes} {net : Network N} {server : N} {path : WString}
    {transfer : Transfer} (moves : Moves platform buffering before net server path transfer)
    (left : transfer.server.phase.leftLoop = true) :
    IsVersion before path transfer.client.file ∧
      ∀ bytes action next, transferStep platform bytes action transfer = some next →
        next.client.file = transfer.client.file := by
  obtain ⟨source, coupled, moved⟩ := moves
  have measured : transfer.server.phase ≠ .accepting := by
    intro accepting
    rw [accepting] at left
    cases left
  obtain ⟨version, transferable, -⟩ := moved measured
  have whole := whole_of_coupled transferable coupled left
  refine ⟨whole ▸ version, fun bytes action next taken => ?_⟩
  rw [transferStep_of_leftLoop left bytes source] at taken
  rw [whole, whole_of_coupled transferable (coupled_step transferable.agree coupled taken)
    (leftLoop_step taken left)]

/-- A running receive whose file is not partial has all of it on the disk. -/
theorem whole_of_running {buffering : Buffering} {transfer : Transfer}
    (complete : (ReceivePhase.running transfer).isPartial buffering = false) :
    transfer.server.phase.leftLoop = true ∧
      buffering.stored transfer.client.file = transfer.client.file := by
  rw [ReceivePhase.isPartial, Bool.not_eq_false', Bool.and_eq_true] at complete
  exact ⟨complete.1, (buffering.flushed_iff _).mp complete.2⟩

theorem networkInv_transfer {platform : Platform} {buffering : Buffering}
    {before : N → WString → Option Bytes} {net next : Network N}
    (inv : NetworkInv platform buffering before net) {client : N} {action : TransferAction}
    (allowed : exclusive platform buffering net (.transfer client action))
    (taken : networkStep platform buffering (.transfer client action) net = some next) :
    NetworkInv platform buffering before next := by
  simp only [networkStep] at taken
  split at taken <;> try cases taken
  rename_i server path transfer found
  split at taken <;> try cases taken
  rename_i bytes content
  obtain ⟨after, moved, rfl⟩ := Option.map_eq_some_iff.mp taken
  obtain ⟨stored, moves⟩ := inv.receiving client _ found
  simp only at stored moves
  have movesAfter := moves_step inv found content allowed moved
  -- a file that is not partial is not written either
  have unwritten (complete : (ReceivePhase.running transfer).isPartial buffering = false) :
      net.disk client path = some (buffering.stored after.client.file) ∧
        (ReceivePhase.running after).isPartial buffering = false := by
    have left := (whole_of_running complete).1
    have kept := (written_of_leftLoop moves left).2 bytes action after moved
    refine ⟨by rw [kept]; exact stored, ?_⟩
    rw [ReceivePhase.isPartial, left, Bool.true_and] at complete
    rw [ReceivePhase.isPartial, leftLoop_step moved left, kept, Bool.true_and, complete]
  refine networkInv_store inv (.running after) found (fun _ => rfl) rfl rfl rfl
    ⟨setFile_self .., moves_of_unwritten found rfl rfl unwritten movesAfter⟩ ?_ ?_
  · exact fun other kept running _ _ movesOther =>
      moves_of_unwritten found rfl rfl unwritten movesOther
  · intro complete
    obtain ⟨left, all⟩ := whole_of_running complete
    rw [all]
    exact (written_of_leftLoop movesAfter left).1

theorem networkInv_finish {platform : Platform} {buffering : Buffering}
    {before : N → WString → Option Bytes} {net next : Network N}
    (inv : NetworkInv platform buffering before net) {client : N}
    (taken : networkStep platform buffering (.finish client) net = some next) :
    NetworkInv platform buffering before next := by
  simp only [networkStep] at taken
  split at taken <;> try cases taken
  rename_i server path transfer found
  split at taken <;> cases taken
  rename_i done
  have busy := inv.serving client _ found rfl
  obtain ⟨stored, moves⟩ := inv.receiving client _ found
  have left : transfer.server.phase.leftLoop = true := by
    obtain ⟨source, coupled, -⟩ := moves
    exact leftLoop_of_client coupled (Or.inr done)
  refine networkInv_of_receive inv (fun new has => ?_) (fun target => ?_)
    (serving_update inv (fun new has isOpen => ?_) fun other kept same busyOther => ?_)
  · cases has
    exact ⟨stored, (written_of_leftLoop moves left).1⟩
  · rw [partialAt_of_found found]
    simp [Receive.isPartial, ReceivePhase.isPartial, left]
  · cases has
    cases isOpen
  · have differ : kept.server ≠ server := by
      intro sameServer
      rw [sameServer] at busyOther
      cases busy.symm.trans busyOther
      exact same rfl
    exact (Function.update_of_ne differ ..).trans busyOther

theorem networkInv_close {platform : Platform} {buffering : Buffering}
    {before : N → WString → Option Bytes} {net next : Network N}
    (inv : NetworkInv platform buffering before net) {client : N}
    (taken : networkStep platform buffering (.close client) net = some next) :
    NetworkInv platform buffering before next := by
  simp only [networkStep] at taken
  split at taken <;> cases taken
  rename_i server path written found
  obtain ⟨stored, version⟩ := inv.receiving client _ found
  have unwritten (complete : (ReceivePhase.closing written).isPartial buffering = false) :
      net.disk client path = some written ∧ ReceivePhase.closed.isPartial buffering = false := by
    rw [ReceivePhase.isPartial, Bool.not_eq_false'] at complete
    rw [← (buffering.flushed_iff written).mp complete]
    exact ⟨stored, rfl⟩
  refine networkInv_store inv .closed found (fun isOpen => by cases isOpen) rfl rfl rfl
    ⟨written, setFile_self ..⟩ (fun other kept running _ _ movesOther => ?_) fun _ => version
  exact moves_of_unwritten found rfl rfl unwritten movesOther

theorem networkInv_leave {platform : Platform} {buffering : Buffering}
    {before : N → WString → Option Bytes} {net next : Network N}
    (inv : NetworkInv platform buffering before net) {client : N}
    (taken : networkStep platform buffering (.leave client) net = some next) :
    NetworkInv platform buffering before next := by
  simp only [networkStep] at taken
  split at taken <;> cases taken
  rename_i found
  refine networkInv_of_receive inv (fun new has => by cases has) (fun target => ?_)
    (serving_update inv (fun new has => by cases has) fun other kept _ busy => busy)
  rw [partialAt_of_found found]
  exact (isPartial_of_phase rfl).symm

omit [DecidableEq N] in
/-- A step of the handlers alone. -/
theorem networkInv_of_serving {platform : Platform} {buffering : Buffering}
    {before : N → WString → Option Bytes} {net : Network N}
    (inv : NetworkInv platform buffering before net) {serving : N → Serving N}
    (committed : ∀ client receive, net.receives client = some receive →
      receive.phase.open = true → serving receive.server = .busy client) :
    NetworkInv platform buffering before { net with serving } where
  serving := committed
  receiving := inv.receiving
  whole := inv.whole

theorem networkInv_sent {platform : Platform} {buffering : Buffering}
    {before : N → WString → Option Bytes} {net next : Network N}
    (inv : NetworkInv platform buffering before net) {server : N}
    (taken : networkStep platform buffering (.sent server) net = some next) :
    NetworkInv platform buffering before next := by
  simp only [networkStep] at taken
  split at taken <;> cases taken
  rename_i closing
  refine networkInv_of_serving inv fun other kept has isOpen => ?_
  have busy := inv.serving other kept has isOpen
  have differ : kept.server ≠ server := by
    intro same
    rw [same] at busy
    cases closing.symm.trans busy
  rw [Function.update_of_ne differ]
  exact busy

theorem networkInv_step {platform : Platform} {buffering : Buffering}
    {before : N → WString → Option Bytes} {net next : Network N} {action : NetworkAction N}
    (inv : NetworkInv platform buffering before net)
    (allowed : exclusive platform buffering net action)
    (taken : networkStep platform buffering action net = some next) :
    NetworkInv platform buffering before next := by
  cases action with
  | request => exact networkInv_request inv taken
  | reply => exact networkInv_reply inv taken
  | receiveReply => exact networkInv_receiveReply inv allowed taken
  | transfer => exact networkInv_transfer inv allowed taken
  | finish => exact networkInv_finish inv taken
  | close => exact networkInv_close inv taken
  | leave => exact networkInv_leave inv taken
  | sent => exact networkInv_sent inv taken

/-- In a run in which no file is measured while it is received (until all of it is on the disk),
    none is truncated while it is read, and only files of a transferable size are measured, what
    is stored with the end message is a version that some node held before the run. -/
theorem receives_store_versions {platform : Platform} {buffering : Buffering}
    {before : N → WString → Option Bytes} {actions : List (NetworkAction N)} {net : Network N}
    (run : Run (networkStep platform buffering) (exclusive platform buffering)
      (Network.start before) actions net) :
    StoresVersions before net := by
  have inv : NetworkInv platform buffering before net := run.invariant
    (fun _ _ _ inv allowed taken => networkInv_step inv allowed taken)
    (networkInv_start platform buffering before)
  constructor
  · intro client receive transfer found phase ended
    have receiving := inv.receiving client receive found
    rw [ReceiveInv, phase] at receiving
    obtain ⟨-, moves⟩ := receiving
    have left : transfer.server.phase.leftLoop = true := by
      obtain ⟨source, coupled, -⟩ := moves
      exact leftLoop_of_client coupled ended
    exact (written_of_leftLoop moves left).1
  · intro client receive found phase
    have receiving := inv.receiving client receive found
    rw [ReceiveInv, phase] at receiving
    obtain ⟨bytes, onDisk⟩ := receiving
    refine ⟨bytes, onDisk, inv.whole client receive.path bytes onDisk ?_⟩
    rw [partialAt_of_found found]
    exact isPartial_of_phase (by rw [phase]; rfl)

/-- The versions of `\a` that two nodes hold, if any. -/
def holdings (first second : Option Bytes) (node : Bool) (path : WString) : Option Bytes :=
  if path = wide "\\a" then if node then first else second else none

/-- The second node requests the file of the first one; all bytes stay in the buffer of its stream
    until it closes it. -/
theorem receives_store_versions_seven : ∃ net, StoresVersions (holdings (some [7]) none) net ∧
    net.disk false (wide "\\a") = some [7] := by
  have run : Run (networkStep .win32 (.blocks 4096)) (exclusive .win32 (.blocks 4096))
      (Network.start (holdings (some [7]) none))
      [.request false true (wide "\\a"), .reply false, .receiveReply false,
        .transfer false .connect, .transfer false .accept, .transfer false .test,
        .transfer false .send, .transfer false .receive, .transfer false .write,
        .transfer false .respond, .transfer false .receiveResponse, .transfer false .test,
        .transfer false .sendEnd, .transfer false .receive, .transfer false .respondEnd,
        .finish false, .close false] _ :=
    .cons trivial rfl (.cons trivial rfl (.cons rfl rfl (.cons trivial rfl
      (.cons ⟨rfl, fun _ found => by cases found; exact Or.inr ⟨rfl, Or.inl (by decide)⟩⟩ rfl
        (.cons trivial rfl (.cons trivial rfl (.cons trivial rfl (.cons trivial rfl
          (.cons trivial rfl (.cons trivial rfl (.cons trivial rfl (.cons trivial rfl
            (.cons trivial rfl (.cons trivial rfl (.cons trivial rfl
              (.cons trivial rfl (.nil _)))))))))))))))))
  exact ⟨_, receives_store_versions run, rfl⟩

/-- Two nodes request the version of the other one. Both truncate their file before either
    measures it, and the end message finds an empty file that neither node had. -/
theorem receives_truncated_by_both : ∃ actions net,
    Run (networkStep .win32 (.blocks 4096)) anyStep
      (Network.start (holdings (some [1]) (some [2]))) actions net ∧
      net.disk true (wide "\\a") = some [] ∧ net.disk false (wide "\\a") = some [] ∧
      ¬ StoresVersions (holdings (some [1]) (some [2])) net := by
  have run : Run (networkStep .win32 (.blocks 4096)) anyStep
      (Network.start (holdings (some [1]) (some [2])))
      [.request true false (wide "\\a"), .request false true (wide "\\a"), .reply true,
        .reply false, .receiveReply true, .receiveReply false, .transfer true .connect,
        .transfer true .accept, .transfer true .test, .transfer true .sendEnd,
        .transfer true .receive, .transfer true .respondEnd, .finish true, .close true] _ :=
    Run.of_exec rfl
  refine ⟨_, _, run, rfl, rfl, fun stores => ?_⟩
  obtain ⟨bytes, stored, holder, version⟩ := stores.closed true _ rfl rfl
  cases stored
  cases holder <;> cases version

end FileSync
