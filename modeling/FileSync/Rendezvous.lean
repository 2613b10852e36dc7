import FileSync.TransferSize
import Mathlib.Logic.Function.Basic

/-!
# Requests, replies and connections

The fetch of a file takes four meetings: the request gets to the server's handler, a reply gets
to the port that the client has bound for the call, the client connects to the sender's listener,
and the handler accepts a connection there. Only the request says which file is meant for sure.
The client takes path and sender from the first datagram that arrives, and neither the
connection nor the stream behind it carries a path. Datagrams may be late, out of order and
duplicated. All servers use the same TCP port.
-/

namespace FileSync

open TransitionSystem

/-- A pid-5 request. The number tells the calls of a client apart; no packet carries it. -/
structure Request (N : Type) where
  client : N
  id : Nat
  server : N
  filePath : WString

/-- `tcpDetails`, with the request that it answers. -/
structure TcpDetails (N : Type) where
  request : Request N
  abandon : Bool

/-- Where a call of `negotiateTCPTransfer` is. -/
inductive CallPhase (N : Type) where
  /-- Waiting for a datagram on the negotiation port. -/
  | requested
  /-- A reply without `abandon` was taken. -/
  | replied (sender : N) (filePath : WString)
  /-- The directories of the path exist and the file was truncated. -/
  | opened (sender : N) (filePath : WString)
  /-- In `receiveFile`, connected to the sender's listener. -/
  | connected (sender : N) (filePath : WString)
  /-- In `receiveFile` without a connection. -/
  | refused (sender : N) (filePath : WString)
  /-- In `receiveFile`, with the request for which the sender accepted the connection, what it
      has read for it and the state of the two loops. -/
  | running (filePath : WString) (request : Request N) (served : Bytes) (transfer : Transfer)

/-- A call of `negotiateTCPTransfer`. -/
structure Call (N : Type) where
  request : Request N
  phase : CallPhase N

/-- Where the handler thread is in case 5. -/
inductive Handler (N : Type) where
  | idle
  /-- The reply was sent. -/
  | replied (request : Request N)
  /-- The file was opened. -/
  | opened (request : Request N)
  | listening (request : Request N)
  | sending (request : Request N)
  /-- The client's empty packet is on its way. -/
  | closing

/-- The calls of all nodes, their handlers and listeners, and the datagrams between them. -/
structure Rendezvous (N : Type) where
  calls : N → Option (Call N)
  /-- How many calls each client has made. -/
  made : N → Nat
  /-- The requests and the replies that are on their way. -/
  requests : List (Request N)
  replies : List (TcpDetails N)
  handlers : N → Handler N
  /-- The connections that wait at the listener of a node, by the requests of their calls. -/
  listeners : N → Option (List (Request N))
  disk : N → WString → Option Bytes

/-- The steps of the calls and of the handlers, and what the network does to the replies. -/
inductive RendezvousAction (N : Type) where
  | request (client server : N) (filePath : WString)
  /-- The handler takes a request; `abandon` is what it finds out about the path. -/
  | handle (server : N) (i : Nat) (abandon : Bool)
  | openFile (server : N)
  | listen (server : N)
  | accept (server : N)
  /-- A datagram arrives at the port of a call. -/
  | receiveReply (client : N) (i : Nat)
  | duplicate (i : Nat)
  /-- The client creates the directories and truncates the file. -/
  | openTarget (client : N)
  | connect (client : N)
  /-- Either end of the client's transfer takes a step; `source` is what the file holds then. -/
  | transfer (client : N) (source : Bytes) (action : TransferAction)
  | finish (client : N)
  | close (server : N)

/-- The loops as they start on an accepted connection. -/
def Transfer.connected : Transfer :=
  { Transfer.start with client := { Transfer.start.client with phase := .receiving } }

variable {N : Type} [DecidableEq N]

/-- The state with one call replaced. -/
def Rendezvous.setCall (s : Rendezvous N) (client : N) (call : Option (Call N)) : Rendezvous N :=
  { s with calls := Function.update s.calls client call }

/-- The state with one handler replaced. -/
def Rendezvous.setHandler (s : Rendezvous N) (server : N) (handler : Handler N) : Rendezvous N :=
  { s with handlers := Function.update s.handlers server handler }

/-- The state with the connections at one listener replaced. -/
def Rendezvous.setListener (s : Rendezvous N) (server : N) (queue : List (Request N)) :
    Rendezvous N :=
  { s with listeners := Function.update s.listeners server (some queue) }

/-- The state with one file of a node replaced. -/
def Rendezvous.setFile (s : Rendezvous N) (node : N) (filePath : WString) (bytes : Bytes) :
    Rendezvous N :=
  { s with
    disk := Function.update s.disk node (Function.update (s.disk node) filePath (some bytes)) }

/-- One step of `negotiateTCPTransfer` (Node.cpp 299-336), of case 5 of `handleUdp` (236-275) with
    `startTcpServer` and `accept` (100-102, 109), or of the loops between them (108-183). `disk`
    has what the streams were given, whether they have flushed it or not. -/
def rendezvousStep (platform : Platform) :
    RendezvousAction N → Rendezvous N → Option (Rendezvous N)
  | .request client server filePath, s =>
    match s.calls client with
    | none =>
      let request : Request N := ⟨client, s.made client, server, filePath⟩
      some { (s.setCall client (some ⟨request, .requested⟩)) with
        made := Function.update s.made client (s.made client + 1)
        requests := s.requests ++ [request] }
    | some _ => none
  | .handle server i abandon, s =>
    match s.requests[i]?, s.handlers server with
    | some request, .idle =>
      if request.server = server then
        some { (s.setHandler server (if abandon then .idle else .replied request)) with
          requests := s.requests.eraseIdx i
          replies := s.replies ++ [⟨request, abandon⟩] }
      else none
    | _, _ => none
  | .openFile server, s =>
    match s.handlers server with
    | .replied request => some (s.setHandler server (.opened request))
    | _ => none
  | .listen server, s =>
    match s.handlers server with
    -- a listener that is open already is closed first
    | .opened request => some ((s.setHandler server (.listening request)).setListener server [])
    | _ => none
  | .accept server, s =>
    match s.handlers server, s.listeners server with
    | .listening request, some (connection :: queue) =>
      match s.calls connection.client with
      | some ⟨own, .connected _ filePath⟩ =>
        some (((s.setHandler server (.sending request)).setListener server queue).setCall
          connection.client (some ⟨own, .running filePath request [] Transfer.connected⟩))
      | _ => none
    | _, _ => none
  | .receiveReply client i, s =>
    match s.replies[i]?, s.calls client with
    | some ⟨request, abandon⟩, some ⟨own, .requested⟩ =>
      if request.client = client then
        some { (s.setCall client (if abandon then none
            else some ⟨own, .replied request.server request.filePath⟩)) with
          replies := s.replies.eraseIdx i }
      else none
    | _, _ => none
  | .duplicate i, s =>
    match s.replies[i]? with
    | some reply => some { s with replies := s.replies ++ [reply] }
    | none => none
  | .openTarget client, s =>
    match s.calls client with
    | some ⟨own, .replied sender filePath⟩ =>
      some ((s.setCall client (some ⟨own, .opened sender filePath⟩)).setFile client filePath [])
    | _ => none
  | .connect client, s =>
    match s.calls client with
    | some ⟨own, .opened sender filePath⟩ =>
      match s.listeners sender with
      | some queue =>
        some ((s.setCall client (some ⟨own, .connected sender filePath⟩)).setListener sender
          (queue ++ [own]))
      | none => some (s.setCall client (some ⟨own, .refused sender filePath⟩))
    | _ => none
  | .transfer client source action, s =>
    match s.calls client with
    | some ⟨own, .running filePath request served transfer⟩ =>
      (transferStep platform source action transfer).map fun next =>
        (s.setCall client (some ⟨own, .running filePath request
          (served ++ readBytes source transfer action) next⟩)).setFile client filePath
            next.client.file
    | _ => none
  | .finish client, s =>
    match s.calls client with
    | some ⟨_, .running _ request _ transfer⟩ =>
      match transfer.client.phase with
      | .done => some ((s.setCall client none).setHandler request.server .closing)
      | _ => none
    | _ => none
  | .close server, s =>
    match s.handlers server with
    | .closing => some (s.setHandler server .idle)
    | _ => none

/-- No file has been requested. -/
def Rendezvous.start (disk : N → WString → Option Bytes) : Rendezvous N :=
  { calls := fun _ => none
    made := fun _ => 0
    requests := []
    replies := []
    handlers := fun _ => .idle
    listeners := fun _ => none
    disk }

/-! ## What a step does -/

/-- The effect of each step, with what holds of the state before it. -/
inductive RendezvousEffect (platform : Platform) (s : Rendezvous N) :
    RendezvousAction N → Rendezvous N → Prop where
  | request {client server : N} {filePath : WString} (free : s.calls client = none) :
      RendezvousEffect platform s (.request client server filePath)
        { (s.setCall client (some ⟨⟨client, s.made client, server, filePath⟩, .requested⟩)) with
          made := Function.update s.made client (s.made client + 1)
          requests := s.requests ++ [⟨client, s.made client, server, filePath⟩] }
  | handle {request : Request N} {i : Nat} {abandon : Bool}
      (found : s.requests[i]? = some request) (idle : s.handlers request.server = .idle) :
      RendezvousEffect platform s (.handle request.server i abandon)
        { (s.setHandler request.server (if abandon then .idle else .replied request)) with
          requests := s.requests.eraseIdx i
          replies := s.replies ++ [⟨request, abandon⟩] }
  | openFile {server : N} {request : Request N} (replied : s.handlers server = .replied request) :
      RendezvousEffect platform s (.openFile server) (s.setHandler server (.opened request))
  | listen {server : N} {request : Request N} (opened : s.handlers server = .opened request) :
      RendezvousEffect platform s (.listen server)
        ((s.setHandler server (.listening request)).setListener server [])
  | accept {server sender : N} {request connection own : Request N} {queue : List (Request N)}
      {filePath : WString} (listening : s.handlers server = .listening request)
      (waiting : s.listeners server = some (connection :: queue))
      (connected : s.calls connection.client = some ⟨own, .connected sender filePath⟩) :
      RendezvousEffect platform s (.accept server)
        (((s.setHandler server (.sending request)).setListener server queue).setCall
          connection.client (some ⟨own, .running filePath request [] Transfer.connected⟩))
  | abandoned {request own : Request N} {i : Nat} (found : s.replies[i]? = some ⟨request, true⟩)
      (requested : s.calls request.client = some ⟨own, .requested⟩) :
      RendezvousEffect platform s (.receiveReply request.client i)
        { (s.setCall request.client none) with replies := s.replies.eraseIdx i }
  | replied {request own : Request N} {i : Nat} (found : s.replies[i]? = some ⟨request, false⟩)
      (requested : s.calls request.client = some ⟨own, .requested⟩) :
      RendezvousEffect platform s (.receiveReply request.client i)
        { (s.setCall request.client
            (some ⟨own, .replied request.server request.filePath⟩)) with
          replies := s.replies.eraseIdx i }
  | duplicate {i : Nat} {reply : TcpDetails N} (found : s.replies[i]? = some reply) :
      RendezvousEffect platform s (.duplicate i) { s with replies := s.replies ++ [reply] }
  | openTarget {client sender : N} {own : Request N} {filePath : WString}
      (replied : s.calls client = some ⟨own, .replied sender filePath⟩) :
      RendezvousEffect platform s (.openTarget client)
        ((s.setCall client (some ⟨own, .opened sender filePath⟩)).setFile client filePath [])
  | connect {client sender : N} {own : Request N} {filePath : WString} {queue : List (Request N)}
      (opened : s.calls client = some ⟨own, .opened sender filePath⟩)
      (listens : s.listeners sender = some queue) :
      RendezvousEffect platform s (.connect client)
        ((s.setCall client (some ⟨own, .connected sender filePath⟩)).setListener sender
          (queue ++ [own]))
  | refused {client sender : N} {own : Request N} {filePath : WString}
      (opened : s.calls client = some ⟨own, .opened sender filePath⟩)
      (closed : s.listeners sender = none) :
      RendezvousEffect platform s (.connect client)
        (s.setCall client (some ⟨own, .refused sender filePath⟩))
  | transfer {client : N} {own request : Request N} {filePath : WString} {served source : Bytes}
      {transfer next : Transfer} {action : TransferAction}
      (running : s.calls client = some ⟨own, .running filePath request served transfer⟩)
      (taken : transferStep platform source action transfer = some next) :
      RendezvousEffect platform s (.transfer client source action)
        ((s.setCall client (some ⟨own, .running filePath request
          (served ++ readBytes source transfer action) next⟩)).setFile client filePath
            next.client.file)
  | finish {client : N} {own request : Request N} {filePath : WString} {served : Bytes}
      {transfer : Transfer}
      (running : s.calls client = some ⟨own, .running filePath request served transfer⟩)
      (done : transfer.client.phase = .done) :
      RendezvousEffect platform s (.finish client)
        ((s.setCall client none).setHandler request.server .closing)
  | close {server : N} (closing : s.handlers server = .closing) :
      RendezvousEffect platform s (.close server) (s.setHandler server .idle)

theorem rendezvousEffect_of_step {platform : Platform} {action : RendezvousAction N}
    {s next : Rendezvous N} (taken : rendezvousStep platform action s = some next) :
    RendezvousEffect platform s action next := by
  cases action with
  | request client server filePath =>
    simp only [rendezvousStep] at taken
    split at taken <;> cases taken
    exact .request ‹_›
  | handle server i abandon =>
    simp only [rendezvousStep] at taken
    split at taken <;> try cases taken
    split at taken <;> cases taken
    rename_i found idle isServer
    subst isServer
    exact .handle found idle
  | openFile server =>
    simp only [rendezvousStep] at taken
    split at taken <;> cases taken
    exact .openFile ‹_›
  | listen server =>
    simp only [rendezvousStep] at taken
    split at taken <;> cases taken
    exact .listen ‹_›
  | accept server =>
    simp only [rendezvousStep] at taken
    split at taken <;> try cases taken
    split at taken <;> cases taken
    exact .accept ‹_› ‹_› ‹_›
  | receiveReply client i =>
    simp only [rendezvousStep] at taken
    split at taken <;> try cases taken
    rename_i request abandon own found requested
    split at taken <;> cases taken
    rename_i isClient
    subst isClient
    cases abandon with
    | true => exact .abandoned found requested
    | false => exact .replied found requested
  | duplicate i =>
    simp only [rendezvousStep] at taken
    split at taken <;> cases taken
    exact .duplicate ‹_›
  | openTarget client =>
    simp only [rendezvousStep] at taken
    split at taken <;> cases taken
    exact .openTarget ‹_›
  | connect client =>
    simp only [rendezvousStep] at taken
    split at taken <;> try cases taken
    rename_i opened
    split at taken <;> cases taken
    · exact .connect opened ‹_›
    · exact .refused opened ‹_›
  | transfer client source action =>
    simp only [rendezvousStep] at taken
    split at taken <;> try cases taken
    rename_i running
    obtain ⟨next, moved, rfl⟩ := Option.map_eq_some_iff.mp taken
    exact .transfer running moved
  | finish client =>
    simp only [rendezvousStep] at taken
    split at taken <;> try cases taken
    rename_i running
    split at taken <;> cases taken
    exact .finish running ‹_›
  | close server =>
    simp only [rendezvousStep] at taken
    split at taken <;> cases taken
    exact .close ‹_›

end FileSync
