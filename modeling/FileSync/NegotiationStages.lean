import FileSync.Negotiation
import Mathlib.Data.List.Perm.Basic

/-!
# The stages of a negotiation

A node's request is in one place at a time: on its way to the server or in its queue, then in
the reply, then in the transfer. The stage of a node says which, and what holds of the lock,
the queues, the replies and the handlers.
-/

namespace FileSync

open TransitionSystem
open scoped List

/-- How far the one request of a node has come. -/
inductive Stage (N : Type) where
  | free
  /-- The server has not handled the request. -/
  | requested (server : N) (fileChange : FileChangeData)
  /-- The reply that abandons the transfer is on its way. -/
  | refused (server : N) (fileChange : FileChangeData)
  /-- The reply is on its way, and the server waits for the client. -/
  | granted (server : N) (fileChange : FileChangeData)
  | receiving (server : N) (fileChange : FileChangeData)

variable {N : Type}

/-- What the lock is held for: the server, the change and whether the reply is awaited. -/
def Stage.lock : Stage N → Option (N × FileChangeData × Bool)
  | .free => none
  | .requested server fileChange => some (server, fileChange, true)
  | .refused server fileChange => some (server, fileChange, true)
  | .granted server fileChange => some (server, fileChange, true)
  | .receiving server fileChange => some (server, fileChange, false)

/-- The replies that are on their way to the node. -/
def Stage.replies : Stage N → List (Reply N)
  | .refused server fileChange => [⟨server, true, fileChange⟩]
  | .granted server fileChange => [⟨server, false, fileChange⟩]
  | _ => []

/-- The server whose handler is committed to the node. -/
def Stage.server : Stage N → Option N
  | .granted server _ => some server
  | .receiving server _ => some server
  | _ => none

/-! ## What a node shows of its negotiations -/

/-- The server and the change of a negotiation, and whether the reply is awaited. -/
def Negotiation.shown (negotiation : Negotiation N) : N × FileChangeData × Bool :=
  (negotiation.server, negotiation.fileChange,
    match negotiation.phase with | .waiting => true | .receiving => false)

/-- What the node's lock is held for. -/
def Node.lockedFor (node : Node N) : Option (N × FileChangeData × Bool) :=
  node.dirLock.map Negotiation.shown

/-- The client that the node's handler serves. -/
def Node.serves (node : Node N) : Option N :=
  match node.handler with
  | .serving client => some client
  | _ => none

variable [DecidableEq N]

/-- The changes of the requests that a name has not handled. -/
def Stage.asks : Stage N → N → List FileChangeData
  | .requested server fileChange, name => if server = name then [fileChange] else []
  | _, _ => []

/-- The change that the client requests with the datagram. -/
def Datagram.requestOf (client : N) : Datagram N → Option FileChangeData
  | .request sender fileChange => if sender = client then some fileChange else none
  | _ => none

/-- The requests of the client that the node has not handled. -/
def Node.requestsOf (node : Node N) (client : N) : List FileChangeData :=
  (node.inFlight ++ node.todoUdp).filterMap (Datagram.requestOf client)

/-- The lock and the replies of a client, its requests at all nodes and the handlers that serve it
    are as they are at a stage. -/
structure AtStage (net : N → Node N) (client : N) (stage : Stage N) : Prop where
  lock : (net client).lockedFor = stage.lock
  replies : (net client).replies = stage.replies
  requests : ∀ name, (net name).requestsOf client ~ stage.asks name
  serving : ∀ name, (net name).serves = some client ↔ stage.server = some name

/-- Every node is at some stage. -/
def Staged (net : N → Node N) : Prop := ∀ client, ∃ stage, AtStage net client stage

/-! ## The node that a step changes -/

theorem modifyNode_self (net : N → Node N) (name : N) (f : Node N → Node N) :
    modifyNode net name f name = f (net name) :=
  Function.update_self ..

theorem modifyNode_of_ne {net : N → Node N} {name other : N} (differ : other ≠ name)
    (f : Node N → Node N) : modifyNode net name f other = net other :=
  Function.update_of_ne differ ..

theorem modifyNode_apply (net : N → Node N) (name other : N) (f : Node N → Node N) :
    modifyNode net name f other = if other = name then f (net other) else net other := by
  by_cases same : other = name
  · subst same
    rw [modifyNode_self, if_pos rfl]
  · rw [modifyNode_of_ne same, if_neg same]

/-- What the step leaves alone at its node is left alone at every node. -/
theorem modifyNode_same {β : Type*} (view : Node N → β) {net : N → Node N} {name : N}
    {f : Node N → Node N} (same : view (f (net name)) = view (net name)) (other : N) :
    view (modifyNode net name f other) = view (net other) := by
  rw [modifyNode_apply]
  split
  · rename_i here
    rw [here, same]
  · rfl

theorem modifyNode_keeps {β : Type*} (view : Node N → β) {f : Node N → Node N}
    (keeps : ∀ node, view (f node) = view node) (net : N → Node N) (name other : N) :
    view (modifyNode net name f other) = view (net other) :=
  modifyNode_same view (keeps _) other

/-! ## Steps that change no stage -/

/-- Two states of a node show the same of its negotiations. -/
structure SameView (before after : Node N) : Prop where
  lock : after.dirLock = before.dirLock
  replies : after.replies = before.replies
  requests : ∀ client, after.requestsOf client ~ before.requestsOf client
  serves : after.serves = before.serves

theorem SameView.refl (node : Node N) : SameView node node := ⟨rfl, rfl, fun _ => .refl _, rfl⟩

theorem SameView.trans {first second third : Node N} (before : SameView first second)
    (after : SameView second third) : SameView first third where
  lock := after.lock.trans before.lock
  replies := after.replies.trans before.replies
  requests := fun client => (after.requests client).trans (before.requests client)
  serves := after.serves.trans before.serves

/-- A client keeps its stage when a step shows nothing to it. -/
theorem AtStage.of_same {net next : N → Node N} {client : N} {stage : Stage N}
    (atStage : AtStage net client stage)
    (lock : (next client).dirLock = (net client).dirLock)
    (replies : (next client).replies = (net client).replies)
    (requests : ∀ name, (next name).requestsOf client ~ (net name).requestsOf client)
    (serving : ∀ name, (next name).serves = some client ↔ (net name).serves = some client) :
    AtStage next client stage where
  lock := by rw [← atStage.lock, Node.lockedFor, Node.lockedFor, lock]
  replies := replies.trans atStage.replies
  requests := fun name => (requests name).trans (atStage.requests name)
  serving := fun name => (serving name).trans (atStage.serving name)

theorem staged_of_sameView {net next : N → Node N} (staged : Staged net)
    (same : ∀ name, SameView (net name) (next name)) : Staged next := by
  intro client
  obtain ⟨stage, atStage⟩ := staged client
  refine ⟨stage, atStage.of_same (same client).lock (same client).replies
    (fun name => (same name).requests client) fun name => ?_⟩
  rw [(same name).serves]

theorem sameView_modifyNode {net : N → Node N} {name : N} {f : Node N → Node N}
    (same : SameView (net name) (f (net name))) (other : N) :
    SameView (net other) (modifyNode net name f other) := by
  rw [modifyNode_apply]
  split
  · rename_i atName
    exact atName ▸ same
  · exact .refl _

theorem sameView_send {datagram : Datagram N} (node : Node N)
    (other : ∀ client, datagram.requestOf client = none) :
    SameView node (node.send datagram) := by
  refine ⟨rfl, rfl, fun client => ?_, rfl⟩
  simp [Node.send, Node.requestsOf, other client]

theorem sameView_broadcast {datagram : Datagram N}
    (other : ∀ client, datagram.requestOf client = none) (net : N → Node N) (name any : N) :
    SameView (net any) (broadcast net name datagram any) := by
  unfold broadcast
  split
  · exact .refl _
  · exact sameView_send _ other

/-- What the threads do with their tasks shows nothing, unless the handler was serving. -/
theorem sameView_setTask {node : Node N} {thread : RequestingThread} (task : Option (Task N))
    (unserving : thread = .handler → node.serves = none) :
    SameView node (node.setTask task thread) := by
  refine ⟨?_, ?_, fun client => ?_, ?_⟩
  · cases thread <;> cases task <;> rfl
  · cases thread <;> cases task <;> rfl
  · cases thread <;> cases task <;> exact .refl _
  · cases thread with
    | handler =>
      rw [unserving rfl]
      cases task <;> rfl
    | collector => cases task <;> rfl
    | tableManager => rfl

omit [DecidableEq N] in
theorem serves_of_task {node : Node N} {thread : RequestingThread} {task : Task N}
    (found : node.task thread = some task) (isHandler : thread = .handler) :
    node.serves = none := by
  subst isHandler
  unfold Node.task at found
  unfold Node.serves
  cases phase : node.handler with
  | requesting task => rfl
  | idle => rfl
  | serving client => simp [phase] at found

theorem staged_modifyNode {net : N → Node N} {name : N} {f : Node N → Node N}
    (staged : Staged net) (same : SameView (net name) (f (net name))) :
    Staged (modifyNode net name f) :=
  staged_of_sameView staged (sameView_modifyNode same)

theorem staged_broadcast {net : N → Node N} {datagram : Datagram N} (staged : Staged net)
    (other : ∀ client, datagram.requestOf client = none) (name : N) :
    Staged (broadcast net name datagram) :=
  staged_of_sameView staged (sameView_broadcast other net name)

theorem staged_start (platform : Platform) (folders : N → Folder) :
    Staged fun name => startNode platform (folders name) := by
  intro client
  exact ⟨.free, rfl, rfl, fun _ => .refl _,
    fun _ => by simp [startNode, Node.serves, Stage.server]⟩

/-! ## Handling a request -/

theorem AtStage.requested_of_mem {net : N → Node N} {client name : N} {stage : Stage N}
    {fileChange : FileChangeData} (atStage : AtStage net client stage)
    (asked : fileChange ∈ (net name).requestsOf client) :
    stage = .requested name fileChange := by
  have known := (atStage.requests name).mem_iff.mp asked
  cases stage with
  | requested server other =>
    by_cases here : server = name
    · simp only [Stage.asks, here, if_true, List.mem_singleton] at known
      rw [here, known]
    · simp [Stage.asks, here] at known
  | _ => simp [Stage.asks] at known

omit [DecidableEq N] in
/-- What a request being handled leaves alone: all but replies and handlers. -/
theorem handleMessage_keeps [DecidableEq N] {β : Type*} (view : Node N → β)
    (keepsReplies : ∀ node replies, view { node with replies := replies } = view node)
    (keepsHandler : ∀ node handler, view { node with handler := handler } = view node)
    (net : N → Node N) (name sender other : N) (fileChange : FileChangeData) :
    view (handleMessage net name (.request sender fileChange) other) = view (net other) := by
  unfold handleMessage
  dsimp only
  split
  · exact modifyNode_keeps view (fun node => keepsReplies node _) ..
  · rw [modifyNode_keeps view fun node => keepsHandler node _]
    exact modifyNode_keeps view (fun node => keepsReplies node _) ..

theorem handleMessage_replies (net : N → Node N) (name sender other : N)
    (fileChange : FileChangeData) :
    (handleMessage net name (.request sender fileChange) other).replies =
      if other = sender then (net other).replies ++
        [⟨name, !(net name).folder.contains fileChange.filePath, fileChange⟩]
      else (net other).replies := by
  unfold handleMessage
  dsimp only
  split
  · rw [modifyNode_apply]
    split <;> rfl
  · refine Eq.trans (modifyNode_keeps Node.replies (by intro; rfl) ..) ?_
    rw [modifyNode_apply]
    split <;> rfl

theorem handleMessage_serves (net : N → Node N) (name sender other : N)
    (fileChange : FileChangeData) :
    (handleMessage net name (.request sender fileChange) other).serves =
      if other = name ∧ (net name).folder.contains fileChange.filePath then some sender
      else (net other).serves := by
  unfold handleMessage
  dsimp only
  cases held : (net name).folder.contains fileChange.filePath with
  | false =>
    rw [if_pos (by rfl)]
    refine Eq.trans (modifyNode_keeps Node.serves (by intro; rfl) ..) ?_
    simp
  | true =>
    rw [if_neg (by simp), modifyNode_apply]
    by_cases here : other = name
    · simp [here, Node.serves]
    · simp only [here, if_false, false_and]
      exact modifyNode_keeps Node.serves (by intro; rfl) ..

/-- The requests of a node with the first datagram of its queue. -/
theorem requestsOf_cons {node : Node N} {datagram : Datagram N} {rest : List (Datagram N)}
    (queue : node.todoUdp = datagram :: rest) (client : N) :
    node.requestsOf client ~ (datagram.requestOf client).toList ++
      { node with todoUdp := rest }.requestsOf client := by
  have moved : node.inFlight ++ node.todoUdp ~ datagram :: (node.inFlight ++ rest) := by
    rw [queue]
    exact List.perm_middle
  refine (moved.filterMap _).trans ?_
  rw [List.filterMap_cons]
  cases datagram.requestOf client <;> exact .refl _

/-- A request that is answered leaves the queue for the reply. -/
theorem AtStage.answered {net next : N → Node N} {client name : N} {fileChange : FileChangeData}
    (atStage : AtStage net client (.requested name fileChange)) (abandon : Bool)
    (lock : (next client).dirLock = (net client).dirLock)
    (replies : (next client).replies = (net client).replies ++ [⟨name, abandon, fileChange⟩])
    (requests : ∀ other, (next other).requestsOf client ~ [])
    (serving : ∀ other, (next other).serves = some client ↔ other = name ∧ abandon = false) :
    ∃ stage, AtStage next client stage := by
  have locked : (next client).lockedFor = some (name, fileChange, true) := by
    rw [Node.lockedFor, lock]
    exact atStage.lock
  have answer : (next client).replies = [⟨name, abandon, fileChange⟩] := by
    rw [replies, atStage.replies]
    rfl
  cases abandon with
  | true =>
    refine ⟨.refused name fileChange, locked, answer, requests, fun other => ?_⟩
    rw [serving]
    simp [Stage.server]
  | false =>
    refine ⟨.granted name fileChange, locked, answer, requests, fun other => ?_⟩
    rw [serving, Stage.server]
    simp [eq_comm]

theorem staged_handleRequest {net : N → Node N} {name sender : N} {fileChange : FileChangeData}
    {rest : List (Datagram N)} (staged : Staged net) (idle : (net name).handler = .idle)
    (queue : (net name).todoUdp = .request sender fileChange :: rest) :
    Staged (handleMessage (modifyNode net name fun node => { node with todoUdp := rest }) name
      (.request sender fileChange)) := by
  have unserving : (net name).serves = none := by rw [Node.serves, idle]
  have requests : ∀ other client, (handleMessage
      (modifyNode net name fun node => { node with todoUdp := rest }) name
      (.request sender fileChange) other).requestsOf client =
      (modifyNode net name (fun node => { node with todoUdp := rest }) other).requestsOf client :=
    fun other client => handleMessage_keeps (fun node => node.requestsOf client)
      (fun _ _ => rfl) (fun _ _ => rfl) ..
  have lock : ∀ other, (handleMessage
      (modifyNode net name fun node => { node with todoUdp := rest }) name
      (.request sender fileChange) other).dirLock = (net other).dirLock := fun other =>
    (handleMessage_keeps Node.dirLock (fun _ _ => rfl) (fun _ _ => rfl) ..).trans
      (modifyNode_keeps Node.dirLock (by intro; rfl) ..)
  have replies : ∀ other,
      (modifyNode net name (fun node => { node with todoUdp := rest }) other).replies =
        (net other).replies := modifyNode_keeps Node.replies (by intro; rfl) net name
  have serves : ∀ other,
      (modifyNode net name (fun node => { node with todoUdp := rest }) other).serves =
        (net other).serves := modifyNode_keeps Node.serves (by intro; rfl) net name
  intro client
  obtain ⟨stage, atStage⟩ := staged client
  by_cases asking : client = sender
  · subst asking
    have asked : fileChange ∈ (net name).requestsOf client := by
      refine (requestsOf_cons queue client).mem_iff.mpr ?_
      simp [Datagram.requestOf]
    cases atStage.requested_of_mem asked
    refine atStage.answered (!(net name).folder.contains fileChange.filePath) (lock client) ?_
      (fun other => ?_) fun other => ?_
    · rw [handleMessage_replies, if_pos rfl, replies, modifyNode_self]
    · rw [requests, modifyNode_apply]
      have known := atStage.requests other
      split
      · rename_i here
        subst here
        have one := (requestsOf_cons queue client).symm.trans known
        simp only [Datagram.requestOf, Stage.asks, if_true, Option.toList_some] at one
        exact (List.perm_cons _).mp one
      · rename_i elsewhere
        rw [Stage.asks, if_neg (Ne.symm elsewhere)] at known
        exact known
    · rw [handleMessage_serves, serves, modifyNode_self]
      split
      · rename_i here
        simpa using here
      · rename_i refused
        refine ⟨fun serving => ?_, fun here => absurd ⟨here.1, by simpa using here.2⟩ refused⟩
        cases (atStage.serving other).mp serving
  · refine ⟨stage, atStage.of_same (lock client) ?_ (fun other => ?_) fun other => ?_⟩
    · rw [handleMessage_replies, if_neg asking, replies]
    · rw [requests, modifyNode_apply]
      split
      · rename_i here
        subst here
        have same := requestsOf_cons queue client
        rw [Datagram.requestOf, if_neg (Ne.symm asking)] at same
        exact same.symm
      · exact .refl _
    · rw [handleMessage_serves, serves]
      split
      · rename_i here
        rw [here.1, unserving]
        simpa using Ne.symm asking
      · rfl

/-! ## Sending a request, its reply and the transfer -/

theorem AtStage.free_of_lock {net : N → Node N} {client : N} {stage : Stage N}
    (atStage : AtStage net client stage) (free : (net client).dirLock = none) : stage = .free := by
  have shown := atStage.lock
  rw [Node.lockedFor, free] at shown
  cases stage with
  | free => rfl
  | _ => cases shown

/-- The stage of a node that takes the lock for a request. -/
theorem staged_requested {net next : N → Node N} {name : N} (thread : RequestingThread)
    (server : N) (fileChange : FileChangeData) (staged : Staged net)
    (free : (net name).dirLock = none)
    (lock : ∀ other, (next other).dirLock =
      if other = name then some ⟨thread, server, fileChange, .waiting⟩ else (net other).dirLock)
    (replies : ∀ other, (next other).replies = (net other).replies)
    (requests : ∀ other client, (next other).requestsOf client ~
      (if other = server ∧ client = name then [fileChange] else []) ++
        (net other).requestsOf client)
    (serves : ∀ other, (next other).serves = (net other).serves) : Staged next := by
  intro client
  obtain ⟨stage, atStage⟩ := staged client
  by_cases asking : client = name
  · subst asking
    cases atStage.free_of_lock free
    refine ⟨.requested server fileChange, ?_, ?_, fun other => ?_, fun other => ?_⟩
    · rw [Node.lockedFor, lock, if_pos rfl]
      rfl
    · rw [replies, atStage.replies]
      rfl
    · refine (requests other client).trans ?_
      have unasked := (atStage.requests other).eq_nil
      rw [unasked, List.append_nil, Stage.asks]
      by_cases here : other = server
      · rw [if_pos ⟨here, rfl⟩, if_pos here.symm]
      · rw [if_neg (fun both => here both.1), if_neg (Ne.symm here)]
    · rw [serves, atStage.serving]
      exact Iff.rfl
  · refine ⟨stage, atStage.of_same ?_ (replies client) (fun other => ?_) fun other => ?_⟩
    · rw [lock, if_neg asking]
    · refine (requests other client).trans ?_
      rw [if_neg fun both => asking both.2]
      exact .refl _
    · rw [serves]

theorem requestsOf_send (node : Node N) (name client : N) (fileChange : FileChangeData) :
    (node.send (.request name fileChange)).requestsOf client ~
      (if name = client then [fileChange] else []) ++ node.requestsOf client := by
  have moved : (node.inFlight ++ [.request name fileChange]) ++ node.todoUdp ~
      .request name fileChange :: (node.inFlight ++ node.todoUdp) := by
    rw [List.append_assoc]
    exact List.perm_middle
  refine (moved.filterMap _).trans ?_
  rw [List.filterMap_cons]
  by_cases same : name = client
  · simp only [Datagram.requestOf, same, if_true]
    exact .refl _
  · simp only [Datagram.requestOf, same, if_false]
    exact .refl _

theorem staged_requestChange {platform : Platform} {net : N → Node N} {name server : N}
    {thread : RequestingThread} {fileChange : FileChangeData} {rest : List FileChangeData}
    {task : Task N} (staged : Staged net) (found : (net name).task thread = some task)
    (free : (net name).dirLock = none) :
    Staged (requestChange platform net name thread server fileChange rest) := by
  have started : SameView (net name) ((net name).setTask (some ⟨server, rest⟩) thread) :=
    sameView_setTask _ (serves_of_task found)
  have begun := staged_modifyNode (f := fun node => node.setTask (some ⟨server, rest⟩) thread)
    staged started
  have still : (modifyNode net name (fun node => node.setTask (some ⟨server, rest⟩) thread)
      name).dirLock = none := by
    rw [modifyNode_self, started.lock, free]
  unfold requestChange
  dsimp only
  split
  · exact staged_modifyNode begun ⟨rfl, rfl, fun _ => .refl _, rfl⟩
  · split
    · exact begun
    · refine staged_requested thread server fileChange begun still (fun other => ?_)
        (fun other => ?_) (fun other client => ?_) fun other => ?_
      · exact (modifyNode_keeps Node.dirLock (by intro; rfl) ..).trans (by
          rw [modifyNode_apply]
          split <;> rfl)
      · exact (modifyNode_keeps Node.replies (by intro; rfl) ..).trans
          (modifyNode_keeps Node.replies (by intro; rfl) ..)
      · rw [modifyNode_apply]
        have keeps := modifyNode_keeps (fun node => node.requestsOf client)
          (f := fun node => { node with dirLock := some ⟨thread, server, fileChange, .waiting⟩ })
          (fun _ => rfl) (modifyNode net name fun node =>
            node.setTask (some ⟨server, rest⟩) thread) name other
        rw [← keeps]
        split
        · rename_i here
          refine (requestsOf_send ..).trans ?_
          simp only [here, true_and, eq_comm (a := name)]
          exact .refl _
        · rename_i elsewhere
          rw [if_neg fun both => elsewhere both.1]
          exact .refl _
      · exact (modifyNode_keeps Node.serves (by intro; rfl) ..).trans
          (modifyNode_keeps Node.serves (by intro; rfl) ..)

/-- The reply comes from the server that was asked, and about the same change. -/
theorem AtStage.of_reply {net : N → Node N} {client : N} {stage : Stage N} {reply : Reply N}
    {others : List (Reply N)} (atStage : AtStage net client stage)
    (found : (net client).replies = reply :: others) : others = [] ∧
      stage = if reply.abandon then .refused reply.sender reply.fileChange
        else .granted reply.sender reply.fileChange := by
  have shown := atStage.replies
  rw [found] at shown
  cases stage with
  | refused server fileChange =>
    cases shown
    exact ⟨rfl, rfl⟩
  | granted server fileChange =>
    cases shown
    exact ⟨rfl, rfl⟩
  | _ => cases shown

theorem staged_receiveReply {net next : N → Node N} {name : N} {thread : RequestingThread}
    {reply : Reply N} {others : List (Reply N)} (staged : Staged net)
    (found : (net name).replies = reply :: others)
    (step : next = modifyNode net name fun node => { node with
      replies := others
      dirLock := if reply.abandon then none
        else some ⟨thread, reply.sender, reply.fileChange, .receiving⟩ }) :
    Staged next := by
  have requests : ∀ client other,
      (next other).requestsOf client = (net other).requestsOf client := by
    intro client other
    rw [step]
    exact modifyNode_keeps (fun node => node.requestsOf client) (by intro; rfl) ..
  have serves : ∀ other, (next other).serves = (net other).serves := by
    intro other
    rw [step]
    exact modifyNode_keeps Node.serves (by intro; rfl) ..
  intro client
  obtain ⟨stage, atStage⟩ := staged client
  by_cases here : client = name
  · subst here
    obtain ⟨last, known⟩ := atStage.of_reply found
    have lock : (next client).dirLock = if reply.abandon then none
        else some ⟨thread, reply.sender, reply.fileChange, .receiving⟩ := by
      rw [step, modifyNode_self]
    have replies : (next client).replies = [] := by
      rw [step, modifyNode_self, ← last]
    cases abandoned : reply.abandon with
    | true =>
      rw [abandoned, if_pos rfl] at known lock
      subst known
      refine ⟨.free, ?_, replies, fun other => ?_, fun other => ?_⟩
      · rw [Node.lockedFor, lock]
        rfl
      · rw [requests]
        exact atStage.requests other
      · rw [serves]
        exact atStage.serving other
    | false =>
      rw [abandoned, if_neg Bool.false_ne_true] at known lock
      subst known
      refine ⟨.receiving reply.sender reply.fileChange, ?_, replies, fun other => ?_,
        fun other => ?_⟩
      · rw [Node.lockedFor, lock]
        rfl
      · rw [requests]
        exact atStage.requests other
      · rw [serves]
        exact atStage.serving other
  · refine ⟨stage, atStage.of_same ?_ ?_ (fun other => ?_) fun other => ?_⟩
    · rw [step, modifyNode_of_ne here]
    · rw [step, modifyNode_of_ne here]
    · rw [requests]
    · rw [serves]

theorem AtStage.of_receiving {net : N → Node N} {client server : N} {stage : Stage N}
    {thread : RequestingThread} {fileChange : FileChangeData} (atStage : AtStage net client stage)
    (receiving : (net client).dirLock = some ⟨thread, server, fileChange, .receiving⟩) :
    stage = .receiving server fileChange := by
  have shown := atStage.lock
  rw [Node.lockedFor, receiving] at shown
  cases stage with
  | receiving server fileChange =>
    cases shown
    rfl
  | _ => cases shown

/-- The end of a transfer: the client has the lock back, and the server its handler. -/
theorem staged_finish {net next : N → Node N} {name server : N} {thread : RequestingThread}
    {fileChange : FileChangeData} (staged : Staged net)
    (receiving : (net name).dirLock = some ⟨thread, server, fileChange, .receiving⟩)
    (serving : (net server).handler = .serving name)
    (lock : ∀ other, (next other).dirLock = if other = name then none else (net other).dirLock)
    (replies : ∀ other, (next other).replies = (net other).replies)
    (requests : ∀ other client, (next other).requestsOf client = (net other).requestsOf client)
    (serves : ∀ other, (next other).serves = if other = server then none else (net other).serves) :
    Staged next := by
  have served : (net server).serves = some name := by rw [Node.serves, serving]
  intro client
  obtain ⟨stage, atStage⟩ := staged client
  by_cases here : client = name
  · subst here
    cases atStage.of_receiving receiving
    refine ⟨.free, ?_, ?_, fun other => ?_, fun other => ?_⟩
    · rw [Node.lockedFor, lock, if_pos rfl]
      rfl
    · rw [replies]
      exact atStage.replies
    · rw [requests]
      exact atStage.requests other
    · rw [serves]
      split
      · simp [Stage.server]
      · rename_i elsewhere
        rw [atStage.serving]
        simp [Stage.server, Ne.symm elsewhere]
  · refine ⟨stage, atStage.of_same ?_ (replies client) (fun other => ?_) fun other => ?_⟩
    · rw [lock, if_neg here]
    · rw [requests]
    · rw [serves]
      split
      · rename_i same
        subst same
        rw [served]
        simp [Ne.symm here]
      · rfl

/-! ## Every step -/

omit [DecidableEq N] in
theorem perm_eraseIdx {datagrams : List (Datagram N)} {index : Nat} {datagram : Datagram N}
    (found : datagrams[index]? = some datagram) :
    datagram :: datagrams.eraseIdx index ~ datagrams := by
  obtain ⟨within, here⟩ := List.getElem?_eq_some_iff.mp found
  rw [← here]
  exact List.getElem_cons_eraseIdx_perm within

/-- A datagram that is not a request may leave the network. -/
theorem sameView_collected {node : Node N} {index : Nat} {datagram : Datagram N}
    (found : node.inFlight[index]? = some datagram)
    (other : ∀ client, datagram.requestOf client = none) :
    SameView node { node with inFlight := node.inFlight.eraseIdx index } := by
  refine ⟨rfl, rfl, fun client => ?_, rfl⟩
  have moved := ((perm_eraseIdx found).append_right node.todoUdp).filterMap
    (Datagram.requestOf client)
  rw [List.cons_append, List.filterMap_cons, other client] at moved
  exact moved

theorem sameView_queued {node : Node N} {index : Nat} {datagram : Datagram N}
    (found : node.inFlight[index]? = some datagram) :
    SameView node { node with
      inFlight := node.inFlight.eraseIdx index, todoUdp := node.todoUdp ++ [datagram] } := by
  refine ⟨rfl, rfl, fun client => List.Perm.filterMap _ ?_, rfl⟩
  dsimp only
  rw [← List.append_assoc]
  refine (List.perm_append_singleton ..).trans ?_
  exact (perm_eraseIdx found).append_right node.todoUdp

theorem sameView_popped {node : Node N} {datagram : Datagram N} {rest : List (Datagram N)}
    (queue : node.todoUdp = datagram :: rest)
    (other : ∀ client, datagram.requestOf client = none) :
    SameView node { node with todoUdp := rest } := by
  refine ⟨rfl, rfl, fun client => ?_, rfl⟩
  have moved := requestsOf_cons queue client
  rw [other client] at moved
  exact moved.symm

theorem staged_handle {net : N → Node N} {name : N} {datagram : Datagram N}
    {rest : List (Datagram N)} (staged : Staged net) (idle : (net name).handler = .idle)
    (queue : (net name).todoUdp = datagram :: rest) :
    Staged (handleMessage (modifyNode net name fun node => { node with todoUdp := rest }) name
      datagram) := by
  have popped : (∀ client, datagram.requestOf client = none) →
      Staged (modifyNode net name fun node => { node with todoUdp := rest }) := fun other =>
    staged_modifyNode (f := fun node => { node with todoUdp := rest }) staged
      (sameView_popped queue other)
  cases datagram with
  | request sender fileChange => exact staged_handleRequest staged idle queue
  | arrival sender table => exact popped fun _ => rfl
  | response sender table =>
    rw [handleMessage]
    exact staged_modifyNode (popped fun _ => rfl) ⟨rfl, rfl, fun _ => .refl _, rfl⟩
  | changes sender fileChanges =>
    rw [handleMessage]
    refine staged_modifyNode (popped fun _ => rfl) ⟨rfl, rfl, fun _ => .refl _, ?_⟩
    rw [modifyNode_self, Node.serves, Node.serves, idle]

theorem staged_step {platform : Platform} {net next : N → Node N} {action : NodeAction N}
    (staged : Staged net) (taken : nodeStep platform action net = some next) : Staged next := by
  cases nodeEffect_of_step taken with
  | edit name path content =>
    exact staged_modifyNode staged ⟨rfl, rfl, fun _ => .refl _, rfl⟩
  | scan free => exact staged_modifyNode staged ⟨rfl, rfl, fun _ => .refl _, rfl⟩
  | drain idle free =>
    refine staged_broadcast ?_ (fun _ => rfl) _
    exact staged_modifyNode staged ⟨rfl, rfl, fun _ => .refl _, rfl⟩
  | announce announcing =>
    refine staged_broadcast ?_ (fun _ => rfl) _
    exact staged_modifyNode staged ⟨rfl, rfl, fun _ => .refl _, rfl⟩
  | @collectArrival name index sender table hashes collecting found =>
    have left := staged_modifyNode
      (f := fun node => { node with inFlight := node.inFlight.eraseIdx index }) staged
      (sameView_collected found fun _ => rfl)
    refine staged_modifyNode (staged_modifyNode left ?_) ⟨rfl, rfl, fun _ => .refl _, rfl⟩
    exact sameView_send _ fun _ => rfl
  | collect collecting found => exact staged_modifyNode staged (sameView_queued found)
  | take idle => exact staged_modifyNode staged ⟨rfl, rfl, fun _ => .refl _, rfl⟩
  | handle idle queue => exact staged_handle staged idle queue
  | nextChange found free => exact staged_requestChange staged found free
  | nextEnd found _ => exact staged_modifyNode staged (sameView_setTask _ (serves_of_task found))
  | receiveReply locked found => exact staged_receiveReply staged found rfl
  | finish bytes receiving serving =>
    refine staged_finish staged receiving serving (fun other => ?_) (fun other => ?_)
      (fun other asked => ?_) fun other => ?_
    · refine (modifyNode_keeps Node.dirLock (by intro; rfl) ..).trans ?_
      rw [modifyNode_apply]
      split <;> rfl
    · exact (modifyNode_keeps Node.replies (by intro; rfl) ..).trans
        (modifyNode_keeps Node.replies (by intro; rfl) ..)
    · exact (modifyNode_keeps (fun node => node.requestsOf asked) (by intro; rfl) ..).trans
        (modifyNode_keeps (fun node => node.requestsOf asked) (by intro; rfl) ..)
    · rw [modifyNode_apply]
      split
      · rfl
      · exact modifyNode_keeps Node.serves (by intro; rfl) ..

/-- Every node is at a stage of its own in every state that can be reached. -/
theorem staged_of_run {platform : Platform} {folders : N → Folder} {net : N → Node N}
    {actions : List (NodeAction N)} (run : Run (nodeStep platform) anyStep
      (fun name => startNode platform (folders name)) actions net) : Staged net :=
  run.invariant (fun _ _ _ staged _ taken => staged_step staged taken)
    (staged_start platform folders)

end FileSync
