import FileSync.NegotiationCalm

/-!
# Waiting for a reply

While the wait graph has no cycle, every node that waits for the reply to its request can
still get it: calm steps lead to the reply. Nodes whose handlers or collectors wait for each
other never get theirs, and the two nodes that handle each other's changes, or take each
other's arrival, come to wait so.
-/

namespace FileSync

open TransitionSystem WaitGraph
open scoped List

variable {N : Type} [DecidableEq N] {platform : Platform}

/-- Steps of threads and deliveries can still lead to the reply to the client's request. -/
def Answerable (platform : Platform) (net : N → Node N) (client : N) : Prop :=
  ∃ later t, Run (nodeStep platform) threadStep net later t ∧ (t client).replies ≠ []

/-! ## Nodes that wait for each other -/

/-- The lock, and whether the thread is in a call of `requestFiles`. -/
def Node.hold (thread : RequestingThread) (node : Node N) : Option (Negotiation N) × Bool :=
  (node.dirLock, (node.task thread).isSome)

/-- The handler, or the collector with no request of the nodes in the queue, waits for the
    reply of one of the nodes. -/
def Node.StuckOn (node : Node N) (nodes : Set N) : Prop :=
  node.replies = [] ∧ ∃ thread server fileChange, server ∈ nodes ∧
    node.hold thread = (some ⟨thread, server, fileChange, .waiting⟩, true) ∧
    (thread = .handler ∨ thread = .collector ∧
      ∀ client ∈ nodes, ∀ fileChange, .request client fileChange ∉ node.todoUdp)

/-- Each of the nodes waits for one of them. -/
def Deadlocked (net : N → Node N) (nodes : Set N) : Prop :=
  ∀ name ∈ nodes, (net name).StuckOn nodes

omit [DecidableEq N] in
theorem hold_setTask (node : Node N) (task : Option (Task N)) {thread other : RequestingThread}
    (apart : other ≠ thread) : (node.setTask task other).hold thread = node.hold thread := by
  rw [Node.hold, Node.hold, task_setTask, if_neg (Ne.symm apart)]
  cases other <;> cases task <;> rfl

theorem hold_modifyNode {net : N → Node N} {name other : N} {thread : RequestingThread}
    {f : Node N → Node N}
    (same : name = other → (f (net name)).hold thread = (net name).hold thread) :
    (modifyNode net other f name).hold thread = (net name).hold thread := by
  rw [modifyNode_apply]
  split
  · rename_i here
    exact same here
  · rfl

theorem hold_handleMessage {net : N → Node N} {name other : N} {datagram : Datagram N}
    {thread : RequestingThread} (idle : (net name).handler = .idle)
    (apart : thread = .handler → other ≠ name) :
    (handleMessage net name datagram other).hold thread = (net other).hold thread := by
  cases datagram with
  | arrival sender table => rfl
  | response sender table => exact modifyNode_keeps (Node.hold thread) (by intro; rfl) ..
  | request sender fileChange =>
    rw [Node.hold, Node.hold, handleMessage_task idle]
    rw [handleMessage_keeps Node.dirLock (fun _ _ => rfl) fun _ _ => rfl]
  | changes sender fileChanges =>
    rw [handleMessage, modifyNode_apply]
    split
    · rename_i here
      cases thread with
      | handler => exact absurd here (apart rfl)
      | _ => rfl
    · rfl

theorem hold_requestChange {net : N → Node N} {name other server : N}
    {thread acting : RequestingThread} {fileChange : FileChangeData} {rest : List FileChangeData}
    (elsewhere : name ≠ other) :
    (requestChange platform net other acting server fileChange rest name).hold thread =
      (net name).hold thread := by
  obtain ⟨path, hash, change⟩ := fileChange
  unfold requestChange
  cases change with
  | deletion =>
    dsimp only
    rw [modifyNode_of_ne elsewhere, modifyNode_of_ne elsewhere]
  | _ =>
    dsimp only
    split
    · rw [modifyNode_of_ne elsewhere]
    · refine (modifyNode_keeps (Node.hold thread) (by intro; rfl) ..).trans ?_
      rw [modifyNode_of_ne elsewhere, modifyNode_of_ne elsewhere]

/-- A thread that waits for a reply stays where it is until the reply comes. -/
theorem hold_step {net next : N → Node N} {action : NodeAction N} {name server : N}
    {thread : RequestingThread} {fileChange : FileChangeData}
    (taken : nodeStep platform action net = some next)
    (waits : (net name).hold thread = (some ⟨thread, server, fileChange, .waiting⟩, true))
    (silent : (net name).replies = []) : (next name).hold thread = (net name).hold thread := by
  have locked : (net name).dirLock = some ⟨thread, server, fileChange, .waiting⟩ :=
    congrArg Prod.fst waits
  have inCall : ((net name).task thread).isSome = true := congrArg Prod.snd waits
  cases nodeEffect_of_step taken with
  | edit other path content => exact modifyNode_keeps (Node.hold thread) (by intro; rfl) ..
  | scan free => exact modifyNode_keeps (Node.hold thread) (by intro; rfl) ..
  | drain idle free =>
    exact (broadcast_keeps (Node.hold thread) (fun _ _ => rfl) ..).trans
      (modifyNode_keeps (Node.hold thread) (by intro; rfl) ..)
  | announce announcing =>
    refine (broadcast_keeps (Node.hold thread) (fun _ _ => rfl) ..).trans
      (modifyNode_same (Node.hold thread) ?_ _)
    cases thread with
    | collector => simp only [Node.hold, Node.task, announcing]
    | _ => rfl
  | collectArrival hashes collecting found =>
    refine (hold_modifyNode fun here => ?_).trans
      ((modifyNode_keeps (Node.hold thread) (by intro; rfl) ..).trans
        (modifyNode_keeps (Node.hold thread) (by intro; rfl) ..))
    cases thread with
    | collector => simp [here, Node.task, collecting] at inCall
    | _ => rfl
  | collect collecting found => exact modifyNode_keeps (Node.hold thread) (by intro; rfl) ..
  | take idle =>
    refine hold_modifyNode fun here => ?_
    cases thread with
    | tableManager => simp [here, Node.task, idle] at inCall
    | _ => rfl
  | handle idle queue =>
    refine (hold_handleMessage ?_ ?_).trans
      (modifyNode_keeps (Node.hold thread) (by intro; rfl) ..)
    · rw [modifyNode_self, idle]
    · rintro rfl rfl
      simp [Node.task, idle] at inCall
  | nextChange found free =>
    refine hold_requestChange ?_
    rintro rfl
    simp [locked] at free
  | nextEnd found apart =>
    refine hold_modifyNode fun here => ?_
    exact hold_setTask _ _ (Ne.symm (apart _ (here ▸ locked)))
  | receiveReply waiting found =>
    refine hold_modifyNode fun here => ?_
    rw [← here, silent] at found
    cases found
  | finish bytes receiving serving =>
    refine (hold_modifyNode fun here => ?_).trans (hold_modifyNode fun here => ?_)
    · cases thread with
      | handler => simp [here, Node.task, serving] at inCall
      | _ => rfl
    · rw [← here, locked] at receiving
      cases receiving

/-- What is queued for the handler and on its way to the negotiation port. -/
def Node.mail (node : Node N) : List (Datagram N) × List (Reply N) := (node.todoUdp, node.replies)

omit [DecidableEq N] in
theorem mail_setTask (node : Node N) (task : Option (Task N)) (thread : RequestingThread) :
    (node.setTask task thread).mail = node.mail := by
  cases thread <;> cases task <;> rfl

theorem mail_requestChange (net : N → Node N) (name other server : N) (acting : RequestingThread)
    (fileChange : FileChangeData) (rest : List FileChangeData) :
    (requestChange platform net other acting server fileChange rest name).mail =
      (net name).mail := by
  have begun : (modifyNode net other (fun node => node.setTask (some ⟨server, rest⟩) acting)
      name).mail = (net name).mail :=
    modifyNode_keeps Node.mail (fun node => mail_setTask node _ _) ..
  obtain ⟨path, hash, change⟩ := fileChange
  unfold requestChange
  cases change with
  | deletion => exact (modifyNode_keeps Node.mail (by intro; rfl) ..).trans begun
  | _ =>
    dsimp only
    split
    · exact begun
    · exact (modifyNode_keeps Node.mail (by intro; rfl) ..).trans
        ((modifyNode_keeps Node.mail (by intro; rfl) ..).trans begun)

/-- Only the handling of a node's request brings it a reply, and only its collector adds to
    its queue. -/
theorem mail_step {net next : N → Node N} {action : NodeAction N} {name : N}
    (taken : nodeStep platform action net = some next) (silent : (net name).replies = []) :
    ((next name).replies = [] ∨ ∃ server fileChange rest, (net server).handler = .idle ∧
      (net server).todoUdp = .request name fileChange :: rest) ∧
    ((next name).todoUdp ⊆ (net name).todoUdp ∨ (net name).collector = .collecting) := by
  have unchanged : (next name).mail = (net name).mail →
      ((next name).replies = [] ∨ ∃ server fileChange rest, (net server).handler = .idle ∧
        (net server).todoUdp = .request name fileChange :: rest) ∧
      ((next name).todoUdp ⊆ (net name).todoUdp ∨ (net name).collector = .collecting) := by
    intro same
    have replies : (next name).replies = (net name).replies := congrArg Prod.snd same
    have queue : (next name).todoUdp = (net name).todoUdp := congrArg Prod.fst same
    exact ⟨Or.inl (replies.trans silent), Or.inl (queue ▸ List.Subset.refl _)⟩
  cases nodeEffect_of_step taken with
  | edit other path content => exact unchanged (modifyNode_keeps Node.mail (by intro; rfl) ..)
  | scan free => exact unchanged (modifyNode_keeps Node.mail (by intro; rfl) ..)
  | drain idle free =>
    exact unchanged ((broadcast_keeps Node.mail (fun _ _ => rfl) ..).trans
      (modifyNode_keeps Node.mail (by intro; rfl) ..))
  | announce announcing =>
    exact unchanged ((broadcast_keeps Node.mail (fun _ _ => rfl) ..).trans
      (modifyNode_keeps Node.mail (by intro; rfl) ..))
  | collectArrival hashes collecting found =>
    exact unchanged ((modifyNode_keeps Node.mail (by intro; rfl) ..).trans
      ((modifyNode_keeps Node.mail (by intro; rfl) ..).trans
        (modifyNode_keeps Node.mail (by intro; rfl) ..)))
  | @collect other _ _ collecting found =>
    refine ⟨Or.inl ((modifyNode_keeps Node.replies (by intro; rfl) ..).trans silent), ?_⟩
    by_cases here : name = other
    · exact Or.inr (here ▸ collecting)
    · rw [modifyNode_of_ne here]
      exact Or.inl (List.Subset.refl _)
  | take idle => exact unchanged (modifyNode_keeps Node.mail (by intro; rfl) ..)
  | @handle other datagram rest idle queue =>
    obtain ⟨popped, pop⟩ : ∃ popped : N → Node N,
      popped = modifyNode net other fun node => { node with todoUdp := rest } := ⟨_, rfl⟩
    have quiet : (popped name).replies = [] := by
      rw [pop]
      exact (modifyNode_keeps Node.replies (by intro; rfl) ..).trans silent
    have shorter : (popped name).todoUdp ⊆ (net name).todoUdp := by
      rw [pop, modifyNode_apply]
      split
      · rename_i here
        rw [here, queue]
        exact List.subset_cons_self ..
      · exact List.Subset.refl _
    rw [← pop]
    cases datagram with
    | arrival sender table => exact ⟨Or.inl quiet, Or.inl shorter⟩
    | request sender fileChange =>
      refine ⟨?_, Or.inl ?_⟩
      · rw [handleMessage_replies]
        split
        · rename_i asked
          exact Or.inr ⟨other, fileChange, rest, idle, asked ▸ queue⟩
        · exact Or.inl quiet
      · rw [handleMessage_keeps Node.todoUdp (fun _ _ => rfl) fun _ _ => rfl]
        exact shorter
    | _ =>
      rw [handleMessage]
      refine ⟨Or.inl ?_, Or.inl ?_⟩
      · exact (modifyNode_keeps Node.replies (by intro; rfl) ..).trans quiet
      · rw [modifyNode_keeps Node.todoUdp (by intro; rfl)]
        exact shorter
  | nextChange found free => exact unchanged (mail_requestChange ..)
  | nextEnd found apart =>
    exact unchanged (modifyNode_keeps Node.mail (fun node => mail_setTask node _ _) ..)
  | @receiveReply other _ _ _ _ _ waiting found =>
    have elsewhere : name ≠ other := by
      rintro rfl
      rw [silent] at found
      cases found
    rw [modifyNode_of_ne elsewhere]
    exact ⟨Or.inl silent, Or.inl (List.Subset.refl _)⟩
  | finish bytes receiving serving =>
    exact unchanged ((modifyNode_keeps Node.mail (by intro; rfl) ..).trans
      (modifyNode_keeps Node.mail (by intro; rfl) ..))

/-- Nodes that wait for each other go on waiting, whatever else happens. -/
theorem deadlocked_step {net next : N → Node N} {action : NodeAction N} {nodes : Set N}
    (staged : Staged net) (stuck : Deadlocked net nodes)
    (taken : nodeStep platform action net = some next) : Deadlocked next nodes := by
  intro name inside
  obtain ⟨silent, thread, server, fileChange, among, waits, kind⟩ := stuck name inside
  obtain ⟨replies, queue⟩ := mail_step taken silent
  refine ⟨?_, thread, server, fileChange, among, (hold_step taken waits silent).trans waits, ?_⟩
  · rcases replies with quiet | ⟨handling, about, rest, idle, handled⟩
    · exact quiet
    · -- The request is at the server, whose own thread is stuck.
      obtain ⟨stage, atStage⟩ := staged name
      have asked : about ∈ (net handling).requestsOf name := by
        refine (requestsOf_cons handled name).mem_iff.mpr ?_
        simp [Datagram.requestOf]
      have shown := atStage.lock
      have locked : (net name).dirLock = some ⟨thread, server, fileChange, .waiting⟩ :=
        congrArg Prod.fst waits
      rw [atStage.requested_of_mem asked, Node.lockedFor, locked] at shown
      have same : handling = server := by
        cases shown
        rfl
      subst same
      obtain ⟨_, other, _, _, _, held, main⟩ := stuck handling among
      have inCall : ((net handling).task other).isSome = true := congrArg Prod.snd held
      rcases main with rfl | ⟨rfl, unasked⟩
      · simp [Node.task, idle] at inCall
      · exact absurd (handled ▸ List.mem_cons_self) (unasked name inside about)
  · refine kind.imp_right ?_
    rintro ⟨collects, unasked⟩
    refine ⟨collects, ?_⟩
    intro client member about listed
    rcases queue with shorter | collecting
    · exact unasked client member about (shorter listed)
    · have inCall : ((net name).task thread).isSome = true := congrArg Prod.snd waits
      simp [collects, Node.task, collecting] at inCall

/-- No reply of nodes that wait for each other is ever sent. -/
theorem deadlocked_forever {net t : N → Node N} {nodes : Set N} (staged : Staged net)
    (stuck : Deadlocked net nodes) (reaches : Reaches (nodeStep platform) net t) {name : N}
    (inside : name ∈ nodes) : (t name).replies = [] := by
  have preserved : ∀ s action next, (Staged s ∧ Deadlocked s nodes) →
      nodeStep platform action s = some next → Staged next ∧ Deadlocked next nodes :=
    fun _ _ _ inv taken => ⟨staged_step inv.1 taken, deadlocked_step inv.1 inv.2 taken⟩
  exact ((reaches.invariant preserved ⟨staged, stuck⟩).2 name inside).1

/-! ## The replies that come and those that do not -/

/-- In every state of every run in which the wait graph has no cycle, steps of threads and
    deliveries can still lead to the reply that a node waits for. -/
theorem awaited_reply_comes [Fintype N] {folders : N → Folder} {actions : List (NodeAction N)}
    {net : N → Node N} (run : Run (nodeStep platform) anyStep
      (fun name => startNode platform (folders name)) actions net)
    (acyclic : Acyclic (Waits platform net)) {client server : N}
    (awaits : Awaits net client server) :
    Answerable platform net client := by
  obtain ⟨thread, fileChange, locked⟩ := awaits
  have progress : ∀ t, (Staged t ∧ Acyclic (Waits platform t) ∧
      (t client).dirLock = some ⟨thread, server, fileChange, .waiting⟩) →
      ¬ (t client).replies ≠ [] → ∃ action next, threadStep t action ∧
        nodeStep platform action t = some next ∧ (Staged next ∧ Acyclic (Waits platform next) ∧
          (next client).dirLock = some ⟨thread, server, fileChange, .waiting⟩) ∧
        netLoad next < netLoad t := by
    rintro t ⟨staged, acyclic, locked⟩ short
    have silent : (t client).replies = [] := not_not.mp short
    obtain ⟨action, next, calm⟩ := calm_exists staged acyclic ⟨thread, fileChange, locked⟩ silent
    exact ⟨action, next, calm.ofThread, calm.taken, ⟨staged_step staged calm.taken, calm.acyclic,
      calm.waiting client _ locked rfl silent⟩, calm.less⟩
  exact run_to_goal netLoad progress net ⟨staged_of_run run, acyclic, locked⟩

/-- One node has added a file, and the other asks for it. -/
theorem awaited_reply_comes_one : ∃ net : Bool → Node Bool,
    Run (nodeStep .win32) anyStep (fun _ => startNode .win32 ∅)
      [.edit false (wide "\\a") (some [1]), .scan false, .drain false, .announce true,
        .collect true 0, .handle true, .next true .handler] net ∧
      Awaits net true false ∧ Answerable .win32 net true := by
  have run : Run (nodeStep .win32) anyStep (fun _ : Bool => startNode .win32 ∅)
      [.edit false (wide "\\a") (some [1]), .scan false, .drain false, .announce true,
        .collect true 0, .handle true, .next true .handler] _ := Run.of_exec rfl
  suffices state : ∃ net, Run (nodeStep .win32) anyStep (fun _ : Bool => startNode .win32 ∅)
      [.edit false (wide "\\a") (some [1]), .scan false, .drain false, .announce true,
        .collect true 0, .handle true, .next true .handler] net ∧ Awaits net true false ∧
      Acyclic (Waits .win32 net) by
    obtain ⟨net, run, awaits, acyclic⟩ := state
    exact ⟨net, run, awaits, awaited_reply_comes run acyclic awaits⟩
  refine ⟨_, run, ⟨_, _, rfl⟩, acyclic_of_rank (fun vertex => if vertex.1 then 1 else 0) ?_⟩
  rintro ⟨name, client⟩ other edge
  cases name with
  | false =>
    cases edge with
    | lock locked => cases locked
    | change member => cases member
  | true =>
    cases edge with
    | lock locked =>
      cases locked
      exact Nat.zero_lt_one
    | change member listed =>
      cases member with
      | head => cases listed
      | tail _ member => cases member

/-- Two handlers process each other's changes at the same time, and two collectors each
    other's arrival: neither of the two nodes ever gets its reply. -/
theorem reply_never_comes :
    (∃ net : Bool → Node Bool, Run (nodeStep .win32) anyStep (fun _ => startNode .win32 ∅)
      [.announce false, .announce true, .edit false (wide "\\a") (some [1]),
        .edit true (wide "\\b") (some [2]), .scan false, .scan true, .drain false, .drain true,
        .collect false 1, .collect true 1, .handle false, .handle true,
        .next false .handler, .next true .handler] net ∧
      ∀ name, Awaits net name (!name) ∧ ¬ Answerable .win32 net name) ∧
    ∃ net : Bool → Node Bool, Run (nodeStep .win32) anyStep
      (fun name => startNode .win32
        (Folder.set ∅ (if name then wide "\\a" else wide "\\b") (some [1])))
      [.announce false, .announce true, .collect false 0, .collect true 0,
        .next false .collector, .next true .collector] net ∧
      ∀ name, Awaits net name (!name) ∧ ¬ Answerable .win32 net name := by
  have never {folders : Bool → Folder} {actions : List (NodeAction Bool)}
      {net : Bool → Node Bool} (run : Run (nodeStep .win32) anyStep
        (fun name => startNode .win32 (folders name)) actions net)
      (stuck : Deadlocked net Set.univ) (name : Bool) : ¬ Answerable .win32 net name := by
    rintro ⟨later, t, more, answered⟩
    exact answered (deadlocked_forever (staged_of_run run) stuck more.reaches trivial)
  constructor
  · have run : Run (nodeStep .win32) anyStep (fun _ : Bool => startNode .win32 ∅)
        [.announce false, .announce true, .edit false (wide "\\a") (some [1]),
          .edit true (wide "\\b") (some [2]), .scan false, .scan true, .drain false, .drain true,
          .collect false 1, .collect true 1, .handle false, .handle true,
          .next false .handler, .next true .handler] _ := Run.of_exec rfl
    refine ⟨_, run, fun name => ⟨?_, never run (fun name _ => ?_) name⟩⟩
    · cases name <;> exact ⟨_, _, rfl⟩
    · cases name <;> exact ⟨rfl, .handler, _, _, trivial, rfl, Or.inl rfl⟩
  · have run : Run (nodeStep .win32) anyStep (fun name : Bool => startNode .win32
        (Folder.set ∅ (if name then wide "\\a" else wide "\\b") (some [1])))
        [.announce false, .announce true, .collect false 0, .collect true 0,
          .next false .collector, .next true .collector] _ :=
      -- The loop of `dealWithHashTable` has to be unfolded.
      Run.of_exec (by with_unfolding_all rfl)
    refine ⟨_, run, fun name => ⟨?_, never run (fun name _ => ?_) name⟩⟩
    · cases name <;> with_unfolding_all exact ⟨_, _, rfl⟩
    · cases name <;> with_unfolding_all exact ⟨rfl, .collector, _, _, trivial, rfl,
        Or.inr ⟨rfl, fun _ _ _ listed => by cases listed⟩⟩

end FileSync
