import FileSync.NegotiationWaits
import Mathlib.Algebra.BigOperators.Ring.Finset
import Mathlib.Data.Fintype.Option
import Mathlib.Data.Fintype.Prod

/-!
# Calm steps

Steps of threads that lower the work that is left and close no cycle of the wait graph. While
a node waits for a reply and the graph has no cycle, there is such a step.
-/

namespace FileSync

open TransitionSystem WaitGraph
open scoped List

variable {N : Type}

/-- The steps of threads and the deliveries, which are all but the local changes of files. -/
def threadStep (_ : N → Node N) : NodeAction N → Prop
  | .edit .. => False
  | _ => True

/-! ## The work that is left -/

/-- The steps that a call of `requestFiles` may still cost. -/
def taskLoad : Option (Task N) → Nat
  | some task => 10 * task.fileChanges.length + 1
  | none => 0

/-- The steps until `dirLock` is released. -/
def lockLoad : Option (Negotiation N) → Nat
  | some ⟨_, _, _, .waiting⟩ => 6
  | some ⟨_, _, _, .receiving⟩ => 4
  | none => 0

/-- The step of the announcement. -/
def CollectorState.load : CollectorState N → Nat
  | .announcing => 1
  | _ => 0

/-- The steps that a datagram on its way may still cost. -/
def Datagram.flightLoad : Datagram N → Nat
  | .request .. => 3
  | _ => 0

/-- The steps that a queued datagram may still cost. -/
def Datagram.queueLoad : Datagram N → Nat
  | .request .. => 2
  | .changes _ fileChanges => 10 * fileChanges.length + 2
  | _ => 1

/-- The steps that a node may still cost. -/
def Node.load (node : Node N) : Nat :=
  node.collector.load + taskLoad (node.task .collector) + taskLoad (node.task .handler) +
    lockLoad node.dirLock + (node.inFlight.map Datagram.flightLoad).sum +
    (node.todoUdp.map Datagram.queueLoad).sum

/-- The steps that all nodes may still cost. -/
def netLoad [Fintype N] (net : N → Node N) : Nat := ∑ name, (net name).load

variable [DecidableEq N]

theorem netLoad_modifyNode [Fintype N] (net : N → Node N) (name : N) (f : Node N → Node N) :
    netLoad (modifyNode net name f) + (net name).load = netLoad net + (f (net name)).load := by
  have others : ∑ other ∈ Finset.univ.erase name, (modifyNode net name f other).load =
      ∑ other ∈ Finset.univ.erase name, (net other).load := by
    refine Finset.sum_congr rfl fun other member => ?_
    rw [modifyNode_of_ne (Finset.ne_of_mem_erase member)]
  have after := Finset.add_sum_erase Finset.univ
    (fun other => (modifyNode net name f other).load) (Finset.mem_univ name)
  have before := Finset.add_sum_erase Finset.univ
    (fun other => (net other).load) (Finset.mem_univ name)
  simp only [modifyNode_self] at after
  rw [netLoad, netLoad]
  omega

theorem netLoad_lt [Fintype N] {net : N → Node N} {name : N} {f : Node N → Node N}
    (less : (f (net name)).load < (net name).load) :
    netLoad (modifyNode net name f) < netLoad net := by
  have total := netLoad_modifyNode net name f
  omega

theorem netLoad_eq [Fintype N] {net : N → Node N} {name : N} {f : Node N → Node N}
    (same : (f (net name)).load = (net name).load) :
    netLoad (modifyNode net name f) = netLoad net := by
  have total := netLoad_modifyNode net name f
  omega

/-! ## Calm steps -/

variable {platform : Platform} [Fintype N]

/-- A step of a thread that lowers the load, closes no cycle, and leaves alone the locks of
    the nodes that wait and have no reply. -/
structure Calm (platform : Platform) (net : N → Node N) (action : NodeAction N)
    (next : N → Node N) : Prop where
  ofThread : threadStep net action
  taken : nodeStep platform action net = some next
  acyclic : Acyclic (Waits platform next)
  less : netLoad next < netLoad net
  waiting : ∀ name negotiation, (net name).dirLock = some negotiation →
    negotiation.phase = .waiting → (net name).replies = [] →
    (next name).dirLock = some negotiation

omit [Fintype N] in
theorem mem_ahead {node : Node N} {client : Option N} {task : Task N} :
    task ∈ node.ahead client ↔ node.task .collector = some task ∨
      node.task .handler = some task ∨ task ∈ node.queuedBefore client := by
  simp [Node.ahead]

omit [Fintype N] in
theorem mem_ahead_of_task {node : Node N} {thread : RequestingThread} {task : Task N}
    (found : node.task thread = some task) (main : thread ≠ .tableManager) (client : Option N) :
    task ∈ node.ahead client := by
  rw [mem_ahead]
  cases thread with
  | collector => exact Or.inl found
  | handler => exact Or.inr (Or.inl found)
  | tableManager => exact absurd rfl main

omit [Fintype N] [DecidableEq N] in
theorem task_setTask (node : Node N) (next : Option (Task N)) (thread other : RequestingThread) :
    (node.setTask next thread).task other = if other = thread then next else node.task other := by
  cases thread <;> cases next <;> cases other <;> rfl

omit [Fintype N] in
theorem mem_ahead_setTask {node : Node N} {thread : RequestingThread} {next : Option (Task N)}
    {client : Option N} {task : Task N} (member : task ∈ (node.setTask next thread).ahead client) :
    task ∈ node.ahead client ∨ next = some task := by
  have queued : (node.setTask next thread).queuedBefore client = node.queuedBefore client := by
    cases thread <;> cases next <;> rfl
  rw [mem_ahead, task_setTask, task_setTask, queued] at member
  rw [mem_ahead]
  split at member <;> split at member <;> tauto

omit [Fintype N] in
theorem broadcast_keeps {β : Type*} (view : Node N → β)
    (keeps : ∀ node datagram, view (Node.send node datagram) = view node) (net : N → Node N)
    (name other : N) (datagram : Datagram N) :
    view (broadcast net name datagram other) = view (net other) := by
  unfold broadcast
  split
  · rfl
  · exact keeps ..

omit [Fintype N] [DecidableEq N] in
theorem load_send (node : Node N) (datagram : Datagram N) :
    (node.send datagram).load = node.load + datagram.flightLoad := by
  simp only [Node.load, Node.send, Node.task, List.map_append, List.sum_append, List.map_cons,
    List.map_nil, List.sum_cons, List.sum_nil]
  omega

theorem netLoad_broadcast (net : N → Node N) (name : N) {datagram : Datagram N}
    (light : datagram.flightLoad = 0) : netLoad (broadcast net name datagram) = netLoad net := by
  refine Finset.sum_congr rfl fun other _ => ?_
  unfold broadcast
  split
  · rfl
  · rw [load_send, light]
    rfl

theorem Calm.of_relaxes {net next : N → Node N} {action : NodeAction N}
    (acyclic : Acyclic (Waits platform net)) (ofThread : threadStep net action)
    (taken : nodeStep platform action net = some next)
    (relaxes : ∀ name, Relaxes platform (net name) (next name))
    (locks : ∀ name, (next name).dirLock = (net name).dirLock)
    (less : netLoad next < netLoad net) : Calm platform net action next where
  ofThread := ofThread
  taken := taken
  acyclic := acyclic_of_relaxes acyclic relaxes
  less := less
  waiting := fun name _ locked _ _ => (locks name).trans locked

/-- A step of one node that keeps its lock. -/
theorem calm_modifyNode {net : N → Node N} {name : N} {action : NodeAction N}
    {f : Node N → Node N} (acyclic : Acyclic (Waits platform net))
    (ofThread : threadStep net action)
    (taken : nodeStep platform action net = some (modifyNode net name f))
    (relaxes : Relaxes platform (net name) (f (net name)))
    (lock : (f (net name)).dirLock = (net name).dirLock)
    (less : (f (net name)).load < (net name).load) :
    Calm platform net action (modifyNode net name f) := by
  refine .of_relaxes acyclic ofThread taken (relaxes_modifyNode relaxes) (fun other => ?_) ?_
  · rw [modifyNode_apply]
    split
    · rename_i here
      rw [here, lock]
    · rfl
  · exact netLoad_lt less

theorem calm_announce {net : N → Node N} {name : N} (acyclic : Acyclic (Waits platform net))
    (announcing : (net name).collector = .announcing) :
    ∃ next, Calm platform net (.announce name) next := by
  have taken : nodeStep platform (.announce name) net = some (broadcast (modifyNode net name
      fun node => { node with collector := .collecting }) name
      (.arrival name (modifyNode net name
        (fun node => { node with collector := .collecting }) name).fileHashes)) := by
    simp only [nodeStep, announcing]
  have relaxes : ∀ other, Relaxes platform (net other)
      (modifyNode net name (fun node => { node with collector := .collecting }) other) :=
    relaxes_modifyNode (.of_same rfl rfl id fun client => by
      simp only [Node.ahead, Node.task, Node.queuedBefore, announcing])
  refine ⟨_, .of_relaxes acyclic trivial taken (fun other => ?_) (fun other => ?_) ?_⟩
  · exact (relaxes other).trans (relaxes_broadcast ..)
  · refine (broadcast_keeps Node.dirLock (fun _ _ => rfl) ..).trans ?_
    exact modifyNode_keeps Node.dirLock (by intro; rfl) ..
  · rw [netLoad_broadcast _ _ rfl]
    refine netLoad_lt ?_
    simp only [Node.load, Node.task, announcing, CollectorState.load, taskLoad]
    omega

theorem calm_collect {net : N → Node N} {name client : N} {index : Nat}
    {fileChange : FileChangeData} (acyclic : Acyclic (Waits platform net))
    (collecting : (net name).collector = .collecting)
    (found : (net name).inFlight[index]? = some (.request client fileChange)) :
    ∃ next, Calm platform net (.collect name index) next := by
  have taken : nodeStep platform (.collect name index) net = some (modifyNode net name
      fun node => { node with
        inFlight := node.inFlight.eraseIdx index
        todoUdp := node.todoUdp ++ [.request client fileChange] }) := by
    simp only [nodeStep, collecting, found, modifyNode_twice]
  refine ⟨_, calm_modifyNode acyclic trivial taken (.of_same rfl rfl id fun other => ?_) rfl ?_⟩
  · simp only [Node.ahead, Node.task, Node.queuedBefore]
    rw [takeWhile_append_tasks rfl]
  · have flight := ((perm_eraseIdx found).map Datagram.flightLoad).sum_eq
    simp only [List.map_cons, List.sum_cons, Datagram.flightLoad] at flight
    simp only [Node.load, Node.task, List.map_append, List.sum_append, List.map_cons,
      List.map_nil, List.sum_cons, List.sum_nil, Datagram.queueLoad]
    omega

/-- The handler pops any message but a request. -/
theorem calm_handle_other {net : N → Node N} {name : N} {datagram : Datagram N}
    {rest : List (Datagram N)} (acyclic : Acyclic (Waits platform net))
    (idle : (net name).handler = .idle) (queue : (net name).todoUdp = datagram :: rest)
    (other : ∀ client, datagram.requestOf client = none) :
    ∃ next, Calm platform net (.handle name) next := by
  cases datagram with
  | request sender fileChange => simpa [Datagram.requestOf] using other sender
  | arrival sender table =>
    have taken : nodeStep platform (.handle name) net = some (modifyNode net name
        fun node => { node with todoUdp := rest }) := by
      simp only [nodeStep, idle, queue, handleMessage]
    refine ⟨_, calm_modifyNode acyclic trivial taken (.of_same rfl rfl id fun client => ?_) rfl ?_⟩
    · rw [Node.ahead, Node.ahead, queuedBefore_cons queue rfl]
      rfl
    · simp only [Node.load, Node.task, queue, List.map_cons, List.sum_cons, Datagram.queueLoad]
      omega
  | response sender table =>
    have taken : nodeStep platform (.handle name) net = some (modifyNode net name fun node =>
        { node with todoUdp := rest, tableManagerMessage := some (sender, table) }) := by
      simp only [nodeStep, idle, queue, handleMessage, modifyNode_twice]
    refine ⟨_, calm_modifyNode acyclic trivial taken (.of_same rfl rfl id fun client => ?_) rfl ?_⟩
    · rw [Node.ahead, Node.ahead, queuedBefore_cons queue rfl]
      rfl
    · simp only [Node.load, Node.task, queue, List.map_cons, List.sum_cons, Datagram.queueLoad]
      omega
  | changes sender fileChanges =>
    have taken : nodeStep platform (.handle name) net = some (modifyNode net name
        fun node => { node with
          todoUdp := rest, handler := .requesting ⟨sender, fileChanges⟩ }) := by
      simp only [nodeStep, idle, queue, handleMessage, modifyNode_twice]
    have begun : (net name).task .handler = none := by rw [Node.task, idle]
    refine ⟨_, calm_modifyNode acyclic trivial taken (.of_same rfl rfl id fun client => ?_) rfl ?_⟩
    · rw [Node.ahead, Node.ahead, queuedBefore_cons queue rfl, begun]
      rfl
    · simp only [Node.load, Node.task, idle, queue, List.map_cons, List.sum_cons,
        Datagram.queueLoad, taskLoad]
      omega

omit [Fintype N] in
/-- An idle handler that answers a request is in no call of `requestFiles` before or after. -/
theorem handleMessage_task {net : N → Node N} {name : N} (idle : (net name).handler = .idle)
    (sender other : N) (fileChange : FileChangeData) (thread : RequestingThread) :
    (handleMessage net name (.request sender fileChange) other).task thread =
      (net other).task thread := by
  have still : ((modifyNode net sender fun node => { node with
      replies := node.replies ++
        [⟨name, !(net name).folder.contains fileChange.filePath, fileChange⟩] }) name).handler =
      .idle := (modifyNode_keeps Node.handler (by intro; rfl) ..).trans idle
  unfold handleMessage
  dsimp only
  split
  · exact modifyNode_keeps (fun node => node.task thread) (by intro; rfl) ..
  · refine (modifyNode_same (fun node => node.task thread) ?_ other).trans
      (modifyNode_keeps (fun node => node.task thread) (by intro; rfl) ..)
    cases thread with
    | handler => simp only [Node.task, still]
    | _ => rfl

/-- The request is answered. No wait leads to it any more, and later requests of its client
    wait for all that the node has to do. -/
theorem calm_handle_request {net : N → Node N} {name client : N} {fileChange : FileChangeData}
    {rest : List (Datagram N)} (acyclic : Acyclic (Waits platform net))
    (idle : (net name).handler = .idle)
    (queue : (net name).todoUdp = .request client fileChange :: rest) :
    ∃ next, Calm platform net (.handle name) next := by
  obtain ⟨popped, pop⟩ : ∃ popped : N → Node N,
    popped = modifyNode net name fun node => { node with todoUdp := rest } := ⟨_, rfl⟩
  obtain ⟨next, step⟩ : ∃ next, next =
    handleMessage popped name (.request client fileChange) := ⟨_, rfl⟩
  have taken : nodeStep platform (.handle name) net = some next := by
    simp only [nodeStep, idle, queue, step, pop]
  have still : (popped name).handler = .idle := by rw [pop, modifyNode_self, idle]
  -- What the two halves of the step leave alone at every node.
  have keeps {β : Type} (view : Node N → β)
      (keepsReplies : ∀ node replies, view { node with replies := replies } = view node)
      (keepsHandler : ∀ node handler, view { node with handler := handler } = view node)
      (other : N) : view (next other) = view (popped other) := by
    rw [step]
    exact handleMessage_keeps view keepsReplies keepsHandler ..
  have popKeeps {β : Type} (view : Node N → β)
      (keepsQueue : ∀ node queue, view { node with todoUdp := queue } = view node) (other : N) :
      view (popped other) = view (net other) := by
    rw [pop]
    exact modifyNode_keeps view (fun node => keepsQueue node rest) ..
  have task : ∀ other thread, (next other).task thread = (popped other).task thread := by
    intro other thread
    rw [step]
    exact handleMessage_task still ..
  have folder : ∀ other, (next other).folder = (net other).folder := fun other =>
    (keeps Node.folder (fun _ _ => rfl) (fun _ _ => rfl) other).trans
      (popKeeps Node.folder (fun _ _ => rfl) other)
  have lock : ∀ other, (next other).dirLock = (net other).dirLock := fun other =>
    (keeps Node.dirLock (fun _ _ => rfl) (fun _ _ => rfl) other).trans
      (popKeeps Node.dirLock (fun _ _ => rfl) other)
  have replies : ∀ other, (next other).replies = [] →
      other ≠ client ∧ (net other).replies = [] := by
    intro other silent
    rw [step, handleMessage_replies, popKeeps Node.replies fun _ _ => rfl] at silent
    split at silent
    · simp at silent
    · rename_i differ
      exact ⟨differ, silent⟩
  have ahead : ∀ other asked, (other, asked) ≠ (name, some client) →
      (next other).ahead asked = (net other).ahead asked := by
    intro other asked differ
    have queued : (next other).queuedBefore asked = (net other).queuedBefore asked := by
      rw [keeps (fun node => node.queuedBefore asked) (fun _ _ => rfl) fun _ _ => rfl, pop,
        modifyNode_apply]
      split
      · rename_i here
        have unlike : (Datagram.request client fileChange).isRequestOf asked = false := by
          simpa [Datagram.isRequestOf, here] using differ
        rw [here, queuedBefore_cons queue unlike]
        rfl
      · rfl
    rw [Node.ahead, Node.ahead, queued, task, task,
      popKeeps (fun node => node.task .collector) fun _ _ => rfl,
      popKeeps (fun node => node.task .handler) fun _ _ => rfl]
  have load : netLoad next = netLoad popped := by
    refine Finset.sum_congr rfl fun other _ => ?_
    rw [Node.load, Node.load, task, task, keeps Node.collector (fun _ _ => rfl) fun _ _ => rfl,
      keeps Node.dirLock (fun _ _ => rfl) fun _ _ => rfl,
      keeps Node.inFlight (fun _ _ => rfl) fun _ _ => rfl,
      keeps Node.todoUdp (fun _ _ => rfl) fun _ _ => rfl]
  refine ⟨next, trivial, taken, ?_, ?_, fun other _ locked _ _ => (lock other).trans locked⟩
  · refine acyclic.of_map (fun vertex =>
      if vertex = (name, some client) then (name, none) else vertex) fun first second edge => ?_
    have target : second ≠ (name, some client) := by
      rintro rfl
      cases edge with
      | lock locked silent blocks => exact (replies _ silent).1 rfl
    rw [if_neg target]
    split
    · rename_i here
      subst here
      refine Node.WaitsFor.of_same (folder name) (lock name) (fun silent => (replies _ silent).2)
        ?_ ?_ edge.later
      all_goals exact ahead name none (by simp)
    · rename_i differ
      obtain ⟨other, asked⟩ := first
      exact Node.WaitsFor.of_same (folder other) (lock other)
        (fun silent => (replies _ silent).2) (ahead other asked differ)
        (ahead other none (by simp)) edge
  · rw [load, pop]
    refine netLoad_lt ?_
    simp only [Node.load, Node.task, queue, List.map_cons, List.sum_cons, Datagram.queueLoad]
    omega

/-! ### Rounds of the loop -/

omit [Fintype N] [DecidableEq N] in
theorem load_setTask {node : Node N} {thread : RequestingThread} {task : Task N}
    (found : node.task thread = some task) (main : thread ≠ .tableManager)
    (next : Option (Task N)) :
    (node.setTask next thread).load + taskLoad (some task) = node.load + taskLoad next := by
  cases thread with
  | collector =>
    rw [← found]
    unfold Node.task at found
    cases phase : node.collector with
    | requesting other =>
      cases next <;>
        simp only [Node.load, Node.setTask, Node.task, phase, CollectorState.load, taskLoad] <;>
        omega
    | _ => simp [phase] at found
  | handler =>
    rw [← found]
    cases next <;> simp only [Node.load, Node.setTask, Node.task, taskLoad] <;> omega
  | tableManager => exact absurd rfl main

omit [Fintype N] in
/-- A thread that is through with a change or with all of them has less to do. -/
theorem relaxes_setTask {node : Node N} {thread : RequestingThread} {task : Task N}
    {next : Option (Task N)} (found : node.task thread = some task)
    (main : thread ≠ .tableManager)
    (shrinks : ∀ later, next = some later →
      task.server = later.server ∧ later.fileChanges ⊆ task.fileChanges) :
    Relaxes platform node (node.setTask next thread) := by
  have view := sameView_setTask next (serves_of_task found)
  have folder : (node.setTask next thread).folder = node.folder := by
    cases thread <;> cases next <;> rfl
  refine ⟨⟨fun client later member => ?_, ?_, ?_⟩, ?_⟩
  · rcases mem_ahead_setTask member with present | fresh
    · exact ⟨later, present, rfl, List.Subset.refl _⟩
    · exact ⟨task, mem_ahead_of_task found main client, shrinks later fresh⟩
  · intro negotiation locked
    exact Or.inl ⟨negotiation, view.lock ▸ locked, rfl⟩
  · intro path
    exact Or.inl (by rw [folder])
  · intro negotiation locked _ silent
    exact ⟨view.lock ▸ locked, view.replies ▸ silent⟩

theorem calm_next_end {net : N → Node N} {name server : N} {thread : RequestingThread}
    (acyclic : Acyclic (Waits platform net)) (main : thread ≠ .tableManager)
    (found : (net name).task thread = some ⟨server, []⟩)
    (entered : ∀ negotiation, (net name).dirLock = some negotiation →
      negotiation.thread ≠ thread) :
    ∃ next, Calm platform net (.next name thread) next := by
  have taken : nodeStep platform (.next name thread) net =
      some (modifyNode net name fun node => node.setTask none thread) := by
    cases locked : (net name).dirLock with
    | none => simp only [nodeStep, found, locked]
    | some negotiation => simp only [nodeStep, found, locked, if_neg (entered _ locked)]
  refine ⟨_, calm_modifyNode acyclic trivial taken
    (relaxes_setTask found main fun _ later => by cases later)
    (sameView_setTask none (serves_of_task found)).lock ?_⟩
  have load := load_setTask found main none
  simp only [taskLoad] at load
  omega

omit [Fintype N] in
theorem relaxes_round {node : Node N} {thread : RequestingThread} {server : N}
    {fileChange : FileChangeData} {rest : List FileChangeData}
    (found : node.task thread = some ⟨server, fileChange :: rest⟩)
    (main : thread ≠ .tableManager) :
    Relaxes platform node (node.setTask (some ⟨server, rest⟩) thread) := by
  refine relaxes_setTask found main fun later same => ?_
  cases same
  exact ⟨rfl, List.subset_cons_self ..⟩

omit [Fintype N] in
/-- A file that the loop has still to look at, with a content that it does not want. -/
theorem unsettled_of_task {node : Node N} {thread : RequestingThread} {server : N}
    {fileChange : FileChangeData} {rest : List FileChangeData}
    (found : node.task thread = some ⟨server, fileChange :: rest⟩)
    (main : thread ≠ .tableManager) (wrong : fileChange.change = .deletion ∨
      node.folder.has platform fileChange = false) :
    node.Unsettled platform fileChange.filePath :=
  Or.inr ⟨_, mem_ahead_of_task found main none, fileChange, List.mem_cons_self, rfl, wrong⟩

theorem calm_next_deletion {net : N → Node N} {name server : N} {thread : RequestingThread}
    {fileChange : FileChangeData} {rest : List FileChangeData}
    (acyclic : Acyclic (Waits platform net)) (main : thread ≠ .tableManager)
    (found : (net name).task thread = some ⟨server, fileChange :: rest⟩)
    (free : (net name).dirLock = none) (deletion : fileChange.change = .deletion) :
    ∃ next, Calm platform net (.next name thread) next := by
  have taken : nodeStep platform (.next name thread) net = some (modifyNode net name fun node =>
      { node.setTask (some ⟨server, rest⟩) thread with
        folder := (node.setTask (some ⟨server, rest⟩) thread).folder.set
          fileChange.filePath none }) := by
    simp only [nodeStep, found, free, requestChange, deletion, modifyNode_twice]
  have round : Relaxes platform (net name)
      ((net name).setTask (some ⟨server, rest⟩) thread) := relaxes_round found main
  refine ⟨_, calm_modifyNode acyclic trivial taken ⟨⟨round.ahead, round.lock, fun path => ?_⟩,
    round.waiting⟩ (sameView_setTask _ (serves_of_task found)).lock ?_⟩
  · by_cases same : fileChange.filePath = path
    · exact Or.inr (same ▸ unsettled_of_task found main (Or.inl deletion))
    · rw [set_of_ne same]
      exact round.folder path
  · have load := load_setTask found main (some ⟨server, rest⟩)
    simp only [taskLoad, List.length_cons] at load
    refine lt_of_eq_of_lt (b := ((net name).setTask (some ⟨server, rest⟩) thread).load) rfl ?_
    omega

theorem calm_next_skip {net : N → Node N} {name server : N} {thread : RequestingThread}
    {fileChange : FileChangeData} {rest : List FileChangeData}
    (acyclic : Acyclic (Waits platform net)) (main : thread ≠ .tableManager)
    (found : (net name).task thread = some ⟨server, fileChange :: rest⟩)
    (free : (net name).dirLock = none) (update : fileChange.change ≠ .deletion)
    (held : (net name).folder.has platform fileChange = true) :
    ∃ next, Calm platform net (.next name thread) next := by
  have folder : (modifyNode net name (fun node => node.setTask (some ⟨server, rest⟩) thread)
      name).folder = (net name).folder := by
    rw [modifyNode_self]
    cases thread <;> rfl
  have taken : nodeStep platform (.next name thread) net =
      some (modifyNode net name fun node => node.setTask (some ⟨server, rest⟩) thread) := by
    simp only [nodeStep, found, free, requestChange, folder, held, if_true]
  refine ⟨_, calm_modifyNode acyclic trivial taken (relaxes_round found main)
    (sameView_setTask _ (serves_of_task found)).lock ?_⟩
  have load := load_setTask found main (some ⟨server, rest⟩)
  simp only [taskLoad, List.length_cons] at load
  omega

/-- A change weighs more than the lock and the request that are made for it. -/
theorem netLoad_request {net : N → Node N} {name server : N} {thread : RequestingThread}
    {fileChange : FileChangeData} {rest : List FileChangeData} (main : thread ≠ .tableManager)
    (found : (net name).task thread = some ⟨server, fileChange :: rest⟩)
    (free : (net name).dirLock = none) :
    netLoad (modifyNode (modifyNode net name fun node =>
      { node.setTask (some ⟨server, rest⟩) thread with
        dirLock := some ⟨thread, server, fileChange, .waiting⟩ }) server
      fun node => node.send (.request name fileChange)) < netLoad net := by
  have load := load_setTask found main (some ⟨server, rest⟩)
  have asked := netLoad_modifyNode net name fun node =>
    { node.setTask (some ⟨server, rest⟩) thread with
      dirLock := some ⟨thread, server, fileChange, .waiting⟩ }
  generalize modifyNode net name _ = asking at asked ⊢
  have sent := netLoad_modifyNode asking server fun node => node.send (.request name fileChange)
  have waits : ({ (net name).setTask (some ⟨server, rest⟩) thread with
      dirLock := some ⟨thread, server, fileChange, .waiting⟩ } : Node N).load =
      ((net name).setTask (some ⟨server, rest⟩) thread).load + 6 := by
    have before : ((net name).setTask (some ⟨server, rest⟩) thread).dirLock = none :=
      (sameView_setTask _ (serves_of_task found)).lock.trans free
    simp only [Node.load, Node.task, before, lockLoad]
    omega
  simp only [load_send, Datagram.flightLoad] at sent
  simp only [taskLoad, List.length_cons] at load
  omega

/-- The request is sent. What it waits for, the change waited for before. -/
theorem calm_next_request {net : N → Node N} {name server : N} {thread : RequestingThread}
    {fileChange : FileChangeData} {rest : List FileChangeData}
    (acyclic : Acyclic (Waits platform net)) (main : thread ≠ .tableManager)
    (found : (net name).task thread = some ⟨server, fileChange :: rest⟩)
    (free : (net name).dirLock = none) (update : fileChange.change ≠ .deletion)
    (missing : (net name).folder.has platform fileChange = false) :
    ∃ next, Calm platform net (.next name thread) next := by
  obtain ⟨asking, ask⟩ : ∃ asking : N → Node N, asking = modifyNode net name fun node =>
    { node.setTask (some ⟨server, rest⟩) thread with
      dirLock := some ⟨thread, server, fileChange, .waiting⟩ } := ⟨_, rfl⟩
  obtain ⟨next, step⟩ : ∃ next, next =
    modifyNode asking server fun node => node.send (.request name fileChange) := ⟨_, rfl⟩
  have folder : (modifyNode net name (fun node => node.setTask (some ⟨server, rest⟩) thread)
      name).folder = (net name).folder := by
    rw [modifyNode_self]
    cases thread <;> rfl
  have taken : nodeStep platform (.next name thread) net = some next := by
    simp only [nodeStep, found, free, requestChange, folder, missing, Bool.false_eq_true,
      if_false, modifyNode_twice]
    rw [step, ask]
  have locked : (asking name).dirLock = some ⟨thread, server, fileChange, .waiting⟩ := by
    rw [ask, modifyNode_self]
  have round : Relaxes platform (net name)
      ((net name).setTask (some ⟨server, rest⟩) thread) := relaxes_round found main
  have unsettled : (net name).Unsettled platform fileChange.filePath :=
    unsettled_of_task found main (Or.inr missing)
  have eases : Eases platform (net name) (asking name) := by
    rw [ask, modifyNode_self]
    refine ⟨round.ahead, fun negotiation held => ?_, round.folder⟩
    cases held
    exact unsettled
  -- The edges of the node that asks; its request stands for the change before.
  have edges : ∀ client other, (asking name).WaitsFor platform name client other →
      (net name).WaitsFor platform name client
        (if other = (server, some name) then (server, none) else other) := by
    intro client other edge
    cases edge with
    | lock held silent blocks =>
      rw [locked] at held
      cases held
      rw [if_pos rfl]
      exact .change (mem_ahead_of_task found main client) List.mem_cons_self update unsettled
    | change member listed needed open_ =>
      rw [if_neg (by simp)]
      exact eases.change member listed needed open_
  refine ⟨next, trivial, taken, ?_, ?_, fun other negotiation held waits silent => ?_⟩
  · refine acyclic.of_map (fun vertex =>
      if vertex = (server, some name) then (server, none) else vertex) fun first second edge => ?_
    -- A request that `name` made before to the server is through, so it stands for a later one.
    have source : (asking first.1).WaitsFor platform first.1
        (if first = (server, some name) then (server, none) else first).2 second := by
      rw [Waits, step] at edge
      have earlier := (relaxes_modifyNode (relaxes_send ..) first.1).waitsFor edge
      split
      · exact earlier.later
      · exact earlier
    have node : (if first = (server, some name) then (server, none) else first).1 = first.1 := by
      split
      · rename_i here
        rw [here]
      · rfl
    rw [Waits, node]
    by_cases here : first.1 = name
    · rw [here] at source ⊢
      exact edges _ _ source
    · rw [ask, modifyNode_of_ne here] at source
      have target : second ≠ (server, some name) := by
        rintro rfl
        cases source with
        | lock held silent blocks => exact here rfl
      rw [if_neg target]
      exact source
  · rw [step, ask]
    exact netLoad_request main found free
  · have elsewhere : other ≠ name := by
      rintro rfl
      rw [free] at held
      cases held
    rw [step]
    refine (modifyNode_keeps Node.dirLock (by intro; rfl) ..).trans ?_
    rw [ask, modifyNode_of_ne elsewhere, held]

/-! ### The reply and the transfer -/

theorem calm_receiveReply {net : N → Node N} {name server : N} {thread : RequestingThread}
    {fileChange : FileChangeData} {reply : Reply N} {others : List (Reply N)}
    (staged : Staged net) (acyclic : Acyclic (Waits platform net))
    (locked : (net name).dirLock = some ⟨thread, server, fileChange, .waiting⟩)
    (found : (net name).replies = reply :: others) :
    ∃ next, Calm platform net (.receiveReply name) next := by
  have taken : nodeStep platform (.receiveReply name) net = some (modifyNode net name fun node =>
      { node with
        replies := others
        dirLock := if reply.abandon then none
          else some ⟨thread, reply.sender, reply.fileChange, .receiving⟩ }) := by
    simp only [nodeStep, locked, found]
  have about : reply.fileChange = fileChange := by
    obtain ⟨stage, atStage⟩ := staged name
    have shown := atStage.lock
    rw [(atStage.of_reply found).2, Node.lockedFor, locked] at shown
    split at shown
    · cases shown
      rfl
    · cases shown
      rfl
  refine ⟨_, trivial, taken, ?_, netLoad_lt ?_, fun other negotiation held waits silent => ?_⟩
  · refine acyclic_of_relaxes acyclic (relaxes_modifyNode ⟨⟨fun _ task member =>
      ⟨task, member, rfl, List.Subset.refl _⟩, ?_, fun _ => Or.inl rfl⟩, ?_⟩)
    · intro negotiation held
      split at held
      · cases held
      · cases held
        exact Or.inl ⟨_, locked, by rw [about]⟩
    · intro negotiation held waits _
      split at held
      · cases held
      · cases held
        cases waits
  · simp only [Node.load, Node.task, locked, lockLoad]
    cases reply.abandon <;> simp
  · have elsewhere : other ≠ name := by
      rintro rfl
      rw [found] at silent
      cases silent
    rw [modifyNode_of_ne elsewhere, held]

theorem calm_finish {net : N → Node N} {name server : N} {thread : RequestingThread}
    {fileChange : FileChangeData} (staged : Staged net) (acyclic : Acyclic (Waits platform net))
    (locked : (net name).dirLock = some ⟨thread, server, fileChange, .receiving⟩) :
    ∃ next, Calm platform net (.finish name) next := by
  have serving : (net server).handler = .serving name := by
    obtain ⟨stage, atStage⟩ := staged name
    cases atStage.of_receiving locked
    have serves := (atStage.serving server).mpr rfl
    unfold Node.serves at serves
    split at serves
    · rename_i client handler
      cases serves
      exact handler
    · cases serves
  obtain ⟨bytes, content⟩ : ∃ bytes, bytes =
    (net server).folder[fileChange.filePath]?.getD [] := ⟨_, rfl⟩
  obtain ⟨middle, receive⟩ : ∃ middle : N → Node N, middle = modifyNode net name fun node =>
    { node with folder := node.folder.set fileChange.filePath (some bytes), dirLock := none } :=
    ⟨_, rfl⟩
  obtain ⟨next, step⟩ : ∃ next : N → Node N, next = modifyNode middle server fun node =>
    { node with handler := .idle } := ⟨_, rfl⟩
  have taken : nodeStep platform (.finish name) net = some next := by
    simp only [nodeStep, locked, serving, if_true, step, receive, content]
  have busy : (middle server).handler = .serving name := by
    rw [receive]
    exact (modifyNode_keeps Node.handler (by intro; rfl) ..).trans serving
  have received : ∀ other, Relaxes platform (net other) (middle other) := by
    rw [receive]
    refine relaxes_modifyNode ⟨⟨fun _ task member => ⟨task, member, rfl, List.Subset.refl _⟩, ?_,
      fun path => ?_⟩, ?_⟩
    · intro negotiation held
      cases held
    · by_cases same : fileChange.filePath = path
      · exact Or.inr (Or.inl ⟨_, locked, same⟩)
      · exact Or.inl (set_of_ne same _)
    · intro negotiation held
      cases held
  have released : ∀ other, Relaxes platform (middle other) (next other) := by
    rw [step]
    refine relaxes_modifyNode (.of_same rfl rfl id fun client => ?_)
    simp only [Node.ahead, Node.task, Node.queuedBefore, busy]
  refine ⟨next, trivial, taken, acyclic_of_relaxes acyclic fun other =>
    (received other).trans (released other), ?_, fun other negotiation held waits _ => ?_⟩
  · have load : netLoad next = netLoad middle := by
      rw [step]
      refine netLoad_eq ?_
      simp only [Node.load, Node.task, busy]
    rw [load, receive]
    refine netLoad_lt ?_
    simp only [Node.load, Node.task, locked, lockLoad]
    omega
  · have elsewhere : other ≠ name := by
      rintro rfl
      rw [locked] at held
      cases held
      cases waits
    rw [step]
    refine (modifyNode_keeps Node.dirLock (by intro; rfl) ..).trans ?_
    rw [receive, modifyNode_of_ne elsewhere, held]

/-! ## What can still be done -/

/-- The node waits for the reply to its request. -/
def Awaits (net : N → Node N) (name server : N) : Prop :=
  ∃ thread fileChange, (net name).dirLock = some ⟨thread, server, fileChange, .waiting⟩

theorem calm_handle {net : N → Node N} {name : N} {datagram : Datagram N}
    {rest : List (Datagram N)} (acyclic : Acyclic (Waits platform net))
    (idle : (net name).handler = .idle) (queue : (net name).todoUdp = datagram :: rest) :
    ∃ next, Calm platform net (.handle name) next := by
  cases datagram with
  | request client fileChange => exact calm_handle_request acyclic idle queue
  | _ => exact calm_handle_other acyclic idle queue fun _ => rfl

/-- A thread that has the lock free goes on. -/
theorem calm_next {net : N → Node N} {name : N} {thread : RequestingThread} {task : Task N}
    (acyclic : Acyclic (Waits platform net)) (main : thread ≠ .tableManager)
    (found : (net name).task thread = some task) (free : (net name).dirLock = none) :
    ∃ next, Calm platform net (.next name thread) next := by
  obtain ⟨server, fileChanges⟩ := task
  cases fileChanges with
  | nil =>
    refine calm_next_end acyclic main found fun negotiation held => ?_
    rw [free] at held
    cases held
  | cons fileChange rest =>
    by_cases deletion : fileChange.change = .deletion
    · exact calm_next_deletion acyclic main found free deletion
    · cases held : (net name).folder.has platform fileChange with
      | true => exact calm_next_skip acyclic main found free deletion held
      | false => exact calm_next_request acyclic main found free deletion held

/-- A thread in a call of `requestFiles` goes on, or the negotiation that holds the lock does,
    or that negotiation's reply has still to be sent. -/
theorem calm_task {net : N → Node N} {name : N} {thread : RequestingThread} {task : Task N}
    (staged : Staged net) (acyclic : Acyclic (Waits platform net))
    (main : thread ≠ .tableManager) (found : (net name).task thread = some task) :
    (∃ action next, Calm platform net action next) ∨
      ∃ other server fileChange, (net name).dirLock = some ⟨other, server, fileChange, .waiting⟩ ∧
        (net name).replies = [] ∧ (other = .tableManager → task.fileChanges ≠ []) := by
  cases locked : (net name).dirLock with
  | none => exact Or.inl ⟨_, calm_next acyclic main found locked⟩
  | some negotiation =>
    obtain ⟨other, server, fileChange, phase⟩ := negotiation
    cases phase with
    | receiving => exact Or.inl ⟨_, calm_finish staged acyclic locked⟩
    | waiting =>
      cases silent : (net name).replies with
      | cons reply others => exact Or.inl ⟨_, calm_receiveReply staged acyclic locked silent⟩
      | nil =>
        by_cases idle : other = .tableManager ∧ task.fileChanges = []
        · obtain ⟨apart, through⟩ := idle
          obtain ⟨asked, fileChanges⟩ := task
          cases through
          refine Or.inl ⟨_, calm_next_end acyclic main found fun negotiation held => ?_⟩
          rw [locked] at held
          cases held
          exact apart ▸ Ne.symm main
        · exact Or.inr ⟨other, server, fileChange, rfl, rfl, fun apart through =>
            idle ⟨apart, through⟩⟩

omit [Fintype N] in
/-- A request with no reply is on its way to the server or in its queue. -/
theorem AtStage.request_mem {net : N → Node N} {client server : N} {stage : Stage N}
    (atStage : AtStage net client stage) (awaits : Awaits net client server)
    (silent : (net client).replies = []) : ∃ fileChange,
      .request client fileChange ∈ (net server).inFlight ++ (net server).todoUdp := by
  obtain ⟨thread, fileChange, locked⟩ := awaits
  have shown := atStage.lock
  have unanswered := atStage.replies
  rw [Node.lockedFor, locked] at shown
  rw [silent] at unanswered
  cases stage with
  | requested asked about =>
    cases shown
    have listed := (atStage.requests server).mem_iff.mpr
      (show fileChange ∈ Stage.asks (.requested server fileChange) server by simp [Stage.asks])
    obtain ⟨datagram, member, about⟩ := List.mem_filterMap.mp listed
    cases datagram with
    | request sender carried =>
      simp only [Datagram.requestOf] at about
      split at about
      · rename_i same
        cases about
        exact ⟨fileChange, same ▸ member⟩
      · cases about
    | _ => cases about
  | free => cases shown
  | receiving asked about => cases shown
  | refused asked about => cases unanswered
  | granted asked about => cases unanswered

/-- A handler that is committed to a client is waiting for a step of that client. -/
theorem calm_serving {net : N → Node N} {name client : N} (staged : Staged net)
    (acyclic : Acyclic (Waits platform net)) (serving : (net name).handler = .serving client) :
    ∃ action next, Calm platform net action next := by
  obtain ⟨stage, atStage⟩ := staged client
  have committed := (atStage.serving name).mp (by rw [Node.serves, serving])
  have shown := atStage.lock
  have answers := atStage.replies
  obtain ⟨negotiation, locked, same⟩ : ∃ negotiation, (net client).dirLock = some negotiation ∧
      stage.lock = some negotiation.shown := by
    cases held : (net client).dirLock with
    | none =>
      rw [Node.lockedFor, held] at shown
      cases stage with
      | granted => cases shown
      | receiving => cases shown
      | _ => cases committed
    | some negotiation =>
      refine ⟨negotiation, rfl, ?_⟩
      rw [← shown, Node.lockedFor, held, Option.map_some]
  obtain ⟨thread, server, fileChange, phase⟩ := negotiation
  cases stage with
  | granted asked about =>
    cases phase with
    | waiting => exact ⟨_, calm_receiveReply staged acyclic locked answers⟩
    | receiving => cases same
  | receiving asked about =>
    cases phase with
    | waiting => cases same
    | receiving => exact ⟨_, calm_finish staged acyclic locked⟩
  | _ => cases committed

/-- While the wait graph has no cycle and a node waits for the reply to its request, some
    thread can go on. -/
theorem calm_exists {net : N → Node N} (staged : Staged net)
    (acyclic : Acyclic (Waits platform net)) {client server : N}
    (awaits : Awaits net client server) (silent : (net client).replies = []) :
    ∃ action next, Calm platform net action next := by
  suffices all : ∀ vertex : N × Option N, ∀ client, vertex.2 = some client →
      Awaits net client vertex.1 → (net client).replies = [] →
      ∃ action next, Calm platform net action next from
    all (server, some client) client rfl awaits silent
  refine acyclic.induction ?_
  rintro ⟨name, asked⟩ ih client rfl awaits silent
  -- A thread of the server that is blocked waits for the reply to the server's own request.
  have blocked : ∀ thread task, thread ≠ .tableManager → (net name).task thread = some task →
      ∃ action next, Calm platform net action next := by
    intro thread task main found
    rcases calm_task staged acyclic main found with
      calm | ⟨other, server, fileChange, locked, quiet, apart⟩
    · exact calm
    · refine ih (server, some name) ?_ name rfl ⟨other, fileChange, locked⟩ quiet
      exact .lock locked quiet fun separate =>
        ⟨task, mem_ahead_of_task found main _, apart separate⟩
  obtain ⟨stage, atStage⟩ := staged client
  obtain ⟨fileChange, member⟩ := atStage.request_mem awaits silent
  rcases List.mem_append.mp member with flying | queued
  · obtain ⟨index, found⟩ := List.mem_iff_getElem?.mp flying
    cases phase : (net name).collector with
    | announcing => exact ⟨_, calm_announce acyclic phase⟩
    | collecting => exact ⟨_, calm_collect acyclic phase found⟩
    | requesting task =>
      exact blocked .collector task (by decide) (by rw [Node.task, phase])
  · cases phase : (net name).handler with
    | idle =>
      obtain ⟨datagram, rest, queue⟩ := List.exists_cons_of_ne_nil (List.ne_nil_of_mem queued)
      exact ⟨_, calm_handle acyclic phase queue⟩
    | requesting task => exact blocked .handler task (by decide) (by rw [Node.task, phase])
    | serving other => exact calm_serving staged acyclic phase

end FileSync
