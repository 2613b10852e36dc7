import FileSync.Library.WaitGraph
import FileSync.NegotiationStages
import Mathlib.Data.List.TakeWhile

/-!
# What a node waits for

A request is handled when the server has the lock and is through with what it works on first.
The wait graph has a vertex for each request at a server. From it, edges lead to the request
that the server's lock is held for and to the requests that the server has still to make.
-/

namespace FileSync

open TransitionSystem WaitGraph
open scoped List

variable {N : Type} [DecidableEq N]

/-! ## The work before a request -/

/-- The call of `requestFiles` that a queued datagram leads to. -/
def Datagram.task : Datagram N → Option (Task N)
  | .changes sender fileChanges => some ⟨sender, fileChanges⟩
  | _ => none

/-- Whether the datagram is a request of the client. -/
def Datagram.isRequestOf (client : Option N) : Datagram N → Bool
  | .request sender _ => client == some sender
  | _ => false

/-- The changes in the queue that are handled before the client's request. Without a client,
    or without its request in the queue, these are all. -/
def Node.queuedBefore (node : Node N) (client : Option N) : List (Task N) :=
  (node.todoUdp.takeWhile fun datagram => !datagram.isRequestOf client).filterMap Datagram.task

/-- The calls of `requestFiles` that the collector and the handler are in, and those that the
    handler enters before it handles the client's request. -/
def Node.ahead (node : Node N) (client : Option N) : List (Task N) :=
  (node.task .collector).toList ++ ((node.task .handler).toList ++ node.queuedBefore client)

/-- The node will change the file at the path, or request it. This looks at all work of the node,
    what is queued behind a client's request included. -/
def Node.Unsettled (platform : Platform) (node : Node N) (path : WString) : Prop :=
  (∃ negotiation, node.dirLock = some negotiation ∧ negotiation.fileChange.filePath = path) ∨
    ∃ task ∈ node.ahead none, ∃ fileChange ∈ task.fileChanges, fileChange.filePath = path ∧
      (fileChange.change = .deletion ∨ node.folder.has platform fileChange = false)

/-- The vertex `(name, some client)` is the request of the client at a node that it has not
    answered, and `(name, none)` one that it will get. -/
inductive Node.WaitsFor (platform : Platform) (name : N) (node : Node N) (client : Option N) :
    N × Option N → Prop where
  /-- The reply to the request of a thread that blocks the collector or the handler. -/
  | lock {thread : RequestingThread} {server : N} {fileChange : FileChangeData} :
      node.dirLock = some ⟨thread, server, fileChange, .waiting⟩ → node.replies = [] →
      (thread = .tableManager → ∃ task ∈ node.ahead client, task.fileChanges ≠ []) →
      Node.WaitsFor platform name node client (server, some name)
  /-- The reply to a request that is still to be made. -/
  | change {task : Task N} {fileChange : FileChangeData} :
      task ∈ node.ahead client → fileChange ∈ task.fileChanges →
      fileChange.change ≠ .deletion → node.Unsettled platform fileChange.filePath →
      Node.WaitsFor platform name node client (task.server, none)

/-- One vertex waits for another one. -/
def Waits (platform : Platform) (net : N → Node N) (first second : N × Option N) : Prop :=
  (net first.1).WaitsFor platform first.1 first.2 second

theorem mem_ahead_none {node : Node N} {client : Option N} {task : Task N}
    (member : task ∈ node.ahead client) : task ∈ node.ahead none := by
  have all : (node.todoUdp.takeWhile fun datagram => !datagram.isRequestOf none) =
      node.todoUdp := by
    rw [List.takeWhile_eq_self_iff]
    intro datagram _
    cases datagram <;> rfl
  simp only [Node.ahead, Node.queuedBefore, all, List.mem_append] at member ⊢
  refine member.imp_right (Or.imp_right fun queued => ?_)
  exact ((List.takeWhile_sublist _).filterMap _).subset queued

theorem queuedBefore_cons {node : Node N} {datagram : Datagram N} {rest : List (Datagram N)}
    {client : Option N} (queue : node.todoUdp = datagram :: rest)
    (other : datagram.isRequestOf client = false) :
    node.queuedBefore client =
      datagram.task.toList ++ { node with todoUdp := rest }.queuedBefore client := by
  rw [Node.queuedBefore, queue, List.takeWhile_cons_of_pos (by rw [other]; rfl),
    List.filterMap_cons]
  cases datagram.task <;> rfl

omit [DecidableEq N] in
/-- A datagram with no changes may stand at the end of the queue. -/
theorem takeWhile_append_tasks {datagrams : List (Datagram N)} {datagram : Datagram N}
    (plain : datagram.task = none) (before : Datagram N → Bool) :
    ((datagrams ++ [datagram]).takeWhile before).filterMap Datagram.task =
      (datagrams.takeWhile before).filterMap Datagram.task := by
  induction datagrams with
  | nil =>
    rw [List.nil_append, List.takeWhile_cons]
    split <;> simp [plain]
  | cons first rest ih =>
    rw [List.cons_append, List.takeWhile_cons, List.takeWhile_cons]
    split
    · rw [List.filterMap_cons, List.filterMap_cons, ih]
    · rfl

/-- A request that is handled later waits for more. -/
theorem Node.WaitsFor.later {platform : Platform} {name : N} {node : Node N} {client : Option N}
    {other : N × Option N} (edge : node.WaitsFor platform name client other) :
    node.WaitsFor platform name none other := by
  cases edge with
  | lock locked silent blocks =>
    refine .lock locked silent fun apart => ?_
    obtain ⟨task, member, nonempty⟩ := blocks apart
    exact ⟨task, mem_ahead_none member, nonempty⟩
  | change member listed update unsettled =>
    exact .change (mem_ahead_none member) listed update unsettled

/-- What a request at a node waits for depends on the lock, the folder and the work. -/
theorem Node.WaitsFor.of_same {platform : Platform} {name : N} {before after : Node N}
    {client : Option N} {other : N × Option N} (folder : after.folder = before.folder)
    (lock : after.dirLock = before.dirLock)
    (replies : after.replies = [] → before.replies = [])
    (ahead : after.ahead client = before.ahead client)
    (all : after.ahead none = before.ahead none)
    (edge : after.WaitsFor platform name client other) :
    before.WaitsFor platform name client other := by
  cases edge with
  | lock locked silent blocks =>
    exact .lock (lock ▸ locked) (replies silent) (ahead ▸ blocks)
  | change member listed update unsettled =>
    refine .change (ahead ▸ member) listed update ?_
    rwa [Node.Unsettled, lock, folder, all] at unsettled

/-! ## Steps that add no wait -/

/-- The work of a node shrinks, and the files at all other paths stay. -/
structure Eases (platform : Platform) (before after : Node N) : Prop where
  ahead : ∀ client, ∀ task ∈ after.ahead client, ∃ earlier ∈ before.ahead client,
    earlier.server = task.server ∧ task.fileChanges ⊆ earlier.fileChanges
  lock : ∀ negotiation, after.dirLock = some negotiation →
    before.Unsettled platform negotiation.fileChange.filePath
  folder : ∀ path, after.folder[path]? = before.folder[path]? ∨ before.Unsettled platform path

variable {platform : Platform}

theorem has_congr {before after : Folder} {fileChange : FileChangeData}
    (same : after[fileChange.filePath]? = before[fileChange.filePath]?) :
    after.has platform fileChange = before.has platform fileChange := by
  rw [Folder.has, Folder.has, same]

theorem Eases.unsettled {before after : Node N} (eases : Eases platform before after)
    {path : WString} (unsettled : after.Unsettled platform path) :
    before.Unsettled platform path := by
  rcases unsettled with ⟨negotiation, locked, rfl⟩ | ⟨task, member, fileChange, listed, rfl, open_⟩
  · exact eases.lock negotiation locked
  · rcases eases.folder fileChange.filePath with same | unsettled
    · obtain ⟨earlier, present, _, shrinks⟩ := eases.ahead none task member
      rw [has_congr same] at open_
      exact Or.inr ⟨earlier, present, fileChange, shrinks listed, rfl, open_⟩
    · exact unsettled

theorem Eases.change {before after : Node N} (eases : Eases platform before after) {name : N}
    {client : Option N} {task : Task N} {fileChange : FileChangeData}
    (member : task ∈ after.ahead client) (listed : fileChange ∈ task.fileChanges)
    (update : fileChange.change ≠ .deletion)
    (unsettled : after.Unsettled platform fileChange.filePath) :
    before.WaitsFor platform name client (task.server, none) := by
  obtain ⟨earlier, present, server, shrinks⟩ := eases.ahead client task member
  rw [← server]
  exact .change present (shrinks listed) update (eases.unsettled unsettled)

theorem Eases.nonempty {before after : Node N} (eases : Eases platform before after)
    {client : Option N} (work : ∃ task ∈ after.ahead client, task.fileChanges ≠ []) :
    ∃ task ∈ before.ahead client, task.fileChanges ≠ [] := by
  obtain ⟨task, member, nonempty⟩ := work
  obtain ⟨earlier, present, _, shrinks⟩ := eases.ahead client task member
  refine ⟨earlier, present, fun empty => nonempty ?_⟩
  rw [empty] at shrinks
  exact List.subset_nil.mp shrinks

/-- The node eases, and no new request is made. -/
structure Relaxes (platform : Platform) (before after : Node N) : Prop
    extends Eases platform before after where
  waiting : ∀ negotiation, after.dirLock = some negotiation → negotiation.phase = .waiting →
    after.replies = [] → before.dirLock = some negotiation ∧ before.replies = []

theorem Relaxes.waitsFor {before after : Node N} (relaxes : Relaxes platform before after)
    {name : N} {client : Option N} {other : N × Option N}
    (edge : after.WaitsFor platform name client other) :
    before.WaitsFor platform name client other := by
  cases edge with
  | lock locked silent blocks =>
    obtain ⟨earlier, quiet⟩ := relaxes.waiting _ locked rfl silent
    exact .lock earlier quiet fun apart => relaxes.toEases.nonempty (blocks apart)
  | change member listed update unsettled =>
    exact relaxes.toEases.change member listed update unsettled

/-- A node with the same lock, folder and work. -/
theorem Relaxes.of_same {before after : Node N} (folder : after.folder = before.folder)
    (lock : after.dirLock = before.dirLock)
    (replies : after.replies = [] → before.replies = [])
    (ahead : ∀ client, after.ahead client = before.ahead client) :
    Relaxes platform before after where
  ahead := fun client task member => ⟨task, ahead client ▸ member, rfl, List.Subset.refl _⟩
  lock := fun negotiation locked => Or.inl ⟨negotiation, lock ▸ locked, rfl⟩
  folder := fun path => Or.inl (by rw [folder])
  waiting := fun negotiation locked _ silent => ⟨lock ▸ locked, replies silent⟩

theorem Relaxes.refl (node : Node N) : Relaxes platform node node :=
  .of_same rfl rfl id fun _ => rfl

theorem Relaxes.trans {first second third : Node N} (before : Relaxes platform first second)
    (after : Relaxes platform second third) : Relaxes platform first third where
  ahead := fun client task member => by
    obtain ⟨middle, present, server, shrinks⟩ := after.ahead client task member
    obtain ⟨earlier, there, same, shrunk⟩ := before.ahead client middle present
    exact ⟨earlier, there, same.trans server, List.Subset.trans shrinks shrunk⟩
  lock := fun negotiation locked => before.toEases.unsettled (after.lock negotiation locked)
  folder := fun path => by
    rcases after.folder path with same | unsettled
    · rw [same]
      exact before.folder path
    · exact Or.inr (before.toEases.unsettled unsettled)
  waiting := fun negotiation locked waits silent => by
    obtain ⟨earlier, quiet⟩ := after.waiting negotiation locked waits silent
    exact before.waiting negotiation earlier waits quiet

theorem relaxes_modifyNode {net : N → Node N} {name : N} {f : Node N → Node N}
    (relaxes : Relaxes platform (net name) (f (net name))) (other : N) :
    Relaxes platform (net other) (modifyNode net name f other) := by
  rw [modifyNode_apply]
  split
  · rename_i here
    exact here ▸ relaxes
  · exact .refl _

theorem relaxes_send (node : Node N) (datagram : Datagram N) :
    Relaxes platform node (node.send datagram) :=
  .of_same rfl rfl id fun _ => rfl

theorem relaxes_broadcast (net : N → Node N) (name other : N) (datagram : Datagram N) :
    Relaxes platform (net other) (broadcast net name datagram other) := by
  unfold broadcast
  split
  · exact .refl _
  · exact relaxes_send ..

theorem acyclic_of_relaxes {net next : N → Node N} (acyclic : Acyclic (Waits platform net))
    (relaxes : ∀ name, Relaxes platform (net name) (next name)) :
    Acyclic (Waits platform next) :=
  acyclic.of_map id fun first _ edge => (relaxes first.1).waitsFor edge

end FileSync
