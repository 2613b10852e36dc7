import FileSync.Convergence
import FileSync.MeshSteps

/-!
# Convergence of a mesh

If users write a file only where all watchers have seen the last version, and nodes come and go
only while nothing is on its way, then all nodes that run have the folder that is meant in every
quiescent state.
-/

namespace FileSync

open TransitionSystem

variable {N : Type} [DecidableEq N] {platform : Platform} {s : Mesh N} {name : N}

/-! ## The queues and tables -/

theorem Mesh.Ordered.set (ordered : s.Ordered) {node : MeshNode N}
    (same : node.online = (s.nodes name).online)
    (addressed : (s.nodes name).online = true →
      node.toInbox.Addressed (fun other => (s.nodes other).online = true) name)
    (drained : (s.nodes name).online = true →
      applyChanges node.fileHashes node.fileChangeBuf = node.prevDir) :
    (s.set name node).Ordered := by
  have online := congrFun (Mesh.field_set_same MeshNode.online s name node same)
  constructor
  · intro other on
    simp only [online] at on ⊢
    by_cases self : other = name
    · subst self
      rw [Mesh.set_nodes_self]
      exact addressed on
    · rw [Mesh.set_nodes_of_ne s self]
      exact ordered.addressed other on
  · intro other on
    rw [online] at on
    by_cases self : other = name
    · subst self
      rw [Mesh.set_nodes_self]
      exact drained on
    · rw [Mesh.set_nodes_of_ne s self]
      exact ordered.drained other on

theorem Mesh.Ordered.withInbox (ordered : s.Ordered) {box : Inbox N}
    (addressed : (s.nodes name).online = true →
      box.Addressed (fun other => (s.nodes other).online = true) name) :
    (s.set name ((s.nodes name).withInbox box)).Ordered :=
  ordered.set rfl addressed (ordered.drained name)

omit [DecidableEq N] in
theorem Inbox.Addressed.fly {online : N → Prop} {box : Inbox N} {sender : N}
    {message : MeshMessage} (addressed : box.Addressed online name) (on : online sender) :
    { box with inFlight := box.inFlight ++ [(sender, message)] : Inbox N }.Addressed online
      name :=
  { addressed with
    inFlight := by
      intro other found listed
      rcases List.mem_append.mp listed with before | fresh
      · exact addressed.inFlight other found before
      · cases List.mem_singleton.mp fresh
        exact on }

theorem Mesh.Ordered.send (ordered : s.Ordered) {sender receiver : N}
    (online : (s.nodes sender).online = true) (message : MeshMessage) :
    (s.send sender receiver message).Ordered :=
  ordered.withInbox fun on => (ordered.addressed receiver on).fly online

omit [DecidableEq N] in
theorem Mesh.Ordered.broadcast (ordered : s.Ordered) {sender : N}
    (online : (s.nodes sender).online = true) (message : MeshMessage) :
    (s.broadcast sender message).Ordered := by
  have running := congrFun (Mesh.field_broadcast MeshNode.online (fun _ _ => rfl) s sender message)
  constructor
  · intro other on
    simp only [running] at on ⊢
    simp only [Mesh.broadcast, on, if_true]
    exact (ordered.addressed other on).fly online
  · intro other on
    rw [running] at on
    simp only [Mesh.broadcast, on, if_true]
    exact ordered.drained other on

omit [DecidableEq N] in
theorem Inbox.Addressed.call {online : N → Prop} {box : Inbox N} {server : N}
    (addressed : box.Addressed online name) (on : online server) (differ : server ≠ name)
    (thread : RequestingThread) (fileChanges : List FileChangeData) :
    (box.call thread server fileChanges).Addressed online name :=
  { addressed with
    requesting := by
      intro other sender fileChange listed
      by_cases same : other = thread
      · subst same
        simp only [Inbox.call, Function.update_self, List.mem_map] at listed
        obtain ⟨_, _, pair⟩ := listed
        cases pair
        exact ⟨on, differ⟩
      · simp only [Inbox.call, Function.update_of_ne same] at listed
        exact addressed.requesting other sender fileChange listed }

omit [DecidableEq N] in
theorem Inbox.Addressed.erase {online : N → Prop} {box : Inbox N}
    (addressed : box.Addressed online name) (index : Nat) :
    ({ box with inFlight := box.inFlight.eraseIdx index } : Inbox N).Addressed online name :=
  { addressed with
    inFlight := fun sender message listed =>
      addressed.inFlight sender message (List.mem_of_mem_eraseIdx listed) }

omit [DecidableEq N] in
theorem Inbox.Addressed.pop {online : N → Prop} {box : Inbox N} {first : N × MeshMessage}
    {todoUdp : List (N × MeshMessage)} (addressed : box.Addressed online name)
    (queue : box.todoUdp = first :: todoUdp) :
    ({ box with todoUdp } : Inbox N).Addressed online name :=
  { addressed with
    todoUdp := fun sender message listed =>
      addressed.todoUdp sender message (queue ▸ List.mem_cons_of_mem _ listed)
    answered := fun sender table listed =>
      addressed.answered sender table (queue ▸ List.mem_cons_of_mem _ listed) }

/-- What the threads do to the queues and tables. -/
theorem ordered_effect {action : ThreadAction} {next : Mesh N} (ordered : s.Ordered)
    (online : (s.nodes name).online = true)
    (effect : ThreadEffect platform name s action next) : next.Ordered := by
  have addressed := ordered.addressed name online
  cases effect with
  | scan =>
    have drained : applyChanges ((s.nodes name).scanned platform).fileHashes
        ((s.nodes name).scanned platform).fileChangeBuf =
          ((s.nodes name).scanned platform).prevDir := by
      simp only [MeshNode.scanned]
      rw [applyChanges_append, ordered.drained name online, applyChanges_scan]
    exact ordered.set rfl (fun _ => addressed) fun _ => drained
  | drain =>
    have applied : (s.set name (s.nodes name).drained).Ordered :=
      ordered.set rfl (fun _ => addressed) fun _ => ordered.drained name online
    refine applied.broadcast ?_ _
    rw [Mesh.set_nodes_self]
    exact online
  | ignore found => exact ordered.withInbox fun _ => addressed.erase _
  | @answer index newcomer table free differ found =>
    have running := addressed.inFlight _ _ (List.mem_of_getElem? found)
    have box : ({ (s.nodes name).toInbox with
        inFlight := (s.nodes name).inFlight.eraseIdx index
        arrived := some (newcomer, table) } : Inbox N).Addressed
          (fun other => (s.nodes other).online = true) name :=
      { addressed.erase index with
        arrived := by
          intro sender other arrived
          cases arrived
          exact ⟨running, differ⟩ }
    have answers : (s.set name ((s.nodes name).withInbox { (s.nodes name).toInbox with
        inFlight := (s.nodes name).inFlight.eraseIdx index
        arrived := some (newcomer, table) })).Ordered := ordered.withInbox fun _ => box
    refine answers.send ?_ _
    rw [Mesh.set_nodes_self]
    exact online
  | @queue index sender message differ other found =>
    have running := addressed.inFlight _ _ (List.mem_of_getElem? found)
    have box : ({ (s.nodes name).toInbox with
        inFlight := (s.nodes name).inFlight.eraseIdx index
        todoUdp := (s.nodes name).todoUdp ++ [(sender, message)] } : Inbox N).Addressed
          (fun other => (s.nodes other).online = true) name :=
      { addressed.erase index with
        todoUdp := by
          intro first found listed
          rcases List.mem_append.mp listed with before | fresh
          · exact addressed.todoUdp first found before
          · cases List.mem_singleton.mp fresh
            exact ⟨running, differ⟩
        answered := by
          intro first table listed
          rcases List.mem_append.mp listed with before | fresh
          · exact addressed.answered first table before
          · cases List.mem_singleton.mp fresh
            exact other table rfl }
    exact ordered.withInbox fun _ => box
  | @compareArrival newcomer table arrived idle =>
    obtain ⟨running, differ⟩ := addressed.arrived newcomer table arrived
    have box : ({ (s.nodes name).toInbox with arrived := none } : Inbox N).Addressed
        (fun other => (s.nodes other).online = true) name :=
      { addressed with
        arrived := by
          intro sender other arrived
          cases arrived }
    exact ordered.withInbox fun _ => box.call running differ _ _
  | @store sender table todoUdp queue =>
    have first : (sender, .response table) ∈ (s.nodes name).todoUdp :=
      queue ▸ List.mem_cons_self ..
    have box : ({ (s.nodes name).toInbox with
        todoUdp, tableManagerMessage := some (sender, table) } : Inbox N).Addressed
          (fun other => (s.nodes other).online = true) name :=
      { addressed.pop queue with
        slot := by
          intro other stored slot
          cases slot
          exact addressed.todoUdp _ _ first }
    exact ordered.withInbox fun _ => box
  | @call sender fileChanges todoUdp idle queue =>
    have first : (sender, .changes fileChanges) ∈ (s.nodes name).todoUdp :=
      queue ▸ List.mem_cons_self ..
    obtain ⟨running, differ⟩ := addressed.todoUdp _ _ first
    exact ordered.withInbox fun _ => (addressed.pop queue).call running differ _ _
  | discard queue => exact ordered.withInbox fun _ => addressed.pop queue
  | @take message free slot =>
    have box : ({ (s.nodes name).toInbox with
        tableManagerMessage := none, received := some message } : Inbox N).Addressed
          (fun other => (s.nodes other).online = true) name :=
      { addressed with
        slot := by
          intro sender table empty
          cases empty
        received := by
          intro sender table taken
          cases taken
          exact addressed.slot sender table slot }
    exact ordered.withInbox fun _ => box
  | @compareResponse sender table received idle =>
    obtain ⟨running, differ⟩ := addressed.received sender table received
    have box : ({ (s.nodes name).toInbox with received := none } : Inbox N).Addressed
        (fun other => (s.nodes other).online = true) name :=
      { addressed with
        received := by
          intro sender other received
          cases received }
    exact ordered.withInbox fun _ => box.call running differ _ _
  | @request thread server fileChange rest requesting =>
    have box : ((s.nodes name).requested platform (s.nodes server).folder thread fileChange
        rest).toInbox.Addressed (fun other => (s.nodes other).online = true) name :=
      { addressed with
        requesting := by
          intro other sender found listed
          by_cases same : other = thread
          · subst same
            simp only [MeshNode.requested, Function.update_self] at listed
            exact addressed.requesting other sender found
              (requesting ▸ List.mem_cons_of_mem _ listed)
          · simp only [MeshNode.requested, Function.update_of_ne same] at listed
            exact addressed.requesting other sender found listed }
    exact ordered.set rfl (fun _ => box) fun _ => ordered.drained name online

/-! ## The paths -/

/-- The collector does not meet two conflicts in a row. -/
def CollectsApart (s : Mesh N) (name : N) : ThreadAction → Prop
  | .compareArrival => ∀ newcomer table, (s.nodes name).arrived = some (newcomer, table) →
      ¬ AdjacentConflicts (s.nodes name).fileHashes table
  | _ => True

theorem cell_effect {action : ThreadAction} {next : Mesh N} (ordered : s.Ordered)
    (online : (s.nodes name).online = true) (apart : CollectsApart s name action)
    (effect : ThreadEffect platform name s action next) (path : WString) :
    next.cell path = s.cell path ∨ Gossip.Step (sharedHash platform path) (passes platform path)
      (s.cell path) (next.cell path) := by
  cases effect with
  | scan => exact Or.inr (mesh_scan online)
  | drain => exact Or.inr (mesh_drain ordered online)
  | ignore found => exact Or.inl (mesh_ignore found)
  | answer free differ found => exact Or.inr (mesh_answer ordered online free differ found)
  | queue differ other found => exact Or.inl (mesh_queue found)
  | compareArrival arrived idle =>
    exact Or.inr (mesh_compareArrival ordered online arrived idle (apart _ _ arrived))
  | store queue => exact Or.inr (mesh_store ordered online queue)
  | call idle queue => exact Or.inl (mesh_call idle queue)
  | @discard sender table todoUdp queue =>
    exact absurd (queue ▸ List.mem_cons_self ..)
      ((ordered.addressed name online).answered sender table)
  | take free slot => exact Or.inl (mesh_take free slot)
  | compareResponse received idle =>
    exact Or.inr (mesh_compareResponse ordered online received idle)
  | request requesting => exact mesh_request ordered online requesting

/-- The hash tells the contents of a path apart. -/
def HashesApart (platform : Platform) (contents : WString → Bytes → Prop) : Prop :=
  ∀ path bytes other, contents path bytes → contents path other →
    sharedHash platform path bytes = sharedHash platform path other → bytes = other

/-- The inboxes are in order, and each path is sound for what the users mean. -/
structure MeshInv (platform : Platform) (contents : WString → Bytes → Prop) (s : Mesh N) :
    Prop where
  ordered : s.Ordered
  sound : ∀ path, (s.cell path).Sound (sharedHash platform path) (contents path) s.user[path]?

/-- Users write contents that the hash tells apart, and only where all watchers have seen the last
    version; nodes come and go while nothing is on its way. -/
def calmStep (platform : Platform) (contents : WString → Bytes → Prop) (s : Mesh N) :
    MeshAction N → Prop
  | .change name path content => (∀ bytes, content = some bytes → contents path bytes) ∧
      ((s.nodes name).online = true → (s.cell path).Calm (sharedHash platform path) name)
  | .arrive _ => s.Quiescent platform
  | .leave _ => s.Quiescent platform
  | .duplicate _ _ => True
  | .run name action => CollectsApart s name action

variable {contents : WString → Bytes → Prop}

theorem effect_of_run {action : ThreadAction} {next : Mesh N}
    (taken : (if (s.nodes name).online then threadAct platform name s action else none) =
      some next) :
    (s.nodes name).online = true ∧ ThreadEffect platform name s action next := by
  split at taken
  · rename_i online
    exact ⟨online, threadEffect_of_act taken⟩
  · cases taken

theorem user_effect {action : ThreadAction} {next : Mesh N}
    (effect : ThreadEffect platform name s action next) : next.user = s.user := by
  cases effect <;> rfl

theorem meshInv_run {action : ThreadAction} {next : Mesh N}
    (apart : Apart platform contents) (hashes : HashesApart platform contents)
    (inv : MeshInv platform contents s) (online : (s.nodes name).online = true)
    (allowed : CollectsApart s name action)
    (effect : ThreadEffect platform name s action next) : MeshInv platform contents next := by
  refine ⟨ordered_effect inv.ordered online effect, fun path => ?_⟩
  rw [user_effect effect]
  rcases cell_effect inv.ordered online allowed effect path with same | step
  · rw [same]
    exact inv.sound path
  · exact step.sound (inv.sound path) (hashes path) (apart path)

/-! ## Users and the network -/

/-- A node whose user has written a file or deleted it. -/
def MeshNode.edited (node : MeshNode N) (path : WString) (content : Option Bytes) : MeshNode N :=
  { node with folder := node.folder.set path content }

theorem cell_edited (s : Mesh N) (name : N) (path : WString) (content : Option Bytes)
    (other : WString) :
    (s.set name ((s.nodes name).edited path content)).cell other =
      if path = other then
        { s.cell other with held := Function.update (s.cell other).held name content }
      else s.cell other := by
  have cell : (s.set name ((s.nodes name).edited path content)).cell other = { s.cell other with
      held := Function.update (s.cell other).held name
        ((s.nodes name).folder.set path content)[other]? } := by
    apply Gossip.Cell.ext
    · exact Mesh.field_set_same (fun node => node.online = true) _ _ _ rfl
    · exact Mesh.field_set (fun node => node.folder[other]?) ..
    · exact Mesh.field_set_same (fun node => node.prevDir[other]?) _ _ _ rfl
    · exact Mesh.field_set_same (fun node => node.fileHashes[other]?) _ _ _ rfl
    · funext sender receiver item
      apply propext
      have inbox : (if receiver = name then ((s.nodes name).edited path content).toInbox
          else (s.nodes receiver).toInbox) = (s.nodes receiver).toInbox := by
        split
        · rename_i same
          rw [same]
          rfl
        · rfl
      rw [Mesh.waits_set_inbox, inbox]
      · exact Iff.rfl
      · exact ⟨rfl, rfl⟩
  rw [cell]
  split
  · rename_i same
    rw [← same, set_self]
  · rename_i differ
    rw [set_of_ne differ]
    exact Gossip.Cell.ext rfl (Function.update_eq_self ..) rfl rfl rfl

theorem meshInv_change {path : WString} {content : Option Bytes}
    (hashes : HashesApart platform contents) (inv : MeshInv platform contents s)
    (allowed : calmStep platform contents s (.change name path content)) :
    MeshInv platform contents { s.set name ((s.nodes name).edited path content) with
      user := if (s.nodes name).online then s.user.set path content else s.user } := by
  obtain ⟨known, calm⟩ := allowed
  have ordered : (s.set name ((s.nodes name).edited path content)).Ordered :=
    inv.ordered.set rfl (inv.ordered.addressed name) (inv.ordered.drained name)
  refine ⟨⟨ordered.addressed, ordered.drained⟩, fun other => ?_⟩
  · show ((s.set name ((s.nodes name).edited path content)).cell other).Sound _ _ _
    rw [cell_edited]
    by_cases online : (s.nodes name).online = true
    · rw [if_pos online]
      by_cases same : path = other
      · subst same
        rw [if_pos rfl, set_self]
        exact (inv.sound path).write (hashes path) online (calm online) known
      · rw [if_neg same, set_of_ne same]
        exact inv.sound other
    · rw [if_neg online]
      by_cases same : path = other
      · subst same
        rw [if_pos rfl]
        exact (inv.sound path).edit online known
      · rw [if_neg same]
        exact inv.sound other

theorem meshInv_duplicate {index : Nat} {sender : N} {message : MeshMessage}
    (inv : MeshInv platform contents s)
    (found : (s.nodes name).inFlight[index]? = some (sender, message)) :
    MeshInv platform contents (s.send sender name message) := by
  have listed := List.mem_of_getElem? found
  refine ⟨?_, fun path => ?_⟩
  · exact inv.ordered.withInbox fun on =>
      (inv.ordered.addressed name on).fly ((inv.ordered.addressed name on).inFlight _ _ listed)
  · have same : (s.send sender name message).cell path = s.cell path := by
      apply cell_of_inbox
      · intro first item waits
        rcases waits_flying.mp waits with before | ⟨rfl, bears⟩
        · exact before
        · exact .flying listed bears
      · intro first item _ waits
        exact waits_flying.mpr (Or.inl waits)
    rw [same]
    exact inv.sound path

omit [DecidableEq N] in
theorem not_waits_empty {sender : N} {path : WString} {item : Gossip.Item UInt64} :
    ¬ (Inbox.empty : Inbox N).Waits sender path item := by
  intro waits
  cases waits with
  | requesting thread listed => cases listed
  | arrived at' => cases at'
  | received at' => cases at'
  | slot at' => cases at'
  | queued listed => cases listed
  | flying listed => cases listed

omit [DecidableEq N] in
theorem Mesh.Quiescent.idle (quiescent : s.Quiescent platform) {path : WString} {sender other : N}
    {item : Gossip.Item UInt64} : ¬ (s.cell path).waits sender other item := by
  rintro ⟨here, there, _, waits | ⟨_, listed, _⟩⟩
  · rw [(quiescent other there).inbox] at waits
    exact not_waits_empty waits
  · rw [(quiescent sender here).buffer] at listed
    cases listed

omit [DecidableEq N] in
theorem Mesh.Quiescent.quiet (quiescent : s.Quiescent platform) (ordered : s.Ordered)
    (path : WString) : (s.cell path).Quiet (sharedHash platform path) := by
  have seen (node : N) (online : (s.nodes node).online = true) :
      (s.nodes node).prevDir[path]? = (s.nodes node).folder[path]?.map (sharedHash platform path) := by
    rw [(quiescent node online).scanned, table_getElem?]
  refine ⟨fun _ _ _ => quiescent.idle, seen, fun node online => ?_⟩
  have drained := ordered.drained node online
  rw [(quiescent node online).buffer] at drained
  have shown : (s.nodes node).fileHashes = (s.nodes node).prevDir := drained
  show (s.nodes node).fileHashes[path]? = _
  rw [shown]
  exact seen node online

theorem meshInv_leave (inv : MeshInv platform contents s) (quiescent : s.Quiescent platform) :
    MeshInv platform contents (s.set name (.stopped (s.nodes name).folder)) := by
  have others {other : N}
      (online : ((s.set name (.stopped (s.nodes name).folder)).nodes other).online = true) :
      other ≠ name ∧ (s.nodes other).online = true := by
    rw [Mesh.set_nodes] at online
    split at online
    · cases online
    · exact ⟨‹_›, online⟩
  refine ⟨⟨fun other online => ?_, fun other online => ?_⟩, fun path => ?_⟩
  · obtain ⟨differ, before⟩ := others online
    rw [Mesh.set_nodes_of_ne s differ, (quiescent other before).inbox]
    refine ⟨?_, ?_, ?_, ?_, ?_, ?_, ?_⟩ <;> simp [Inbox.empty]
  · obtain ⟨differ, before⟩ := others online
    rw [Mesh.set_nodes_of_ne s differ]
    exact inv.ordered.drained other before
  · apply (inv.sound path).leave (quiescent.quiet inv.ordered path)
    · exact fun other online => (others online).2
    · refine Mesh.field_set_same (fun node => node.folder[path]?) _ _ _ rfl
    · intro other online
      show ((s.set name (.stopped (s.nodes name).folder)).nodes other).prevDir[path]? = _
      rw [Mesh.set_nodes_of_ne s (others online).1]
      rfl
    · rintro sender other item ⟨here, there, _, waits | ⟨_, listed, _⟩⟩
      · obtain ⟨differ, before⟩ := others there
        rw [Mesh.set_nodes_of_ne s differ, (quiescent other before).inbox] at waits
        exact not_waits_empty waits
      · obtain ⟨differ, before⟩ := others here
        rw [Mesh.set_nodes_of_ne s differ, (quiescent sender before).buffer] at listed
        cases listed

/-- The mesh in which a node has started, before it announces itself. -/
def Mesh.startNode (platform : Platform) (s : Mesh N) (name : N) : Mesh N :=
  s.set name (.started platform (s.nodes name).folder)

theorem startNode_inbox (quiescent : s.Quiescent platform) {other : N}
    (online : ((s.startNode platform name).nodes other).online = true) :
    ((s.startNode platform name).nodes other).toInbox = Inbox.empty := by
  rw [Mesh.startNode, Mesh.set_nodes] at online ⊢
  split at online
  · rename_i same
    rw [if_pos same]
    rfl
  · rename_i differ
    rw [if_neg differ]
    exact (quiescent other online).inbox

theorem startNode_buffer (quiescent : s.Quiescent platform) {other : N}
    (online : ((s.startNode platform name).nodes other).online = true) :
    ((s.startNode platform name).nodes other).fileChangeBuf = [] := by
  rw [Mesh.startNode, Mesh.set_nodes] at online ⊢
  split at online
  · rename_i same
    rw [if_pos same]
    rfl
  · rename_i differ
    rw [if_neg differ]
    exact (quiescent other online).buffer

theorem meshInv_arrive [Fintype N] (inv : MeshInv platform contents s)
    (quiescent : s.Quiescent platform) (offline : ¬ (s.nodes name).online = true) :
    MeshInv platform contents { (s.startNode platform name).broadcast name
      (.arrival ((s.nodes name).folder.table platform)) with
        user := if ∃ other, (s.nodes other).online = true then (s.nodes name).folder ∪ s.user
          else (s.nodes name).folder } := by
  have started : (s.startNode platform name).Ordered := by
    refine ⟨fun other online => ?_, fun other online => ?_⟩
    · rw [startNode_inbox quiescent online]
      refine ⟨?_, ?_, ?_, ?_, ?_, ?_, ?_⟩ <;> simp [Inbox.empty]
    · rw [Mesh.startNode, Mesh.set_nodes] at online ⊢
      split at online
      · rename_i same
        rw [if_pos same]
        rfl
      · rename_i differ
        rw [if_neg differ]
        exact inv.ordered.drained other online
  have running : ((s.startNode platform name).nodes name).online = true := by
    rw [Mesh.startNode, Mesh.set_nodes_self]
    rfl
  have ordered := started.broadcast running (.arrival ((s.nodes name).folder.table platform))
  refine ⟨⟨ordered.addressed, ordered.drained⟩, fun path => ?_⟩
  have table : ((s.nodes name).folder.table platform)[path]? =
      (s.nodes name).folder[path]?.map (sharedHash platform path) := table_getElem? ..
  apply (inv.sound path).arrive (quiescent.quiet inv.ordered path) offline
  · intro alone
    have none : ¬ ∃ other, (s.nodes other).online = true := fun ⟨other, on⟩ => alone other on
    simp only [if_neg none]
    rfl
  · intro other on
    have some' : ∃ other, (s.nodes other).online = true := ⟨other, on⟩
    simp only [if_pos some']
    exact Std.ExtTreeMap.getElem?_union
  · intro other
    have same := congrFun (Mesh.field_broadcast MeshNode.online (fun _ _ => rfl)
      (s.startNode platform name) name (.arrival ((s.nodes name).folder.table platform))) other
    show (((s.startNode platform name).broadcast name _).nodes other).online = true ↔ _
    rw [same, Mesh.startNode, Mesh.set_nodes]
    split
    · rename_i self
      exact ⟨fun _ => Or.inl self, fun _ => rfl⟩
    · rename_i differ
      exact ⟨Or.inr, fun either => either.resolve_left differ⟩
  · refine (Mesh.field_broadcast (fun node => node.folder[path]?) (fun _ _ => rfl) ..).trans ?_
    exact Mesh.field_set_same (fun node => node.folder[path]?) _ _ _ rfl
  · refine (Mesh.field_broadcast (fun node => node.prevDir[path]?) (fun _ _ => rfl) ..).trans ?_
    refine (Mesh.field_set (fun node => node.prevDir[path]?) ..).trans ?_
    exact congrArg (Function.update _ name) table
  · refine (Mesh.field_broadcast (fun node => node.fileHashes[path]?) (fun _ _ => rfl) ..).trans ?_
    refine (Mesh.field_set (fun node => node.fileHashes[path]?) ..).trans ?_
    exact congrArg (Function.update _ name) table
  · intro sender other item
    have silent : ¬ ((s.startNode platform name).cell path).waits sender other item := by
      rintro ⟨here, there, _, waits | ⟨_, listed, _⟩⟩
      · rw [startNode_inbox quiescent there] at waits
        exact not_waits_empty waits
      · rw [startNode_buffer quiescent here] at listed
        cases listed
    refine (Mesh.waits_broadcast ..).trans ((or_iff_right silent).trans ?_)
    constructor
    · rintro ⟨here, there, differ, rfl, bears⟩
      rw [Mesh.startNode, Mesh.set_nodes_of_ne s differ.symm] at there
      refine ⟨rfl, there, ?_⟩
      rwa [MeshMessage.Bears, table] at bears
    · rintro ⟨rfl, there, bears⟩
      have differ : other ≠ sender := by
        rintro rfl
        exact offline there
      refine ⟨running, ?_, differ.symm, rfl, ?_⟩
      · rw [Mesh.startNode, Mesh.set_nodes_of_ne s differ]
        exact there
      · rwa [MeshMessage.Bears, table]

/-! ## Runs -/

theorem meshInv_step [Fintype N] {action : MeshAction N} {next : Mesh N}
    (apart : Apart platform contents) (hashes : HashesApart platform contents)
    (inv : MeshInv platform contents s) (allowed : calmStep platform contents s action)
    (taken : meshStep platform action s = some next) : MeshInv platform contents next := by
  cases action with
  | change name path content =>
    cases taken
    exact meshInv_change hashes inv allowed
  | arrive name =>
    simp only [meshStep] at taken
    split at taken
    · cases taken
    · cases taken
      exact meshInv_arrive inv allowed ‹_›
  | leave name =>
    simp only [meshStep] at taken
    split at taken <;> cases taken
    exact meshInv_leave inv allowed
  | duplicate name index =>
    simp only [meshStep] at taken
    split at taken <;> cases taken
    exact meshInv_duplicate inv ‹_›
  | run name action =>
    obtain ⟨online, effect⟩ := effect_of_run taken
    exact meshInv_run apart hashes inv online allowed effect

omit [DecidableEq N] in
theorem meshInv_start {folders : N → Folder}
    (known : ∀ name path bytes, (folders name)[path]? = some bytes → contents path bytes) :
    MeshInv platform contents (Mesh.start folders) := by
  have offline {name : N} : ¬ ((Mesh.start folders).nodes name).online = true := by
    intro online
    cases online
  refine ⟨⟨fun name online => absurd online offline, fun name online => absurd online offline⟩,
    fun path => ⟨fun name bytes => known name path bytes, ?_, ?_, ?_, ?_, ?_, ?_, ?_⟩⟩
  · rintro sender name item ⟨here, _⟩
    exact absurd here offline
  · exact fun online => absurd online offline
  · rintro sender name digest ⟨here, _⟩
    exact absurd here offline
  · rintro newcomer name digest ⟨here, _⟩
    exact absurd here offline
  · rintro newcomer name ⟨here, _⟩
    exact absurd here offline
  · rintro sender newcomer digest ⟨here, _⟩
    exact absurd here offline
  · exact fun online => absurd online offline

theorem meshInv_of_run [Fintype N] {folders : N → Folder} {actions : List (MeshAction N)}
    (apart : Apart platform contents) (hashes : HashesApart platform contents)
    (known : ∀ name path bytes, (folders name)[path]? = some bytes → contents path bytes)
    (run : Run (meshStep platform) (calmStep platform contents) (Mesh.start folders) actions s) :
    MeshInv platform contents s :=
  run.invariant (fun _ _ _ inv allowed taken => meshInv_step apart hashes inv allowed taken)
    (meshInv_start known)

/-! ## Two nodes -/

/-- A mesh of two nodes. -/
def Mesh.pair (first second : MeshNode Bool) (user : Folder) : Mesh Bool where
  nodes := fun name => cond name second first
  user

section Pair

variable (first second node : MeshNode Bool) (user meant : Folder)

@[simp] theorem pair_first : (Mesh.pair first second user).nodes false = first := rfl

@[simp] theorem pair_second : (Mesh.pair first second user).nodes true = second := rfl

@[simp] theorem pair_user : (Mesh.pair first second user).user = user := rfl

@[simp] theorem pair_meant :
    (⟨(Mesh.pair first second user).nodes, meant⟩ : Mesh Bool) = Mesh.pair first second meant := rfl

@[simp] theorem pair_set_first :
    (Mesh.pair first second user).set false node = Mesh.pair node second user := by
  simp only [Mesh.pair, Mesh.set, Mesh.mk.injEq, and_true]
  funext name
  cases name <;> simp

@[simp] theorem pair_set_second :
    (Mesh.pair first second user).set true node = Mesh.pair first node user := by
  simp only [Mesh.pair, Mesh.set, Mesh.mk.injEq, and_true]
  funext name
  cases name <;> simp

@[simp] theorem pair_broadcast (sender : Bool) (message : MeshMessage) :
    (Mesh.pair first second user).broadcast sender message = Mesh.pair
      (if first.online then { first with
        inFlight := first.inFlight ++ [(sender, message)] } else first)
      (if second.online then { second with
        inFlight := second.inFlight ++ [(sender, message)] } else second) user := by
  simp only [Mesh.pair, Mesh.broadcast, Mesh.mk.injEq, and_true]
  funext name
  cases name <;> rfl

end Pair

omit [DecidableEq N] in
theorem started_quiescent (platform : Platform) (folder : Folder) :
    (MeshNode.started platform folder : MeshNode N).Quiescent platform := ⟨rfl, rfl, rfl⟩

theorem table_empty (platform : Platform) : (∅ : Folder).table platform = ∅ := rfl

theorem updates_empty : updates ∅ ∅ = [] := rfl

/-- Two nodes with empty folders are started one after the other. -/
theorem run_pair_joined (contents : WString → Bytes → Prop) : ∃ actions,
    Run (meshStep .win32) (calmStep .win32 contents) (Mesh.start fun _ => ∅) actions
      (Mesh.pair (.started .win32 ∅) (.started .win32 ∅) ∅) := by
  have offline : Mesh.start (fun _ => ∅) = Mesh.pair (.stopped ∅) (.stopped ∅) ∅ := by
    simp [Mesh.start, Mesh.pair]
  have first : Run (meshStep .win32) (calmStep .win32 contents)
      (Mesh.pair (.stopped ∅) (.stopped ∅) ∅) [.arrive false, .run false (.collect 0)]
      (Mesh.pair (.started .win32 ∅) (.stopped ∅) ∅) := by
    apply Run.cons
    · intro name online
      cases name <;> cases online
    · simp [meshStep, MeshNode.stopped, MeshNode.started, Inbox.empty]
      rfl
    · apply Run.one trivial
      simp [meshStep, threadAct, MeshNode.stopped, MeshNode.started, Inbox.empty]
  have second : Run (meshStep .win32) (calmStep .win32 contents)
      (Mesh.pair (.started .win32 ∅) (.stopped ∅) ∅)
      [.arrive true, .run true (.collect 0), .run false (.collect 0)]
      (Mesh.pair { MeshNode.started .win32 ∅ with arrived := some (true, ∅) }
        { MeshNode.started .win32 ∅ with inFlight := [(false, .response ∅)] } ∅) := by
    apply Run.cons
    · intro name online
      cases name
      · exact started_quiescent .win32 ∅
      · cases online
    · simp [meshStep, MeshNode.stopped, MeshNode.started, Inbox.empty]
      rfl
    · apply (Run.of_exec _).allow
      · simp [calmStep, CollectsApart]
      · simp [exec, meshStep, threadAct, MeshNode.stopped, MeshNode.started, Inbox.empty, Mesh.send,
          table_empty]
        rfl
  have third : Run (meshStep .win32) (calmStep .win32 contents)
      (Mesh.pair { MeshNode.started .win32 ∅ with arrived := some (true, ∅) }
        { MeshNode.started .win32 ∅ with inFlight := [(false, .response ∅)] } ∅)
      [.run false .compareArrival, .run true (.collect 0), .run true .handle, .run true .take,
        .run true .compareResponse]
      (Mesh.pair (.started .win32 ∅) (.started .win32 ∅) ∅) := by
    apply Run.cons
    · rintro newcomer table ⟨⟩ ⟨_, _, _, _, ⟨_, _, _, found, _⟩, _⟩
      simp at found
    · simp [meshStep, threadAct, MeshNode.call, dealWithHashTable_eq, updates_empty, table_empty,
        EraseWalk.survivors, MeshNode.started, MeshNode.stopped, Inbox.empty]
      rfl
    · apply (Run.of_exec _).allow
      · simp [calmStep, CollectsApart]
      · simp [exec, meshStep, threadAct, MeshNode.call, dealWithHashTable_eq, updates_empty,
          table_empty, EraseWalk.survivors, MeshNode.started, MeshNode.stopped, Inbox.empty]
  exact ⟨_, offline ▸ first.append (second.append third)⟩

/-- A request to a server with the same folder changes nothing, unless it deletes. -/
theorem request_same (platform : Platform) (folder : Folder) {fileChange : FileChangeData}
    (kept : fileChange.change ≠ .deletion) :
    Folder.request platform folder folder fileChange = folder := by
  rw [Folder.request]
  split
  · contradiction
  · split
    · rfl
    · split
      · rename_i bytes found
        apply Std.ExtTreeMap.ext_getElem?
        intro path
        by_cases same : path = fileChange.filePath
        · rw [same, set_self, found]
        · rw [set_of_ne (Ne.symm same)]
      · rfl

/-- The one file that the users of the two nodes write. -/
def onlyFile (path : WString) (bytes : Bytes) : Prop := path = wide "\\a" ∧ bytes = [1]

theorem onlyFile_apart : Apart .win32 onlyFile := by
  rintro path bytes held ⟨_, rfl⟩ ⟨_, rfl⟩ _
  rfl

theorem onlyFile_hashesApart : HashesApart .win32 onlyFile := by
  rintro path bytes other ⟨_, rfl⟩ ⟨_, rfl⟩ _
  rfl

/-- A folder with one file. -/
def onlyFolder : Folder := (∅ : Folder).set (wide "\\a") (some [1])

/-- The announcement of its file. -/
def onlyChange : FileChangeData :=
  ⟨wide "\\a", sharedHash .win32 (wide "\\a") [1], .addition⟩

theorem onlyFolder_scanned : getDirectoryChangesScan (onlyFolder.table .win32) ∅ =
    ([onlyChange], onlyFolder.table .win32) := rfl

theorem onlyFolder_asked : Folder.request .win32 ∅ onlyFolder onlyChange = onlyFolder := rfl

theorem onlyFolder_again : Folder.request .win32 onlyFolder onlyFolder onlyChange = onlyFolder :=
  request_same .win32 onlyFolder (by simp [onlyChange])

/-- Both nodes run with empty folders. -/
def pairJoined : Mesh Bool := Mesh.pair (.started .win32 ∅) (.started .win32 ∅) ∅

/-- The user of the first node has written the file. -/
def pairChanged : Mesh Bool :=
  Mesh.pair { MeshNode.started .win32 ∅ with folder := onlyFolder } (.started .win32 ∅) onlyFolder

/-- The watcher of the first node has seen it. -/
def pairScanned : Mesh Bool :=
  Mesh.pair
    { MeshNode.started .win32 onlyFolder with fileHashes := ∅, fileChangeBuf := [onlyChange] }
    (.started .win32 ∅) onlyFolder

/-- The second node has requested it. -/
def pairRequested : Mesh Bool :=
  Mesh.pair { MeshNode.started .win32 onlyFolder with fileHashes := applyChanges ∅ [onlyChange] }
    { MeshNode.started .win32 ∅ with folder := onlyFolder } onlyFolder

/-- The watcher of the second node has seen it. -/
def pairSeen : Mesh Bool :=
  Mesh.pair { MeshNode.started .win32 onlyFolder with fileHashes := applyChanges ∅ [onlyChange] }
    { MeshNode.started .win32 onlyFolder with fileHashes := ∅, fileChangeBuf := [onlyChange] }
    onlyFolder

/-- Both nodes have announced it. -/
def pairShared : Mesh Bool :=
  Mesh.pair { MeshNode.started .win32 onlyFolder with fileHashes := applyChanges ∅ [onlyChange] }
    { MeshNode.started .win32 onlyFolder with fileHashes := applyChanges ∅ [onlyChange] }
    onlyFolder

theorem pair_changed :
    meshStep .win32 (.change false (wide "\\a") (some [1])) pairJoined = some pairChanged := by
  simp [meshStep, pairJoined, pairChanged, onlyFolder, MeshNode.started, MeshNode.stopped]

theorem pair_scanned : meshStep .win32 (.run false .scan) pairChanged = some pairScanned := by
  simp [meshStep, threadAct, pairChanged, pairScanned, table_empty, onlyFolder_scanned,
    MeshNode.started, MeshNode.stopped]

theorem pair_requested : exec (meshStep .win32) [.run false .drain, .run false (.collect 0),
    .run true (.collect 0), .run true .handle, .run true (.request .handler)] pairScanned =
    some pairRequested := by
  simp [exec, meshStep, threadAct, MeshNode.call, pairScanned, pairRequested, table_empty,
    onlyFolder_asked, MeshNode.started, MeshNode.stopped, Inbox.empty]

theorem pair_seen : meshStep .win32 (.run true .scan) pairRequested = some pairSeen := by
  simp [meshStep, threadAct, pairRequested, pairSeen, table_empty, onlyFolder_scanned,
    MeshNode.started, MeshNode.stopped]

theorem pair_shared : exec (meshStep .win32) [.run true .drain, .run true (.collect 0),
    .run false (.collect 0), .run false .handle, .run false (.request .handler)] pairSeen =
    some pairShared := by
  simp [exec, meshStep, threadAct, MeshNode.call, pairSeen, pairShared, onlyFolder_again,
    MeshNode.started, MeshNode.stopped, Inbox.empty]

/-- The steps from a change to the last request. -/
theorem run_pair_shared {ok : Mesh Bool → MeshAction Bool → Prop}
    (scanned : ok pairChanged (.run false .scan)) (seen : ok pairRequested (.run true .scan))
    (free : ∀ s, ∀ action ∈ [MeshAction.run false .drain, .run false (.collect 0),
      .run true (.collect 0), .run true .handle, .run true (.request .handler), .run true .drain,
      .run false .handle, .run false (.request .handler)], ok s action) :
    Run (meshStep .win32) ok pairChanged ([.run false .scan] ++ ([.run false .drain,
      .run false (.collect 0), .run true (.collect 0), .run true .handle,
      .run true (.request .handler)] ++ ([.run true .scan] ++ [.run true .drain,
      .run true (.collect 0), .run false (.collect 0), .run false .handle,
      .run false (.request .handler)]))) pairShared := by
  apply (Run.one scanned pair_scanned).append
  apply Run.append ((Run.of_exec pair_requested).allow _)
  · apply (Run.one seen pair_seen).append
    apply (Run.of_exec pair_shared).allow
    intro s action member
    apply free s action
    simp only [List.mem_cons, List.not_mem_nil, or_false] at member ⊢
    tauto
  · intro s action member
    apply free s action
    simp only [List.mem_cons, List.not_mem_nil, or_false] at member ⊢
    tauto

theorem pairJoined_quiescent : pairJoined.Quiescent .win32 := by
  intro name _
  cases name <;> exact started_quiescent .win32 ∅

/-! ## Convergence -/

omit [DecidableEq N] in
theorem calm_of_quiescent (inv : MeshInv platform contents s) (quiescent : s.Quiescent platform)
    (online : (s.nodes name).online = true) (path : WString) :
    (s.cell path).Calm (sharedHash platform path) name := by
  have quiet := quiescent.quiet inv.ordered path
  have held {other : N} (on : (s.nodes other).online = true) :
      (s.cell path).held other = s.user[path]? := (inv.sound path).held_of_quiet quiet on
  refine ⟨quiet.idle, fun other on => ?_, fun other on _ => (quiet.seen other on).symm⟩
  rw [quiet.seen other on, quiet.seen name online, held on, held online]

/-- Nodes that are started, stopped and written to with the necessary care have the folder that
    their users mean whenever nothing is on its way. The care: nodes start and stop in quiescent
    states; a user writes a path where no message about it waits, all watchers have seen the same
    and the other nodes hold it; the hash and the test of `requestFiles` tell the contents of a path
    apart; no conflicting entries are adjacent when a collector compares tables. Datagrams arrive
    as they were sent, in any order and some of them twice, none is lost or too long, and a transfer
    is one step that always ends. -/
theorem mesh_folders_eq_user [Fintype N] {folders : N → Folder} {actions : List (MeshAction N)}
    (apart : Apart platform contents) (hashes : HashesApart platform contents)
    (known : ∀ name path bytes, (folders name)[path]? = some bytes → contents path bytes)
    (run : Run (meshStep platform) (calmStep platform contents) (Mesh.start folders) actions s)
    (quiescent : s.Quiescent platform) (online : (s.nodes name).online = true) :
    (s.nodes name).folder = s.user := by
  have inv := meshInv_of_run apart hashes known run
  apply Std.ExtTreeMap.ext_getElem?
  intro path
  exact (inv.sound path).held_of_quiet (quiescent.quiet inv.ordered path) online

/-- The first of two nodes that run gets a file. -/
theorem run_pair_changed : ∃ actions, Run (meshStep .win32) (calmStep .win32 onlyFile)
    (Mesh.start fun _ => ∅) actions pairChanged := by
  have known (name : Bool) (path : WString) (bytes : Bytes)
      (found : (∅ : Folder)[path]? = some bytes) : onlyFile path bytes := by
    simp at found
  obtain ⟨actions, joined⟩ := run_pair_joined onlyFile
  have calm : calmStep .win32 onlyFile pairJoined (.change false (wide "\\a") (some [1])) := by
    refine ⟨fun bytes written => ⟨rfl, by simpa using written.symm⟩, fun online => ?_⟩
    exact calm_of_quiescent (meshInv_of_run onlyFile_apart onlyFile_hashesApart known joined)
      pairJoined_quiescent online _
  exact ⟨_, joined.append (Run.one calm pair_changed)⟩

/-- One of two nodes gets a file, which the other has when both are quiescent. -/
theorem mesh_folders_eq_user_pair : ∃ (actions : List (MeshAction Bool)) (s : Mesh Bool),
    Run (meshStep .win32) (calmStep .win32 onlyFile) (Mesh.start fun _ => ∅) actions s ∧
    (s.nodes true).folder = s.user ∧ s.user[wide "\\a"]? = some [1] := by
  obtain ⟨actions, changed⟩ := run_pair_changed
  have shared : Run (meshStep .win32) (calmStep .win32 onlyFile) pairChanged _ pairShared :=
    run_pair_shared trivial trivial (by simp [calmStep, CollectsApart])
  refine ⟨_, _, changed.append shared, ?_, set_self ..⟩
  apply mesh_folders_eq_user onlyFile_apart onlyFile_hashesApart (by simp)
    (changed.append shared) _ rfl
  intro name _
  cases name <;> exact ⟨rfl, rfl, rfl⟩

end FileSync
