import FileSync.MeshConvergence
import Mathlib.Algebra.BigOperators.Group.Finset.Piecewise
import Mathlib.Algebra.Order.BigOperators.Group.Finset
import Mathlib.Data.Fintype.BigOperators
import Mathlib.Tactic.Ring

/-!
# A mesh settles

Left alone, the threads of a mesh have only a bounded number of steps to take: the work that is
left decreases with each of them, echoes included, and where none is left the mesh is quiescent.
-/

namespace FileSync

open TransitionSystem EraseWalk

/-! ## Counting changes -/

/-- The paths at which two tables differ. -/
def differing (old new : FileTable) : Finset WString :=
  (old.keys ++ new.keys).toFinset.filter fun path => old[path]? ≠ new[path]?

theorem mem_differing {old new : FileTable} {path : WString} :
    path ∈ differing old new ↔ old[path]? ≠ new[path]? := by
  rw [differing, Finset.mem_filter, and_iff_right_iff_imp]
  intro differ
  rw [List.mem_toFinset, List.mem_append, Std.ExtTreeMap.mem_keys, Std.ExtTreeMap.mem_keys,
    Std.ExtTreeMap.mem_iff_isSome_getElem?, Std.ExtTreeMap.mem_iff_isSome_getElem?]
  cases before : old[path]? with
  | some hash => exact Or.inl rfl
  | none =>
    cases after : new[path]? with
    | some hash => exact Or.inr rfl
    | none => exact absurd (before.trans after.symm) differ

theorem bears_some_iff {fileChange : FileChangeData} {path : WString} :
    (∃ item, fileChange.Bears path item) ↔ fileChange.filePath = path := by
  simp only [FileChangeData.Bears, noticeAt]
  split
  · rename_i same
    simp [same]
  · rename_i differ
    simp [differ]

/-- A scan finds each path that differs once. -/
theorem length_scan (prevDir newDir : FileTable) :
    (updates prevDir newDir ++ deletions prevDir newDir).length =
      (differing prevDir newDir).card := by
  have nodup : ((updates prevDir newDir ++ deletions prevDir newDir).map
      FileChangeData.filePath).Nodup := by
    rw [List.map_append]
    refine List.Nodup.append ?_ ?_ ?_
    · refine List.pairwise_map.mpr ((updates_pairwise prevDir newDir).imp ?_)
      intro first second less same
      rw [same] at less
      simp at less
    · simp only [deletions, List.map_map]
      exact (List.Nodup.filter _ Std.ExtTreeMap.nodup_keys).map fun _ _ same => same
    · intro path updated deleted
      obtain ⟨update, listed, rfl⟩ := List.mem_map.mp updated
      obtain ⟨deletion, gone, same⟩ := List.mem_map.mp deleted
      have present := (mem_updates.mp listed).1
      have absent := (mem_deletions.mp gone).2.2.2
      rw [← same, absent] at present
      cases present
  have mem (path : WString) : path ∈ ((updates prevDir newDir ++ deletions prevDir newDir).map
      FileChangeData.filePath) ↔ prevDir[path]? ≠ newDir[path]? := by
    constructor
    · intro listed
      obtain ⟨fileChange, listed, same⟩ := List.mem_map.mp listed
      obtain ⟨item, bears⟩ := bears_some_iff.mpr same
      exact (bears_scan.mp ⟨fileChange, listed, bears⟩).1
    · intro differ
      obtain ⟨fileChange, listed, bears⟩ := bears_scan.mpr ⟨differ, rfl⟩
      exact List.mem_map.mpr ⟨fileChange, listed, bears_some_iff.mp ⟨_, bears⟩⟩
  rw [← List.length_map (f := FileChangeData.filePath), ← List.toFinset_card_of_nodup nodup]
  congr 1
  ext path
  rw [List.mem_toFinset, mem, mem_differing]

/-- A scan that sees what is meant brings the watcher's table nearer to it. -/
theorem card_differing_of_meant {prevDir newDir meant : FileTable}
    (fresh : ∀ path : WString, prevDir[path]? ≠ newDir[path]? → newDir[path]? = meant[path]?) :
    (differing prevDir meant).card =
      (differing prevDir newDir).card + (differing newDir meant).card := by
  rw [← Finset.card_union_of_disjoint]
  · congr 1
    ext path
    simp only [Finset.mem_union, mem_differing]
    by_cases same : prevDir[path]? = newDir[path]?
    · simp [same]
    · simp [← fresh path same, same]
  · refine Finset.disjoint_left.mpr fun path first second => ?_
    exact mem_differing.mp second (fresh path (mem_differing.mp first))

theorem size_le_of_subset {small large : FileTable}
    (within : ∀ path : WString, small[path]? ≠ none → large[path]? ≠ none) :
    small.size ≤ large.size := by
  rw [← Std.ExtTreeMap.length_keys, ← Std.ExtTreeMap.length_keys,
    ← List.toFinset_card_of_nodup Std.ExtTreeMap.nodup_keys,
    ← List.toFinset_card_of_nodup Std.ExtTreeMap.nodup_keys]
  refine Finset.card_le_card fun path listed => ?_
  rw [List.mem_toFinset, Std.ExtTreeMap.mem_keys, Std.ExtTreeMap.mem_iff_isSome_getElem?,
    Option.isSome_iff_ne_none] at listed ⊢
  exact within path listed

/-- A comparison of tables requests at most what the foreign table has. -/
theorem length_dealWithHashTable (own foreign : FileTable) (ignoreEdits : Bool) :
    (dealWithHashTable own foreign ignoreEdits).length ≤ foreign.size := by
  rw [dealWithHashTable_eq, ← Std.ExtTreeMap.length_toList]
  exact (survivors_sublist ..).length_le.trans (List.length_filterMap_le ..)

/-! ## What is left to do -/

/-- The steps that a datagram on its way may still cost, where `meant` bounds the size of the
    tables that are sent. -/
def MeshMessage.flight (meant : Nat) : MeshMessage → Nat
  | .arrival table => table.size + meant + 6
  | .response table => table.size + 4
  | .changes fileChanges => fileChanges.length + 2

/-- The steps that a queued message may still cost. -/
def MeshMessage.queued : MeshMessage → Nat
  | .arrival _ => 1
  | .response table => table.size + 3
  | .changes fileChanges => fileChanges.length + 1

/-- The steps that each queue of a node may still cost. -/
structure Inbox.Load where
  inFlight : Nat
  todoUdp : Nat
  slot : Nat
  arrived : Nat
  received : Nat
  requesting : Nat

/-- What waits at a node, by its queues. -/
def Inbox.load {N : Type} (meant : Nat) (box : Inbox N) : Inbox.Load where
  inFlight := (box.inFlight.map fun datagram => datagram.2.flight meant).sum
  todoUdp := (box.todoUdp.map fun message => message.2.queued).sum
  slot := box.tableManagerMessage.elim 0 fun message => message.2.size + 2
  arrived := box.arrived.elim 0 fun message => message.2.size + 1
  received := box.received.elim 0 fun message => message.2.size + 1
  requesting := (box.requesting .collector).length + (box.requesting .handler).length +
    (box.requesting .tableManager).length

/-- The steps of all queues. -/
def Inbox.Load.total (load : Inbox.Load) : Nat :=
  load.inFlight + load.todoUdp + load.slot + load.arrived + load.received + load.requesting

/-- The steps that a node among a number of nodes may still cost: each change that its watcher has
    not seen is seen, broadcast and processed by all nodes. -/
def MeshNode.work {N : Type} (nodes : Nat) (meant : FileTable) (node : MeshNode N) : Nat :=
  if node.online then (3 * nodes + 2) * (differing node.prevDir meant).card +
    (3 * nodes + 1) * node.fileChangeBuf.length + (node.toInbox.load meant.size).total
  else 0

variable {N : Type} [DecidableEq N] [Fintype N] {platform : Platform} {s : Mesh N} {name : N}

/-- The steps that a mesh may still take without its users. -/
def Mesh.work (platform : Platform) (s : Mesh N) : Nat :=
  ∑ name, (s.nodes name).work (Fintype.card N) (s.user.table platform)

/-- A sum over the nodes after the update of one node. -/
theorem Mesh.sum_set (field : MeshNode N → Nat) (s : Mesh N) (name : N) (node : MeshNode N) :
    ∑ other, field ((s.set name node).nodes other) + field (s.nodes name) =
      ∑ other, field (s.nodes other) + field node := by
  have updated := Finset.sum_update_of_mem (Finset.mem_univ name)
    (fun other => field (s.nodes other)) (field node)
  have split := Finset.sum_eq_add_sum_sdiff_singleton_of_mem (Finset.mem_univ name)
    (fun other => field (s.nodes other))
  rw [Mesh.field_set, updated, split]
  omega

omit [DecidableEq N] in
/-- A sum over the nodes after a broadcast. -/
theorem Mesh.sum_broadcast (field : MeshNode N → Nat) (cost : Nat) (s : Mesh N) (sender : N)
    (message : MeshMessage) (costs : ∀ node : MeshNode N,
      field { node with inFlight := node.inFlight ++ [(sender, message)] } ≤ field node + cost) :
    ∑ other, field ((s.broadcast sender message).nodes other) ≤
      ∑ other, field (s.nodes other) + Fintype.card N * cost := by
  have each : ∀ other ∈ Finset.univ, field ((s.broadcast sender message).nodes other) ≤
      field (s.nodes other) + cost := by
    intro other _
    simp only [Mesh.broadcast]
    split
    · exact costs _
    · exact Nat.le_add_right ..
  refine (Finset.sum_le_sum each).trans ?_
  rw [Finset.sum_add_distrib, Finset.sum_const_nat fun _ _ => rfl, Finset.card_univ]

omit [DecidableEq N] [Fintype N] in
theorem work_flying (nodes : Nat) (meant : FileTable) (node : MeshNode N) (sender : N)
    (message : MeshMessage) :
    { node with inFlight := node.inFlight ++ [(sender, message)] : MeshNode N }.work nodes meant ≤
      node.work nodes meant + message.flight meant.size := by
  simp only [MeshNode.work, Inbox.load, Inbox.Load.total, List.map_append, List.sum_append,
    List.map_cons, List.map_nil, List.sum_cons, List.sum_nil]
  split <;> omega

omit [DecidableEq N] [Fintype N] in
theorem sum_eraseIdx {α : Type} (weight : α → Nat) {l : List α} {index : Nat} {erased : α}
    (found : l[index]? = some erased) :
    ((l.eraseIdx index).map weight).sum + weight erased = (l.map weight).sum := by
  induction l generalizing index with
  | nil => simp at found
  | cons x l ih =>
    cases index with
    | zero =>
      cases found
      simp [Nat.add_comm]
    | succ index =>
      have rest := ih found
      simp only [List.eraseIdx_cons_succ, List.map_cons, List.sum_cons]
      omega

theorem work_set (platform : Platform) (s : Mesh N) (name : N) (node : MeshNode N) :
    (s.set name node).work platform +
        (s.nodes name).work (Fintype.card N) (s.user.table platform) =
      s.work platform + node.work (Fintype.card N) (s.user.table platform) :=
  Mesh.sum_set (fun node => node.work (Fintype.card N) (s.user.table platform)) s name node

theorem work_set_lt {node : MeshNode N}
    (less : node.work (Fintype.card N) (s.user.table platform) <
      (s.nodes name).work (Fintype.card N) (s.user.table platform)) :
    (s.set name node).work platform < s.work platform := by
  have sum := work_set platform s name node
  omega

theorem work_send (platform : Platform) (s : Mesh N) (sender receiver : N) (message : MeshMessage) :
    (s.send sender receiver message).work platform ≤
      s.work platform + message.flight (s.user.table platform).size := by
  have sum := work_set platform s receiver { s.nodes receiver with
    inFlight := (s.nodes receiver).inFlight ++ [(sender, message)] }
  have flying := work_flying (Fintype.card N) (s.user.table platform) (s.nodes receiver) sender
    message
  rw [Mesh.send]
  refine Nat.le_of_add_le_add_right (sum.le.trans ?_)
  rw [Nat.add_assoc, Nat.add_comm (message.flight _)]
  exact Nat.add_le_add_left flying _

omit [DecidableEq N] in
theorem work_broadcast (platform : Platform) (s : Mesh N) (sender : N) (message : MeshMessage) :
    (s.broadcast sender message).work platform ≤
      s.work platform + Fintype.card N * message.flight (s.user.table platform).size :=
  Mesh.sum_broadcast (fun node => node.work (Fintype.card N) (s.user.table platform)) _ s sender
    message fun node => work_flying _ _ node sender message

omit [DecidableEq N] [Fintype N] in
theorem work_withInbox (nodes : Nat) (meant : FileTable) {node : MeshNode N} (box : Inbox N)
    (online : node.online = true) :
    (node.withInbox box).work nodes meant + (node.toInbox.load meant.size).total =
      node.work nodes meant + (box.load meant.size).total := by
  have running : (node.withInbox box).online = true := online
  rw [MeshNode.work, MeshNode.work, if_pos running, if_pos online]
  exact Nat.add_right_comm ..

theorem work_withInbox_lt {box : Inbox N} (online : (s.nodes name).online = true)
    (less : (box.load (s.user.table platform).size).total <
      ((s.nodes name).toInbox.load (s.user.table platform).size).total) :
    (s.set name ((s.nodes name).withInbox box)).work platform < s.work platform := by
  apply work_set_lt
  have node := work_withInbox (Fintype.card N) (s.user.table platform) box online
  omega

omit [DecidableEq N] [Fintype N] in
/-- A call of `requestFiles` adds its changes to what is left. -/
theorem total_call (meant : Nat) (box : Inbox N) {thread : RequestingThread} (server : N)
    (fileChanges : List FileChangeData) (idle : box.requesting thread = []) :
    ((box.call thread server fileChanges).load meant).total =
      (box.load meant).total + fileChanges.length := by
  have length : (fileChanges.map fun fileChange => (server, fileChange)).length =
      fileChanges.length := List.length_map ..
  cases thread <;> simp [Inbox.load, Inbox.Load.total, Inbox.call, idle] <;> omega

/-- Each step of a thread leaves less to do, scans that find nothing apart. -/
theorem work_effect {contents : WString → Bytes → Prop} {action : ThreadAction} {next : Mesh N}
    (inv : MeshInv platform contents s) (online : (s.nodes name).online = true)
    (effect : ThreadEffect platform name s action next)
    (finds : action = .scan → (s.nodes name).prevDir ≠ (s.nodes name).folder.table platform) :
    next.work platform < s.work platform := by
  cases effect with
  | scan =>
    apply work_set_lt
    have found := finds rfl
    generalize meant : s.user.table platform = table
    have fresh (path : WString)
        (unseen : (s.nodes name).prevDir[path]? ≠ ((s.nodes name).folder.table platform)[path]?) :
        ((s.nodes name).folder.table platform)[path]? = table[path]? := by
      rw [table_getElem?] at unseen ⊢
      rw [← meant, table_getElem?]
      exact congrArg _ ((inv.sound path).fresh online unseen)
    have positive : 0 < (differing (s.nodes name).prevDir
        ((s.nodes name).folder.table platform)).card := by
      refine Finset.card_pos.mpr ?_
      by_contra empty
      refine found (Std.ExtTreeMap.ext_getElem? fun path => ?_)
      by_contra differ
      exact empty ⟨path, mem_differing.mpr differ⟩
    have paths := card_differing_of_meant fresh
    have length := length_scan (s.nodes name).prevDir ((s.nodes name).folder.table platform)
    simp only [MeshNode.work, MeshNode.scanned, online, if_true]
    rw [List.length_append, length, paths]
    generalize (differing (s.nodes name).prevDir ((s.nodes name).folder.table platform)).card =
      scanned at positive
    have weight : (3 * Fintype.card N + 2) * scanned =
        (3 * Fintype.card N + 1) * scanned + scanned := by ring
    rw [Nat.mul_add, Nat.mul_add, weight]
    omega
  | drain idle nonempty =>
    generalize buffer : (s.nodes name).fileChangeBuf = fileChangeBuf
    have sum := work_set platform s name (s.nodes name).drained
    have sent := work_broadcast platform (s.set name (s.nodes name).drained) name
      (.changes fileChangeBuf)
    have cleared : (s.nodes name).work (Fintype.card N) (s.user.table platform) =
        (s.nodes name).drained.work (Fintype.card N) (s.user.table platform) +
          (3 * Fintype.card N + 1) * fileChangeBuf.length := by
      simp only [MeshNode.work, MeshNode.drained, online, if_true, buffer, List.length_nil]
      omega
    have positive : 0 < fileChangeBuf.length := List.length_pos_iff.mpr (buffer ▸ nonempty)
    have several := Nat.le_mul_of_pos_right (Fintype.card N) positive
    have weight : (3 * Fintype.card N + 1) * fileChangeBuf.length =
        3 * (Fintype.card N * fileChangeBuf.length) + fileChangeBuf.length := by ring
    rw [MeshMessage.flight, Nat.mul_add] at sent
    omega
  | @ignore index message found =>
    apply work_withInbox_lt online
    have erased := sum_eraseIdx (fun datagram => datagram.2.flight (s.user.table platform).size)
      found
    have positive : 0 < message.flight (s.user.table platform).size := by
      cases message <;> simp [MeshMessage.flight]
    simp only [Inbox.load, Inbox.Load.total] at erased ⊢
    omega
  | @answer index newcomer table free differ found =>
    have erased := sum_eraseIdx (fun datagram => datagram.2.flight (s.user.table platform).size)
      found
    -- What the table shows is meant, so the answer is not longer than the table that is meant.
    have small : (s.nodes name).fileHashes.size ≤ (s.user.table platform).size := by
      refine size_le_of_subset fun path shown => ?_
      have unanswered : (s.cell path).waits newcomer name .unanswered :=
        ⟨(inv.ordered.addressed name online).inFlight _ _ (List.mem_of_getElem? found), online,
          differ, Or.inl (.flying (List.mem_of_getElem? found) (Or.inr rfl))⟩
      rw [table_getElem?, ← (((inv.sound path).unanswered unanswered).1 shown).2]
      exact shown
    generalize answering : ({ (s.nodes name).toInbox with
      inFlight := (s.nodes name).inFlight.eraseIdx index
      arrived := some (newcomer, table) } : Inbox N) = box
    have cost : (box.load (s.user.table platform).size).total + (s.user.table platform).size + 5 =
        ((s.nodes name).toInbox.load (s.user.table platform).size).total := by
      have weight : (MeshMessage.arrival table).flight (s.user.table platform).size =
        table.size + (s.user.table platform).size + 6 := rfl
      rw [← answering]
      simp only [Inbox.load, Inbox.Load.total, free, Option.elim] at erased ⊢
      omega
    have sum := work_set platform s name ((s.nodes name).withInbox box)
    have same : (s.set name ((s.nodes name).withInbox box)).user = s.user := rfl
    have node := work_withInbox (Fintype.card N) (s.user.table platform) box online
    have sent := work_send platform (s.set name ((s.nodes name).withInbox box)) name
      newcomer (.response (s.nodes name).fileHashes)
    rw [same, MeshMessage.flight] at sent
    omega
  | @queue index sender message differ other found =>
    apply work_withInbox_lt online
    have erased := sum_eraseIdx (fun datagram => datagram.2.flight (s.user.table platform).size)
      found
    have less : message.queued < message.flight (s.user.table platform).size := by
      cases message <;> simp [MeshMessage.flight, MeshMessage.queued]
    simp only [Inbox.load, Inbox.Load.total, List.map_append, List.sum_append, List.map_cons,
      List.map_nil, List.sum_cons, List.sum_nil] at erased ⊢
    omega
  | @compareArrival newcomer table arrived idle =>
    apply work_withInbox_lt online
    have length := length_dealWithHashTable (s.nodes name).fileHashes table true
    rw [total_call _ { (s.nodes name).toInbox with arrived := none } _ _ idle]
    simp only [Inbox.load, Inbox.Load.total, arrived, Option.elim]
    omega
  | @store sender table todoUdp queue =>
    apply work_withInbox_lt online
    simp only [Inbox.load, Inbox.Load.total, queue, List.map_cons, List.sum_cons,
      MeshMessage.queued, Option.elim]
    omega
  | @call sender fileChanges todoUdp idle queue =>
    apply work_withInbox_lt online
    rw [total_call _ { (s.nodes name).toInbox with todoUdp } _ _ idle]
    simp only [Inbox.load, Inbox.Load.total, queue, List.map_cons, List.sum_cons,
      MeshMessage.queued]
    omega
  | @discard sender table todoUdp queue =>
    apply work_withInbox_lt online
    simp only [Inbox.load, Inbox.Load.total, queue, List.map_cons, List.sum_cons,
      MeshMessage.queued]
    omega
  | @take message free slot =>
    apply work_withInbox_lt online
    simp only [Inbox.load, Inbox.Load.total, free, slot, Option.elim]
    omega
  | @compareResponse sender table received idle =>
    apply work_withInbox_lt online
    have length := length_dealWithHashTable (s.nodes name).fileHashes table false
    rw [total_call _ { (s.nodes name).toInbox with received := none } _ _ idle]
    simp only [Inbox.load, Inbox.Load.total, received, Option.elim]
    omega
  | @request thread server fileChange rest requesting =>
    apply work_set_lt
    cases thread <;>
      simp [MeshNode.work, MeshNode.requested, online, Inbox.load, Inbox.Load.total, requesting]

/-! ## Rest -/

/-- No thread has anything to do. A watcher has when the folder is not as it saw it. -/
def Mesh.AtRest (platform : Platform) (s : Mesh N) : Prop :=
  ∀ name action,
    (action = .scan → (s.nodes name).prevDir ≠ (s.nodes name).folder.table platform) →
    meshStep platform (.run name action) s = none

/-- Only threads act, on what there is to do. -/
def leftAlone (platform : Platform) (s : Mesh N) : MeshAction N → Prop
  | .run name action => CollectsApart s name action ∧
      (action = .scan → (s.nodes name).prevDir ≠ (s.nodes name).folder.table platform)
  | _ => False

/-- Where nothing is left to do, nothing is on its way. -/
theorem quiescent_of_atRest (rest : s.AtRest platform) : s.Quiescent platform := by
  intro name online
  have idle (action : ThreadAction) (finds : action = .scan →
      (s.nodes name).prevDir ≠ (s.nodes name).folder.table platform) :
      threadAct platform name s action = none := by
    have none := rest name action finds
    rwa [meshStep, if_pos online] at none
  have requesting (thread : RequestingThread) : (s.nodes name).requesting thread = [] := by
    have none := idle (.request thread) (by simp)
    cases queue : (s.nodes name).requesting thread with
    | nil => rfl
    | cons first others => simp [threadAct, queue] at none
  have arrived : (s.nodes name).arrived = none := by
    have none := idle .compareArrival (by simp)
    cases at' : (s.nodes name).arrived with
    | none => rfl
    | some message => simp [threadAct, at', requesting] at none
  have received : (s.nodes name).received = none := by
    have none := idle .compareResponse (by simp)
    cases at' : (s.nodes name).received with
    | none => rfl
    | some message => simp [threadAct, at', requesting] at none
  have slot : (s.nodes name).tableManagerMessage = none := by
    have none := idle .take (by simp)
    cases at' : (s.nodes name).tableManagerMessage with
    | none => rfl
    | some message => simp [threadAct, at', requesting, received] at none
  have todoUdp : (s.nodes name).todoUdp = [] := by
    have none := idle .handle (by simp)
    cases queue : (s.nodes name).todoUdp with
    | nil => rfl
    | cons first others =>
      obtain ⟨sender, message⟩ := first
      cases message <;> simp [threadAct, queue, requesting] at none
  have inFlight : (s.nodes name).inFlight = [] := by
    have none := idle (.collect 0) (by simp)
    cases queue : (s.nodes name).inFlight with
    | nil => rfl
    | cons first others =>
      obtain ⟨sender, message⟩ := first
      by_cases own : sender = name
      · simp [threadAct, queue, requesting, arrived, own] at none
      · cases message <;> simp [threadAct, queue, requesting, arrived, own] at none
  refine ⟨?_, ?_, ?_⟩
  · have threads : (s.nodes name).requesting = fun _ => [] := funext requesting
    exact Inbox.ext inFlight todoUdp slot arrived received threads
  · have none := idle .drain (by simp)
    by_contra nonempty
    simp [threadAct, requesting, nonempty] at none
  · by_contra unseen
    have none := idle .scan fun _ => unseen
    cases none

variable {contents : WString → Bytes → Prop}

/-- Each step of a thread takes away from what is left to do. -/
theorem length_le_work (apart : Apart platform contents) (hashes : HashesApart platform contents)
    {later : List (MeshAction N)} {t : Mesh N}
    (run : Run (meshStep platform) (leftAlone platform) s later t) :
    MeshInv platform contents s →
      MeshInv platform contents t ∧ t.user = s.user ∧
        later.length + t.work platform ≤ s.work platform := by
  induction run with
  | nil s =>
    intro inv
    exact ⟨inv, rfl, (Nat.zero_add _).le⟩
  | @cons s next t action later allowed taken rest ih =>
    intro inv
    cases action with
    | run name action =>
      obtain ⟨online, effect⟩ := effect_of_run taken
      obtain ⟨after, user, length⟩ :=
        ih (meshInv_run apart hashes inv online allowed.1 effect)
      have less := work_effect inv online effect allowed.2
      refine ⟨after, user.trans (user_effect effect), ?_⟩
      rw [List.length_cons]
      omega
    | _ => exact allowed.elim

/-- Left alone after such a run of a mesh as `mesh_folders_eq_user` speaks of, its threads come to
    rest after a bounded number of steps, and then all nodes have the folder that is meant. No
    conflicting entries are adjacent when a collector compares tables, and a watcher scans when the
    folder is not as it has seen it. A transfer is one step that always ends. -/
theorem mesh_settles {folders : N → Folder} {actions later : List (MeshAction N)} {t : Mesh N}
    (apart : Apart platform contents) (hashes : HashesApart platform contents)
    (known : ∀ name path bytes, (folders name)[path]? = some bytes → contents path bytes)
    (run : Run (meshStep platform) (calmStep platform contents) (Mesh.start folders) actions s)
    (alone : Run (meshStep platform) (leftAlone platform) s later t) :
    later.length ≤ s.work platform ∧ (t.AtRest platform →
      ∀ name, (t.nodes name).online = true → (t.nodes name).folder = s.user) := by
  obtain ⟨inv, user, length⟩ :=
    length_le_work apart hashes alone (meshInv_of_run apart hashes known run)
  refine ⟨by omega, fun rest name online => ?_⟩
  have quiescent := quiescent_of_atRest rest
  apply Std.ExtTreeMap.ext_getElem?
  intro path
  rw [← user]
  exact (inv.sound path).held_of_quiet (quiescent.quiet inv.ordered path) online

/-! ## Two nodes at rest -/

/-- From the change of the first node on only threads act. -/
theorem run_pair_leftAlone : ∃ later,
    Run (meshStep .win32) (leftAlone .win32) pairChanged later pairShared := by
  have unseen : (∅ : FileTable) ≠ onlyFolder.table .win32 := by
    intro same
    have found := congrArg (fun table : FileTable => table[wide "\\a"]?) same
    rw [table_getElem?, onlyFolder, set_self] at found
    simp at found
  refine ⟨_, run_pair_shared ?_ ?_ ?_⟩
  · exact ⟨trivial, fun _ => unseen⟩
  · exact ⟨trivial, fun _ => unseen⟩
  · simp [leftAlone, CollectsApart]

theorem pairShared_atRest : pairShared.AtRest .win32 := by
  intro name action scans
  cases name <;> cases action with
  | scan => exact absurd rfl (scans rfl)
  | _ => rfl

/-- A file that one of two nodes gets reaches the other. -/
theorem mesh_settles_pair : ∃ later : List (MeshAction Bool),
    Run (meshStep .win32) (leftAlone .win32) pairChanged later pairShared ∧
    later.length ≤ pairChanged.work .win32 ∧
    (pairShared.nodes true).folder = onlyFolder := by
  obtain ⟨actions, changed⟩ := run_pair_changed
  obtain ⟨later, alone⟩ := run_pair_leftAlone
  have settles := mesh_settles onlyFile_apart onlyFile_hashesApart (by simp) changed alone
  exact ⟨later, alone, settles.1, settles.2 pairShared_atRest true rfl⟩

omit [DecidableEq N] [Fintype N] in
/-- A quiescent node in step with the folder that is meant has little to do after a change. -/
theorem work_of_quiescent {nodes : Nat} {node : MeshNode N} {user : Folder} {path : WString}
    {content : Option Bytes} (quiescent : node.Quiescent platform) (same : node.folder = user) :
    node.work nodes ((user.set path content).table platform) ≤ 3 * nodes + 2 := by
  have one : differing node.prevDir ((user.set path content).table platform) ⊆ {path} := by
    intro other differ
    rw [mem_differing, quiescent.scanned, same, table_getElem?, table_getElem?] at differ
    by_contra elsewhere
    rw [Finset.mem_singleton] at elsewhere
    exact differ (by rw [set_of_ne (Ne.symm elsewhere)])
  have few : (differing node.prevDir ((user.set path content).table platform)).card ≤ 1 :=
    (Finset.card_le_card one).trans (Finset.card_singleton path).le
  have idle : (node.toInbox.load ((user.set path content).table platform).size).total = 0 := by
    rw [quiescent.inbox]
    rfl
  rw [MeshNode.work, idle, quiescent.buffer]
  split
  · simpa using Nat.mul_le_mul_left (3 * nodes + 2) few
  · exact Nat.zero_le _

/-- In a quiescent state of such a run a change costs the threads of all nodes together a number of
    steps that only depends on the number of nodes, and reaches all of them. As above, the hashes
    tell the contents apart and a transfer is one step that always ends. -/
theorem change_settles {folders : N → Folder} {actions later : List (MeshAction N)}
    {next t : Mesh N} {path : WString} {content : Option Bytes}
    (apart : Apart platform contents) (hashes : HashesApart platform contents)
    (known : ∀ name path bytes, (folders name)[path]? = some bytes → contents path bytes)
    (run : Run (meshStep platform) (calmStep platform contents) (Mesh.start folders) actions s)
    (quiescent : s.Quiescent platform) (online : (s.nodes name).online = true)
    (written : ∀ bytes, content = some bytes → contents path bytes)
    (changed : meshStep platform (.change name path content) s = some next)
    (alone : Run (meshStep platform) (leftAlone platform) next later t) :
    later.length ≤ Fintype.card N * (3 * Fintype.card N + 2) ∧ (t.AtRest platform →
      ∀ other, (t.nodes other).online = true →
        (t.nodes other).folder = s.user.set path content) := by
  have inv := meshInv_of_run apart hashes known run
  have allowed : calmStep platform contents s (.change name path content) :=
    ⟨written, fun on => calm_of_quiescent inv quiescent on path⟩
  have settles := mesh_settles apart hashes known
    (run.append (Run.one allowed changed)) alone
  cases changed
  rw [if_pos online] at settles
  refine ⟨settles.1.trans ?_, settles.2⟩
  have each : ∀ other ∈ Finset.univ, (s.nodes other).work (Fintype.card N)
      ((s.user.set path content).table platform) ≤ 3 * Fintype.card N + 2 := by
    intro other _
    by_cases on : (s.nodes other).online = true
    · refine work_of_quiescent (quiescent other on) (Std.ExtTreeMap.ext_getElem? fun place => ?_)
      exact (inv.sound place).held_of_quiet (quiescent.quiet inv.ordered place) on
    · rw [MeshNode.work, if_neg on]
      exact Nat.zero_le _
  have total := Finset.sum_le_card_nsmul Finset.univ _ _ each
  rw [Finset.card_univ] at total
  refine le_trans (le_of_eq ?_) total
  exact congrArg (fun work : N → Nat => ∑ other, work other) (Mesh.field_set_same (fun node =>
    node.work (Fintype.card N) ((s.user.set path content).table platform)) s name
      ((s.nodes name).edited path content) rfl)

/-- Two nodes need at most sixteen steps. -/
theorem change_settles_pair : ∃ later : List (MeshAction Bool),
    Run (meshStep .win32) (leftAlone .win32) pairChanged later pairShared ∧
    later.length ≤ 16 ∧ (pairShared.nodes true).folder[wide "\\a"]? = some [1] := by
  obtain ⟨actions, joined⟩ := run_pair_joined onlyFile
  obtain ⟨later, alone⟩ := run_pair_leftAlone
  have settles := change_settles onlyFile_apart onlyFile_hashesApart (by simp) joined
    pairJoined_quiescent rfl (fun bytes written => ⟨rfl, by simpa using written.symm⟩)
    pair_changed alone
  refine ⟨later, alone, settles.1, ?_⟩
  rw [settles.2 pairShared_atRest true rfl, set_self]

end FileSync
