import FileSync.Mesh

/-!
# What the steps of a mesh do to one path

At each path a step of a thread moves what waits from one queue to the next, or is a step of the
value that the nodes keep there.
-/

namespace FileSync

open TransitionSystem

section Fields

variable {N : Type} {β : Type}

/-- A broadcast changes nothing but what is on its way. -/
theorem Mesh.field_broadcast (field : MeshNode N → β)
    (kept : ∀ (node : MeshNode N) inFlight, field { node with inFlight } = field node)
    (s : Mesh N) (sender : N) (message : MeshMessage) :
    (fun other => field ((s.broadcast sender message).nodes other)) =
      fun other => field (s.nodes other) := by
  funext other
  simp only [Mesh.broadcast]
  split
  · exact kept ..
  · rfl

theorem Mesh.waits_iff (s : Mesh N) (path : WString) (sender other : N)
    (item : Gossip.Item UInt64) : (s.cell path).waits sender other item ↔
      (s.nodes sender).online = true ∧ (s.nodes other).online = true ∧ sender ≠ other ∧
        ((s.nodes other).toInbox.Waits sender path item ∨ (s.nodes sender).Buffers path item) :=
  Iff.rfl

variable [DecidableEq N]

theorem Mesh.set_nodes (s : Mesh N) (name : N) (node : MeshNode N) (other : N) :
    (s.set name node).nodes other = if other = name then node else s.nodes other :=
  Function.update_apply ..

@[simp] theorem Mesh.set_nodes_self (s : Mesh N) (name : N) (node : MeshNode N) :
    (s.set name node).nodes name = node := Function.update_self ..

theorem Mesh.set_nodes_of_ne (s : Mesh N) {name other : N} (differ : other ≠ name)
    (node : MeshNode N) : (s.set name node).nodes other = s.nodes other :=
  Function.update_of_ne differ ..

/-- A field of the nodes after the update of one node. -/
theorem Mesh.field_set (field : MeshNode N → β) (s : Mesh N) (name : N) (node : MeshNode N) :
    (fun other => field ((s.set name node).nodes other)) =
      Function.update (fun other => field (s.nodes other)) name (field node) := by
  funext other
  rw [Mesh.set_nodes, Function.update_apply]
  split <;> rfl

/-- A field that a node keeps is kept by all nodes. -/
theorem Mesh.field_set_same (field : MeshNode N → β) (s : Mesh N) (name : N) (node : MeshNode N)
    (same : field node = field (s.nodes name)) :
    (fun other => field ((s.set name node).nodes other)) =
      fun other => field (s.nodes other) := by
  rw [Mesh.field_set, same]
  exact Function.update_eq_self ..

end Fields

variable {N : Type} [DecidableEq N] {platform : Platform} {s : Mesh N} {name : N} {path : WString}

/-! ## What waits -/

/-- A node with another inbox. -/
def MeshNode.withInbox (node : MeshNode N) (box : Inbox N) : MeshNode N :=
  { node with toInbox := box }

theorem Mesh.waits_set (s : Mesh N) {name : N} {node : MeshNode N}
    (same : node.online = (s.nodes name).online) (path : WString) (sender other : N)
    (item : Gossip.Item UInt64) :
    ((s.set name node).cell path).waits sender other item ↔
      (s.nodes sender).online = true ∧ (s.nodes other).online = true ∧ sender ≠ other ∧
        ((if other = name then node else s.nodes other).toInbox.Waits sender path item ∨
          (if sender = name then node else s.nodes sender).Buffers path item) := by
  have online := congrFun (Mesh.field_set_same MeshNode.online s name node same)
  rw [Mesh.waits_iff, online, online, Mesh.set_nodes, Mesh.set_nodes]

/-- Only what waits changes with the inbox of a node. -/
theorem cell_withInbox (s : Mesh N) (name : N) (box : Inbox N) (path : WString) :
    (s.set name ((s.nodes name).withInbox box)).cell path = { s.cell path with
      waits := ((s.set name ((s.nodes name).withInbox box)).cell path).waits } := by
  apply Gossip.Cell.ext
  · exact Mesh.field_set_same (fun node => node.online = true) _ _ _ rfl
  · exact Mesh.field_set_same (fun node => node.folder[path]?) _ _ _ rfl
  · exact Mesh.field_set_same (fun node => node.prevDir[path]?) _ _ _ rfl
  · exact Mesh.field_set_same (fun node => node.fileHashes[path]?) _ _ _ rfl
  · rfl

/-- What waits when a node has another inbox, with the same change buffer. -/
theorem Mesh.waits_set_inbox (s : Mesh N) (name : N) (node : MeshNode N)
    (same : node.online = (s.nodes name).online ∧
      node.fileChangeBuf = (s.nodes name).fileChangeBuf) (path : WString) (sender other : N)
    (item : Gossip.Item UInt64) :
    ((s.set name node).cell path).waits sender other item ↔
      (s.nodes sender).online = true ∧ (s.nodes other).online = true ∧ sender ≠ other ∧
        ((if other = name then node.toInbox else (s.nodes other).toInbox).Waits sender path item ∨
          (s.nodes sender).Buffers path item) := by
  have inbox : (if other = name then node else s.nodes other).toInbox =
      if other = name then node.toInbox else (s.nodes other).toInbox := by
    split <;> rfl
  have buffer : (if sender = name then node else s.nodes sender).Buffers path item ↔
      (s.nodes sender).Buffers path item := by
    split
    · rename_i sends
      rw [sends, MeshNode.Buffers, same.2]
      exact Iff.rfl
    · exact Iff.rfl
  rw [Mesh.waits_set s same.1, inbox, buffer]

/-- What waits after a change of an inbox waited before or is new, -/
theorem Mesh.waits_came_node (node : MeshNode N)
    (same : node.online = (s.nodes name).online ∧
      node.fileChangeBuf = (s.nodes name).fileChangeBuf)
    (new : N → Gossip.Item UInt64 → Prop)
    (came : ∀ sender item, node.toInbox.Waits sender path item →
      (s.nodes name).toInbox.Waits sender path item ∨ new sender item)
    {sender other : N} {item : Gossip.Item UInt64}
    (after : ((s.set name node).cell path).waits sender other item) :
    (s.cell path).waits sender other item ∨ (other = name ∧ new sender item) := by
  obtain ⟨here, there, differ, waits | buffered⟩ := (s.waits_set_inbox _ _ same ..).mp after
  · split at waits
    · rename_i receives
      subst receives
      exact (came sender item waits).imp (fun before => ⟨here, there, differ, Or.inl before⟩)
        fun fresh => ⟨rfl, fresh⟩
    · exact Or.inl ⟨here, there, differ, Or.inl waits⟩
  · exact Or.inl ⟨here, there, differ, Or.inr buffered⟩

/-- and what waited before still waits or is lost. -/
theorem Mesh.waits_kept_node (node : MeshNode N)
    (same : node.online = (s.nodes name).online ∧
      node.fileChangeBuf = (s.nodes name).fileChangeBuf)
    (lost : N → Gossip.Item UInt64 → Prop)
    (kept : ∀ sender item, sender ≠ name → (s.nodes name).toInbox.Waits sender path item →
      node.toInbox.Waits sender path item ∨ lost sender item)
    {sender other : N} {item : Gossip.Item UInt64}
    (before : (s.cell path).waits sender other item) :
    ((s.set name node).cell path).waits sender other item ∨ (other = name ∧ lost sender item) := by
  obtain ⟨here, there, differ, waits | buffered⟩ := before
  · by_cases receives : other = name
    · subst receives
      refine (kept sender item differ waits).imp (fun after => ?_) fun gone => ⟨rfl, gone⟩
      exact (s.waits_set_inbox _ _ same ..).mpr ⟨here, there, differ, Or.inl (by rwa [if_pos rfl])⟩
    · refine Or.inl ((s.waits_set_inbox _ _ same ..).mpr ⟨here, there, differ, Or.inl ?_⟩)
      rwa [if_neg receives]
  · exact Or.inl ((s.waits_set_inbox _ _ same ..).mpr ⟨here, there, differ, Or.inr buffered⟩)

theorem waits_withInbox (s : Mesh N) (name : N) (box : Inbox N) (path : WString) (sender other : N)
    (item : Gossip.Item UInt64) :
    ((s.set name ((s.nodes name).withInbox box)).cell path).waits sender other item ↔
      (s.nodes sender).online = true ∧ (s.nodes other).online = true ∧ sender ≠ other ∧
        ((if other = name then box else (s.nodes other).toInbox).Waits sender path item ∨
          (s.nodes sender).Buffers path item) :=
  s.waits_set_inbox name ((s.nodes name).withInbox box) ⟨rfl, rfl⟩ ..

theorem waits_came {box : Inbox N} (new : N → Gossip.Item UInt64 → Prop)
    (came : ∀ sender item, box.Waits sender path item →
      (s.nodes name).toInbox.Waits sender path item ∨ new sender item)
    {sender other : N} {item : Gossip.Item UInt64}
    (after : ((s.set name ((s.nodes name).withInbox box)).cell path).waits sender other item) :
    (s.cell path).waits sender other item ∨ (other = name ∧ new sender item) :=
  Mesh.waits_came_node ((s.nodes name).withInbox box) ⟨rfl, rfl⟩ new came after

theorem waits_kept {box : Inbox N} (lost : N → Gossip.Item UInt64 → Prop)
    (kept : ∀ sender item, sender ≠ name → (s.nodes name).toInbox.Waits sender path item →
      box.Waits sender path item ∨ lost sender item)
    {sender other : N} {item : Gossip.Item UInt64}
    (before : (s.cell path).waits sender other item) :
    ((s.set name ((s.nodes name).withInbox box)).cell path).waits sender other item ∨
      (other = name ∧ lost sender item) :=
  Mesh.waits_kept_node ((s.nodes name).withInbox box) ⟨rfl, rfl⟩ lost kept before

omit [DecidableEq N] in
/-- One more datagram on its way. -/
theorem waits_flying {box : Inbox N} {first sender : N} {message : MeshMessage}
    {item : Gossip.Item UInt64} :
    { box with inFlight := box.inFlight ++ [(sender, message)] : Inbox N }.Waits first path item ↔
      box.Waits first path item ∨ (first = sender ∧ message.Bears path item) := by
  constructor
  · intro waits
    cases waits with
    | requesting thread listed bears => exact Or.inl (.requesting thread listed bears)
    | arrived at' => exact Or.inl (.arrived at')
    | received at' => exact Or.inl (.received at')
    | slot at' => exact Or.inl (.slot at')
    | queued listed bears => exact Or.inl (.queued listed bears)
    | flying listed bears =>
      rcases List.mem_append.mp listed with before | fresh
      · exact Or.inl (.flying before bears)
      · cases List.mem_singleton.mp fresh
        exact Or.inr ⟨rfl, bears⟩
  · rintro (waits | ⟨rfl, bears⟩)
    · cases waits with
      | requesting thread listed bears => exact .requesting thread listed bears
      | arrived at' => exact .arrived at'
      | received at' => exact .received at'
      | slot at' => exact .slot at'
      | queued listed bears => exact .queued listed bears
      | flying listed bears => exact .flying (List.mem_append_left _ listed) bears
    · exact .flying (List.mem_append_right _ (List.mem_singleton_self _)) bears

omit [DecidableEq N] in
theorem Mesh.waits_broadcast (s : Mesh N) (sender : N) (message : MeshMessage) (path : WString)
    (first second : N) (item : Gossip.Item UInt64) :
    ((s.broadcast sender message).cell path).waits first second item ↔
      (s.cell path).waits first second item ∨ ((s.nodes first).online = true ∧
        (s.nodes second).online = true ∧ first ≠ second ∧ first = sender ∧
          message.Bears path item) := by
  have online := congrFun (Mesh.field_broadcast MeshNode.online (fun _ _ => rfl) s sender message)
  have buffer := congrFun (Mesh.field_broadcast (fun node => node.Buffers path item)
    (fun _ _ => rfl) s sender message)
  rw [Mesh.waits_iff, online, online, buffer, Mesh.waits_iff]
  constructor
  · rintro ⟨here, there, differ, waits | buffered⟩
    · simp only [Mesh.broadcast, there, if_true] at waits
      rcases waits_flying.mp waits with before | ⟨same, bears⟩
      · exact Or.inl ⟨here, there, differ, Or.inl before⟩
      · exact Or.inr ⟨here, there, differ, same, bears⟩
    · exact Or.inl ⟨here, there, differ, Or.inr buffered⟩
  · rintro (⟨here, there, differ, waits | buffered⟩ | ⟨here, there, differ, same, bears⟩)
    · refine ⟨here, there, differ, Or.inl ?_⟩
      simp only [Mesh.broadcast, there, if_true]
      exact waits_flying.mpr (Or.inl waits)
    · exact ⟨here, there, differ, Or.inr buffered⟩
    · refine ⟨here, there, differ, Or.inl ?_⟩
      simp only [Mesh.broadcast, there, if_true]
      exact waits_flying.mpr (Or.inr ⟨same, bears⟩)

/-- Items that only move on within an inbox leave the path alone. -/
theorem cell_of_inbox {box : Inbox N}
    (came : ∀ sender item, box.Waits sender path item →
      (s.nodes name).toInbox.Waits sender path item)
    (kept : ∀ sender item, sender ≠ name → (s.nodes name).toInbox.Waits sender path item →
      box.Waits sender path item) :
    (s.set name ((s.nodes name).withInbox box)).cell path = s.cell path := by
  rw [cell_withInbox]
  refine Gossip.Cell.ext rfl rfl rfl rfl ?_
  funext sender other item
  apply propext
  constructor
  · intro after
    exact (waits_came (fun _ _ => False) (fun sender item waits =>
      Or.inl (came sender item waits)) after).resolve_right And.right
  · intro before
    exact (waits_kept (fun _ _ => False) (fun sender item foreign waits =>
      Or.inl (kept sender item foreign waits)) before).resolve_right And.right

/-! ## Notices -/

/-- An Addition or Edit is a notice of its own path. -/
theorem bears_update {fileChange : FileChangeData} {item : Gossip.Item UInt64}
    (update : fileChange.change ≠ .deletion) :
    fileChange.Bears path item ↔
      fileChange.filePath = path ∧ item = .notice (some fileChange.fileHash) := by
  obtain ⟨own, hash, change⟩ := fileChange
  cases change with
  | deletion => exact absurd rfl update
  | _ =>
    simp only [FileChangeData.Bears, noticeAt]
    split
    · rename_i same
      simp [same]
    · rename_i differ
      simp [differ]

/-- The requests of a table comparison are notices of what differs, -/
theorem bears_updates {own foreign : FileTable} {item : Gossip.Item UInt64} :
    (∃ fileChange ∈ updates own foreign, fileChange.Bears path item) ↔
      item = .notice foreign[path]? ∧ foreign[path]? ≠ none ∧ own[path]? ≠ foreign[path]? := by
  constructor
  · rintro ⟨fileChange, listed, bears⟩
    obtain ⟨found, ⟨kind, before⟩ | ⟨kind, hash, before, differ⟩⟩ := mem_updates.mp listed
    · obtain ⟨rfl, rfl⟩ := (bears_update (by simp [kind])).mp bears
      simp [found, before]
    · obtain ⟨rfl, rfl⟩ := (bears_update (by simp [kind])).mp bears
      simp [found, before, differ]
  · rintro ⟨rfl, present, differ⟩
    obtain ⟨hash, found⟩ := Option.ne_none_iff_exists'.mp present
    rw [found] at differ ⊢
    cases before : own[path]? with
    | none =>
      exact ⟨⟨path, hash, .addition⟩, mem_updates.mpr ⟨found, Or.inl ⟨rfl, before⟩⟩,
        (bears_update (by simp)).mpr ⟨rfl, rfl⟩⟩
    | some other =>
      refine ⟨⟨path, hash, .edit⟩, mem_updates.mpr ⟨found, Or.inr ⟨rfl, other, before, ?_⟩⟩,
        (bears_update (by simp)).mpr ⟨rfl, rfl⟩⟩
      rintro rfl
      exact differ before

/-- or of what is absent, -/
theorem bears_absentEntries {own foreign : FileTable} {item : Gossip.Item UInt64} :
    (∃ fileChange ∈ absentEntries own foreign, fileChange.Bears path item) ↔
      item = .notice foreign[path]? ∧ own[path]? = none ∧ foreign[path]? ≠ none := by
  constructor
  · rintro ⟨fileChange, listed, bears⟩
    obtain ⟨kind, lacks, found⟩ := mem_absentEntries.mp listed
    obtain ⟨rfl, rfl⟩ := (bears_update (by simp [kind])).mp bears
    simp [found, lacks]
  · rintro ⟨rfl, lacks, present⟩
    obtain ⟨hash, found⟩ := Option.ne_none_iff_exists'.mp present
    rw [found]
    exact ⟨⟨path, hash, .addition⟩, mem_absentEntries.mpr ⟨rfl, lacks, found⟩,
      (bears_update (by simp)).mpr ⟨rfl, rfl⟩⟩

/-- and those of a scan are notices of what is no longer as before. -/
theorem bears_scan {newDir prevDir : FileTable} {item : Gossip.Item UInt64} :
    (∃ fileChange ∈ updates prevDir newDir ++ deletions prevDir newDir,
      fileChange.Bears path item) ↔
      prevDir[path]? ≠ newDir[path]? ∧ item = .notice newDir[path]? := by
  have announces := announces_scan newDir prevDir path
  rw [getDirectoryChangesScan_eq] at announces
  constructor
  · rintro ⟨fileChange, listed, digest, announced, rfl⟩
    obtain ⟨differ, rfl⟩ := (announces digest).mp (List.mem_filterMap.mpr ⟨_, listed, announced⟩)
    exact ⟨differ, rfl⟩
  · rintro ⟨differ, rfl⟩
    obtain ⟨fileChange, listed, announced⟩ :=
      List.mem_filterMap.mp ((announces _).mpr ⟨differ, rfl⟩)
    exact ⟨fileChange, listed, _, announced, rfl⟩

/-- A change buffer that leads to a table has a notice of each path at which it changes one. -/
theorem bears_buffer {fileHashes prevDir : FileTable} {fileChangeBuf : List FileChangeData}
    (drained : applyChanges fileHashes fileChangeBuf = prevDir)
    (differ : fileHashes[path]? ≠ prevDir[path]?) :
    ∃ fileChange ∈ fileChangeBuf, fileChange.Bears path (.notice prevDir[path]?) := by
  rw [← drained, applyChanges_eq_patch, EditScript.getElem?_patch] at differ ⊢
  cases said : EditScript.last (fileChangeBuf.map FileChangeData.toEdit) path with
  | none =>
    rw [said] at differ
    exact absurd rfl differ
  | some digest =>
    obtain ⟨fileChange, listed, edit⟩ :=
      List.mem_map.mp (EditScript.mem_of_last_eq_some said)
    obtain ⟨own, hash, change⟩ := fileChange
    refine ⟨_, listed, digest, ?_, rfl⟩
    cases change <;> cases edit <;> simp [noticeAt]

/-! ## The threads -/

/-- The senders of what a node has to process run, and a node does not process its own
    datagrams. -/
structure Inbox.Addressed (online : N → Prop) (name : N) (box : Inbox N) : Prop where
  inFlight : ∀ sender message, (sender, message) ∈ box.inFlight → online sender
  todoUdp : ∀ sender message, (sender, message) ∈ box.todoUdp → online sender ∧ sender ≠ name
  /-- Arrivals are not queued. -/
  answered : ∀ sender table, (sender, .arrival table) ∉ box.todoUdp
  slot : ∀ sender table, box.tableManagerMessage = some (sender, table) →
    online sender ∧ sender ≠ name
  arrived : ∀ sender table, box.arrived = some (sender, table) → online sender ∧ sender ≠ name
  received : ∀ sender table, box.received = some (sender, table) → online sender ∧ sender ≠ name
  requesting : ∀ thread sender fileChange, (sender, fileChange) ∈ box.requesting thread →
    online sender ∧ sender ≠ name

/-- What holds of the queues and tables of the nodes that run. -/
structure Mesh.Ordered (s : Mesh N) : Prop where
  addressed : ∀ name, (s.nodes name).online = true →
    (s.nodes name).toInbox.Addressed (fun other => (s.nodes other).online = true) name
  drained : ∀ name, (s.nodes name).online = true →
    applyChanges (s.nodes name).fileHashes (s.nodes name).fileChangeBuf = (s.nodes name).prevDir

omit [DecidableEq N] in
/-- What a node's table lacks is in its buffer, on its way to all other nodes. -/
theorem Mesh.Ordered.shows (ordered : s.Ordered) (online : (s.nodes name).online = true) :
    (s.cell path).Shows name := by
  by_cases same : (s.nodes name).fileHashes[path]? = (s.nodes name).prevDir[path]?
  · exact Or.inl same
  · exact Or.inr fun other on differ =>
      ⟨online, on, differ.symm, Or.inr (bears_buffer (ordered.drained name online) same)⟩

/-- The inbox of a node with a call of `requestFiles` in a thread that makes none. -/
def Inbox.call (box : Inbox N) (thread : RequestingThread) (server : N)
    (fileChanges : List FileChangeData) : Inbox N :=
  { box with
    requesting := Function.update box.requesting thread
      (fileChanges.map fun fileChange => (server, fileChange)) }

/-- A node whose watcher has scanned the folder. -/
def MeshNode.scanned (platform : Platform) (node : MeshNode N) : MeshNode N :=
  { node with
    prevDir := node.folder.table platform
    fileChangeBuf := node.fileChangeBuf ++
      (updates node.prevDir (node.folder.table platform) ++
        deletions node.prevDir (node.folder.table platform)) }

/-- A node whose handler has applied and cleared the change buffer. -/
def MeshNode.drained (node : MeshNode N) : MeshNode N :=
  { node with
    fileHashes := applyChanges node.fileHashes node.fileChangeBuf
    fileChangeBuf := [] }

/-- A node after a round of the loop of `requestFiles` with the folder of the server. -/
def MeshNode.requested (platform : Platform) (node : MeshNode N) (theirs : Folder)
    (thread : RequestingThread) (fileChange : FileChangeData)
    (rest : List (N × FileChangeData)) : MeshNode N :=
  { node with
    folder := Folder.request platform node.folder theirs fileChange
    requesting := Function.update node.requesting thread rest }

/-- The state after an action of a thread, with what the action needs. -/
inductive ThreadEffect (platform : Platform) (name : N) (s : Mesh N) :
    ThreadAction → Mesh N → Prop where
  | scan : ThreadEffect platform name s .scan (s.set name ((s.nodes name).scanned platform))
  | drain : (s.nodes name).requesting .handler = [] → (s.nodes name).fileChangeBuf ≠ [] →
      ThreadEffect platform name s .drain ((s.set name (s.nodes name).drained).broadcast name
        (.changes (s.nodes name).fileChangeBuf))
  | ignore {index : Nat} {message : MeshMessage} :
      (s.nodes name).inFlight[index]? = some (name, message) →
      ThreadEffect platform name s (.collect index) (s.set name ((s.nodes name).withInbox
        { (s.nodes name).toInbox with inFlight := (s.nodes name).inFlight.eraseIdx index }))
  | answer {index : Nat} {newcomer : N} {table : FileTable} :
      (s.nodes name).arrived = none → newcomer ≠ name →
      (s.nodes name).inFlight[index]? = some (newcomer, .arrival table) →
      ThreadEffect platform name s (.collect index) ((s.set name ((s.nodes name).withInbox
        { (s.nodes name).toInbox with
          inFlight := (s.nodes name).inFlight.eraseIdx index
          arrived := some (newcomer, table) })).send name newcomer
            (.response (s.nodes name).fileHashes))
  | queue {index : Nat} {sender : N} {message : MeshMessage} : sender ≠ name →
      (∀ table, message ≠ .arrival table) →
      (s.nodes name).inFlight[index]? = some (sender, message) →
      ThreadEffect platform name s (.collect index) (s.set name ((s.nodes name).withInbox
        { (s.nodes name).toInbox with
          inFlight := (s.nodes name).inFlight.eraseIdx index
          todoUdp := (s.nodes name).todoUdp ++ [(sender, message)] }))
  | compareArrival {newcomer : N} {table : FileTable} :
      (s.nodes name).arrived = some (newcomer, table) →
      (s.nodes name).requesting .collector = [] →
      ThreadEffect platform name s .compareArrival (s.set name ((s.nodes name).withInbox
        (Inbox.call { (s.nodes name).toInbox with arrived := none } .collector newcomer
          (dealWithHashTable (s.nodes name).fileHashes table true))))
  | store {sender : N} {table : FileTable} {todoUdp : List (N × MeshMessage)} :
      (s.nodes name).todoUdp = (sender, .response table) :: todoUdp →
      ThreadEffect platform name s .handle (s.set name ((s.nodes name).withInbox
        { (s.nodes name).toInbox with
          todoUdp
          tableManagerMessage := some (sender, table) }))
  | call {sender : N} {fileChanges : List FileChangeData} {todoUdp : List (N × MeshMessage)} :
      (s.nodes name).requesting .handler = [] →
      (s.nodes name).todoUdp = (sender, .changes fileChanges) :: todoUdp →
      ThreadEffect platform name s .handle (s.set name ((s.nodes name).withInbox
        (Inbox.call { (s.nodes name).toInbox with todoUdp } .handler sender fileChanges)))
  | discard {sender : N} {table : FileTable} {todoUdp : List (N × MeshMessage)} :
      (s.nodes name).todoUdp = (sender, .arrival table) :: todoUdp →
      ThreadEffect platform name s .handle (s.set name ((s.nodes name).withInbox
        { (s.nodes name).toInbox with todoUdp }))
  | take {message : N × FileTable} :
      (s.nodes name).received = none → (s.nodes name).tableManagerMessage = some message →
      ThreadEffect platform name s .take (s.set name ((s.nodes name).withInbox
        { (s.nodes name).toInbox with tableManagerMessage := none, received := some message }))
  | compareResponse {sender : N} {table : FileTable} :
      (s.nodes name).received = some (sender, table) →
      (s.nodes name).requesting .tableManager = [] →
      ThreadEffect platform name s .compareResponse (s.set name ((s.nodes name).withInbox
        (Inbox.call { (s.nodes name).toInbox with received := none } .tableManager sender
          (dealWithHashTable (s.nodes name).fileHashes table false))))
  | request {thread : RequestingThread} {server : N} {fileChange : FileChangeData}
      {rest : List (N × FileChangeData)} :
      (s.nodes name).requesting thread = (server, fileChange) :: rest →
      ThreadEffect platform name s (.request thread) (s.set name
        ((s.nodes name).requested platform (s.nodes server).folder thread fileChange rest))

theorem threadEffect_of_act {action : ThreadAction} {next : Mesh N}
    (taken : threadAct platform name s action = some next) :
    ThreadEffect platform name s action next := by
  cases action with
  | scan =>
    simp only [threadAct, getDirectoryChangesScan_eq] at taken
    cases taken
    exact .scan
  | drain =>
    simp only [threadAct] at taken
    split at taken
    · rename_i ready
      cases taken
      exact .drain ready.1 ready.2
    · cases taken
  | collect index =>
    simp only [threadAct] at taken
    split at taken
    · rename_i sender message idle free found
      split at taken
      · rename_i own
        subst own
        cases taken
        exact .ignore found
      · rename_i foreign
        split at taken <;> cases taken
        · exact .answer idle foreign found
        · rename_i other
          exact .queue foreign other found
    · cases taken
  | compareArrival =>
    simp only [threadAct] at taken
    split at taken <;> cases taken
    rename_i arrived free
    exact .compareArrival arrived free
  | handle =>
    simp only [threadAct] at taken
    split at taken
    · rename_i sender message todoUdp idle queue
      split at taken <;> cases taken
      · exact .store queue
      · exact .call idle queue
      · exact .discard queue
    · cases taken
  | take =>
    simp only [threadAct] at taken
    split at taken <;> cases taken
    rename_i free idle slot
    exact .take free slot
  | compareResponse =>
    simp only [threadAct] at taken
    split at taken <;> cases taken
    rename_i received free
    exact .compareResponse received free
  | request thread =>
    simp only [threadAct] at taken
    split at taken <;> cases taken
    exact .request ‹_›

/-! ## The steps at a path -/

omit [DecidableEq N] in
theorem buffers_scanned {node : MeshNode N} {item : Gossip.Item UInt64} :
    (node.scanned platform).Buffers path item ↔ node.Buffers path item ∨
      (node.prevDir[path]? ≠ node.folder[path]?.map (sharedHash platform path) ∧
        item = .notice (node.folder[path]?.map (sharedHash platform path))) := by
  rw [← table_getElem?, ← bears_scan]
  constructor
  · rintro ⟨fileChange, listed, bears⟩
    exact (List.mem_append.mp listed).imp (fun before => ⟨fileChange, before, bears⟩)
      fun fresh => ⟨fileChange, fresh, bears⟩
  · rintro (⟨fileChange, listed, bears⟩ | ⟨fileChange, listed, bears⟩)
    · exact ⟨fileChange, List.mem_append_left _ listed, bears⟩
    · exact ⟨fileChange, List.mem_append_right _ listed, bears⟩

theorem mesh_scan (online : (s.nodes name).online = true) :
    Gossip.Step (sharedHash platform path) (passes platform path) (s.cell path)
      ((s.set name ((s.nodes name).scanned platform)).cell path) := by
  have cell : (s.set name ((s.nodes name).scanned platform)).cell path = { s.cell path with
      seen := Function.update (s.cell path).seen name
        ((s.nodes name).folder[path]?.map (sharedHash platform path))
      waits := ((s.set name ((s.nodes name).scanned platform)).cell path).waits } := by
    apply Gossip.Cell.ext
    · exact Mesh.field_set_same (fun node => node.online = true) _ _ _ rfl
    · exact Mesh.field_set_same (fun node => node.folder[path]?) _ _ _ rfl
    · rw [← table_getElem?]
      exact Mesh.field_set (fun node => node.prevDir[path]?) ..
    · exact Mesh.field_set_same (fun node => node.fileHashes[path]?) _ _ _ rfl
    · rfl
  rw [cell]
  apply Gossip.Step.scan online
  intro sender other item
  have inbox : (if other = name then (s.nodes name).scanned platform
      else s.nodes other).toInbox = (s.nodes other).toInbox := by
    split
    · rename_i same
      rw [same]
      rfl
    · rfl
  rw [Mesh.waits_set, inbox, Mesh.waits_iff]
  · by_cases same : sender = name
    · subst same
      rw [if_pos rfl, buffers_scanned]
      constructor
      · rintro ⟨here, there, differ, waits | buffered | ⟨unseen, item⟩⟩
        · exact Or.inl ⟨here, there, differ, Or.inl waits⟩
        · exact Or.inl ⟨here, there, differ, Or.inr buffered⟩
        · exact Or.inr ⟨rfl, there, differ.symm, unseen, item⟩
      · rintro (⟨here, there, differ, waits | buffered⟩ | ⟨_, there, differ, unseen, item⟩)
        · exact ⟨here, there, differ, Or.inl waits⟩
        · exact ⟨here, there, differ, Or.inr (Or.inl buffered)⟩
        · exact ⟨online, there, differ.symm, Or.inr (Or.inr ⟨unseen, item⟩)⟩
    · rw [if_neg same]
      exact ⟨Or.inl, fun either => either.resolve_right fun new => same new.1⟩
  · rfl

/-- A broadcast sends what was buffered. -/
theorem mesh_drain (ordered : s.Ordered) (online : (s.nodes name).online = true) :
    Gossip.Step (sharedHash platform path) (passes platform path) (s.cell path)
      (((s.set name (s.nodes name).drained).broadcast name
        (.changes (s.nodes name).fileChangeBuf)).cell path) := by
  have cell : ((s.set name (s.nodes name).drained).broadcast name
      (.changes (s.nodes name).fileChangeBuf)).cell path = { s.cell path with
        shown := Function.update (s.cell path).shown name ((s.cell path).seen name) } := by
    apply Gossip.Cell.ext
    · refine (Mesh.field_broadcast (fun node => node.online = true) (fun _ _ => rfl) ..).trans ?_
      exact Mesh.field_set_same (fun node => node.online = true) _ _ _ rfl
    · refine (Mesh.field_broadcast (fun node => node.folder[path]?) (fun _ _ => rfl) ..).trans ?_
      exact Mesh.field_set_same (fun node => node.folder[path]?) _ _ _ rfl
    · refine (Mesh.field_broadcast (fun node => node.prevDir[path]?) (fun _ _ => rfl) ..).trans ?_
      exact Mesh.field_set_same (fun node => node.prevDir[path]?) _ _ _ rfl
    · refine (Mesh.field_broadcast (fun node => node.fileHashes[path]?)
        (fun _ _ => rfl) ..).trans ?_
      refine (Mesh.field_set (fun node => node.fileHashes[path]?) ..).trans ?_
      rw [MeshNode.drained, ordered.drained name online]
      rfl
    · funext sender other item
      apply propext
      have running := congrFun (Mesh.field_set_same MeshNode.online s name
        (s.nodes name).drained rfl)
      have inbox := congrFun (Mesh.field_set_same MeshNode.toInbox s name
        (s.nodes name).drained rfl)
      rw [Mesh.waits_broadcast, Mesh.waits_iff, Mesh.waits_iff, running, running, inbox,
        Mesh.set_nodes]
      by_cases same : sender = name
      · subst same
        have emptied : ¬ (s.nodes sender).drained.Buffers path item := by
          rintro ⟨_, listed, _⟩
          cases listed
        rw [if_pos rfl]
        constructor
        · rintro (⟨here, there, differ, waits | buffered⟩ | ⟨here, there, differ, _, bears⟩)
          · exact ⟨here, there, differ, Or.inl waits⟩
          · exact absurd buffered emptied
          · exact ⟨here, there, differ, Or.inr bears⟩
        · rintro ⟨here, there, differ, waits | buffered⟩
          · exact Or.inl ⟨here, there, differ, Or.inl waits⟩
          · exact Or.inr ⟨here, there, differ, rfl, buffered⟩
      · rw [if_neg same]
        exact ⟨fun either => either.resolve_right fun new => same new.2.2.2.1, Or.inl⟩
  rw [cell]
  exact .drain (ordered.shows online)

omit [DecidableEq N] in
/-- A call of `requestFiles` adds its changes to what waits. -/
theorem waits_call (box : Inbox N) {thread : RequestingThread} {server first : N}
    {fileChanges : List FileChangeData} {item : Gossip.Item UInt64}
    (idle : box.requesting thread = []) :
    (box.call thread server fileChanges).Waits first path item ↔
      box.Waits first path item ∨
        (first = server ∧ ∃ fileChange ∈ fileChanges, fileChange.Bears path item) := by
  constructor
  · intro waits
    cases waits with
    | requesting other listed bears =>
      by_cases same : other = thread
      · subst same
        simp only [Inbox.call, Function.update_self, List.mem_map] at listed
        obtain ⟨fileChange, listed, pair⟩ := listed
        cases pair
        exact Or.inr ⟨rfl, _, listed, bears⟩
      · simp only [Inbox.call, Function.update_of_ne same] at listed
        exact Or.inl (.requesting other listed bears)
    | arrived at' => exact Or.inl (.arrived at')
    | received at' => exact Or.inl (.received at')
    | slot at' => exact Or.inl (.slot at')
    | queued listed bears => exact Or.inl (.queued listed bears)
    | flying listed bears => exact Or.inl (.flying listed bears)
  · rintro (waits | ⟨rfl, fileChange, listed, bears⟩)
    · cases waits with
      | requesting other listed bears =>
        have busy : other ≠ thread := by
          rintro rfl
          rw [idle] at listed
          cases listed
        refine .requesting other ?_ bears
        simp only [Inbox.call, Function.update_of_ne busy]
        exact listed
      | arrived at' => exact .arrived at'
      | received at' => exact .received at'
      | slot at' => exact .slot at'
      | queued listed bears => exact .queued listed bears
      | flying listed bears => exact .flying listed bears
    · refine .requesting thread ?_ bears
      simp only [Inbox.call, Function.update_self]
      exact List.mem_map_of_mem listed

theorem mem_eraseIdx_or {α : Type} {l : List α} {index : Nat} {erased x : α}
    (found : l[index]? = some erased) (listed : x ∈ l) : x = erased ∨ x ∈ l.eraseIdx index := by
  obtain ⟨at', here⟩ := List.mem_iff_getElem?.mp listed
  by_cases same : at' = index
  · subst same
    exact Or.inl (Option.some.inj (here.symm.trans found))
  · exact Or.inr (List.mem_eraseIdx_iff_getElem?.mpr ⟨at', same, here⟩)

/-- A node's own datagrams are ignored. -/
theorem mesh_ignore {index : Nat} {message : MeshMessage}
    (found : (s.nodes name).inFlight[index]? = some (name, message)) :
    (s.set name ((s.nodes name).withInbox { (s.nodes name).toInbox with
      inFlight := (s.nodes name).inFlight.eraseIdx index })).cell path = s.cell path := by
  apply cell_of_inbox
  · intro sender item waits
    cases waits with
    | requesting thread listed bears => exact .requesting thread listed bears
    | arrived at' => exact .arrived at'
    | received at' => exact .received at'
    | slot at' => exact .slot at'
    | queued listed bears => exact .queued listed bears
    | flying listed bears => exact .flying (List.mem_of_mem_eraseIdx listed) bears
  · intro sender item foreign waits
    cases waits with
    | requesting thread listed bears => exact .requesting thread listed bears
    | arrived at' => exact .arrived at'
    | received at' => exact .received at'
    | slot at' => exact .slot at'
    | queued listed bears => exact .queued listed bears
    | flying listed bears =>
      rcases mem_eraseIdx_or found listed with own | kept
      · exact absurd (congrArg Prod.fst own) foreign
      · exact .flying kept bears

/-- A message that is not an arrival is queued. -/
theorem mesh_queue {index : Nat} {sender : N} {message : MeshMessage}
    (found : (s.nodes name).inFlight[index]? = some (sender, message)) :
    (s.set name ((s.nodes name).withInbox { (s.nodes name).toInbox with
      inFlight := (s.nodes name).inFlight.eraseIdx index
      todoUdp := (s.nodes name).todoUdp ++ [(sender, message)] })).cell path = s.cell path := by
  apply cell_of_inbox
  · intro first item waits
    cases waits with
    | requesting thread listed bears => exact .requesting thread listed bears
    | arrived at' => exact .arrived at'
    | received at' => exact .received at'
    | slot at' => exact .slot at'
    | queued listed bears =>
      rcases List.mem_append.mp listed with before | fresh
      · exact .queued before bears
      · cases List.mem_singleton.mp fresh
        exact .flying (List.mem_of_getElem? found) bears
    | flying listed bears => exact .flying (List.mem_of_mem_eraseIdx listed) bears
  · intro first item _ waits
    cases waits with
    | requesting thread listed bears => exact .requesting thread listed bears
    | arrived at' => exact .arrived at'
    | received at' => exact .received at'
    | slot at' => exact .slot at'
    | queued listed bears => exact .queued (List.mem_append_left _ listed) bears
    | flying listed bears =>
      rcases mem_eraseIdx_or found listed with same | kept
      · cases same
        exact .queued (List.mem_append_right _ (List.mem_singleton_self _)) bears
      · exact .flying kept bears

/-- The changes of a message are requested. -/
theorem mesh_call {sender : N} {fileChanges : List FileChangeData}
    {todoUdp : List (N × MeshMessage)} (idle : (s.nodes name).requesting .handler = [])
    (queue : (s.nodes name).todoUdp = (sender, .changes fileChanges) :: todoUdp) :
    (s.set name ((s.nodes name).withInbox (Inbox.call { (s.nodes name).toInbox with todoUdp }
      .handler sender fileChanges))).cell path = s.cell path := by
  apply cell_of_inbox
  · intro first item waits
    rcases (waits_call { (s.nodes name).toInbox with todoUdp } idle).mp waits with
      before | ⟨rfl, requested⟩
    · cases before with
      | requesting thread listed bears => exact .requesting thread listed bears
      | arrived at' => exact .arrived at'
      | received at' => exact .received at'
      | slot at' => exact .slot at'
      | queued listed bears => exact .queued (queue ▸ List.mem_cons_of_mem _ listed) bears
      | flying listed bears => exact .flying listed bears
    · have bears : MeshMessage.Bears path item (.changes fileChanges) := requested
      exact .queued (queue ▸ List.mem_cons_self ..) bears
  · intro first item _ waits
    apply (waits_call { (s.nodes name).toInbox with todoUdp } idle).mpr
    cases waits with
    | requesting thread listed bears => exact Or.inl (.requesting thread listed bears)
    | arrived at' => exact Or.inl (.arrived at')
    | received at' => exact Or.inl (.received at')
    | slot at' => exact Or.inl (.slot at')
    | queued listed bears =>
      rw [queue] at listed
      rcases List.mem_cons.mp listed with same | later
      · cases same
        exact Or.inr ⟨rfl, bears⟩
      · exact Or.inl (.queued later bears)
    | flying listed bears => exact Or.inl (.flying listed bears)

/-- A message of the table manager is taken from its slot. -/
theorem mesh_take {message : N × FileTable} (free : (s.nodes name).received = none)
    (slot : (s.nodes name).tableManagerMessage = some message) :
    (s.set name ((s.nodes name).withInbox { (s.nodes name).toInbox with
      tableManagerMessage := none, received := some message })).cell path = s.cell path := by
  apply cell_of_inbox
  · intro first item waits
    cases waits with
    | requesting thread listed bears => exact .requesting thread listed bears
    | arrived at' => exact .arrived at'
    | received at' => exact .slot (slot.trans at')
    | slot at' => cases at'
    | queued listed bears => exact .queued listed bears
    | flying listed bears => exact .flying listed bears
  · intro first item _ waits
    cases waits with
    | requesting thread listed bears => exact .requesting thread listed bears
    | arrived at' => exact .arrived at'
    | received at' => cases free.symm.trans at'
    | slot at' => exact .received (slot.symm.trans at')
    | queued listed bears => exact .queued listed bears
    | flying listed bears => exact .flying listed bears

/-- A message in the slot of the table manager is overwritten by the next one. -/
theorem mesh_store {sender : N} {table : FileTable} {todoUdp : List (N × MeshMessage)}
    (ordered : s.Ordered) (online : (s.nodes name).online = true)
    (queue : (s.nodes name).todoUdp = (sender, .response table) :: todoUdp) :
    Gossip.Step (sharedHash platform path) (passes platform path) (s.cell path)
      ((s.set name ((s.nodes name).withInbox { (s.nodes name).toInbox with
        todoUdp, tableManagerMessage := some (sender, table) })).cell path) := by
  have first : (sender, .response table) ∈ (s.nodes name).todoUdp := queue ▸ List.mem_cons_self ..
  obtain ⟨running, differ⟩ := (ordered.addressed name online).todoUdp sender _ first
  rw [cell_withInbox]
  have there : ((s.set name ((s.nodes name).withInbox { (s.nodes name).toInbox with
      todoUdp, tableManagerMessage := some (sender, table) })).cell path).waits sender name
        (.response table[path]?) := by
    refine (waits_withInbox ..).mpr ⟨running, online, differ, Or.inl ?_⟩
    rw [if_pos rfl]
    exact .slot rfl
  refine .overwrite there ?_ ?_
  · intro _ _ _ after
    refine (waits_came (fun _ _ => False) ?_ after).resolve_right And.right
    intro _ item waits
    left
    cases waits with
    | requesting thread listed bears => exact .requesting thread listed bears
    | arrived at' => exact .arrived at'
    | received at' => exact .received at'
    | slot at' =>
      cases at'
      exact .queued first rfl
    | queued listed bears => exact .queued (queue ▸ List.mem_cons_of_mem _ listed) bears
    | flying listed bears => exact .flying listed bears
  · intro first second item before
    refine waits_kept (fun _ item => ∃ lost, item = .response lost) ?_ before
    intro first item _ waits
    cases waits with
    | requesting thread listed bears => exact Or.inl (.requesting thread listed bears)
    | arrived at' => exact Or.inl (.arrived at')
    | received at' => exact Or.inl (.received at')
    | slot at' => exact Or.inr ⟨_, rfl⟩
    | queued listed bears =>
      rw [queue] at listed
      rcases List.mem_cons.mp listed with same | later
      · cases same
        cases bears
        exact Or.inl (.slot rfl)
      · exact Or.inl (.queued later bears)
    | flying listed bears => exact Or.inl (.flying listed bears)

/-- A datagram to one node changes nothing but what waits there. -/
theorem cell_send (s : Mesh N) (sender receiver : N) (message : MeshMessage) (path : WString) :
    (s.send sender receiver message).cell path = { s.cell path with
      waits := ((s.send sender receiver message).cell path).waits } :=
  cell_withInbox ..

theorem waits_send (s : Mesh N) (sender receiver : N) (message : MeshMessage) (path : WString)
    (first second : N) (item : Gossip.Item UInt64) :
    ((s.send sender receiver message).cell path).waits first second item ↔
      (s.cell path).waits first second item ∨ ((s.nodes first).online = true ∧
        (s.nodes second).online = true ∧ first ≠ second ∧ first = sender ∧ second = receiver ∧
          message.Bears path item) := by
  refine (waits_withInbox ..).trans ?_
  rw [Mesh.waits_iff]
  by_cases same : second = receiver
  · subst same
    rw [if_pos rfl, waits_flying]
    constructor
    · rintro ⟨here, there, differ, (before | ⟨sent, bears⟩) | buffered⟩
      · exact Or.inl ⟨here, there, differ, Or.inl before⟩
      · exact Or.inr ⟨here, there, differ, sent, rfl, bears⟩
      · exact Or.inl ⟨here, there, differ, Or.inr buffered⟩
    · rintro (⟨here, there, differ, before | buffered⟩ | ⟨here, there, differ, sent, _, bears⟩)
      · exact ⟨here, there, differ, Or.inl (Or.inl before)⟩
      · exact ⟨here, there, differ, Or.inr buffered⟩
      · exact ⟨here, there, differ, Or.inl (Or.inr ⟨sent, bears⟩)⟩
  · rw [if_neg same]
    exact ⟨Or.inl, fun either => either.resolve_right fun new => same new.2.2.2.2.1⟩

/-- An existing node answers a newcomer. -/
theorem mesh_answer {index : Nat} {newcomer : N} {table : FileTable} (ordered : s.Ordered)
    (online : (s.nodes name).online = true) (free : (s.nodes name).arrived = none)
    (differ : newcomer ≠ name)
    (found : (s.nodes name).inFlight[index]? = some (newcomer, .arrival table)) :
    Gossip.Step (sharedHash platform path) (passes platform path) (s.cell path)
      (((s.set name ((s.nodes name).withInbox { (s.nodes name).toInbox with
        inFlight := (s.nodes name).inFlight.eraseIdx index
        arrived := some (newcomer, table) })).send name newcomer
          (.response (s.nodes name).fileHashes)).cell path) := by
  have running := (ordered.addressed name online).inFlight newcomer (.arrival table)
    (List.mem_of_getElem? found)
  have same := congrFun (Mesh.field_set_same MeshNode.online s name
    ((s.nodes name).withInbox { (s.nodes name).toInbox with
      inFlight := (s.nodes name).inFlight.eraseIdx index
      arrived := some (newcomer, table) }) rfl)
  rw [cell_send, cell_withInbox]
  have unanswered : (s.cell path).waits newcomer name .unanswered :=
    ⟨running, online, differ, Or.inl (.flying (List.mem_of_getElem? found) (Or.inr rfl))⟩
  refine .answer unanswered ?_ ?_ ?_
  · refine (waits_send ..).mpr (Or.inr ?_)
    rw [same, same]
    exact ⟨online, running, differ.symm, rfl, rfl, rfl⟩
  · intro first second item after
    rcases (waits_send ..).mp after with moved | ⟨_, _, _, sent, reaches, item⟩
    · left
      refine (waits_came (fun _ _ => False) ?_ moved).resolve_right And.right
      intro first item waits
      left
      cases waits with
      | requesting thread listed bears => exact .requesting thread listed bears
      | arrived at' =>
        cases at'
        exact .flying (List.mem_of_getElem? found) (Or.inl rfl)
      | received at' => exact .received at'
      | slot at' => exact .slot at'
      | queued listed bears => exact .queued listed bears
      | flying listed bears => exact .flying (List.mem_of_mem_eraseIdx listed) bears
    · exact Or.inr ⟨sent, reaches, item⟩
  · intro first second item before
    refine (waits_kept (fun first item => first = newcomer ∧
      item = .unanswered) ?_ before).imp (fun moved => (waits_send ..).mpr (Or.inl moved)) ?_
    · intro first item _ waits
      cases waits with
      | requesting thread listed bears => exact Or.inl (.requesting thread listed bears)
      | arrived at' => cases free.symm.trans at'
      | received at' => exact Or.inl (.received at')
      | slot at' => exact Or.inl (.slot at')
      | queued listed bears => exact Or.inl (.queued listed bears)
      | flying listed bears =>
        rcases mem_eraseIdx_or found listed with same | kept
        · cases same
          rcases bears with rfl | rfl
          · exact Or.inl (.arrived rfl)
          · exact Or.inr ⟨rfl, rfl⟩
        · exact Or.inl (.flying kept bears)
    · rintro ⟨rfl, same, item⟩
      exact ⟨same, rfl, item⟩

/-- A node asks a newcomer for what it lacks, -/
theorem mesh_compareArrival {newcomer : N} {table : FileTable} (ordered : s.Ordered)
    (online : (s.nodes name).online = true)
    (arrived : (s.nodes name).arrived = some (newcomer, table))
    (idle : (s.nodes name).requesting .collector = [])
    (apart : ¬ AdjacentConflicts (s.nodes name).fileHashes table) :
    Gossip.Step (sharedHash platform path) (passes platform path) (s.cell path)
      ((s.set name ((s.nodes name).withInbox
        (Inbox.call { (s.nodes name).toInbox with arrived := none } .collector newcomer
          (dealWithHashTable (s.nodes name).fileHashes table true)))).cell path) := by
  obtain ⟨running, differ⟩ := (ordered.addressed name online).arrived newcomer table arrived
  rw [(dealWithHashTable_ignoreEdits_iff ..).mpr apart, cell_withInbox]
  have called {first : N} {item : Gossip.Item UInt64} :=
    @waits_call N path { (s.nodes name).toInbox with arrived := none } .collector newcomer first
      (absentEntries (s.nodes name).fileHashes table) item idle
  have announced : (s.cell path).waits newcomer name (.announced table[path]?) :=
    ⟨running, online, differ, Or.inl (.arrived arrived)⟩
  refine .compare announced ?_ ?_ ?_
  · intro lacks present
    refine (waits_withInbox ..).mpr ⟨running, online, differ, Or.inl ?_⟩
    rw [if_pos rfl]
    exact called.mpr (Or.inr ⟨rfl, bears_absentEntries.mpr ⟨rfl, lacks, present⟩⟩)
  · intro first second item after
    refine (waits_came (fun first item => first = newcomer ∧ item = .notice table[path]? ∧
      (s.nodes name).fileHashes[path]? = none ∧ table[path]? ≠ none) ?_ after).imp_right ?_
    · intro first item waits
      refine (called.mp waits).imp (fun before => ?_) fun ⟨same, bears⟩ =>
        ⟨same, bears_absentEntries.mp bears⟩
      cases before with
      | requesting thread listed bears => exact .requesting thread listed bears
      | arrived at' => cases at'
      | received at' => exact .received at'
      | slot at' => exact .slot at'
      | queued listed bears => exact .queued listed bears
      | flying listed bears => exact .flying listed bears
    · rintro ⟨rfl, same, new⟩
      exact ⟨same, rfl, new⟩
  · intro first second item before
    refine (waits_kept (fun first item => first = newcomer ∧
      item = .announced table[path]?) ?_ before).imp_right ?_
    · intro first item _ waits
      rw [called]
      cases waits with
      | requesting thread listed bears => exact Or.inl (Or.inl (.requesting thread listed bears))
      | arrived at' =>
        cases arrived.symm.trans at'
        exact Or.inr ⟨rfl, rfl⟩
      | received at' => exact Or.inl (Or.inl (.received at'))
      | slot at' => exact Or.inl (Or.inl (.slot at'))
      | queued listed bears => exact Or.inl (Or.inl (.queued listed bears))
      | flying listed bears => exact Or.inl (Or.inl (.flying listed bears))
    · rintro ⟨rfl, same, item⟩
      exact ⟨same, rfl, item⟩

/-- and a newcomer asks for what it lacks or has in another version. -/
theorem mesh_compareResponse {sender : N} {table : FileTable} (ordered : s.Ordered)
    (online : (s.nodes name).online = true)
    (received : (s.nodes name).received = some (sender, table))
    (idle : (s.nodes name).requesting .tableManager = []) :
    Gossip.Step (sharedHash platform path) (passes platform path) (s.cell path)
      ((s.set name ((s.nodes name).withInbox
        (Inbox.call { (s.nodes name).toInbox with received := none } .tableManager sender
          (dealWithHashTable (s.nodes name).fileHashes table false)))).cell path) := by
  obtain ⟨running, differ⟩ := (ordered.addressed name online).received sender table received
  rw [dealWithHashTable_edits, cell_withInbox]
  have called {first : N} {item : Gossip.Item UInt64} :=
    @waits_call N path { (s.nodes name).toInbox with received := none } .tableManager sender first
      (updates (s.nodes name).fileHashes table) item idle
  have response : (s.cell path).waits sender name (.response table[path]?) :=
    ⟨running, online, differ, Or.inl (.received received)⟩
  refine .compareResponse response (ordered.shows online) ?_ ?_ ?_
  · intro present other
    refine (waits_withInbox ..).mpr ⟨running, online, differ, Or.inl ?_⟩
    rw [if_pos rfl]
    exact called.mpr (Or.inr ⟨rfl, bears_updates.mpr ⟨rfl, present, other⟩⟩)
  · intro first second item after
    refine (waits_came (fun first item => first = sender ∧ item = .notice table[path]? ∧
      table[path]? ≠ none) ?_ after).imp_right ?_
    · intro first item waits
      refine (called.mp waits).imp (fun before => ?_) fun ⟨same, bears⟩ =>
        ⟨same, (bears_updates.mp bears).1, (bears_updates.mp bears).2.1⟩
      cases before with
      | requesting thread listed bears => exact .requesting thread listed bears
      | arrived at' => exact .arrived at'
      | received at' => cases at'
      | slot at' => exact .slot at'
      | queued listed bears => exact .queued listed bears
      | flying listed bears => exact .flying listed bears
    · rintro ⟨rfl, same, new⟩
      exact ⟨same, rfl, new⟩
  · intro first second item before
    refine (waits_kept (fun first item => first = sender ∧
      item = .response table[path]?) ?_ before).imp_right ?_
    · intro first item _ waits
      rw [called]
      cases waits with
      | requesting thread listed bears => exact Or.inl (Or.inl (.requesting thread listed bears))
      | arrived at' => exact Or.inl (Or.inl (.arrived at'))
      | received at' =>
        cases received.symm.trans at'
        exact Or.inr ⟨rfl, rfl⟩
      | slot at' => exact Or.inl (Or.inl (.slot at'))
      | queued listed bears => exact Or.inl (Or.inl (.queued listed bears))
      | flying listed bears => exact Or.inl (Or.inl (.flying listed bears))
    · rintro ⟨rfl, same, item⟩
      exact ⟨same, rfl, item⟩

/-- A request brings the server's version, or none. -/
theorem mesh_request {thread : RequestingThread} {server : N} {fileChange : FileChangeData}
    {rest : List (N × FileChangeData)} (ordered : s.Ordered)
    (online : (s.nodes name).online = true)
    (requesting : (s.nodes name).requesting thread = (server, fileChange) :: rest) :
    let next := s.set name
      ((s.nodes name).requested platform (s.nodes server).folder thread fileChange rest)
    next.cell path = s.cell path ∨
      Gossip.Step (sharedHash platform path) (passes platform path) (s.cell path)
        (next.cell path) := by
  intro next
  obtain ⟨running, differ⟩ := (ordered.addressed name online).requesting thread server fileChange
    (requesting ▸ List.mem_cons_self ..)
  -- The other requests wait as before.
  have came (first second : N) (item : Gossip.Item UInt64)
      (after : (next.cell path).waits first second item) :
      (s.cell path).waits first second item := by
    refine (Mesh.waits_came_node ((s.nodes name).requested ..) ⟨rfl, rfl⟩
      (fun _ _ => False) ?_ after).resolve_right And.right
    intro first item waits
    left
    cases waits with
    | requesting other listed bears =>
      refine .requesting other ?_ bears
      by_cases same : other = thread
      · subst same
        simp only [MeshNode.requested, Function.update_self] at listed
        exact requesting ▸ List.mem_cons_of_mem _ listed
      · simp only [MeshNode.requested, Function.update_of_ne same] at listed
        exact listed
    | arrived at' => exact .arrived at'
    | received at' => exact .received at'
    | slot at' => exact .slot at'
    | queued listed bears => exact .queued listed bears
    | flying listed bears => exact .flying listed bears
  have kept (first second : N) (item : Gossip.Item UInt64)
      (before : (s.cell path).waits first second item) :
      (next.cell path).waits first second item ∨
        (first = server ∧ second = name ∧ fileChange.Bears path item) := by
    refine (Mesh.waits_kept_node ((s.nodes name).requested ..) ⟨rfl, rfl⟩
      (fun first item => first = server ∧ fileChange.Bears path item) ?_ before).imp_right
      fun ⟨same, asked, bears⟩ => ⟨asked, same, bears⟩
    intro first item _ waits
    cases waits with
    | requesting other listed bears =>
      by_cases same : other = thread
      · subst same
        rw [requesting] at listed
        rcases List.mem_cons.mp listed with now | later
        · cases now
          exact Or.inr ⟨rfl, bears⟩
        · refine Or.inl (.requesting other ?_ bears)
          simp only [MeshNode.requested, Function.update_self]
          exact later
      · refine Or.inl (.requesting other ?_ bears)
        simp only [MeshNode.requested, Function.update_of_ne same]
        exact listed
    | arrived at' => exact Or.inl (.arrived at')
    | received at' => exact Or.inl (.received at')
    | slot at' => exact Or.inl (.slot at')
    | queued listed bears => exact Or.inl (.queued listed bears)
    | flying listed bears => exact Or.inl (.flying listed bears)
  have cell : next.cell path = { s.cell path with
      held := Function.update (s.cell path).held name (Folder.request platform
        (s.nodes name).folder (s.nodes server).folder fileChange)[path]?
      waits := (next.cell path).waits } := by
    apply Gossip.Cell.ext
    · exact Mesh.field_set_same (fun node => node.online = true) _ _ _ rfl
    · exact Mesh.field_set (fun node => node.folder[path]?) ..
    · exact Mesh.field_set_same (fun node => node.prevDir[path]?) _ _ _ rfl
    · exact Mesh.field_set_same (fun node => node.fileHashes[path]?) _ _ _ rfl
    · rfl
  rw [cell]
  cases announces : noticeAt path fileChange with
  | none =>
    left
    rw [request_of_none announces]
    refine Gossip.Cell.ext rfl (Function.update_eq_self ..) rfl rfl ?_
    funext first second item
    apply propext
    refine ⟨came first second item, fun before => (kept _ _ _ before).resolve_right ?_⟩
    rintro ⟨_, _, digest, announced, _⟩
    cases announces.symm.trans announced
  | some digest =>
    right
    rw [request_self announces]
    have first : (server, fileChange) ∈ (s.nodes name).requesting thread :=
      requesting ▸ List.mem_cons_self ..
    have notice : (s.cell path).waits server name (.notice digest) :=
      ⟨running, online, differ, Or.inl (.requesting thread first ⟨_, announces, rfl⟩)⟩
    refine .receive notice came fun first second item before => ?_
    refine (kept _ _ _ before).imp_right ?_
    rintro ⟨asked, asks, _, announced, rfl⟩
    cases announces.symm.trans announced
    exact ⟨asked, asks, rfl⟩

end FileSync
