import FileSync.ChangeBuffer
import FileSync.Folder
import FileSync.Library.EchoCell
import Mathlib.Logic.Function.Basic

/-!
# Two nodes that sync

Two nodes after their start, of which only one has a user who changes files. Datagrams arrive in
order, and a file transfer is one step. What the two nodes hold and announce of one path is a
cell with an echoing copy.
-/

namespace FileSync

open TransitionSystem EchoCell

/-- Only the user of `a` changes files. -/
inductive Side where
  | a
  | b
  deriving DecidableEq

/-- The other node. -/
def Side.other : Side → Side
  | .a => .b
  | .b => .a

/-- A node with its tables and its queues. -/
structure SyncNode where
  folder : Folder
  prevDir : FileTable
  fileHashes : FileTable
  fileChangeBuf : List FileChangeData
  /-- The pid-6 datagrams on their way to the node, in order. -/
  inFlight : List (List FileChangeData)
  todoUdp : List (List FileChangeData)
  /-- The changes that the handler's loop in `requestFiles` has not reached yet. -/
  requesting : List FileChangeData

/-- The two nodes. -/
structure Sync where
  nodes : Side → SyncNode
  /-- The folder as the user of `a` left it. -/
  user : Folder

/-- The state with one node replaced. -/
def Sync.set (s : Sync) (side : Side) (node : SyncNode) : Sync :=
  { s with nodes := Function.update s.nodes side node }

/-- The folder after a round of the loop, where `theirs` is the folder of the server. It abandons
    the transfer of a file that it does not have. -/
def Folder.request (platform : Platform) (folder theirs : Folder) (fileChange : FileChangeData) :
    Folder :=
  match fileChange.change with
  | .deletion => folder.set fileChange.filePath none
  | _ =>
    if folder.has platform fileChange then folder
    else
      match theirs[fileChange.filePath]? with
      | some bytes => folder.set fileChange.filePath (some bytes)
      | none => folder

/-- Both nodes have the same folder and have hashed it. -/
def Sync.start (platform : Platform) (folder : Folder) : Sync :=
  { nodes := fun _ =>
      { folder
        prevDir := folder.table platform
        fileHashes := folder.table platform
        fileChangeBuf := []
        inFlight := []
        todoUdp := []
        requesting := [] }
    user := folder }

/-- Nothing is on its way, and both watchers have scanned the folder as it is. -/
def Sync.Quiescent (platform : Platform) (s : Sync) : Prop :=
  ∀ side, (s.nodes side).inFlight = [] ∧ (s.nodes side).todoUdp = [] ∧
    (s.nodes side).requesting = [] ∧ (s.nodes side).fileChangeBuf = [] ∧
    (s.nodes side).prevDir = (s.nodes side).folder.table platform

/-! ## One path -/

/-- The changes of the other node that the node has not processed, oldest first. -/
def Sync.unprocessed (s : Sync) (side : Side) : List FileChangeData :=
  (s.nodes side).requesting ++ ((s.nodes side).todoUdp.flatten ++
    ((s.nodes side).inFlight.flatten ++ (s.nodes side.other).fileChangeBuf))

/-- What a change announces of a path: the hash of the file, or its removal. -/
def noticeAt (path : WString) (fileChange : FileChangeData) : Option (Option UInt64) :=
  if fileChange.filePath = path then
    some (match fileChange.change with | .deletion => none | _ => some fileChange.fileHash)
  else none

/-- The test of `requestFiles` for a content against an announced hash. -/
def passes (platform : Platform) (path : WString) (bytes : Bytes) (fileHash : UInt64) : Bool :=
  fileHash == sharedHash platform (backslash :: path) bytes

/-- What the two nodes hold and announce of a path. -/
def Sync.cell (s : Sync) (path : WString) : Cell Bytes UInt64 where
  own := (s.nodes .a).folder[path]?
  copy := (s.nodes .b).folder[path]?
  ownSeen := (s.nodes .a).prevDir[path]?
  copySeen := (s.nodes .b).prevDir[path]?
  toCopy := (s.unprocessed .b).filterMap (noticeAt path)
  toOwn := (s.unprocessed .a).filterMap (noticeAt path)

/-! ## What the steps do to a path -/

theorem has_eq_passes (platform : Platform) (folder : Folder) (fileChange : FileChangeData) :
    folder.has platform fileChange = folder[fileChange.filePath]?.any fun bytes =>
      passes platform fileChange.filePath bytes fileChange.fileHash := by
  unfold Folder.has
  cases folder[fileChange.filePath]? <;> rfl

/-- A round of the loop receives a notice at the path of the change, -/
theorem request_self {platform : Platform} {folder theirs : Folder} {path : WString}
    {fileChange : FileChangeData} {notice : Option UInt64}
    (announces : noticeAt path fileChange = some notice) :
    (Folder.request platform folder theirs fileChange)[path]? =
      receive (passes platform path) folder[path]? theirs[path]? notice := by
  obtain ⟨own, hash, change⟩ := fileChange
  unfold noticeAt at announces
  split at announces
  · rename_i same
    cases same
    cases change with
    | deletion =>
      cases announces
      exact set_self ..
    | _ =>
      cases announces
      simp only [Folder.request, has_eq_passes, receive]
      cases passed : folder[own]?.any fun bytes => passes platform own bytes hash with
      | true => rfl
      | false =>
        simp only [Bool.false_eq_true, if_false]
        cases theirs[own]? with
        | none => rfl
        | some bytes => exact set_self ..
  · cases announces

/-- and changes no other path. -/
theorem request_of_none {platform : Platform} {folder theirs : Folder} {path : WString}
    {fileChange : FileChangeData} (elsewhere : noticeAt path fileChange = none) :
    (Folder.request platform folder theirs fileChange)[path]? = folder[path]? := by
  have differ : fileChange.filePath ≠ path := by
    intro same
    simp [noticeAt, same] at elsewhere
  unfold Folder.request
  split
  · exact set_of_ne differ _
  · split
    · rfl
    · split
      · exact set_of_ne differ _
      · rfl

/-- A scan announces what has another hash than before. -/
theorem announces_scan (newDir prevDir : FileTable) (path : WString) :
    Announces prevDir[path]? newDir[path]?
      ((getDirectoryChangesScan newDir prevDir).1.filterMap (noticeAt path)) := by
  intro notice
  rw [getDirectoryChangesScan_eq]
  simp only [List.mem_filterMap, List.mem_append, mem_updates, mem_deletions]
  constructor
  · rintro ⟨⟨own, hash, change⟩, listed, announced⟩
    unfold noticeAt at announced
    split at announced
    · rename_i same
      cases same
      rcases listed with ⟨found, ⟨rfl, before⟩ | ⟨rfl, old, before, differ⟩⟩ |
        ⟨rfl, _, ⟨old, before⟩, gone⟩
      · cases announced
        simp [found, before]
      · cases announced
        simp [found, before, differ]
      · cases announced
        simp [gone, before]
    · cases announced
  · rintro ⟨differ, rfl⟩
    cases now : newDir[path]? with
    | none =>
      obtain ⟨hash, before⟩ := Option.ne_none_iff_exists'.mp (now ▸ differ)
      exact ⟨⟨path, 0, .deletion⟩, Or.inr ⟨rfl, rfl, ⟨hash, before⟩, now⟩, by simp [noticeAt]⟩
    | some hash =>
      cases before : prevDir[path]? with
      | none =>
        exact ⟨⟨path, hash, .addition⟩, Or.inl ⟨now, Or.inl ⟨rfl, before⟩⟩, by simp [noticeAt]⟩
      | some old =>
        refine ⟨⟨path, hash, .edit⟩, Or.inl ⟨now, Or.inr ⟨rfl, old, before, fun same => ?_⟩⟩,
          by simp [noticeAt]⟩
        rw [before, now, same] at differ
        exact differ rfl

@[simp] theorem set_nodes_self (s : Sync) (side : Side) (node : SyncNode) :
    (s.set side node).nodes side = node :=
  Function.update_self ..

theorem set_nodes (s : Sync) (side other : Side) (node : SyncNode) :
    (s.set side node).nodes other = if other = side then node else s.nodes other := by
  cases side <;> cases other <;> rfl

end FileSync
