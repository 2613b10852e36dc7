import FileSync.DirectoryDiffs
import FileSync.DealWithHashTable
import FileSync.SharedDisk
import FileSync.Library.Climb
import Mathlib.Data.List.TakeWhile

/-!
# Paths that leave the folder

Received paths are put behind the path of the shared folder and handed to the file system as they
are. With `..` they lead to other places: a peer can name what is deleted, where directories and
files are created, and what is served. Which paths do this can be told from their components.
-/

namespace FileSync

open Climb

/-- A host whose user has a name that a directory can have. -/
structure NamedHost extends Host where
  named : ValidName username

/-! ## Routes of received paths -/

/-- What the file system makes of a component. -/
def moveOf (part : WString) : Move WString :=
  if part = wide "." then .stay else if part = wide ".." then .up else .down part

/-- Where components lead, seen from any directory. -/
def routeOf (parts : Components) : Route WString := route (parts.map moveOf)

theorem resolveStep_eq (resolved : Components) (part : WString) :
    resolveStep resolved part = (moveOf part).apply resolved := by
  unfold resolveStep moveOf
  split
  · rfl
  · split <;> rfl

theorem foldl_resolveStep_eq {place : Components} (nonempty : place ≠ []) (parts : Components) :
    parts.foldl resolveStep place = (routeOf parts).end place := by
  have same : resolveStep = fun resolved part => (moveOf part).apply resolved :=
    funext fun resolved => funext fun part => resolveStep_eq resolved part
  rw [routeOf, ← foldl_apply nonempty, List.foldl_map, same]

/-- Strictly below the shared folder. -/
def Host.Inside (host : Host) (place : Components) : Prop :=
  host.base <+: place ∧ place ≠ host.base

/-- Where components lead to from the shared folder. -/
def Host.placeOf (host : Host) (parts : Components) : Components :=
  parts.foldl resolveStep host.base

theorem resolve_localPath_eq (host : Host) (filePath : WString) :
    resolve (host.localPath filePath) = host.placeOf (components filePath) :=
  resolve_separator host.directory filePath

/-- The components lead out of the shared folder, and not just up: of its own names the route gives
    up some, and it does not descend along these again. -/
def Host.Leaves (host : Host) (parts : Components) : Prop :=
  Beside ((routeOf parts).left host.base) (routeOf parts).downs

/-- The components lead to the shared folder itself. -/
def Host.Returns (host : Host) (parts : Components) : Prop :=
  (routeOf parts).downs = (routeOf parts).left host.base

theorem leaves_iff_beside (host : Host) (parts : Components) :
    host.Leaves parts ↔ Beside host.base (host.placeOf parts) := by
  rw [Host.placeOf, foldl_resolveStep_eq (base_ne_nil host), beside_end_iff]
  rfl

theorem returns_iff (host : Host) (parts : Components) :
    host.Returns parts ↔ host.placeOf parts = host.base := by
  rw [Host.placeOf, foldl_resolveStep_eq (base_ne_nil host), end_eq_iff]
  rfl

/-- A path that can be deleted. -/
def Host.MayDelete (host : Host) (filePath : WString) : Prop :=
  ¬ host.Leaves (components filePath) ∧ ¬ host.Returns (components filePath)

/-- A path that can be served. -/
def Host.MayServe (host : Host) (filePath : WString) : Prop :=
  ¬ host.Leaves (components filePath)

/-- A path that a file can be received at: on the way to it, the folder is not left either. -/
def Host.MayReceive (host : Host) (filePath : WString) : Prop :=
  ∀ parts, parts <+: components filePath → ¬ host.Leaves parts

/-! ## What is touched -/

/-- What a peer can make a node do to a place of its disk. -/
inductive AccessKind where
  | deleted
  | directoryCreated
  | truncated
  | served
  deriving DecidableEq

/-- One access and its place. -/
structure Access where
  kind : AccessKind
  place : Components
  deriving DecidableEq

/-- A disk, with what peers have made the node do to it. -/
structure Touched where
  disk : Disk
  accesses : List Access
  /-- The answers to the requests still to come. -/
  answers : List Answer

namespace Touched

/-- An access more. -/
def record (t : Touched) (kind : AccessKind) (place : Components) : Touched :=
  { t with accesses := t.accesses ++ [⟨kind, place⟩] }

/-- `deleteFile` (FileHelper.cpp 54-56). Nothing is touched where nothing is. -/
def deleteFile (t : Touched) (absPath : WString) : Touched × Option FsError :=
  match FileSync.deleteFile t.disk absPath with
  | .error error => (t, some error)
  | .ok (false, _) => (t, none)
  | .ok (true, disk) => ({ t with disk }.record .deleted (resolve absPath), none)

/-- `create_directories` on the text of a path: it goes through all that is named on the way,
    whether a later `..` leaves it again or not. -/
def createDirectories (place : Components) : Components → Touched → Touched × Option FsError
  | [], t => (t, none)
  | part :: parts, t =>
    let place := resolveStep place part
    match t.disk[place]? with
    | none =>
      createDirectories place parts
        ({ t with disk := t.disk.insert place .directory }.record .directoryCreated place)
    | some .directory => createDirectories place parts t
    | some (.file _) => (t, some .notADirectory)

/-- `acquireDirectories` (FileHelper.cpp 128-135) -/
def acquireDirectories (t : Touched) (absPath : WString) : Touched × Option FsError :=
  createDirectories [] (components (parentPath absPath)) t

/-- The `std::ofstream` on a path (Node.cpp 325) and what is written to it. Opening it fails on a
    directory and below what is none. -/
def writeFile (t : Touched) (absPath : WString) (bytes : Bytes) : Touched :=
  if canWrite t.disk (resolve absPath) then
    { t with disk := t.disk.insert (resolve absPath) (.file bytes) }.record .truncated
      (resolve absPath)
  else t

/-- What `negotiateTCPTransfer` does to the disk for the path of a reply (Node.cpp 324-329). -/
def receive (t : Touched) (absPath : WString) (bytes : Bytes) : Touched × Option FsError :=
  match t.acquireDirectories absPath with
  | (t, some error) => (t, some error)
  | (t, none) => (t.writeFile absPath bytes, none)

/-- Case 5 of `handleUdp` (Node.cpp 248, 264-272). -/
def serve (t : Touched) (absPath : WString) : Touched :=
  if pathExists t.disk absPath then
    match openFile t.disk absPath with
    | some _ => t.record .served (resolve absPath)
    | none => t
  else t

/-- `negotiateTCPTransfer` (Node.cpp 299-336), which takes the path from the reply. -/
def negotiateTCPTransfer (host : Host) (t : Touched) : Touched × Option FsError :=
  let answer := t.answers.head?.getD .noReply
  let t := { t with answers := t.answers.tail }
  match answer with
  | .noReply => (t, none)
  | .abandon => (t, none)
  | .transfer reply bytes => t.receive (host.localPath reply.filePath) bytes

/-- The body of the loop of `requestFiles` (Node.cpp 397-425). -/
def requestFile (host : Host) (fileChange : FileChangeData) (t : Touched) :
    Touched × Option FsError :=
  match fileChange.change with
  | .edit | .addition =>
    if host.alreadyHas t.disk fileChange then (t, none) else negotiateTCPTransfer host t
  | .deletion => t.deleteFile (host.localPath fileChange.filePath)

end Touched

/-! ## Places that are not left -/

/-- The shared folder is there, and only places below it have been touched. -/
structure Confined (host : Host) (t : Touched) : Prop where
  rooted : host.Rooted t.disk
  inside : ∀ access ∈ t.accesses, host.Inside access.place

section

variable {host : Host} {disk : Disk} {place : Components}

theorem placeOf_ne_nil (host : Host) (parts : Components) : host.placeOf parts ≠ [] :=
  foldl_resolveStep_ne_nil parts (base_ne_nil host)

theorem ne_of_inside (inside : host.Inside place) {upper : Components}
    (above : upper <+: host.base) : place ≠ upper := by
  rintro rfl
  exact inside.2 (above.eq_of_length_le inside.1.length_le)

theorem rooted_insert (rooted : host.Rooted disk) (inside : host.Inside place) (entry : Entry) :
    host.Rooted (disk.insert place entry) := by
  intro upper above nonempty
  rw [Std.ExtTreeMap.getElem?_insert]
  simp [ne_of_inside inside above, rooted upper above nonempty]

theorem rooted_erase (rooted : host.Rooted disk) (inside : host.Inside place) :
    host.Rooted (disk.erase place) := by
  intro upper above nonempty
  rw [Std.ExtTreeMap.getElem?_erase]
  simp [ne_of_inside inside above, rooted upper above nonempty]

/-- What is not beside the folder, and no directory that leads to it, is below it. -/
theorem inside_of_not_beside (rooted : host.Rooted disk) (notBeside : ¬ Beside host.base place)
    (nonempty : place ≠ []) (other : disk[place]? ≠ some .directory) : host.Inside place := by
  have notAbove : ¬ place <+: host.base := fun above => other (rooted place above nonempty)
  refine ⟨?_, ?_⟩
  · by_contra notBelow
    exact notBeside ⟨notBelow, notAbove⟩
  · rintro rfl
    exact notAbove List.prefix_rfl

theorem not_beside_of_inside (inside : host.Inside place) : ¬ Beside host.base place :=
  fun beside => beside.1 inside.1

theorem not_beside_of_above (above : place <+: host.base) : ¬ Beside host.base place :=
  fun beside => beside.2 above

/-- A directory that leads to the shared folder is not empty. -/
theorem deleteFile_above (rooted : host.Rooted disk) {absPath : WString}
    (above : resolve absPath <+: host.base) (differ : resolve absPath ≠ host.base)
    (nonempty : resolve absPath ≠ []) : deleteFile disk absPath = .error .directoryNotEmpty := by
  have directory := rooted _ above nonempty
  have below : disk[host.base]? = some .directory :=
    rooted host.base List.prefix_rfl (base_ne_nil host)
  have occupied : (disk.keys.any fun other =>
      (resolve absPath).isPrefixOf other && other != resolve absPath) = true := by
    apply List.any_eq_true.mpr
    refine ⟨host.base, ?_, ?_⟩
    · rw [Std.ExtTreeMap.mem_keys, Std.ExtTreeMap.mem_iff_isSome_getElem?, below]
      rfl
    · simp [List.isPrefixOf_iff_prefix.mpr above, Ne.symm differ]
  simp only [deleteFile, directory, occupied, if_true]

end

theorem deleteFile_eq_true {disk next : Disk} {absPath : WString}
    (removed : deleteFile disk absPath = .ok (true, next)) :
    next = disk.erase (resolve absPath) := by
  simp only [deleteFile] at removed
  split at removed
  · cases removed
  · cases removed
    rfl
  · split at removed
    · cases removed
    · cases removed
      rfl

namespace Touched

variable {host : Host} {t : Touched}

theorem confined_record {disk : Disk} {place : Components} (confined : Confined host t)
    (rooted : host.Rooted disk) (inside : host.Inside place) (kind : AccessKind) :
    Confined host ({ t with disk }.record kind place) := by
  refine ⟨rooted, fun access member => ?_⟩
  rcases List.mem_append.mp member with earlier | new
  · exact confined.inside access earlier
  · cases List.mem_singleton.mp new
    exact inside

theorem confined_deleteFile {filePath : WString} (confined : Confined host t)
    (may : host.MayDelete filePath) : Confined host (t.deleteFile (host.localPath filePath)).1 := by
  have nonempty := placeOf_ne_nil host (components filePath)
  have notBeside := mt (leaves_iff_beside host _).mpr may.1
  have notBase := mt (returns_iff host _).mpr may.2
  rw [← resolve_localPath_eq] at nonempty notBeside notBase
  by_cases above : resolve (host.localPath filePath) <+: host.base
  · rw [Touched.deleteFile, deleteFile_above confined.rooted above notBase nonempty]
    exact confined
  · have inside : host.Inside (resolve (host.localPath filePath)) := by
      refine ⟨?_, notBase⟩
      by_contra notBelow
      exact notBeside ⟨notBelow, above⟩
    unfold Touched.deleteFile
    split
    · exact confined
    · exact confined
    · rename_i disk removed
      rw [deleteFile_eq_true removed]
      exact confined_record confined (rooted_erase confined.rooted inside) inside .deleted

/-- What each directory that a walk creates preserves holds after the walk. -/
theorem createDirectories_invariant {Holds : Touched → Prop} (parts : Components) :
    ∀ (place : Components) (t : Touched),
      (∀ walked, walked <+: parts → walked ≠ [] → ∀ before : Touched,
        before.disk[walked.foldl resolveStep place]? = none → Holds before →
          Holds ({ before with
            disk := before.disk.insert (walked.foldl resolveStep place) .directory }.record
              .directoryCreated (walked.foldl resolveStep place))) →
      Holds t → Holds (createDirectories place parts t).1 := by
  induction parts with
  | nil => exact fun _ _ _ holds => holds
  | cons part parts ih =>
    intro place t created holds
    have later := ih (resolveStep place part)
    have deeper {walked : Components} (inside : walked <+: parts) :
        part :: walked <+: part :: parts := List.cons_prefix_cons.mpr ⟨rfl, inside⟩
    rw [createDirectories]
    split
    · rename_i missing
      apply later
      · intro walked inside _
        exact created (part :: walked) (deeper inside) (List.cons_ne_nil _ _)
      · exact created [part] (deeper List.nil_prefix) (List.cons_ne_nil _ _) t missing holds
    · apply later
      · intro walked inside _
        exact created (part :: walked) (deeper inside) (List.cons_ne_nil _ _)
      · exact holds
    · exact holds

/-- A walk that comes to no place beside the shared folder creates directories below it only. -/
theorem confined_createDirectories {parts place : Components} (nonempty : place ≠ [])
    (confined : Confined host t)
    (passes : ∀ walked, walked <+: parts → walked ≠ [] →
      ¬ Beside host.base (walked.foldl resolveStep place)) :
    Confined host (createDirectories place parts t).1 := by
  apply createDirectories_invariant parts place t _ confined
  intro walked within named before missing earlier
  have inside : host.Inside (walked.foldl resolveStep place) :=
    inside_of_not_beside earlier.rooted (passes walked within named)
      (foldl_resolveStep_ne_nil walked nonempty) (by simp [missing])
  exact confined_record earlier (rooted_insert earlier.rooted inside .directory) inside _

/-- Through the names of the shared folder the walk creates nothing. -/
theorem createDirectories_base (rooted : host.Rooted t.disk) (rest : Components) :
    ∀ todo done : Components, done ++ todo = host.base → (∀ part ∈ todo, ValidName part) →
      createDirectories done (todo ++ rest) t = createDirectories host.base rest t := by
  intro todo
  induction todo with
  | nil =>
    intro done all _
    rw [List.append_nil] at all
    rw [all, List.nil_append]
  | cons part todo ih =>
    intro done all valid
    have step : resolveStep done part = done ++ [part] :=
      resolveStep_of_valid (valid part List.mem_cons_self) done
    have split : (done ++ [part]) ++ todo = host.base := by
      rw [List.append_assoc, List.singleton_append, all]
    have directory : t.disk[done ++ [part]]? = some .directory :=
      rooted _ (split ▸ List.prefix_append _ _) (by simp)
    rw [List.cons_append, createDirectories, step]
    simp only [directory]
    exact ih _ split fun other member => valid other (List.mem_cons_of_mem _ member)

end Touched

/-! ## The path of the shared folder -/

theorem components_directory (host : NamedHost) :
    components host.directory = host.base ∧ ∀ part ∈ host.base, ValidName part := by
  have valid : ∀ part ∈ [wide "Users", host.username, wide "Documents",
      wide "File Sync Shared Folder"], ValidName part := by
    intro part member
    simp only [List.mem_cons, List.not_mem_nil, or_false] at member
    rcases member with rfl | rfl | rfl | rfl
    · exact validName_of_check (by decide)
    · exact host.named
    · exact validName_of_check (by decide)
    · exact validName_of_check (by decide)
  have text : host.directory = wide "C:" ++ relativePath [wide "Users", host.username,
      wide "Documents", wide "File Sync Shared Folder"] := by
    have start : wide "C:\\Users\\" = wide "C:" ++ backslash :: (wide "Users" ++ [backslash]) := by
      decide
    have documents : wide "\\Documents" = backslash :: wide "Documents" := by decide
    have folder : sharedFolder = backslash :: wide "File Sync Shared Folder" := by decide
    rw [Host.directory, sharedDirectory, getDocumentsPath, start, documents, folder]
    simp [relativePath]
  have drive : ValidName (wide "C:") := validName_of_check (by decide)
  have parts : components host.directory = [wide "C:", wide "Users", host.username,
      wide "Documents", wide "File Sync Shared Folder"] := by
    rw [text, components_append_relativePath valid, components_of_valid drive]
    rfl
  have all := List.forall_mem_cons.mpr ⟨drive, valid⟩
  have base : host.base = components host.directory := by
    rw [Host.base, resolve, parts, foldl_resolveStep all, List.nil_append]
  rw [base, parts]
  exact ⟨rfl, all⟩

theorem parentPath_localPath (host : Host) (filePath : WString) :
    parentPath (host.localPath filePath) = host.localPath (parentPath filePath) := by
  have text : (host.localPath filePath).reverse =
      filePath.reverse ++ backslash :: host.directory.reverse := by
    simp [Host.localPath]
  have stops : (backslash :: host.directory.reverse).dropWhile (fun c => !isSeparator c) =
      backslash :: host.directory.reverse := by
    simp [isSeparator_backslash]
  have dropped : (host.localPath filePath).reverse.dropWhile (fun c => !isSeparator c) =
      filePath.reverse.dropWhile (fun c => !isSeparator c) ++
        backslash :: host.directory.reverse := by
    rw [text, List.dropWhile_append, stops]
    split
    · rename_i empty
      rw [List.isEmpty_iff.mp empty, List.nil_append]
    · rfl
  rw [parentPath, dropped, parentPath, Host.localPath]
  simp

/-- A path has at most one component more than its directory. -/
theorem components_parentPath (filePath : WString) :
    ∃ last, (∀ c ∈ last, isSeparator c = false) ∧
      components filePath = components (parentPath filePath) ++ components last := by
  refine ⟨(filePath.reverse.takeWhile fun c => !isSeparator c).reverse, ?_, ?_⟩
  · intro c member
    simpa using List.mem_takeWhile_imp (List.mem_reverse.mp member)
  · have whole : filePath = parentPath filePath ++
        (filePath.reverse.takeWhile fun c => !isSeparator c).reverse := by
      rw [parentPath, ← List.reverse_append, List.takeWhile_append_dropWhile, List.reverse_reverse]
    conv_lhs => rw [whole]
    cases ends : filePath.reverse.dropWhile (fun c => !isSeparator c) with
    | nil =>
      rw [parentPath, ends]
      rfl
    | cons c rest =>
      have separates : isSeparator c = true := by
        have head := List.head?_dropWhile_not (fun c => !isSeparator c) filePath.reverse
        rw [ends] at head
        simpa using head
      have directory : parentPath filePath = rest.reverse ++ [c] := by
        rw [parentPath, ends, List.reverse_cons]
      rw [directory, List.append_assoc, List.singleton_append, components_separator separates,
        components_separator separates, components_nil, List.append_nil]

namespace Touched

variable {host : NamedHost} {t : Touched}

/-- The walk starts at the shared folder. -/
theorem acquireDirectories_eq (rooted : host.Rooted t.disk) (filePath : WString) :
    t.acquireDirectories (host.localPath filePath) =
      createDirectories host.base (components (parentPath filePath)) t := by
  obtain ⟨parts, valid⟩ := components_directory host
  rw [acquireDirectories, parentPath_localPath, Host.localPath,
    components_separator isSeparator_backslash, parts]
  exact createDirectories_base rooted _ host.base [] rfl valid

theorem confined_acquireDirectories {filePath : WString} (confined : Confined host.toHost t)
    (may : host.MayReceive filePath) :
    Confined host.toHost (t.acquireDirectories (host.localPath filePath)).1 := by
  obtain ⟨last, -, whole⟩ := components_parentPath filePath
  rw [acquireDirectories_eq confined.rooted]
  apply confined_createDirectories (base_ne_nil _) confined
  intro walked inside _
  apply mt (leaves_iff_beside host.toHost _).mpr
  apply may
  rw [whole]
  exact inside.trans (List.prefix_append _ _)

theorem confined_writeFile {filePath : WString} (confined : Confined host.toHost t)
    (stays : ¬ host.Leaves (components filePath)) (bytes : Bytes) :
    Confined host.toHost (t.writeFile (host.localPath filePath) bytes) := by
  unfold Touched.writeFile
  split
  · rename_i writable
    have other : t.disk[resolve (host.localPath filePath)]? ≠ some .directory := by
      simpa using (Bool.and_eq_true_iff.mp writable).2
    rw [resolve_localPath_eq] at other ⊢
    have inside := inside_of_not_beside confined.rooted
      (mt (leaves_iff_beside host.toHost _).mpr stays) (placeOf_ne_nil _ _) other
    exact confined_record confined (rooted_insert confined.rooted inside _) inside .truncated
  · exact confined

theorem confined_receive {filePath : WString} (confined : Confined host.toHost t)
    (may : host.MayReceive filePath) (bytes : Bytes) :
    Confined host.toHost (t.receive (host.localPath filePath) bytes).1 := by
  have acquired := confined_acquireDirectories confined may
  unfold Touched.receive
  split
  · rename_i after error thrown
    rwa [thrown] at acquired
  · rename_i after done
    rw [done] at acquired
    exact confined_writeFile acquired (may _ List.prefix_rfl) bytes

theorem confined_serve {filePath : WString} (confined : Confined host.toHost t)
    (may : host.MayServe filePath) :
    Confined host.toHost (t.serve (host.localPath filePath)) := by
  unfold Touched.serve
  split
  · split
    · rename_i bytes opened
      have file : t.disk[resolve (host.localPath filePath)]? ≠ some .directory := by
        intro directory
        rw [openFile, directory] at opened
        cases opened
      rw [resolve_localPath_eq] at file ⊢
      have inside := inside_of_not_beside confined.rooted
        (mt (leaves_iff_beside host.toHost _).mpr may) (placeOf_ne_nil _ _) file
      exact confined_record confined confined.rooted inside .served
    · exact confined
  · exact confined

end Touched

/-! ## Packets of peers -/

/-- What other nodes send, with any tables, lists and records. -/
inductive PeerPacket where
  /-- pid 0 -/
  | arrival (table : FileTable)
  /-- pid 1 -/
  | response (table : FileTable)
  /-- pid 5 -/
  | request (fileChange : FileChangeData)
  /-- pid 6 -/
  | changes (fileChanges : List FileChangeData)

/-- What one of the threads does next: an element of a change list, or a request. -/
inductive Work where
  | element (fileChange : FileChangeData)
  | serve (fileChange : FileChangeData)

/-- What a packet makes the threads do, where the node has the table `fileHashes`. -/
def PeerPacket.works (fileHashes : FileTable) : PeerPacket → List Work
  | .arrival table => (dealWithHashTable fileHashes table true).map .element
  | .response table => (dealWithHashTable fileHashes table false).map .element
  | .request fileChange => [.serve fileChange]
  | .changes fileChanges => fileChanges.map .element

namespace Touched

/-- What a thread does for one piece of work. -/
def work (host : Host) : Work → Touched → Touched × Option FsError
  | .element fileChange, t => requestFile host fileChange t
  | .serve fileChange, t => (t.serve (host.localPath fileChange.filePath), none)

/-- The threads' work one after the other. An exception ends the program. -/
def works (host : Host) : List Work → Touched → Touched × Option FsError
  | [], t => (t, none)
  | item :: items, t =>
    match work host item t with
    | (t, some error) => (t, some error)
    | (t, none) => works host items t

end Touched

namespace Host

variable (host : Host)

/-- The paths of a packet that a node acts upon lead to places of the shared folder. -/
def Sound : PeerPacket → Prop
  | .arrival _ => True
  | .response _ => True
  | .request fileChange => host.MayServe fileChange.filePath
  | .changes fileChanges => ∀ fileChange ∈ fileChanges, fileChange.change = .deletion →
      host.MayDelete fileChange.filePath

/-- The path of a reply is one that a file can be received at. -/
def SoundAnswer : Answer → Prop
  | .noReply => True
  | .abandon => True
  | .transfer reply _ => host.MayReceive reply.filePath

/-- The path of a piece of work is one that can be deleted, or served. -/
def SoundWork : Work → Prop
  | .element fileChange => fileChange.change = .deletion → host.MayDelete fileChange.filePath
  | .serve fileChange => host.MayServe fileChange.filePath

end Host

theorem dealWithHashTable_ne_deletion {fileHashes table : FileTable} {ignoreEdits : Bool}
    {fileChange : FileChangeData}
    (member : fileChange ∈ dealWithHashTable fileHashes table ignoreEdits) :
    fileChange.change ≠ .deletion := by
  rw [dealWithHashTable_eq] at member
  exact change_ne_deletion_of_updates ((EraseWalk.survivors_sublist _ _).subset member)

theorem soundWork_of_sound {host : Host} {packet : PeerPacket} (sound : host.Sound packet)
    {fileHashes : FileTable} {item : Work} (member : item ∈ packet.works fileHashes) :
    host.SoundWork item := by
  cases packet with
  | arrival table | response table =>
    obtain ⟨fileChange, filtered, rfl⟩ := List.mem_map.mp member
    exact fun deletion => absurd deletion (dealWithHashTable_ne_deletion filtered)
  | request fileChange =>
    cases List.mem_singleton.mp member
    exact sound
  | changes fileChanges =>
    obtain ⟨fileChange, inside, rfl⟩ := List.mem_map.mp member
    exact sound fileChange inside

namespace Touched

variable {host : NamedHost} {t : Touched}

theorem createDirectories_answers (parts place : Components) (t : Touched) :
    (createDirectories place parts t).1.answers = t.answers := by
  apply @createDirectories_invariant fun after => after.answers = t.answers
  · exact fun _ _ _ _ _ same => same
  · rfl

theorem receive_answers (t : Touched) (absPath : WString) (bytes : Bytes) :
    (t.receive absPath bytes).1.answers = t.answers := by
  have acquired := createDirectories_answers (components (parentPath absPath)) [] t
  unfold Touched.receive Touched.acquireDirectories
  split
  · rename_i after error thrown
    rwa [thrown] at acquired
  · rename_i after done
    rw [done] at acquired
    unfold Touched.writeFile
    split
    · exact acquired
    · exact acquired

theorem serve_answers (t : Touched) (absPath : WString) :
    (t.serve absPath).answers = t.answers := by
  unfold Touched.serve
  split
  · split <;> rfl
  · rfl

theorem deleteFile_answers (t : Touched) (absPath : WString) :
    (t.deleteFile absPath).1.answers = t.answers := by
  unfold Touched.deleteFile
  split <;> rfl

theorem mem_of_next {answers : List Answer} {reply : FileChangeData} {bytes : Bytes}
    (next : answers.head?.getD .noReply = .transfer reply bytes) :
    .transfer reply bytes ∈ answers := by
  cases answers with
  | nil => cases next
  | cons answer answers =>
    cases next
    exact List.mem_cons_self

/-- What the threads have touched so far, and what they are still going to be sent. -/
structure Held (host : Host) (t : Touched) : Prop extends Confined host t where
  answers : ∀ answer ∈ t.answers, host.SoundAnswer answer

theorem held_negotiateTCPTransfer (held : Held host.toHost t) :
    Held host.toHost (t.negotiateTCPTransfer host.toHost).1 := by
  have later (answer : Answer) (member : answer ∈ t.answers.tail) :
      host.SoundAnswer answer := held.answers answer (List.mem_of_mem_tail member)
  have asked : Confined host.toHost { t with answers := t.answers.tail } :=
    ⟨held.rooted, held.inside⟩
  unfold negotiateTCPTransfer
  cases answer : t.answers.head?.getD .noReply with
  | noReply | abandon => exact ⟨asked, later⟩
  | transfer reply bytes =>
    have first := mem_of_next answer
    show Held host.toHost
      (receive { t with answers := t.answers.tail } (host.localPath reply.filePath) bytes).1
    refine ⟨confined_receive asked (held.answers _ first) bytes, fun other member => ?_⟩
    rw [receive_answers] at member
    exact later other member

theorem held_work {item : Work} (held : Held host.toHost t) (sound : host.SoundWork item) :
    Held host.toHost (t.work host.toHost item).1 := by
  cases item with
  | serve fileChange =>
    show Held host.toHost (t.serve (host.localPath fileChange.filePath))
    refine ⟨confined_serve held.toConfined sound, fun answer member => ?_⟩
    rw [serve_answers] at member
    exact held.answers answer member
  | element fileChange =>
    show Held host.toHost (requestFile host.toHost fileChange t).1
    unfold requestFile
    cases kind : fileChange.change with
    | addition | edit =>
      simp only
      split
      · exact held
      · exact held_negotiateTCPTransfer held
    | deletion =>
      show Held host.toHost (t.deleteFile (host.localPath fileChange.filePath)).1
      refine ⟨confined_deleteFile held.toConfined (sound kind), fun answer member => ?_⟩
      rw [deleteFile_answers] at member
      exact held.answers answer member

/-- However the work of the threads is interleaved, sound work stays inside. -/
theorem held_works (items : List Work) : ∀ t : Touched, Held host.toHost t →
    (∀ item ∈ items, host.SoundWork item) → Held host.toHost (t.works host.toHost items).1 := by
  induction items with
  | nil => exact fun _ held _ => held
  | cons item items ih =>
    intro t held sound
    have first := held_work held (sound item List.mem_cons_self)
    rw [works]
    split
    · rename_i after error thrown
      rwa [thrown] at first
    · rename_i after done
      rw [done] at first
      exact ih after first fun other member => sound other (List.mem_cons_of_mem _ member)

end Touched

/-! ## Disks on which a path does harm -/

/-- The disk with the directories on the way to a place. -/
def directoriesTo (place : Components) (disk : Disk) : Disk :=
  (place.inits.filter fun upper => !upper.isEmpty).foldl
    (fun disk upper => disk.insert upper .directory) disk

theorem getElem?_foldl_directory (places : List Components) : ∀ (disk : Disk) (other : Components),
    (places.foldl (fun disk upper => disk.insert upper .directory) disk)[other]? =
      if other ∈ places then some .directory else disk[other]? := by
  induction places with
  | nil => simp
  | cons place places ih =>
    intro disk other
    rw [List.foldl_cons, ih, Std.ExtTreeMap.getElem?_insert]
    by_cases later : other ∈ places
    · simp [later]
    · by_cases same : place = other
      · simp [same]
      · simp [later, same, Ne.symm same]

theorem getElem?_directoriesTo (place : Components) (disk : Disk) (other : Components) :
    (directoriesTo place disk)[other]? =
      if other <+: place ∧ other ≠ [] then some .directory else disk[other]? := by
  rw [directoriesTo, getElem?_foldl_directory]
  simp [List.mem_filter, List.mem_inits]

/-- A disk with an empty shared folder. -/
def Host.bareDisk (host : Host) : Disk := directoriesTo host.base ∅

/-- A disk with an empty shared folder and a file somewhere else. -/
def Host.diskWithFile (host : Host) (place : Components) : Disk :=
  (directoriesTo place.dropLast host.bareDisk).insert place (.file [])

theorem getElem?_bareDisk (host : Host) (place : Components) : host.bareDisk[place]? =
    if place <+: host.base ∧ place ≠ [] then some .directory else none := by
  rw [Host.bareDisk, getElem?_directoriesTo, Std.ExtTreeMap.getElem?_empty]

theorem rooted_bareDisk (host : Host) : host.Rooted host.bareDisk := by
  intro upper above nonempty
  rw [getElem?_bareDisk, if_pos ⟨above, nonempty⟩]

theorem bareDisk_empty (host : Host) : (host.bareDisk.keys.any fun other =>
    host.base.isPrefixOf other && other != host.base) = false := by
  apply List.any_eq_false.mpr
  intro other member below
  rw [Std.ExtTreeMap.mem_keys, Std.ExtTreeMap.mem_iff_isSome_getElem?, getElem?_bareDisk] at member
  obtain ⟨isPrefix, differ⟩ := Bool.and_eq_true_iff.mp below
  split at member
  · rename_i above
    have same := above.1.eq_of_length_le (List.isPrefixOf_iff_prefix.mp isPrefix).length_le
    simp [same] at differ
  · cases member

theorem rooted_diskWithFile {host : Host} {place : Components} (beside : Beside host.base place) :
    host.Rooted (host.diskWithFile place) := by
  intro upper above nonempty
  have other : place ≠ upper := by
    rintro rfl
    exact beside.2 above
  rw [Host.diskWithFile, Std.ExtTreeMap.getElem?_insert]
  simp [other, getElem?_directoriesTo, rooted_bareDisk host upper above nonempty]

theorem diskWithFile_place (host : Host) (place : Components) :
    (host.diskWithFile place)[place]? = some (.file []) := by
  rw [Host.diskWithFile, Std.ExtTreeMap.getElem?_insert_self]

/-- Whatever the disk holds next to the shared folder, only places below this are touched. -/
def Host.Confines (host : Host) (operation : Touched → Touched) : Prop :=
  ∀ disk answers, host.Rooted disk →
    ∀ access ∈ (operation { disk, accesses := [], answers }).accesses, host.Inside access.place

theorem confined_start {host : Host} {disk : Disk} (rooted : host.Rooted disk)
    (answers : List Answer) : Confined host { disk, accesses := [], answers } :=
  ⟨rooted, fun _ member => (List.not_mem_nil member).elim⟩

section

variable (host : NamedHost) (filePath : WString)

theorem confines_serve_iff :
    host.Confines (fun t => t.serve (host.localPath filePath)) ↔ host.MayServe filePath := by
  constructor
  · intro confines leaves
    have beside := (leaves_iff_beside host.toHost _).mp leaves
    have file := diskWithFile_place host.toHost (host.placeOf (components filePath))
    rw [← resolve_localPath_eq] at beside file
    have served := confines _ [] (rooted_diskWithFile beside)
      ⟨.served, resolve (host.localPath filePath)⟩ (by
        simp [Touched.serve, pathExists, openFile, file, Touched.record,
          Std.ExtTreeMap.contains_eq_isSome_getElem?])
    exact beside.1 served.1
  · intro may disk answers rooted
    exact (Touched.confined_serve (confined_start rooted answers) may).inside

theorem confines_deleteFile_iff :
    host.Confines (fun t => (t.deleteFile (host.localPath filePath)).1) ↔
      host.MayDelete filePath := by
  constructor
  · intro confines
    refine ⟨fun leaves => ?_, fun returns => ?_⟩
    · have beside := (leaves_iff_beside host.toHost _).mp leaves
      have file := diskWithFile_place host.toHost (host.placeOf (components filePath))
      rw [← resolve_localPath_eq] at beside file
      have deleted := confines _ [] (rooted_diskWithFile beside)
        ⟨.deleted, resolve (host.localPath filePath)⟩ (by
          simp [Touched.deleteFile, deleteFile, file, Touched.record])
      exact beside.1 deleted.1
    · have place := (returns_iff host.toHost _).mp returns
      rw [← resolve_localPath_eq] at place
      have directory := rooted_bareDisk host.toHost host.base List.prefix_rfl (base_ne_nil _)
      have deleted := confines _ [] (rooted_bareDisk host.toHost)
        ⟨.deleted, resolve (host.localPath filePath)⟩ (by
          simp [Touched.deleteFile, deleteFile, place, directory, bareDisk_empty host.toHost,
            Touched.record])
      exact deleted.2 place
  · intro may disk answers rooted
    exact (Touched.confined_deleteFile (confined_start rooted answers) may).inside

end

/-! ## What is created on a disk without files -/

/-- There are only directories, and those that have not been there before are on record. -/
structure OnRecord (host : Host) (t : Touched) : Prop where
  directories : ∀ place : Components, t.disk[place]? = none ∨ t.disk[place]? = some .directory
  recorded : ∀ place : Components, t.disk[place]? = some .directory →
    place <+: host.base ∨ ∃ access ∈ t.accesses, access.place = place

/-- The disk after a directory was created. -/
theorem getElem?_created (t : Touched) (place other : Components) :
    ({ t with disk := t.disk.insert place .directory }.record .directoryCreated
      place).disk[other]? = if place = other then some .directory else t.disk[other]? := by
  simp [Touched.record, Std.ExtTreeMap.getElem?_insert]

theorem onRecord_created {host : Host} {t : Touched} (record : OnRecord host t)
    (place : Components) : OnRecord host
      ({ t with disk := t.disk.insert place .directory }.record .directoryCreated place) := by
  constructor
  · intro other
    rw [getElem?_created]
    split
    · exact Or.inr rfl
    · exact record.directories other
  · intro other directory
    rw [getElem?_created] at directory
    split at directory
    · rename_i same
      exact Or.inr ⟨_, List.mem_append_right _ (List.mem_singleton_self _), same⟩
    · rcases record.recorded other directory with above | ⟨access, member, named⟩
      · exact Or.inl above
      · exact Or.inr ⟨access, List.mem_append_left _ member, named⟩

/-- What a walk leaves that meets no file. -/
structure Walked (host : Host) (place parts : Components) (t : Touched)
    (result : Touched × Option FsError) : Prop where
  finished : result.2 = none
  onRecord : OnRecord host result.1
  keeps : ∀ other : Components, t.disk[other]? = some .directory →
    result.1.disk[other]? = some .directory
  places : ∀ walked, walked <+: parts → walked ≠ [] →
    result.1.disk[walked.foldl resolveStep place]? = some .directory

theorem createDirectories_walked {host : Host} (parts : Components) :
    ∀ (place : Components) (t : Touched), OnRecord host t →
      Walked host place parts t (Touched.createDirectories place parts t) := by
  induction parts with
  | nil =>
    intro place t record
    refine ⟨rfl, record, fun _ directory => directory, fun walked inside nonempty => ?_⟩
    exact absurd (List.prefix_nil.mp inside) nonempty
  | cons part parts ih =>
    intro place t record
    have places {after : Disk} (first : after[resolveStep place part]? = some .directory)
        (later : ∀ walked, walked <+: parts → walked ≠ [] →
          after[walked.foldl resolveStep (resolveStep place part)]? = some .directory)
        (walked : Components) (inside : walked <+: part :: parts) (nonempty : walked ≠ []) :
        after[walked.foldl resolveStep place]? = some .directory := by
      rcases List.prefix_cons_iff.mp inside with empty | ⟨rest, rfl, deeper⟩
      · exact absurd empty nonempty
      · cases rest with
        | nil => exact first
        | cons next rest => exact later _ deeper (List.cons_ne_nil _ _)
    rcases record.directories (resolveStep place part) with missing | directory
    · rw [Touched.createDirectories]
      simp only [missing]
      obtain ⟨finished, onRecord, keeps, later⟩ :=
        ih (resolveStep place part) _ (onRecord_created record (resolveStep place part))
      have there (other : Components) (before : resolveStep place part ≠ other →
          t.disk[other]? = some .directory) :
          (if resolveStep place part = other then some .directory else t.disk[other]?) =
            some Entry.directory := by
        split
        · rfl
        · exact before ‹_›
      refine ⟨finished, onRecord, fun other before => ?_, places ?_ later⟩
      · exact keeps other ((getElem?_created t _ other).trans (there other fun _ => before))
      · exact keeps _ ((getElem?_created t _ _).trans (there _ fun differ => absurd rfl differ))
    · rw [Touched.createDirectories]
      simp only [directory]
      obtain ⟨finished, onRecord, keeps, later⟩ := ih (resolveStep place part) t record
      exact ⟨finished, onRecord, keeps, places (keeps _ directory) later⟩

theorem onRecord_bareDisk (host : Host) (answers : List Answer) :
    OnRecord host { disk := host.bareDisk, accesses := [], answers } := by
  constructor
  · intro place
    rw [getElem?_bareDisk]
    split
    · exact Or.inr rfl
    · exact Or.inl rfl
  · intro place directory
    rw [getElem?_bareDisk] at directory
    split at directory
    · exact Or.inl (And.left ‹_›)
    · cases directory

/-- A place on record is not beside the folder if only places below it are touched. -/
theorem OnRecord.not_beside {host : Host} {t : Touched} (record : OnRecord host t)
    (inside : ∀ access ∈ t.accesses, host.Inside access.place) {place : Components}
    (directory : t.disk[place]? = some .directory) : ¬ Beside host.base place := by
  rcases record.recorded place directory with above | ⟨access, member, rfl⟩
  · exact not_beside_of_above above
  · exact not_beside_of_inside (inside access member)

/-- From a place that is not beside the folder, one gets there only by a name. -/
theorem resolveStep_of_beside {host : Host} {place : Components} {part : WString}
    (notBeside : ¬ Beside host.base place) (beside : Beside host.base (resolveStep place part)) :
    resolveStep place part = place ++ [part] := by
  unfold resolveStep at beside ⊢
  split at beside
  · exact absurd beside notBeside
  · rename_i notDot
    rw [if_neg notDot]
    split at beside
    · split at beside
      · exact absurd beside notBeside
      · -- a step up from a place that is not beside the folder is not beside it, either
        refine absurd beside fun beside => notBeside ⟨fun below => ?_, fun above => ?_⟩
        · obtain ⟨rest, rfl⟩ := below
          by_cases here : rest = []
          · subst here
            rw [List.append_nil] at beside
            exact beside.2 (List.dropLast_prefix _)
          · rw [List.dropLast_append_of_ne_nil here] at beside
            exact beside.1 (List.prefix_append _ _)
        · exact beside.2 ((List.dropLast_prefix _).trans above)
    · rename_i notDots
      rw [if_neg notDots]

/-- Where only places below the folder are touched, a file can be put beside the folder from any
    directory that has been there before. -/
theorem OnRecord.canWrite {host : Host} {t : Touched} (record : OnRecord host t)
    (inside : ∀ access ∈ t.accesses, host.Inside access.place) {place : Components}
    {part : WString} (parent : t.disk[place]? = some .directory)
    (beside : Beside host.base (resolveStep place part)) :
    canWrite t.disk (resolveStep place part) = true := by
  have named := resolveStep_of_beside (record.not_beside inside parent) beside
  have free : t.disk[resolveStep place part]? = none :=
    (record.directories _).resolve_right fun found => record.not_beside inside found beside
  rw [FileSync.canWrite, free, named, List.dropLast_concat, parent]
  rfl

theorem accesses_writeFile (t : Touched) (absPath : WString) (bytes : Bytes) :
    t.accesses ⊆ (t.writeFile absPath bytes).accesses := by
  unfold Touched.writeFile
  split
  · exact List.subset_append_left _ _
  · exact List.Subset.refl _

section

variable (host : NamedHost) (filePath : WString)

/-- A path with one component more than the directories that are created for it. -/
theorem prefix_components_iff {parts : Components} (inside : parts <+: components filePath) :
    parts <+: components (parentPath filePath) ∨
      ∃ part, parts = components (parentPath filePath) ++ [part] ∧ parts = components filePath := by
  obtain ⟨last, plain, whole⟩ := components_parentPath filePath
  have one : components last = [] ∨ components last = [last] := by
    rw [components, List.splitOnP_eq_singleton plain]
    cases last with
    | nil => exact Or.inl rfl
    | cons => exact Or.inr rfl
  rw [whole] at inside ⊢
  rcases List.prefix_or_prefix_of_prefix inside (List.prefix_append _ _) with within | ⟨rest, rfl⟩
  · exact Or.inl within
  · rw [List.prefix_append_right_inj] at inside
    rcases one with none | single
    · rw [none, List.prefix_nil] at inside
      exact Or.inl (by rw [inside, List.append_nil])
    · rw [single] at inside ⊢
      rcases List.prefix_cons_iff.mp inside with empty | ⟨_, rfl, nothing⟩
      · exact Or.inl (by rw [empty, List.append_nil])
      · rw [List.prefix_nil.mp nothing]
        exact Or.inr ⟨last, rfl, rfl⟩

theorem confines_receive_iff (bytes : Bytes) :
    host.Confines (fun t => (t.receive (host.localPath filePath) bytes).1) ↔
      host.MayReceive filePath := by
  constructor
  · intro confines parts inside leaves
    have beside := (leaves_iff_beside host.toHost parts).mp leaves
    have rooted := rooted_bareDisk host.toHost
    have walked := createDirectories_walked (components (parentPath filePath)) host.base _
      (onRecord_bareDisk host.toHost [])
    have acquired := @Touched.acquireDirectories_eq host ⟨host.bareDisk, [], []⟩ rooted filePath
    have touched := confines host.bareDisk [] rooted
    generalize Touched.createDirectories host.base (components (parentPath filePath))
      ⟨host.bareDisk, [], []⟩ = result at walked acquired
    obtain ⟨t, error⟩ := result
    obtain ⟨rfl, record, keeps, places⟩ := walked
    simp only [Touched.receive, acquired] at touched
    have created : ∀ access ∈ t.accesses, host.Inside access.place := fun access member =>
      touched access (accesses_writeFile t _ bytes member)
    have directory : ∀ parts, parts <+: components (parentPath filePath) →
        t.disk[host.placeOf parts]? = some .directory := by
      intro parts within
      cases parts with
      | nil => exact keeps _ (rooted host.base List.prefix_rfl (base_ne_nil _))
      | cons part parts => exact places _ within (List.cons_ne_nil _ _)
    rcases prefix_components_iff filePath inside with within | ⟨part, split, all⟩
    · exact record.not_beside created (directory parts within) beside
    · -- the directories are not beside the folder, so that the file is put into one of them
      have parent := directory _ List.prefix_rfl
      have step : host.placeOf parts =
          resolveStep (host.placeOf (components (parentPath filePath))) part := by
        rw [split, Host.placeOf, List.foldl_concat]
        rfl
      rw [step] at beside
      have writable : canWrite t.disk (resolve (host.localPath filePath)) = true := by
        rw [resolve_localPath_eq, ← all, step]
        exact record.canWrite created parent beside
      have opened := touched ⟨.truncated, resolve (host.localPath filePath)⟩ (by
        simp [Touched.writeFile, writable, Touched.record])
      rw [resolve_localPath_eq, ← all, step] at opened
      exact beside.1 opened.1
  · intro may disk answers rooted
    exact (Touched.confined_receive (confined_start rooted answers) may bytes).inside

end

/-! ## Paths of names -/

theorem routeOf_names {path : Components} (valid : ∀ part ∈ path, ValidName part) :
    routeOf path = { ups := 0, downs := path } := by
  have moves : path.map moveOf = path.map Move.down := by
    apply List.map_congr_left
    intro part member
    obtain ⟨-, -, notDot, notDots⟩ := valid part member
    rw [moveOf, if_neg notDot, if_neg notDots]
  rw [routeOf, moves, route_down]

theorem not_leaves_names (host : Host) {path : Components}
    (valid : ∀ part ∈ path, ValidName part) : ¬ host.Leaves path := by
  intro leaves
  rw [Host.Leaves, routeOf_names valid, left_of_zero rfl] at leaves
  exact leaves.1 List.nil_prefix

/-- The paths that the scans of a folder come to may be deleted, received and served. -/
theorem may_of_names (host : Host) {path : Components} (valid : ∀ part ∈ path, ValidName part)
    (nonempty : path ≠ []) : host.MayDelete (relativePath path) ∧
      host.MayReceive (relativePath path) ∧ host.MayServe (relativePath path) := by
  rw [Host.MayDelete, Host.MayReceive, Host.MayServe, components_relativePath valid]
  refine ⟨⟨not_leaves_names host valid, fun returns => ?_⟩, fun parts inside => ?_,
    not_leaves_names host valid⟩
  · rw [Host.Returns, routeOf_names valid, left_of_zero rfl] at returns
    exact nonempty returns
  · exact not_leaves_names host fun part member => valid part (inside.subset member)

/-! ## The other model of the disk -/

namespace Touched

/-- The disk that is left, or the exception. -/
def outcome : Touched × Option FsError → Except FsError Disk
  | (t, none) => .ok t.disk
  | (_, some error) => .error error

/-- Without `.` and `..` the walk is the one on the resolved path. -/
theorem createDirectories_names (parts : Components) : ∀ (place : Components) (t : Touched),
    (∀ part ∈ parts, ValidName part) → outcome (createDirectories place parts t) =
      FileSync.createDirectories t.disk place parts := by
  induction parts with
  | nil => exact fun _ _ _ => rfl
  | cons part parts ih =>
    intro place t valid
    have step : resolveStep place part = place ++ [part] :=
      resolveStep_of_valid (valid part List.mem_cons_self) place
    have later := fun other member => valid other (List.mem_cons_of_mem part member)
    rw [createDirectories, FileSync.createDirectories, step]
    cases found : t.disk[place ++ [part]]? with
    | none =>
      simp only
      exact ih _ _ later
    | some entry =>
      cases entry with
      | file bytes =>
        simp only
        rfl
      | directory =>
        simp only
        exact ih _ _ later

theorem acquireDirectories_names (host : NamedHost) {path : Components}
    (valid : ∀ part ∈ path, ValidName part) (t : Touched) :
    outcome (t.acquireDirectories (host.localPath (relativePath path))) =
      FileSync.acquireDirectories t.disk (host.localPath (relativePath path)) := by
  obtain ⟨directory, names⟩ := components_directory host
  obtain ⟨last, -, whole⟩ := components_parentPath (relativePath path)
  rw [components_relativePath valid] at whole
  have all : ∀ part ∈ components (parentPath (host.localPath (relativePath path))),
      ValidName part := by
    rw [parentPath_localPath, Host.localPath, components_separator isSeparator_backslash,
      directory]
    intro part member
    rcases List.mem_append.mp member with before | after
    · exact names part before
    · exact valid part (by rw [whole]; exact List.mem_append_left _ after)
  rw [FileSync.acquireDirectories, resolve, foldl_resolveStep all, List.nil_append]
  exact createDirectories_names _ _ _ all

theorem receive_names (host : NamedHost) {path : Components}
    (valid : ∀ part ∈ path, ValidName part) (t : Touched) (bytes : Bytes) :
    outcome (t.receive (host.localPath (relativePath path)) bytes) =
      (FileSync.acquireDirectories t.disk (host.localPath (relativePath path))).map fun disk =>
        FileSync.writeFile disk (host.localPath (relativePath path)) bytes := by
  have acquired := acquireDirectories_names host valid t
  rw [← acquired, Touched.receive]
  rcases t.acquireDirectories (host.localPath (relativePath path)) with ⟨after, _ | error⟩
  · show Except.ok (after.writeFile _ bytes).disk =
      Except.ok (FileSync.writeFile after.disk _ bytes)
    unfold Touched.writeFile FileSync.writeFile
    split <;> rfl
  · rfl

theorem deleteFile_outcome (t : Touched) (absPath : WString) :
    outcome (t.deleteFile absPath) = (FileSync.deleteFile t.disk absPath).map Prod.snd := by
  unfold Touched.deleteFile
  split
  · rename_i error thrown
    rw [thrown]
    rfl
  · rename_i disk missing
    rw [missing]
    simp only [FileSync.deleteFile] at missing
    split at missing
    · cases missing
      rfl
    · cases missing
    · split at missing <;> cases missing
  · rename_i disk removed
    rw [removed]
    rfl

/-- For replies with paths of names, an element does to the disk what it does in the model of
    `requestFiles`. -/
theorem requestFile_names (host : NamedHost) (fileChange : FileChangeData) (s : RequestState)
    (accesses : List Access)
    (named : ∀ reply bytes, .transfer reply bytes ∈ s.answers →
      ∃ path, reply.filePath = relativePath path ∧ ∀ part ∈ path, ValidName part) :
    outcome (requestFile host.toHost fileChange ⟨s.disk, accesses, s.answers⟩) =
      match FileSync.requestFile host.toHost fileChange s with
      | (s, none) => .ok s.disk
      | (_, some error) => .error error := by
  unfold requestFile FileSync.requestFile
  cases kind : fileChange.change with
  | deletion =>
    simp only [deleteFile_outcome]
    cases FileSync.deleteFile s.disk (host.localPath fileChange.filePath) <;> rfl
  | addition | edit =>
    simp only
    split
    · rfl
    · unfold negotiateTCPTransfer FileSync.negotiateTCPTransfer
      cases answer : s.answers.head?.getD .noReply with
      | noReply | abandon => rfl
      | transfer reply bytes =>
        obtain ⟨path, names, valid⟩ := named reply bytes (mem_of_next answer)
        have received := receive_names host valid
          { disk := s.disk, accesses, answers := s.answers.tail } bytes
        simp only [names, received]
        cases FileSync.acquireDirectories s.disk (host.localPath (relativePath path)) <;> rfl

end Touched

/-! ## All that peers can touch -/

/-- Which received paths keep each of the accesses below the shared folder, whatever the disk holds
    elsewhere. -/
structure PathsConfined (host : NamedHost) : Prop where
  deletes : ∀ filePath, host.Confines (fun t => (t.deleteFile (host.localPath filePath)).1) ↔
    host.MayDelete filePath
  receives : ∀ filePath bytes,
    host.Confines (fun t => (t.receive (host.localPath filePath) bytes).1) ↔
      host.MayReceive filePath
  serves : ∀ filePath, host.Confines (fun t => t.serve (host.localPath filePath)) ↔
    host.MayServe filePath
  /-- In every run that is made of the work of such packets, in any order of the threads and with
      such answers, only places below the folder are touched. -/
  runs : ∀ (received : List (FileTable × PeerPacket)) (items : List Work) answers,
    (∀ packet ∈ received, host.Sound packet.2) →
      (∀ answer ∈ answers, host.SoundAnswer answer) →
        (∀ item ∈ items, ∃ packet ∈ received, item ∈ packet.2.works packet.1) →
          ∀ disk, host.Rooted disk →
            ∀ access ∈ (Touched.works host.toHost items ⟨disk, [], answers⟩).1.accesses,
              host.Inside access.place

/-- What peers make a node do stays below the shared folder for the paths, and for no others, whose
    components do not lead out of it. Names are taken as they are written: their case is not folded,
    they are not cut off at a null character, and dots and spaces at their end are not dropped, as
    Windows does with `\...`, which names the folder itself. -/
theorem paths_confined_iff (host : NamedHost) : PathsConfined host where
  deletes := confines_deleteFile_iff host
  receives := confines_receive_iff host
  serves := confines_serve_iff host
  runs := by
    intro received items answers sound soundAnswers works disk rooted
    have held : Touched.Held host.toHost ⟨disk, [], answers⟩ :=
      ⟨confined_start rooted answers, soundAnswers⟩
    refine (Touched.held_works items _ held fun item member => ?_).inside
    obtain ⟨packet, among, does⟩ := works item member
    exact soundWork_of_sound (sound packet among) does

/-- The Deletion of `..\x.txt` deletes a file of the Documents folder. -/
theorem deletion_leaves : ¬ ∀ disk, bob.Rooted disk →
    ∀ access ∈ (Touched.works bob
      ((PeerPacket.changes [⟨wide "..\\x.txt", 0, .deletion⟩]).works ∅) ⟨disk, [], []⟩).1.accesses,
        bob.Inside access.place := by
  intro inside
  have beside : Beside bob.base (["C:", "Users", "bob", "Documents", "x.txt"].map wide) := by
    decide +kernel
  have deleted := inside _ (rooted_diskWithFile beside)
    ⟨.deleted, ["C:", "Users", "bob", "Documents", "x.txt"].map wide⟩ (by decide +kernel)
  exact beside.1 deleted.1

end FileSync
