import FileSync.Replay

/-!
# Replaying a sender's history

A receiver that starts with the files of the first folder of a chain and replays the change list of
the chain ends with the files of the last one, if and only if the history of the sender and the
directories of the receiver meet a condition. The scans do not look at directories, and an Addition
comes before the Deletions of its scan.
-/

namespace FileSync

open TransitionSystem TreeReplay

variable {host server : Host}

/-- The test of line 408 succeeds in no round of the replay, unless what is at the path has the
    hash that was announced. -/
def TestsSound (first : SharedDisk server) (later : List (SharedDisk server))
    (receiver : SharedDisk host) : Prop :=
  ∀ before fileChange after disk, changeList first later = before ++ fileChange :: after →
    Run (replayStep host server (lastDisk first later).disk) anyStep receiver.disk before disk →
    fileChange.change ≠ .deletion → host.alreadyHas disk fileChange = true →
    ∃ bytes, openFile disk (host.localPath fileChange.filePath) = some bytes ∧
      sharedHash server.platform fileChange.filePath bytes = fileChange.fileHash

/-- The condition on the history of the sender and the directories of the receiver. -/
structure Mirrorable (first : SharedDisk server) (later : List (SharedDisk server))
    (receiver : SharedDisk host) : Prop where
  /-- A file that no scan mentions is the same in the first and in the last folder. -/
  unmentioned : ∀ {path bytes}, server.view first.disk path = some (.file bytes) →
    ¬ Updates (changeList first later) (relativePath path) →
    ¬ Deletes (changeList first later) (relativePath path) →
    server.view (lastDisk first later).disk path = some (.file bytes)
  /-- No file that was added or edited is a directory of the last folder. -/
  noDirectory : ∀ {path}, Updates (changeList first later) (relativePath path) →
    server.view (lastDisk first later).disk path ≠ some .directory
  /-- Between two scans no file makes room for a directory with a file of the last folder. -/
  noneAbove : ∀ {old new : SharedDisk server}, [old, new] <:+: first :: later →
    ∀ {path upper}, path ∈ files (server.view (lastDisk first later).disk) →
      path ∈ files (server.view new.disk) → Above upper path →
      upper ∉ files (server.view old.disk)
  /-- A directory of the receiver that is deleted as a file has lost its directories by then. -/
  emptied : ∀ {before fileChange after}, changeList first later = before ++ fileChange :: after →
    fileChange.change = .deletion → ∀ {path lower}, fileChange.filePath = relativePath path →
      host.view receiver.disk path = some .directory → ¬ Deletes before (relativePath path) →
      Above path lower → host.view receiver.disk lower = some .directory →
      Deletes before (relativePath lower)
  /-- A directory of the receiver where the last folder has a file is deleted. -/
  freed : ∀ {path}, path ∈ files (server.view (lastDisk first later).disk) →
    host.view receiver.disk path = some .directory →
    Deletes (changeList first later) (relativePath path)

/-! ## The condition on the tree below the folder -/

theorem valid_of_directory {shared : SharedDisk host} {path : Components}
    (directory : host.view shared.disk path = some .directory) : ∀ part ∈ path, ValidName part :=
  shared.named path (by simp [view_eq_directory.mp directory])

theorem valid_of_above {upper path : Components} (above : Above upper path)
    (valid : ∀ part ∈ path, ValidName part) : ∀ part ∈ upper, ValidName part :=
  fun part member => valid part (above.1.subset member)

/-- What is listed after some changes was listed before or has been updated. -/
theorem updates_of_isSome {table : FileTable} {changes : List FileChangeData} {filePath : WString}
    (missing : table[filePath]? = none)
    (present : (applyChanges table changes)[filePath]?.isSome) : Updates changes filePath := by
  induction changes using List.reverseRecOn with
  | nil =>
    rw [show applyChanges table [] = table from rfl, missing] at present
    cases present
  | append_singleton changes fileChange ih =>
    rw [getElem?_applyChanges_concat] at present
    split at present
    · rename_i same
      split at present
      · cases present
      · rename_i update
        exact ⟨fileChange, by simp, update, same⟩
    · obtain ⟨change, member, update⟩ := ih present
      exact ⟨change, List.mem_append_left _ member, update⟩

/-- Two files of a folder are not above one another. -/
theorem not_above_of_files {shared : SharedDisk server} {upper path : Components}
    (file : path ∈ files (server.view shared.disk)) (above : Above upper path) :
    upper ∉ files (server.view shared.disk) := by
  rintro ⟨bytes, held⟩
  obtain ⟨content, there⟩ := file
  rw [(isTree_view shared).closed above (by simp [there])] at held
  cases held

theorem replayable_of_mirrorable {first : SharedDisk server} {later : List (SharedDisk server)}
    {receiver : SharedDisk host} (mirrorable : Mirrorable first later receiver) :
    Replayable (server.view first.disk) (server.view (lastDisk first later).disk)
      (host.view receiver.disk) ((changeList first later).map FileChangeData.toChange) := by
  have named : ∀ fileChange ∈ changeList first later, ∃ path, fileChange.Names path :=
    fun _ => names_of_mem
  constructor
  · intro path content original notUpdated notDeleted
    have valid := valid_of_file ⟨content, original⟩
    rw [updated_iff named valid] at notUpdated
    rw [deleted_iff named valid] at notDeleted
    exact mirrorable.unmentioned original notUpdated notDeleted
  · intro path updated
    obtain ⟨label, member⟩ := id updated
    obtain ⟨fileChange, member, put⟩ := List.mem_map.mp member
    have valid := (toChange_eq_put (named fileChange member) put).2.1.2.2
    exact mirrorable.noDirectory ((updated_iff named valid).mp updated)
  · intro before path label after upper split target above listed
    obtain ⟨earlier, fileChange, rest, whole, rfl, update, names, rfl⟩ := split_of_put split
    have valid := valid_of_above above names.2.2
    rw [mem_listing_iff (named_of_split whole) valid] at listed
    obtain ⟨past, part, more, old, new, rfl, found, reached, inside⟩ := changeList_around whole
    have file : path ∈ files (server.view new.disk) := by
      rw [mem_files_iff names.2.2, ← names.1, (new_of_update found update).1]
      rfl
    have missing : old.table[relativePath upper]? = none := by
      have free := mirrorable.noneAbove inside target file above
      rw [mem_files_iff valid] at free
      simpa using free
    rw [applyChanges_append, reached] at listed
    -- the path above was updated by the same scan, next to the one below
    obtain ⟨change, member, other, same⟩ := updates_of_isSome missing listed
    obtain ⟨left, right, rfl⟩ := List.append_of_mem member
    rw [List.append_assoc] at found
    apply not_above_of_files file above
    rw [mem_files_iff valid, ← same, (new_of_update found other).1]
    rfl
  · intro before path after lower split directory kept above below
    obtain ⟨earlier, fileChange, rest, whole, rfl, deletion, names⟩ := split_of_delete split
    rw [deleted_iff (named_of_split whole) (valid_of_directory directory)] at kept
    rw [deleted_iff (named_of_split whole) (valid_of_directory below)]
    exact mirrorable.emptied whole deletion names.1 directory kept above below
  · intro path target directory
    rw [deleted_iff named (valid_of_file target)]
    exact mirrorable.freed target directory

theorem mirrorable_of_replayable {first : SharedDisk server} {later : List (SharedDisk server)}
    {receiver : SharedDisk host}
    (replayable : Replayable (server.view first.disk) (server.view (lastDisk first later).disk)
      (host.view receiver.disk) ((changeList first later).map FileChangeData.toChange)) :
    Mirrorable first later receiver := by
  have named : ∀ fileChange ∈ changeList first later, ∃ path, fileChange.Names path :=
    fun _ => names_of_mem
  constructor
  · intro path bytes original notUpdated notDeleted
    have valid := valid_of_file ⟨bytes, original⟩
    apply replayable.unmentioned original
    · rwa [updated_iff named valid]
    · rwa [deleted_iff named valid]
  · intro path updates directory
    have valid := valid_of_directory directory
    exact replayable.noDirectory ((updated_iff named valid).mpr updates) directory
  · intro old new inside path upper target file above held
    have valid := valid_of_file file
    have validUpper := valid_of_file held
    -- the path is new in the scan, which adds it before it deletes the one above
    have missing : old.table[relativePath path]? = none := by
      have free : path ∉ files (server.view old.disk) :=
        fun both => not_above_of_files both above held
      rw [mem_files_iff valid] at free
      simpa using free
    obtain ⟨hash, found⟩ := Option.isSome_iff_exists.mp ((mem_files_iff valid).mp file)
    have addition : ⟨relativePath path, hash, .addition⟩ ∈ updates old.table new.table :=
      mem_updates.mpr ⟨found, Or.inl ⟨rfl, missing⟩⟩
    obtain ⟨part, more, updated⟩ := List.append_of_mem addition
    obtain ⟨past, rest, whole, reached⟩ := changeList_of_scan inside
    have split : changeList first later = (past ++ part) ++
        ⟨relativePath path, hash, .addition⟩ ::
          (more ++ deletions old.table new.table ++ rest) := by
      rw [whole, scanned, updated]
      simp
    have names : FileChangeData.Names ⟨relativePath path, hash, .addition⟩ path := by
      obtain ⟨bytes, there⟩ := file
      exact ⟨rfl, ne_nil_of_file (view_eq_file.mp there), valid⟩
    have put : FileChangeData.toChange ⟨relativePath path, hash, .addition⟩ = .put path hash :=
      toChange_of_names names
    have mapped := congrArg (List.map FileChangeData.toChange) split
    rw [List.map_append, List.map_cons, put] at mapped
    apply replayable.noneAbove mapped target above
    rw [mem_listing_iff (named_of_split split) validUpper, applyChanges_append, reached]
    apply isSome_applyChanges ((mem_files_iff validUpper).mp held)
    rintro ⟨change, member, deletion, -⟩
    have kind := mem_updates.mp (updated ▸ List.mem_append_left _ member)
    simp [deletion] at kind
  · intro before fileChange after split deletion path lower same directory kept above below
    have valid := valid_of_directory directory
    have earlier := named_of_split split
    have names : fileChange.Names path := by
      have member : fileChange ∈ changeList first later := by simp [split]
      obtain ⟨place, names⟩ := names_of_mem member
      obtain rfl := relativePath_injective names.2.2 valid (names.1.symm.trans same)
      exact names
    have mapped := congrArg (List.map FileChangeData.toChange) split
    rw [List.map_append, List.map_cons, toChange_of_names names, if_pos deletion] at mapped
    rw [← deleted_iff earlier (valid_of_directory below)]
    refine replayable.emptied mapped directory ?_ above below
    rwa [deleted_iff earlier valid]
  · intro path target directory
    rw [← deleted_iff named (valid_of_file target)]
    exact replayable.freed target directory

/-! ## The replay -/

theorem openFile_localPath {disk : Disk} {path : Components} {bytes : Bytes}
    (valid : ∀ part ∈ path, ValidName part) :
    openFile disk (host.localPath (relativePath path)) = some bytes ↔
      host.view disk path = some (.file bytes) := by
  rw [view_eq_file, openFile, resolve_localPath host valid]
  cases disk[host.base ++ path]? with
  | none => simp
  | some entry => cases entry <;> simp

theorem setting_of_sound {first : SharedDisk server} {later : List (SharedDisk server)}
    {receiver : SharedDisk host} (same : SameFiles host receiver.disk server first.disk)
    (sound : TestsSound first later receiver) :
    Setting (server.view first.disk) (server.view (lastDisk first later).disk)
      (host.view receiver.disk)
      (fun path hash bytes => sharedHash server.platform (relativePath path) bytes = hash)
      host.passes ((changeList first later).map FileChangeData.toChange) where
  script := script_of_changeList first later
  firstTree := isTree_view first
  lastTree := isTree_view (lastDisk first later)
  initialTree := isTree_view receiver
  same path bytes := by rw [view_eq_file, view_eq_file, same]
  sound := by
    intro before change after t split run
    cases change with
    | delete path => trivial
    | put path label =>
      intro passed
      obtain ⟨earlier, fileChange, rest, whole, rfl, update, names, rfl⟩ := split_of_put split
      obtain ⟨disk, replayed, rfl⟩ := run_of_view run (named_of_split whole) receiver.rooted
      obtain ⟨bytes, opened, announced⟩ := sound earlier fileChange rest disk whole replayed update
        ((alreadyHas_iff names).mpr passed)
      rw [names.1] at opened announced
      exact ⟨bytes, (openFile_localPath names.2.2).mp opened, announced⟩

/-- The replay of a change list gets through, and ends with the files of the sender's last folder,
    if and only if the condition on the sender's history and the receiver's directories is met. -/
theorem replay_reproduces_iff (first : SharedDisk server) (later : List (SharedDisk server))
    (receiver : SharedDisk host) (same : SameFiles host receiver.disk server first.disk)
    (sound : TestsSound first later receiver) :
    (∃ disk, Run (replayStep host server (lastDisk first later).disk) anyStep receiver.disk
        (changeList first later) disk ∧
      SameFiles host disk server (lastDisk first later).disk) ↔
    Mirrorable first later receiver := by
  have named : ∀ fileChange ∈ changeList first later, ∃ path, fileChange.Names path :=
    fun _ => names_of_mem
  have setting := setting_of_sound same sound
  constructor
  · rintro ⟨disk, run, reached⟩
    apply mirrorable_of_replayable
    apply replayable_of_run setting (run_view run named receiver.rooted)
    intro path bytes
    rw [view_eq_file, view_eq_file, reached]
  · intro mirrorable
    obtain ⟨t, run, reached⟩ := (replay_iff setting).mpr (replayable_of_mirrorable mirrorable)
    obtain ⟨disk, replayed, rfl⟩ := run_of_view run named receiver.rooted
    refine ⟨disk, replayed, fun path bytes => ?_⟩
    rw [← view_eq_file, ← view_eq_file, reached]

/-- A disk with some entries below the shared folder. -/
def Host.diskOf (host : Host) (entries : List (Components × Entry)) : Disk :=
  entries.foldl (fun disk entry => disk.insert (host.base ++ entry.1) entry.2)
    (host.base.inits.tail.foldl (fun disk upper => disk.insert upper .directory) ∅)

/-- The announcing node. -/
def ann : Host := { platform := .win32, username := wide "ann" }

/-- A folder with a file `a`. -/
def fileFolder (host : Host) : Disk := host.diskOf [([wide "a"], .file [7])]

/-- A folder with a directory `a` and a file `b` in it. -/
def directoryFolder (host : Host) : Disk :=
  host.diskOf [([wide "a"], .directory), ([wide "a", wide "b"], .file [8])]

/-- Its disk with the file. -/
def annFile : SharedDisk ann := .ofWellFormed ann (fileFolder ann) (by decide +kernel)

/-- Its disk with nothing in the folder. -/
def annEmpty : SharedDisk ann := .ofWellFormed ann (ann.diskOf []) (by decide +kernel)

/-- Its disk with the directory. -/
def annDirectory : SharedDisk ann := .ofWellFormed ann (directoryFolder ann) (by decide +kernel)

/-- The disk of a receiver that has the file. -/
def bobFile : SharedDisk bob := .ofWellFormed bob (fileFolder bob) (by decide +kernel)

/-- The addition of the file in the directory. -/
def addedBelow : FileChangeData :=
  ⟨relativePath [wide "a", wide "b"], sharedHash .win32 (relativePath [wide "a", wide "b"]) [8],
    .addition⟩

/-- The deletion of the file. -/
def deletedAbove : FileChangeData := ⟨relativePath [wide "a"], 0, .deletion⟩

theorem sameFiles_file : SameFiles bob bobFile.disk ann annFile.disk :=
  sameFiles_of_eq (by decide +kernel)

/-- With a scan between the deletion of the file and the creation of the directory the replay gets
    through. -/
theorem replay_reproduces_iff_deleted : Mirrorable annFile [annEmpty, annDirectory] bobFile := by
  have changes : changeList annFile [annEmpty, annDirectory] = [deletedAbove, addedBelow] := by
    decide +kernel
  have lacks : (replayStep bob ann annDirectory.disk deletedAbove bobFile.disk).all
      (fun disk => !bob.alreadyHas disk addedBelow) = true := by
    decide +kernel
  have sound : TestsSound annFile [annEmpty, annDirectory] bobFile := by
    intro before fileChange after disk split run update has
    rw [changes] at split
    cases before with
    | nil =>
      obtain ⟨rfl, -⟩ := List.cons.inj split
      exact absurd rfl update
    | cons earlier before =>
      obtain ⟨rfl, tail⟩ := List.cons.inj split
      cases before with
      | nil =>
        obtain ⟨rfl, -⟩ := List.cons.inj tail
        cases run with
        | cons _ taken rest =>
          cases rest
          have taken : replayStep bob ann annDirectory.disk deletedAbove bobFile.disk = some disk :=
            taken
          rw [taken] at lacks
          simp [has] at lacks
      | cons other before =>
        have short := congrArg List.length (List.cons.inj tail).2
        simp at short
  have ends : (exec (replayStep bob ann annDirectory.disk) [deletedAbove, addedBelow]
      bobFile.disk).any (fun disk => bob.wellFormed disk &&
        bob.sharedFiles disk == ann.sharedFiles annDirectory.disk) = true := by
    decide +kernel
  obtain ⟨disk, last, checked⟩ := (Option.any_eq_true ..).mp ends
  obtain ⟨wellFormed, listed⟩ := (Bool.and_eq_true_iff ..).mp checked
  have same : SameFiles bob (SharedDisk.ofWellFormed bob disk wellFormed).disk ann
      annDirectory.disk :=
    sameFiles_of_eq (eq_of_beq listed)
  apply (replay_reproduces_iff annFile [annEmpty, annDirectory] bobFile sameFiles_file sound).mp
  refine ⟨disk, ?_, same⟩
  rw [changes]
  exact Run.of_exec last

/-- A file that becomes a directory between two scans: its Deletion comes too late. -/
theorem replay_stops : changeList annFile [annDirectory] = [addedBelow, deletedAbove] ∧
    SameFiles bob bobFile.disk ann annFile.disk ∧ TestsSound annFile [annDirectory] bobFile ∧
    ¬ ∃ disk, Run (replayStep bob ann annDirectory.disk) anyStep bobFile.disk
      (changeList annFile [annDirectory]) disk := by
  have changes : changeList annFile [annDirectory] = [addedBelow, deletedAbove] := by
    decide +kernel
  have lacks : bob.alreadyHas bobFile.disk addedBelow = false := by decide +kernel
  have stops : replayStep bob ann annDirectory.disk addedBelow bobFile.disk = none := by
    decide +kernel
  refine ⟨changes, sameFiles_file, ?_, ?_⟩
  · intro before fileChange after disk split run update has
    rw [changes] at split
    cases before with
    | nil =>
      cases run
      cases split
      rw [lacks] at has
      cases has
    | cons earlier before =>
      cases run with
      | cons _ taken _ =>
        obtain ⟨rfl, -⟩ := List.cons.inj split
        cases taken.symm.trans stops
  · rintro ⟨disk, run⟩
    rw [changes] at run
    cases run with
    | cons _ taken _ =>
      rw [stops] at taken
      cases taken

end FileSync
