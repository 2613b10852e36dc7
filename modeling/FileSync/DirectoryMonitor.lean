import FileSync.FileHelper

/-!
# DirectoryMonitor

The folder tables and the two overloads of `getDirectoryChanges`. Both run the same loop over
the new table; the watcher's overload goes on to look for deletions and replaces its table.
The loop reads the tables through `operator[]`, which inserts what it does not find, so the
tables are part of its state.
-/

namespace FileSync

/-- Creates a map of all filePaths to their hash (DirectoryMonitor.cpp 69-79). -/
def createFileHashes (platform : Platform) (username dirPath : WString)
    (entries : List DirEntry) : FileTable :=
  (listFiles dirPath entries).foldl
    (fun pathToHash file => pathToHash.insertIfNew (getRelativeTo file.1 dirPath)
      (getFileHash platform username file.1 (some file.2))) ∅

/-- `std::map::operator[]`: the value, and the map after a missing key was inserted with 0. -/
def operatorIndex (table : FileTable) (key : WString) : UInt64 × FileTable :=
  match table[key]? with
  | some hash => (hash, table)
  | none => (0, table.insert key 0)

/-- The state of the comparison loop: both tables and the changes found so far. -/
structure Comparison where
  old : FileTable
  new : FileTable
  fileChanges : List FileChangeData

/-- One round of the comparison loop (DirectoryMonitor.cpp 88-107, 125-144). -/
def compareFile (state : Comparison) (filePath : WString) : Comparison :=
  if state.old.contains filePath then
    let (oldHash, old) := operatorIndex state.old filePath
    let (newHash, new) := operatorIndex state.new filePath
    if oldHash ≠ newHash then
      let (hash, new) := operatorIndex new filePath
      { old, new, fileChanges := state.fileChanges ++ [⟨filePath, hash, .edit⟩] }
    else { state with old, new }
  else
    let (hash, new) := operatorIndex state.new filePath
    { state with new, fileChanges := state.fileChanges ++ [⟨filePath, hash, .addition⟩] }

/-- The comparison loop over all paths of the new table. -/
def compareFiles (old new : FileTable) : Comparison :=
  new.keys.foldl compareFile { old, new, fileChanges := [] }

/-- `getDirectoryChanges(hostDir, foreignDir)` (DirectoryMonitor.cpp 119-149): the changes and both
    tables afterwards. -/
def getDirectoryChanges (hostDir foreignDir : FileTable) :
    List FileChangeData × FileTable × FileTable :=
  let state := compareFiles hostDir foreignDir
  (state.fileChanges, state.old, state.new)

/-- `getDirectoryChanges(lpDir, prevDir)` (DirectoryMonitor.cpp 81-117), where `newDir` is what
    `CreateFileHashes(lpDir)` returns: the changes and `prevDir` afterwards. -/
def getDirectoryChangesScan (newDir prevDir : FileTable) : List FileChangeData × FileTable :=
  let state := compareFiles prevDir newDir
  let fileChanges := state.old.keys.foldl (fun fileChanges filePath =>
    if state.new.contains filePath then fileChanges
    else fileChanges ++ [⟨filePath, 0, .deletion⟩]) state.fileChanges
  (fileChanges, state.new)

/-! ## What the loops compute -/

/-- The change that an entry of the new table stands for, if any. -/
def changeOf (old : FileTable) (entry : WString × UInt64) : Option FileChangeData :=
  match old[entry.1]? with
  | some hash => if hash = entry.2 then none else some ⟨entry.1, entry.2, .edit⟩
  | none => some ⟨entry.1, entry.2, .addition⟩

/-- The Additions and Edits that lead from one table to another, in key order. -/
def updates (old new : FileTable) : List FileChangeData := new.toList.filterMap (changeOf old)

/-- The Deletions that lead from one table to another, in key order. -/
def deletions (old new : FileTable) : List FileChangeData :=
  (old.keys.filter fun filePath => !new.contains filePath).map fun filePath =>
    ⟨filePath, 0, .deletion⟩

@[simp] theorem operatorIndex_of_some {table : FileTable} {key : WString} {hash : UInt64}
    (h : table[key]? = some hash) : operatorIndex table key = (hash, table) := by
  simp [operatorIndex, h]

theorem contains_eq_isSome (table : FileTable) (key : WString) :
    table.contains key = table[key]?.isSome :=
  Std.ExtTreeMap.contains_eq_isSome_getElem?

/-- A round on a path of the new table leaves both tables alone. -/
theorem compareFile_of_some {old new : FileTable} {fileChanges : List FileChangeData}
    {filePath : WString} {hash : UInt64} (found : new[filePath]? = some hash) :
    compareFile { old, new, fileChanges } filePath =
      { old, new, fileChanges := fileChanges ++ (changeOf old (filePath, hash)).toList } := by
  cases before : old[filePath]? with
  | none => simp [compareFile, contains_eq_isSome, before, found, changeOf]
  | some oldHash =>
    by_cases same : oldHash = hash
    · simp [compareFile, contains_eq_isSome, before, found, changeOf, same]
    · simp [compareFile, contains_eq_isSome, before, found, changeOf, same]

theorem foldl_compareFile {old new : FileTable} (entries : List (WString × UInt64)) :
    (∀ entry ∈ entries, new[entry.1]? = some entry.2) → ∀ fileChanges,
      (entries.map Prod.fst).foldl compareFile { old, new, fileChanges } =
        { old, new, fileChanges := fileChanges ++ entries.filterMap (changeOf old) } := by
  induction entries with
  | nil => simp
  | cons entry entries ih =>
    intro present fileChanges
    have found := present entry (by simp)
    have rest := ih fun other member => present other (List.mem_cons_of_mem _ member)
    rw [List.map_cons, List.foldl_cons, compareFile_of_some found, rest]
    cases changed : changeOf old entry with
    | none => simp [changed]
    | some change => simp [changed]

/-- The comparison loop finds the updates and leaves both tables as they were. -/
theorem compareFiles_eq (old new : FileTable) :
    compareFiles old new = { old, new, fileChanges := updates old new } := by
  have present : ∀ entry ∈ new.toList, new[entry.1]? = some entry.2 := fun entry member =>
    Std.ExtTreeMap.mem_toList_iff_getElem?_eq_some.mp member
  unfold compareFiles
  rw [← Std.ExtTreeMap.map_fst_toList_eq_keys, foldl_compareFile new.toList present]
  rfl

theorem getDirectoryChanges_eq (hostDir foreignDir : FileTable) :
    getDirectoryChanges hostDir foreignDir =
      (updates hostDir foreignDir, hostDir, foreignDir) := by
  simp only [getDirectoryChanges, compareFiles_eq]

theorem foldl_deletions (new : FileTable) (paths : List WString) :
    ∀ fileChanges : List FileChangeData,
      paths.foldl (fun fileChanges filePath => if new.contains filePath then fileChanges
        else fileChanges ++ [⟨filePath, 0, .deletion⟩]) fileChanges =
      fileChanges ++ (paths.filter fun filePath => !new.contains filePath).map fun filePath =>
        ⟨filePath, 0, .deletion⟩ := by
  induction paths with
  | nil => simp
  | cons path paths ih =>
    intro fileChanges
    rw [List.foldl_cons, ih]
    cases kept : new.contains path with
    | true => simp [kept]
    | false => simp [kept]

theorem getDirectoryChangesScan_eq (newDir prevDir : FileTable) :
    getDirectoryChangesScan newDir prevDir =
      (updates prevDir newDir ++ deletions prevDir newDir, newDir) := by
  simp only [getDirectoryChangesScan, compareFiles_eq, foldl_deletions]
  rfl

/-- An entry of the update list is an entry of the new table that the old one lacks or has
    with another hash. -/
theorem mem_updates {old new : FileTable} {change : FileChangeData} :
    change ∈ updates old new ↔
      new[change.filePath]? = some change.fileHash ∧
        ((change.change = .addition ∧ old[change.filePath]? = none) ∨
          (change.change = .edit ∧
            ∃ hash, old[change.filePath]? = some hash ∧ hash ≠ change.fileHash)) := by
  simp only [updates, List.mem_filterMap, Prod.exists,
    Std.ExtTreeMap.mem_toList_iff_getElem?_eq_some]
  constructor
  · rintro ⟨path, hash, found, changed⟩
    unfold changeOf at changed
    cases before : old[path]? with
    | none =>
      simp only [before, Option.some.injEq] at changed
      subst changed
      exact ⟨found, Or.inl ⟨rfl, before⟩⟩
    | some oldHash =>
      simp only [before] at changed
      split at changed
      · cases changed
      · rename_i differ
        cases changed
        exact ⟨found, Or.inr ⟨rfl, oldHash, before, differ⟩⟩
  · rintro ⟨found, ⟨kind, before⟩ | ⟨kind, hash, before, differ⟩⟩
    · refine ⟨change.filePath, change.fileHash, found, ?_⟩
      simp only [changeOf, before, ← kind]
    · refine ⟨change.filePath, change.fileHash, found, ?_⟩
      simp only [changeOf, before, differ, if_false, ← kind]

theorem mem_deletions {old new : FileTable} {change : FileChangeData} :
    change ∈ deletions old new ↔
      change.change = .deletion ∧ change.fileHash = 0 ∧
        (∃ hash, old[change.filePath]? = some hash) ∧ new[change.filePath]? = none := by
  simp only [deletions, List.mem_map, List.mem_filter, Std.ExtTreeMap.mem_keys,
    Std.ExtTreeMap.mem_iff_isSome_getElem?, Bool.not_eq_true', contains_eq_isSome,
    Option.isSome_iff_exists, Option.isSome_eq_false_iff, Option.isNone_iff_eq_none]
  constructor
  · rintro ⟨path, ⟨before, gone⟩, rfl⟩
    exact ⟨rfl, rfl, before, gone⟩
  · obtain ⟨path, hash, kind⟩ := change
    rintro ⟨rfl, rfl, before, gone⟩
    exact ⟨path, ⟨before, gone⟩, rfl⟩

end FileSync
