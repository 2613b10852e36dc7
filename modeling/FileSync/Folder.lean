import FileSync.HashAgreement

/-!
# Shared folders

The contents of a shared folder by relative path, with the two hashes that a node takes of a
file: the one in its table, and the one that `requestFiles` compares with an announced hash.
-/

namespace FileSync

/-- The files of a shared folder by their path relative to the folder. -/
abbrev Folder := Std.ExtTreeMap WString Bytes

/-- The table that `CreateFileHashes` makes of the folder. -/
def Folder.table (platform : Platform) (folder : Folder) : FileTable :=
  folder.map fun path bytes => sharedHash platform path bytes

/-- The test that makes `requestFiles` skip an Addition or Edit. Its hash is taken under the
    path with the doubled separator. -/
def Folder.has (platform : Platform) (folder : Folder) (fileChange : FileChangeData) : Bool :=
  match folder[fileChange.filePath]? with
  | some bytes =>
    fileChange.fileHash == sharedHash platform (backslash :: fileChange.filePath) bytes
  | none => false

/-- The content of a path replaced, or the file removed. -/
def Folder.set (folder : Folder) (path : WString) : Option Bytes → Folder
  | some bytes => folder.insert path bytes
  | none => folder.erase path

@[simp] theorem table_getElem? (platform : Platform) (folder : Folder) (path : WString) :
    (folder.table platform)[path]? = folder[path]?.map (sharedHash platform path) :=
  Std.ExtTreeMap.getElem?_map

@[simp] theorem set_self (folder : Folder) (path : WString) (content : Option Bytes) :
    (folder.set path content)[path]? = content := by
  cases content <;> simp [Folder.set]

theorem set_of_ne {folder : Folder} {path other : WString} (differ : path ≠ other)
    (content : Option Bytes) : (folder.set path content)[other]? = folder[other]? := by
  cases content with
  | some bytes => simp [Folder.set, Std.ExtTreeMap.getElem?_insert, differ]
  | none => simp [Folder.set, Std.ExtTreeMap.getElem?_erase, differ]

/-- The folder's test is the one of a host whose disk holds the folder. -/
theorem alreadyHas_eq {host : Host} {disk : Disk} {folder : Folder} {fileChange : FileChangeData}
    (opened : openFile disk (host.localPath fileChange.filePath) = folder[fileChange.filePath]?)
    (exist : pathExists disk (host.localPath fileChange.filePath) =
      folder[fileChange.filePath]?.isSome) :
    host.alreadyHas disk fileChange = folder.has host.platform fileChange := by
  unfold Host.alreadyHas Folder.has
  cases found : folder[fileChange.filePath]? with
  | none => simp [exist, found]
  | some bytes =>
    have hash : host.localHash disk fileChange.filePath =
        sharedHash host.platform (backslash :: fileChange.filePath) bytes := by
      rw [Host.localHash, opened, found]
      exact getFileHash_shared host.platform host.username _ bytes
    simp [exist, found, hash]

theorem foldl_insertIfNew {α β : Type} {files : List α} {key : α → WString} {value : α → β}
    {path : WString} : ∀ table : Std.ExtTreeMap WString β,
    (files.foldl (fun table file => table.insertIfNew (key file) (value file)) table)[path]? =
      table[path]?.or ((files.find? fun file => key file == path).map value) := by
  induction files with
  | nil => simp
  | cons file files ih =>
    intro table
    rw [List.foldl_cons, ih, Std.ExtTreeMap.getElem?_insertIfNew, List.find?_cons]
    by_cases same : key file = path
    · subst same
      cases before : table[key file]? with
      | none => simp [Std.ExtTreeMap.mem_iff_isSome_getElem?, before]
      | some other => simp [Std.ExtTreeMap.mem_iff_isSome_getElem?, before]
    · have other : (key file == path) = false := beq_eq_false_iff_ne.mpr same
      simp [same, other]

/-- `CreateFileHashes` makes the table of the folder that is on the disk. -/
theorem createFileHashes_eq {platform : Platform} {username : WString} {entries : List DirEntry}
    {folder : Folder} (listed : ∀ path bytes, folder[path]? = some bytes ↔
      ∃ file ∈ listFiles (sharedDirectory username) entries,
        getRelativeTo file.1 (sharedDirectory username) = path ∧ file.2 = bytes) :
    createFileHashes platform username (sharedDirectory username) entries =
      folder.table platform := by
  apply Std.ExtTreeMap.ext_getElem?
  intro path
  rw [createFileHashes, foldl_insertIfNew, Std.ExtTreeMap.getElem?_empty, Option.none_or,
    table_getElem?]
  cases found : (listFiles (sharedDirectory username) entries).find? fun file =>
      getRelativeTo file.1 (sharedDirectory username) == path with
  | none =>
    cases held : folder[path]? with
    | none => rfl
    | some bytes =>
      obtain ⟨file, member, same, _⟩ := (listed path bytes).mp held
      have missed := List.find?_eq_none.mp found file member
      simp [same] at missed
  | some file =>
    have member := List.mem_of_find?_eq_some found
    have same : getRelativeTo file.1 (sharedDirectory username) = path := by
      simpa using List.find?_some found
    rw [(listed path file.2).mpr ⟨file, member, same, rfl⟩]
    obtain ⟨rest, shape⟩ := listFiles_shared member
    have relative : path = backslash :: rest := by rw [← same, shape, getRelativeTo_shared]
    rw [Option.map_some, Option.map_some, shape, relative, getFileHash_preferred]

end FileSync
