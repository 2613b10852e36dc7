import FileSync.HashAccumulation
import FileSync.SharedDisk
import Mathlib.Data.List.Nodup

/-!
# The table of a folder

The two places that build the table of the shared folder make the same table, whatever the user's
name and the order of the listings. Its keys are the paths below the folder and its values the
hashes of the files. What a hash does depend on is the platform: `filesize` keeps 32 bits of the
size on Win32.
-/

namespace FileSync

open ReducedSum

/-! ## Trees of names -/

/-- The name of an entry in its directory. -/
def DirEntry.name : DirEntry → WString
  | .file name _ => name
  | .directory name _ => name

mutual

/-- The names in each directory are names that a file can have, and no two are the same. -/
def WellNamed : List DirEntry → Prop
  | [] => True
  | entry :: entries =>
    WellNamedEntry entry ∧ (∀ other ∈ entries, other.name ≠ entry.name) ∧ WellNamed entries

/-- An entry whose name a file can have, and so those below it. -/
def WellNamedEntry : DirEntry → Prop
  | .file name _ => ValidName name
  | .directory name entries => ValidName name ∧ WellNamed entries

end

/-- What is below a shared folder, in the order in which it is listed. -/
structure FolderTree where
  entries : List DirEntry
  wellNamed : WellNamed entries

/-- A user name of Windows has no separators. -/
structure User where
  name : WString
  plain : ∀ c ∈ name, isSeparator c = false

/-- There is a file with these names from the top down and with these bytes. -/
inductive FileIn : List DirEntry → Components → Bytes → Prop where
  | here {entries : List DirEntry} {name : WString} {bytes : Bytes} :
      DirEntry.file name bytes ∈ entries → FileIn entries [name] bytes
  | inner {entries inner : List DirEntry} {name : WString} {path : Components} {bytes : Bytes} :
      DirEntry.directory name inner ∈ entries → FileIn inner path bytes →
      FileIn entries (name :: path) bytes

mutual

/-- The files of a tree in the order of the listing. -/
def filesOf : List DirEntry → List (Components × Bytes)
  | [] => []
  | entry :: entries => filesOfEntry entry ++ filesOf entries

/-- The files of one entry. -/
def filesOfEntry : DirEntry → List (Components × Bytes)
  | .file name bytes => [([name], bytes)]
  | .directory name entries => (filesOf entries).map fun file => (name :: file.1, file.2)

end

theorem filesOfEntry_subset {entry : DirEntry} {entries : List DirEntry}
    (member : entry ∈ entries) : filesOfEntry entry ⊆ filesOf entries := by
  induction member with
  | head => exact List.subset_append_left _ _
  | tail _ _ ih => exact fun file inside => List.mem_append_right _ (ih inside)

theorem FileIn.cons {entry : DirEntry} {entries : List DirEntry} {path : Components}
    {bytes : Bytes} (file : FileIn entries path bytes) : FileIn (entry :: entries) path bytes := by
  cases file with
  | here member => exact .here (List.mem_cons_of_mem _ member)
  | inner member inside => exact .inner (List.mem_cons_of_mem _ member) inside

mutual

theorem fileIn_of_mem : ∀ entries, ∀ file ∈ filesOf entries, FileIn entries file.1 file.2
  | [], file, member => by cases member
  | entry :: entries, file, member => by
    rcases List.mem_append.mp member with first | later
    · exact fileIn_of_mem_entry entry List.mem_cons_self file first
    · exact (fileIn_of_mem entries file later).cons

theorem fileIn_of_mem_entry {entries : List DirEntry} : ∀ entry, entry ∈ entries →
    ∀ file ∈ filesOfEntry entry, FileIn entries file.1 file.2
  | .file name bytes, inside, file, member => by
    cases List.mem_singleton.mp member
    exact .here inside
  | .directory name inner, inside, file, member => by
    obtain ⟨below, deeper, rfl⟩ := List.mem_map.mp member
    exact .inner inside (fileIn_of_mem inner below deeper)

end

theorem mem_filesOf {entries : List DirEntry} {path : Components} {bytes : Bytes} :
    (path, bytes) ∈ filesOf entries ↔ FileIn entries path bytes := by
  constructor
  · exact fileIn_of_mem entries (path, bytes)
  · intro file
    induction file with
    | here member => exact filesOfEntry_subset member (List.mem_singleton_self _)
    | inner member _ ih => exact filesOfEntry_subset member (List.mem_map.mpr ⟨_, ih, rfl⟩)

theorem head_of_mem_entry {entry : DirEntry} {file : Components × Bytes}
    (member : file ∈ filesOfEntry entry) : ∃ path, file.1 = entry.name :: path := by
  cases entry with
  | file name bytes =>
    cases List.mem_singleton.mp member
    exact ⟨[], rfl⟩
  | directory name entries =>
    obtain ⟨below, _, rfl⟩ := List.mem_map.mp member
    exact ⟨below.1, rfl⟩

theorem head_of_mem {entries : List DirEntry} {file : Components × Bytes}
    (member : file ∈ filesOf entries) : ∃ entry ∈ entries, ∃ path, file.1 = entry.name :: path := by
  induction entries with
  | nil => cases member
  | cons entry entries ih =>
    rcases List.mem_append.mp member with first | later
    · exact ⟨entry, List.mem_cons_self, head_of_mem_entry first⟩
    · obtain ⟨other, inside, path⟩ := ih later
      exact ⟨other, List.mem_cons_of_mem _ inside, path⟩

mutual

/-- No two files of a tree have the same names. -/
theorem nodup_filesOf : ∀ entries, WellNamed entries → ((filesOf entries).map Prod.fst).Nodup
  | [], _ => List.nodup_nil
  | entry :: entries, wellNamed => by
    obtain ⟨named, distinct, others⟩ := wellNamed
    rw [filesOf, List.map_append]
    refine (nodup_filesOfEntry entry named).append (nodup_filesOf entries others) ?_
    apply List.disjoint_left.mpr
    intro path first later
    obtain ⟨file, member, rfl⟩ := List.mem_map.mp first
    obtain ⟨file', member', same⟩ := List.mem_map.mp later
    obtain ⟨rest, head⟩ := head_of_mem_entry member
    obtain ⟨other, inside, rest', head'⟩ := head_of_mem member'
    rw [head, head'] at same
    exact distinct other inside (List.cons.inj same).1

theorem nodup_filesOfEntry : ∀ entry, WellNamedEntry entry →
    ((filesOfEntry entry).map Prod.fst).Nodup
  | .file _ _, _ => List.nodup_singleton _
  | .directory name inner, named => by
    have inside := (nodup_filesOf inner named.2).map (List.cons_injective (a := name))
    rw [filesOfEntry, List.map_map]
    rwa [List.map_map] at inside

end

mutual

theorem valid_of_mem : ∀ entries, WellNamed entries → ∀ file ∈ filesOf entries,
    file.1 ≠ [] ∧ ∀ part ∈ file.1, ValidName part
  | [], _, file, member => by cases member
  | entry :: entries, wellNamed, file, member => by
    rcases List.mem_append.mp member with first | later
    · exact valid_of_mem_entry entry wellNamed.1 file first
    · exact valid_of_mem entries wellNamed.2.2 file later

theorem valid_of_mem_entry : ∀ entry, WellNamedEntry entry → ∀ file ∈ filesOfEntry entry,
    file.1 ≠ [] ∧ ∀ part ∈ file.1, ValidName part
  | .file name bytes, valid, file, member => by
    cases List.mem_singleton.mp member
    exact ⟨List.cons_ne_nil _ _, fun part head => List.mem_singleton.mp head ▸ valid⟩
  | .directory name inner, named, file, member => by
    obtain ⟨below, deeper, rfl⟩ := List.mem_map.mp member
    exact ⟨List.cons_ne_nil _ _,
      List.forall_mem_cons.mpr ⟨named.1, (valid_of_mem inner named.2 below deeper).2⟩⟩

end

/-! ## The listing -/

/-- A path that the listing leaves as it is, and that gets a separator before each name. -/
structure PlainDirectory (absPath : WString) : Prop where
  preferred : slash ∉ absPath
  unclosed : ∀ c ∈ absPath.getLast?, isSeparator c = false

theorem makePreferred_of_preferred {path : WString} (preferred : slash ∉ path) :
    makePreferred path = path := by
  have same : ∀ c ∈ path, (if c = slash then backslash else c) = c := fun c member =>
    if_neg fun slashed : c = slash => preferred (slashed ▸ member)
  rw [makePreferred, List.map_congr_left same, List.map_id']

theorem entryPath_plain {absPath name : WString} (plain : PlainDirectory absPath)
    (valid : ValidName name) :
    makePreferred (entryPath absPath name) = absPath ++ backslash :: name ∧
      PlainDirectory (absPath ++ backslash :: name) := by
  have joined : entryPath absPath name = absPath ++ backslash :: name := by
    apply if_neg
    rintro (last | last)
    · exact absurd (plain.unclosed _ last) (by decide)
    · exact absurd (plain.unclosed _ last) (by decide)
  have unslashed : slash ∉ absPath ++ backslash :: name := by
    intro member
    rcases List.mem_append.mp member with before | later
    · exact plain.preferred before
    · rcases List.mem_cons.mp later with same | inside
      · exact absurd same (by decide)
      · exact absurd (valid.2.1 _ inside) (by decide)
  refine ⟨?_, unslashed, ?_⟩
  · rw [joined, makePreferred_of_preferred unslashed]
  · intro c last
    rw [List.append_cons, List.getLast?_append_of_ne_nil _ valid.1] at last
    exact valid.2.1 c (List.mem_of_getLast? last)

/-- A file of the tree under the path of the directory that the tree is below. -/
def located (absPath : WString) (file : Components × Bytes) : WString × Bytes :=
  (absPath ++ relativePath file.1, file.2)

mutual

theorem listFiles_eq {absPath : WString} (plain : PlainDirectory absPath) : ∀ entries,
    WellNamed entries → listFiles absPath entries = (filesOf entries).map (located absPath)
  | [], _ => rfl
  | entry :: entries, wellNamed => by
    rw [listFiles, filesOf, List.map_append, listEntry_eq plain entry wellNamed.1,
      listFiles_eq plain entries wellNamed.2.2]

theorem listEntry_eq {absPath : WString} (plain : PlainDirectory absPath) : ∀ entry,
    WellNamedEntry entry → listEntry absPath entry = (filesOfEntry entry).map (located absPath)
  | .file name bytes, valid => by
    rw [listEntry, (entryPath_plain plain valid).1]
    simp [filesOfEntry, located, relativePath]
  | .directory name inner, named => by
    obtain ⟨joined, below⟩ := entryPath_plain plain named.1
    rw [listEntry, joined, listFiles_eq below inner named.2, filesOfEntry, List.map_map]
    simp [Function.comp_def, located, relativePath]

end

theorem plainDirectory_shared (user : User) : PlainDirectory (sharedDirectory user.name) := by
  have folder : sharedFolder.getLast? = some 114 := by decide
  constructor
  · simp only [sharedDirectory, getDocumentsPath, List.mem_append, not_or]
    refine ⟨⟨⟨by decide, fun member => ?_⟩, by decide⟩, by decide⟩
    exact absurd (user.plain _ member) (by decide)
  · intro c last
    rw [sharedDirectory, List.getLast?_append, folder, Option.some_or] at last
    cases last
    decide

/-! ## The two builders -/

/-- `Node::Node`, which fills its table through `operator[]`. -/
def nodeFileHashes (platform : Platform) (username folderPath : WString)
    (entries : List DirEntry) : FileTable :=
  (listFiles folderPath entries).foldl
    (fun fileHashes file => fileHashes.insert (getRelativeTo file.1 folderPath)
      (getFileHash platform username file.1 (some file.2))) ∅

/-- With distinct keys the entry that is found is the only one with its key. -/
theorem find?_key_iff {α : Type} {files : List α} {key : α → WString}
    (distinct : (files.map key).Nodup) {path : WString} {file : α} :
    (files.find? fun other => key other == path) = some file ↔ file ∈ files ∧ key file = path := by
  constructor
  · intro found
    exact ⟨List.mem_of_find?_eq_some found, by simpa using List.find?_some found⟩
  · rintro ⟨member, rfl⟩
    cases found : files.find? fun other => key other == key file with
    | none => exact absurd (beq_self_eq_true _) (List.find?_eq_none.mp found file member)
    | some other =>
      have same : key other = key file := by simpa using List.find?_some found
      rw [List.inj_on_of_nodup_map distinct (List.mem_of_find?_eq_some found) member same]

/-- With distinct keys it makes no difference which of two values of a key counts. -/
theorem foldl_insert_eq {α β : Type} {files : List α} {key : α → WString} {value : α → β} :
    (files.map key).Nodup → ∀ table : Std.ExtTreeMap WString β,
      (∀ file ∈ files, table[key file]? = none) →
        files.foldl (fun table file => table.insert (key file) (value file)) table =
          files.foldl (fun table file => table.insertIfNew (key file) (value file)) table := by
  induction files with
  | nil => exact fun _ _ _ => rfl
  | cons file files ih =>
    intro distinct table absent
    obtain ⟨new, others⟩ := List.nodup_cons.mp distinct
    have missing : table[key file]? = none := absent file List.mem_cons_self
    have inserted : table.insertIfNew (key file) (value file) =
        table.insert (key file) (value file) := by
      apply Std.ExtTreeMap.ext_getElem?
      intro path
      rw [Std.ExtTreeMap.getElem?_insertIfNew, Std.ExtTreeMap.getElem?_insert]
      by_cases same : compare (key file) path = .eq
      · cases Std.LawfulEqOrd.eq_of_compare same
        simp [Std.ExtTreeMap.mem_iff_isSome_getElem?, missing]
      · simp [same]
    rw [List.foldl_cons, List.foldl_cons, inserted]
    apply ih others
    intro other member
    have differ : key file ≠ key other := fun same =>
      new (same ▸ List.mem_map_of_mem member)
    rw [Std.ExtTreeMap.getElem?_insert]
    simp [differ, absent other (List.mem_cons_of_mem _ member)]

section

variable (platform : Platform) (user : User) (tree : FolderTree)

/-- The table that `CreateFileHashes` makes of a shared folder. -/
def FolderTree.table : FileTable :=
  createFileHashes platform user.name (sharedDirectory user.name) tree.entries

theorem listFiles_tree : listFiles (sharedDirectory user.name) tree.entries =
    (filesOf tree.entries).map (located (sharedDirectory user.name)) :=
  listFiles_eq (plainDirectory_shared user) tree.entries tree.wellNamed

theorem getRelativeTo_located (file : Components × Bytes) :
    getRelativeTo (located (sharedDirectory user.name) file).1 (sharedDirectory user.name) =
      relativePath file.1 :=
  List.drop_left

theorem mem_listFiles {file : WString × Bytes} :
    file ∈ listFiles (sharedDirectory user.name) tree.entries ↔
      ∃ path bytes, FileIn tree.entries path bytes ∧
        file = (sharedDirectory user.name ++ relativePath path, bytes) := by
  rw [listFiles_tree, List.mem_map]
  constructor
  · rintro ⟨⟨path, bytes⟩, member, rfl⟩
    exact ⟨path, bytes, mem_filesOf.mp member, rfl⟩
  · rintro ⟨path, bytes, inside, rfl⟩
    exact ⟨(path, bytes), mem_filesOf.mpr inside, rfl⟩

variable {tree}

theorem valid_of_fileIn {path : Components} {bytes : Bytes}
    (inside : FileIn tree.entries path bytes) : ∀ part ∈ path, ValidName part :=
  (valid_of_mem tree.entries tree.wellNamed _ (mem_filesOf.mpr inside)).2

variable (tree)

/-- The paths below the folder are as distinct as the files. -/
theorem nodup_relativePaths :
    ((filesOf tree.entries).map fun file => relativePath file.1).Nodup := by
  have paths : ((filesOf tree.entries).map Prod.fst).map relativePath =
      (filesOf tree.entries).map fun file => relativePath file.1 := List.map_map
  rw [← paths]
  refine List.Nodup.map_on ?_ (nodup_filesOf tree.entries tree.wellNamed)
  intro path member other member' same
  obtain ⟨file, inside, rfl⟩ := List.mem_map.mp member
  obtain ⟨file', inside', rfl⟩ := List.mem_map.mp member'
  exact relativePath_injective (valid_of_mem _ tree.wellNamed file inside).2
    (valid_of_mem _ tree.wellNamed file' inside').2 same

theorem nodup_keys : ((listFiles (sharedDirectory user.name) tree.entries).map fun file =>
    getRelativeTo file.1 (sharedDirectory user.name)).Nodup := by
  have keys : ((listFiles (sharedDirectory user.name) tree.entries).map fun file =>
      getRelativeTo file.1 (sharedDirectory user.name)) =
      (filesOf tree.entries).map fun file => relativePath file.1 := by
    rw [listFiles_tree, List.map_map]
    exact List.map_congr_left fun file _ => getRelativeTo_located user file
  rw [keys]
  exact nodup_relativePaths tree

theorem table_getElem?_iff {key : WString} {hash : UInt64} :
    (tree.table platform user)[key]? = some hash ↔
      ∃ path bytes, FileIn tree.entries path bytes ∧ key = relativePath path ∧
        hash = getFileHash platform user.name (sharedDirectory user.name ++ key) (some bytes) := by
  rw [FolderTree.table, createFileHashes, foldl_insertIfNew, Std.ExtTreeMap.getElem?_empty,
    Option.none_or, Option.map_eq_some_iff]
  simp only [find?_key_iff (nodup_keys user tree), mem_listFiles]
  constructor
  · rintro ⟨_, ⟨⟨path, bytes, inside, rfl⟩, same⟩, rfl⟩
    rw [getRelativeTo, List.drop_left] at same
    exact ⟨path, bytes, inside, same.symm, by rw [same]⟩
  · rintro ⟨path, bytes, inside, rfl, rfl⟩
    exact ⟨_, ⟨⟨path, bytes, inside, rfl⟩, List.drop_left⟩, rfl⟩

/-- What the table of a shared folder should be. -/
structure TableOfFolder : Prop where
  /-- No path is listed twice. -/
  listedOnce : (getFilepaths (sharedDirectory user.name) tree.entries).Nodup
  listed : ∀ absPath, absPath ∈ getFilepaths (sharedDirectory user.name) tree.entries ↔
    ∃ path bytes, FileIn tree.entries path bytes ∧
      absPath = sharedDirectory user.name ++ relativePath path
  builders : nodeFileHashes platform user.name (sharedDirectory user.name) tree.entries =
    tree.table platform user
  distinct : ∀ path bytes other bytes', FileIn tree.entries path bytes →
    FileIn tree.entries other bytes' → relativePath path = relativePath other →
      path = other ∧ bytes = bytes'
  /-- The keys are the paths below the folder, and the values the hashes of the files there. -/
  entries : ∀ key hash, (tree.table platform user)[key]? = some hash ↔
    ∃ path bytes, FileIn tree.entries path bytes ∧ key = relativePath path ∧
      hash = getFileHash platform user.name (sharedDirectory user.name ++ key) (some bytes)

theorem tableOfFolder : TableOfFolder platform user tree where
  listedOnce := by
    apply List.Nodup.of_map fun absPath => getRelativeTo absPath (sharedDirectory user.name)
    rw [getFilepaths, List.map_map]
    exact nodup_keys user tree
  listed := by
    intro absPath
    rw [getFilepaths, List.mem_map]
    simp only [mem_listFiles]
    constructor
    · rintro ⟨_, ⟨path, bytes, inside, rfl⟩, rfl⟩
      exact ⟨path, bytes, inside, rfl⟩
    · rintro ⟨path, bytes, inside, rfl⟩
      exact ⟨_, ⟨path, bytes, inside, rfl⟩, rfl⟩
  builders := foldl_insert_eq (nodup_keys user tree) ∅ fun _ _ => Std.ExtTreeMap.getElem?_empty
  distinct := by
    intro path bytes other bytes' inside inside' same
    have names := relativePath_injective (valid_of_fileIn inside) (valid_of_fileIn inside') same
    subst names
    have equal := List.inj_on_of_nodup_map (nodup_filesOf tree.entries tree.wellNamed)
      (mem_filesOf.mpr inside) (mem_filesOf.mpr inside') rfl
    exact ⟨rfl, (Prod.mk.inj equal).2⟩
  entries := fun _ _ => table_getElem?_iff platform user tree

end

/-! ## Two nodes -/

/-- The folders hold the same files at the same places. -/
def SameFolder (tree tree' : FolderTree) : Prop :=
  ∀ path bytes, FileIn tree.entries path bytes ↔ FileIn tree'.entries path bytes

/-- The two platforms start the hash of a file with the same size, up to what the running sums
    make up for when they fall below zero. -/
def SizesAgree (path : Components) (bytes : Bytes) : Prop :=
  startValue .win32 bytes +
      1001 * falls .win32 (wide "File Sync Shared Folder" ++ relativePath path) bytes ≡
    startValue .x64 bytes +
      1001 * falls .x64 (wide "File Sync Shared Folder" ++ relativePath path) bytes
    [ZMOD 2 ^ 64 - 1001]

/-- What the path of a file of the shared folder looks like below the Documents folder. -/
theorem sharedFolder_append (relative : WString) : sharedFolder ++ relative =
    backslash :: (wide "File Sync Shared Folder" ++ relative) := rfl

theorem sharedHash_eq_iff (path : Components) (bytes : Bytes) :
    sharedHash .win32 (relativePath path) bytes = sharedHash .x64 (relativePath path) bytes ↔
      SizesAgree path bytes := by
  have fits : (1001 : Int) < 2 ^ 64 := by norm_num
  have nonempty := hashValues_ne_nil (wide "File Sync Shared Folder" ++ relativePath path) bytes
  have sums := foldl_eq_iff fits nonempty nonempty (startValue .win32 bytes)
    (startValue .x64 bytes)
  have hashes (platform : Platform) :
      ((sharedHash platform (relativePath path) bytes).toNat : Int) =
      (hashValues (backslash :: (wide "File Sync Shared Folder" ++ relativePath path)) bytes).foldl
        (step (2 ^ 64) 1001) (startValue platform bytes) := by
    rw [sharedHash, sharedFolder_append, foldl_hashStep_toNat]
    rfl
  rw [SizesAgree, ← UInt64.toNat_inj, ← Int.natCast_inj, hashes, hashes, sums]
  constructor
  · intro same
    apply Int.ModEq.add_right_cancel'
      (hashValues (backslash :: (wide "File Sync Shared Folder" ++ relativePath path)) bytes).sum
    convert same using 1 <;> exact add_right_comm _ _ _
  · intro agree
    have added := agree.add_right
      (hashValues (backslash :: (wide "File Sync Shared Folder" ++ relativePath path)) bytes).sum
    convert added using 1 <;> exact add_right_comm _ _ _

theorem startValue_win32 (bytes : Bytes) :
    startValue .win32 bytes = (bytes.length % 2 ^ 32 : Nat) := startValue_eq .win32 bytes

theorem startValue_x64 {bytes : Bytes} (sized : bytes.length < 2 ^ 64) :
    startValue .x64 bytes = bytes.length := by
  rw [startValue_eq .x64]
  exact congrArg Nat.cast (Nat.mod_eq_of_lt sized)

/-- The part of a size that is cut off is a multiple of 1001 only for very large sizes. -/
theorem high_eq_zero {size cut high first second laps : Int} (whole : 2 ^ 32 * high + cut = size)
    (low : 0 ≤ cut) (rest : cut < 2 ^ 32) (nonneg : 0 ≤ size) (small : size < 1001 * 2 ^ 32)
    (few : -2 ^ 52 ≤ first ∧ first ≤ 2 ^ 52) (few' : -2 ^ 52 ≤ second ∧ second ≤ 2 ^ 52)
    (multiple : size + 1001 * second - (cut + 1001 * first) = (2 ^ 64 - 1001) * laps) :
    high = 0 := by
  -- the sizes are too close for a lap
  have none : laps = 0 := by
    rcases lt_trichotomy laps 0 with before | none | after
    · linarith
    · exact none
    · linarith
  have balance : 1001 * (first - second) = 2 ^ 32 * high := by
    rw [none] at multiple
    linarith only [whole, multiple]
  obtain ⟨factor, rfl⟩ : 1001 ∣ high :=
    Int.dvd_of_dvd_mul_right_of_gcd_one ⟨first - second, balance.symm⟩ (by decide)
  have above : 0 ≤ factor := by linarith only [whole, rest, nonneg]
  omega

/-- Below some 4 TiB the sums cannot make up for the part of a size that is cut off. -/
theorem sizesAgree_iff_of_short {path : Components} {bytes : Bytes}
    (short : (relativePath path).length + bytes.length < 1001 * 2 ^ 32) :
    SizesAgree path bytes ↔ bytes.length < 2 ^ 32 := by
  have folder : (wide "File Sync Shared Folder").length = 23 := by decide
  have total : (wide "File Sync Shared Folder" ++ relativePath path).length + bytes.length <
      2 ^ 52 := by
    rw [List.length_append, folder]
    omega
  have few := abs_le.mp (falls_abs .win32 total)
  have few' := abs_le.mp (falls_abs .x64 total)
  rw [SizesAgree, startValue_win32, startValue_x64 (by omega)]
  constructor
  · intro agree
    obtain ⟨laps, multiple⟩ := Int.modEq_iff_dvd.mp agree
    have whole : (2 ^ 32 * (bytes.length / 2 ^ 32 : Nat) + (bytes.length % 2 ^ 32 : Nat) : Int) =
        bytes.length := by exact_mod_cast Nat.div_add_mod bytes.length (2 ^ 32)
    have none := high_eq_zero whole (Int.natCast_nonneg _)
      (by exact_mod_cast Nat.mod_lt _ (by decide)) (Int.natCast_nonneg _) (by omega) few few'
      multiple
    exact (Nat.div_eq_zero_iff_lt (by decide)).mp (by exact_mod_cast none)
  · intro small
    have cut : Platform.win32.toSizeT bytes.length = Platform.x64.toSizeT bytes.length := by
      have wide : bytes.length < 256 ^ 8 := Nat.lt_trans small (by decide)
      exact (Nat.mod_eq_of_lt small).trans (Nat.mod_eq_of_lt wide).symm
    rw [falls, cut, ← falls, Nat.mod_eq_of_lt small]

section

variable (platform platform' : Platform) (user user' : User) {tree tree' : FolderTree}

/-- Two nodes with the same files have the same table exactly if the hashes of each file agree. -/
theorem table_eq_iff (same : SameFolder tree tree') :
    tree.table platform user = tree'.table platform' user' ↔
      ∀ path bytes, FileIn tree.entries path bytes →
        sharedHash platform (relativePath path) bytes =
          sharedHash platform' (relativePath path) bytes := by
  constructor
  · intro equal path bytes inside
    have own := (table_getElem?_iff platform user tree).mpr ⟨path, bytes, inside, rfl, rfl⟩
    have other := (table_getElem?_iff platform' user' tree').mpr
      ⟨path, bytes, (same path bytes).mp inside, rfl, rfl⟩
    rw [equal, other, Option.some.injEq, getFileHash_shared, getFileHash_shared] at own
    exact own.symm
  · intro hashes
    apply Std.ExtTreeMap.ext_getElem?
    intro key
    apply Option.ext
    intro hash
    rw [table_getElem?_iff, table_getElem?_iff]
    simp only [getFileHash_shared]
    constructor
    · rintro ⟨path, bytes, inside, rfl, rfl⟩
      exact ⟨path, bytes, (same path bytes).mp inside, rfl, hashes path bytes inside⟩
    · rintro ⟨path, bytes, inside, rfl, rfl⟩
      have own := (same path bytes).mpr inside
      exact ⟨path, bytes, own, rfl, (hashes path bytes own).symm⟩

theorem table_eq_iff_sizes (same : SameFolder tree tree') :
    tree.table platform user = tree'.table platform' user' ↔
      platform = platform' ∨ ∀ path bytes, FileIn tree.entries path bytes →
        SizesAgree path bytes := by
  rw [table_eq_iff platform platform' user user' same]
  cases platform with
  | win32 =>
    cases platform' with
    | win32 => exact iff_of_true (fun _ _ _ => rfl) (Or.inl rfl)
    | x64 =>
      simp only [sharedHash_eq_iff, reduceCtorEq, false_or]
  | x64 =>
    cases platform' with
    | win32 =>
      simp only [eq_comm (a := sharedHash .x64 _ _), sharedHash_eq_iff, reduceCtorEq, false_or]
    | x64 => exact iff_of_true (fun _ _ _ => rfl) (Or.inl rfl)

/-- The table of a folder has what it should have whatever the user and the order of the listing,
    and two nodes with the same files have the same table exactly if they are built for the same
    platform or the sizes agree. For files below some 4 TiB: if no file has more than 32 bits of
    size. -/
theorem folder_tables_iff (same : SameFolder tree tree') :
    TableOfFolder platform user tree ∧
    (tree.table platform user = tree'.table platform' user' ↔
      platform = platform' ∨ ∀ path bytes, FileIn tree.entries path bytes →
        SizesAgree path bytes) ∧
    ((∀ path bytes, FileIn tree.entries path bytes →
        (relativePath path).length + bytes.length < 1001 * 2 ^ 32) →
      (tree.table platform user = tree'.table platform' user' ↔
        platform = platform' ∨ ∀ path bytes, FileIn tree.entries path bytes →
          bytes.length < 2 ^ 32)) := by
  have sizes := table_eq_iff_sizes platform platform' user user' same
  refine ⟨tableOfFolder platform user tree, sizes, fun short => ?_⟩
  rw [sizes]
  refine or_congr_right (forall_congr' fun path => forall_congr' fun bytes =>
    forall_congr' fun inside => ?_)
  exact sizesAgree_iff_of_short (short path bytes inside)

end

/-! ## Two users -/

/-- A user. -/
def annUser : User := ⟨wide "ann", (validName_of_check (by decide)).2.1⟩

/-- Another user. -/
def bobUser : User := ⟨wide "bob", (validName_of_check (by decide)).2.1⟩

/-- A file and a directory with a file. -/
def filesFirst : FolderTree :=
  { entries := [.file (wide "a.txt") [104, 105], .directory (wide "d") [.file (wide "b") []]]
    wellNamed :=
      ⟨validName_of_check (by decide), by simp [DirEntry.name, wide],
        ⟨validName_of_check (by decide), validName_of_check (by decide), by simp, trivial⟩,
        by simp, trivial⟩ }

/-- The same in the other order. -/
def directoriesFirst : FolderTree :=
  { entries := [.directory (wide "d") [.file (wide "b") []], .file (wide "a.txt") [104, 105]]
    wellNamed :=
      ⟨⟨validName_of_check (by decide), validName_of_check (by decide), by simp, trivial⟩,
        by simp [DirEntry.name, wide], validName_of_check (by decide), by simp, trivial⟩ }

theorem folder_tables_iff_order : filesFirst.table .win32 annUser =
    directoriesFirst.table .win32 bobUser := by
  have same : SameFolder filesFirst directoriesFirst := by
    intro path bytes
    rw [← mem_filesOf, ← mem_filesOf]
    simp [filesFirst, directoriesFirst, filesOf, filesOfEntry, or_comm]
  exact (folder_tables_iff .win32 .win32 annUser bobUser same).2.1.mpr (Or.inl rfl)

/-- A folder with one file. -/
def oneFile (bytes : Bytes) : FolderTree :=
  { entries := [.file (wide "a") bytes]
    wellNamed := ⟨validName_of_check (by decide), by simp, trivial⟩ }

/-- The builds for the two platforms hash a file of 4 GiB differently. -/
theorem folder_tables_differ :
    ¬ (SameFolder (oneFile (List.replicate (2 ^ 32) 0)) (oneFile (List.replicate (2 ^ 32) 0)) →
      (oneFile (List.replicate (2 ^ 32) 0)).table .win32 annUser =
        (oneFile (List.replicate (2 ^ 32) 0)).table .x64 bobUser) := by
  have length : (List.replicate (2 ^ 32) (0 : UInt8)).length = 2 ^ 32 := List.length_replicate
  generalize List.replicate (2 ^ 32) (0 : UInt8) = bytes at length
  intro equal
  have same : SameFolder (oneFile bytes) (oneFile bytes) := fun _ _ => Iff.rfl
  rcases (table_eq_iff_sizes .win32 .x64 annUser bobUser same).mp (equal same) with platform | sizes
  · cases platform
  · have path : (relativePath [wide "a"]).length = 2 := by decide
    have agree := sizes [wide "a"] bytes (.here (List.mem_singleton_self _))
    rw [sizesAgree_iff_of_short (by omega), length] at agree
    exact Nat.lt_irrefl _ agree

end FileSync
