import FileSync.RequestFiles
import FileSync.DirectoryMonitor
import FileSync.Library.ReducedSum
import Mathlib.Algebra.Order.Ring.Abs
import Mathlib.Tactic.NormNum
import Mathlib.Tactic.Linarith

/-!
# The two hash paths

A folder's table hashes a file under the path of the directory listing; `requestFiles` hashes
it under `directory + L'\\' + filePath`, where `filePath` starts with a separator of its own.
The file system takes both for the same file, but the second text has one more character,
which the hash adds in. The running sum is reduced below the machine word, so the two hashes
differ by that character up to some gaps of the reduction, and never agree.
-/

namespace FileSync

open ReducedSum

/-! ## The hash as a fold over signed values -/

/-- The values that the loop over the contents adds, from a counter on. -/
def contentValues : Nat → Bytes → List Int
  | _, [] => []
  | i, c :: rest => charOfByte c * i :: contentValues (nextIndex i) rest

/-- All values that are added to the file size. -/
def hashValues (relative : WString) (bytes : Bytes) : List Int :=
  relative.map charOfWide ++ contentValues 0 (readText bytes)

theorem foldl_hashByte (bytes : Bytes) : ∀ (hash : UInt64) (i : Nat),
    (bytes.foldl hashByte (hash, i)).1 = (contentValues i bytes).foldl hashStep hash := by
  induction bytes with
  | nil => intro hash i; rfl
  | cons c bytes ih => intro hash i; exact ih _ _

theorem getFileHash_some (platform : Platform) (username absPath : WString) (bytes : Bytes) :
    getFileHash platform username absPath (some bytes) =
      (hashValues (getRelativeToDocuments username absPath) bytes).foldl hashStep
        (UInt64.ofNat (platform.toSizeT bytes.length)) := by
  simp only [getFileHash, filesize, hashValues, List.foldl_append, List.foldl_map, foldl_hashByte]

theorem hashStep_toNat (hash : UInt64) (value : Int) :
    ((hashStep hash value).toNat : Int) = step (2 ^ 64) 1001 hash.toNat value := by
  have base : modBase.toNat = 2 ^ 64 - 1001 := by decide
  have converted : (UInt64.ofInt value).toNat = (value % 2 ^ 64).toNat := by
    rw [UInt64.ofInt, UInt64.toNat_ofNat']
    omega
  simp only [hashStep, step, UInt64.toNat_mod, UInt64.toNat_add, base, converted]
  omega

theorem foldl_hashStep_toNat (values : List Int) : ∀ hash : UInt64,
    ((values.foldl hashStep hash).toNat : Int) =
      values.foldl (step (2 ^ 64) 1001) hash.toNat := by
  induction values with
  | nil => intro hash; rfl
  | cons value values ih =>
    intro hash
    rw [List.foldl_cons, List.foldl_cons, ih, hashStep_toNat]

theorem charOfByte_abs (c : UInt8) : |charOfByte c| ≤ 128 := by
  have low := Int8.le_toInt c.toInt8
  have high := Int8.toInt_lt c.toInt8
  rw [abs_le, charOfByte]
  omega

theorem charOfWide_abs (c : UInt16) : |charOfWide c| ≤ 128 := charOfByte_abs c.toUInt8

theorem nextIndex_le {i : Nat} (h : i ≤ 9) : nextIndex i ≤ 9 := by
  have count : multiplands.length = 9 := rfl
  unfold nextIndex
  split <;> omega

theorem contentValues_abs (bytes : Bytes) : ∀ i ≤ 9, ∀ value ∈ contentValues i bytes,
    |value| ≤ 1152 := by
  induction bytes with
  | nil => intro i _ value member; cases member
  | cons c bytes ih =>
    intro i small value member
    rcases List.mem_cons.mp member with rfl | member
    · rw [abs_mul, Nat.abs_cast]
      calc |charOfByte c| * (i : Int) ≤ 128 * 9 :=
            mul_le_mul (charOfByte_abs c) (by exact_mod_cast small) (by omega) (by omega)
        _ = 1152 := by norm_num
    · exact ih _ (nextIndex_le small) value member

theorem hashValues_abs (relative : WString) (bytes : Bytes) :
    ∀ value ∈ hashValues relative bytes, |value| ≤ 1152 := by
  intro value member
  rcases List.mem_append.mp member with member | member
  · obtain ⟨c, _, rfl⟩ := List.mem_map.mp member
    exact (charOfWide_abs c).trans (by norm_num)
  · exact contentValues_abs _ 0 (by omega) value member

theorem contentValues_length (bytes : Bytes) :
    ∀ i, (contentValues i bytes).length = bytes.length := by
  induction bytes with
  | nil => intro i; rfl
  | cons c bytes ih => intro i; simp [contentValues, ih]

theorem readText_length_le (bytes : Bytes) : (readText bytes).length ≤ bytes.length := by
  fun_induction readText bytes with
  | case1 => exact Nat.le_refl _
  | case2 => exact Nat.zero_le _
  | case3 rest ih =>
    simp only [List.length_cons]
    omega
  | case4 byte rest _ _ ih =>
    simp only [List.length_cons]
    omega

theorem hashValues_length_le (relative : WString) (bytes : Bytes) :
    (hashValues relative bytes).length ≤ relative.length + bytes.length := by
  have read := readText_length_le bytes
  simp only [hashValues, List.length_append, List.length_map, contentValues_length]
  omega

/-! ## One more separator -/

theorem laps_of_separator {rest laps : Int} (h : 1001 * rest + 16 * laps = 92) :
    ∃ turns, laps = 256 + 1001 * turns :=
  ⟨laps / 1001, by omega⟩

/-- The value of a backslash is a multiple of the modulus only up to very many gaps. -/
theorem gaps_of_separator {gaps laps : Int}
    (h : 1001 * gaps + (2 ^ 64 - 1001) * laps = 92) : 2 ^ 62 ≤ |gaps| := by
  -- the modulus is 16 modulo 1001
  have split : 1001 * (gaps + 18428315757951599 * laps) + 16 * laps = 92 := by linarith
  obtain ⟨turns, rfl⟩ := laps_of_separator split
  have value : gaps = -4717648834035609348 - 18446744073709550615 * turns := by linarith
  rw [value, le_abs]
  rcases Int.lt_or_le turns 0 with before | after
  · left
    have : turns ≤ -1 := Int.le_sub_one_of_lt before
    linarith
  · right
    linarith

/-- Adding the value of a backslash first changes the result: the two sums differ by 92 up to
    gaps of the reduction, of which there are too few. -/
theorem foldl_hashStep_separator {values : List Int}
    (small : ∀ value ∈ values, |value| ≤ 1152) (short : values.length < 2 ^ 61 - 1)
    (hash : UInt64) :
    (92 :: values).foldl hashStep hash ≠ values.foldl hashStep hash := by
  intro same
  have equal := congrArg (fun h : UInt64 => (h.toNat : Int)) same
  simp only [foldl_hashStep_toNat] at equal
  have low : (0 : Int) ≤ hash.toNat := Int.natCast_nonneg _
  have high : (hash.toNat : Int) < 2 ^ 64 := by exact_mod_cast hash.toNat_lt
  have bounded : ∀ value ∈ 92 :: values, |value| ≤ (2 ^ 64 : Int) := by
    intro value member
    rcases List.mem_cons.mp member with rfl | member
    · norm_num
    · exact (small value member).trans (by norm_num)
  have positive : (0 : Int) < 1001 := by norm_num
  have fits : (1001 : Int) < 2 ^ 64 := by norm_num
  obtain ⟨gaps, laps, few, sum⟩ :=
    fold_drift positive fits values
      (fun value member => bounded value (List.mem_cons_of_mem _ member)) _ low high
  obtain ⟨gaps', laps', few', sum'⟩ :=
    fold_drift positive fits _ bounded _ low high
  rw [sum, sum', List.sum_cons] at equal
  have apart : 1001 * (gaps - gaps') + (2 ^ 64 - 1001) * (laps - laps') = 92 := by linarith
  have many : 2 ^ 62 ≤ |gaps - gaps'| := gaps_of_separator apart
  have triangle := abs_sub gaps gaps'
  have length : ((92 :: values).length : Int) = values.length + 1 := by simp
  have short' : (values.length : Int) < 2 ^ 61 - 1 := by
    have : values.length + 1 < 2 ^ 61 := by omega
    have : (values.length : Int) + 1 < 2 ^ 61 := by exact_mod_cast this
    linarith
  linarith

/-! ## Files of the shared folder -/

/-- The hash of a file of the shared folder under a path relative to the folder. -/
def sharedHash (platform : Platform) (relative : WString) (bytes : Bytes) : UInt64 :=
  (hashValues (sharedFolder ++ relative) bytes).foldl hashStep
    (UInt64.ofNat (platform.toSizeT bytes.length))

/-- The hash does not depend on the user: only the text below the Documents folder counts. -/
theorem getFileHash_shared (platform : Platform) (username relative : WString) (bytes : Bytes) :
    getFileHash platform username (sharedDirectory username ++ relative) (some bytes) =
      sharedHash platform relative bytes := by
  rw [getFileHash_some, getRelativeToDocuments, sharedDirectory, List.append_assoc, List.drop_left]
  rfl

theorem getFileHash_preferred (platform : Platform) (username relative : WString)
    (bytes : Bytes) :
    getFileHash platform username (makePreferred (sharedDirectory username) ++ relative)
      (some bytes) = sharedHash platform relative bytes := by
  have length : (makePreferred (getDocumentsPath username)).length =
      (getDocumentsPath username).length := List.length_map _
  have folder : makePreferred sharedFolder = sharedFolder := by decide
  rw [getFileHash_some, getRelativeToDocuments, sharedDirectory, makePreferred, List.map_append,
    ← makePreferred, ← makePreferred, folder, List.append_assoc, ← length, List.drop_left]
  rfl

/-- With one more separator in front, the hash of a file is another one. -/
theorem sharedHash_separator {platform : Platform} {rest : WString} {bytes : Bytes}
    (short : rest.length + bytes.length < 2 ^ 61 - 2) :
    sharedHash platform (backslash :: backslash :: rest) bytes ≠
      sharedHash platform (backslash :: rest) bytes := by
  have separator : charOfWide backslash = 92 := by decide
  have length := hashValues_length_le (backslash :: rest) bytes
  simp only [sharedHash, hashValues, List.map_append, List.append_assoc]
  rw [List.foldl_append, List.foldl_append (l := sharedFolder.map charOfWide), List.map_cons,
    separator, List.cons_append]
  refine foldl_hashStep_separator (hashValues_abs (backslash :: rest) bytes) ?_ _
  rw [List.length_cons] at length
  omega

theorem makePreferred_append (first second : WString) :
    makePreferred (first ++ second) = makePreferred first ++ makePreferred second :=
  List.map_append

theorem makePreferred_idem (path : WString) :
    makePreferred (makePreferred path) = makePreferred path := by
  have once (c : UInt16) : (if (if c = slash then backslash else c) = slash then backslash
      else if c = slash then backslash else c) = if c = slash then backslash else c := by
    split <;> rfl
  simp only [makePreferred, List.map_map, Function.comp_def, once]

theorem entryPath_prefix (absPath name : WString) :
    ∃ rest, entryPath absPath name = absPath ++ rest := by
  unfold entryPath
  split <;> exact ⟨_, rfl⟩

mutual

/-- Every listed path starts with that of an entry of the directory. -/
theorem listFiles_shape (absPath : WString) : ∀ entries, ∀ file ∈ listFiles absPath entries,
    ∃ name rest, file.1 = makePreferred (entryPath absPath name) ++ rest
  | [], file, member => by cases member
  | entry :: entries, file, member => by
    rw [listFiles] at member
    rcases List.mem_append.mp member with first | later
    · exact listEntry_shape absPath entry file first
    · exact listFiles_shape absPath entries file later

theorem listEntry_shape (absPath : WString) : ∀ entry, ∀ file ∈ listEntry absPath entry,
    ∃ name rest, file.1 = makePreferred (entryPath absPath name) ++ rest
  | .file name bytes, file, member => by
    rw [listEntry, List.mem_singleton] at member
    exact ⟨name, [], by rw [member, List.append_nil]⟩
  | .directory name entries, file, member => by
    rw [listEntry] at member
    obtain ⟨inner, rest, shape⟩ := listFiles_shape _ entries file member
    obtain ⟨tail, joined⟩ := entryPath_prefix (makePreferred (entryPath absPath name)) inner
    exact ⟨name, makePreferred tail ++ rest, by
      rw [shape, joined, makePreferred_append, makePreferred_idem, List.append_assoc]⟩

end

/-- The path of a file of the shared folder is the folder's, a separator and a rest. -/
theorem listFiles_shared {username : WString} {entries : List DirEntry} {file : WString × Bytes}
    (listed : file ∈ listFiles (sharedDirectory username) entries) :
    ∃ rest, file.1 = makePreferred (sharedDirectory username) ++ backslash :: rest := by
  obtain ⟨name, rest, shape⟩ := listFiles_shape _ _ _ listed
  have folder : sharedFolder.getLast? = some 114 := by decide
  have last : (sharedDirectory username).getLast? = some 114 := by
    rw [sharedDirectory, List.getLast?_append, folder, Option.some_or]
  have joined : entryPath (sharedDirectory username) name =
      sharedDirectory username ++ backslash :: name := by
    rw [entryPath, last, if_neg (by decide)]
  have separator : makePreferred (backslash :: name) = backslash :: makePreferred name := rfl
  exact ⟨makePreferred name ++ rest, by
    rw [shape, joined, makePreferred_append, separator, List.append_assoc, List.cons_append]⟩

theorem getRelativeTo_shared (username rest : WString) :
    getRelativeTo (makePreferred (sharedDirectory username) ++ rest) (sharedDirectory username) =
      rest := by
  have length : (makePreferred (sharedDirectory username)).length =
      (sharedDirectory username).length := List.length_map _
  rw [getRelativeTo, ← length, List.drop_left]

/-! ## requestFiles on files it already has -/

/-- An Addition or Edit of a file in the announcer's folder, with the path and hash of the
    announcer's table, while the host holds a file with the same bytes at that path. -/
def AlreadySatisfied (host : Host) (disk : Disk) (announcer : WString)
    (entries : List DirEntry) (fileChange : FileChangeData) : Prop :=
  fileChange.change ≠ .deletion ∧
    ∃ file ∈ listFiles (sharedDirectory announcer) entries,
      fileChange.filePath = getRelativeTo file.1 (sharedDirectory announcer) ∧
      fileChange.fileHash = getFileHash host.platform announcer file.1 (some file.2) ∧
      openFile disk (host.directory ++ fileChange.filePath) = some file.2

/-- The hash under the path that `requestFiles` builds differs from that of the listing. -/
theorem listed_hash_differs {platform : Platform} {announcer receiver : WString}
    {entries : List DirEntry} {file : WString × Bytes}
    (listed : file ∈ listFiles (sharedDirectory announcer) entries)
    (short : file.1.length + file.2.length < 2 ^ 61) :
    getFileHash platform receiver (sharedDirectory receiver ++
        backslash :: getRelativeTo file.1 (sharedDirectory announcer)) (some file.2) ≠
      getFileHash platform announcer file.1 (some file.2) := by
  obtain ⟨rest, shape⟩ := listFiles_shared listed
  rw [shape, getRelativeTo_shared, getFileHash_shared, getFileHash_preferred]
  apply sharedHash_separator
  have folder : 2 ≤ (makePreferred (sharedDirectory announcer)).length := by
    have : sharedFolder.length = 24 := by decide
    simp only [makePreferred, List.length_map, sharedDirectory, List.length_append]
    omega
  have length := congrArg List.length shape
  rw [List.length_append, List.length_cons] at length
  omega

/-- The host finds the file under the path that `requestFiles` builds, too. -/
theorem openFile_of_satisfied {host : Host} {disk : Disk} {announcer : WString}
    {entries : List DirEntry} {fileChange : FileChangeData}
    (satisfied : AlreadySatisfied host disk announcer entries fileChange) :
    ∃ file ∈ listFiles (sharedDirectory announcer) entries,
      fileChange.filePath = getRelativeTo file.1 (sharedDirectory announcer) ∧
      fileChange.fileHash = getFileHash host.platform announcer file.1 (some file.2) ∧
      openFile disk (host.localPath fileChange.filePath) = some file.2 := by
  obtain ⟨_, file, listed, path, hash, held⟩ := satisfied
  obtain ⟨rest, shape⟩ := listFiles_shared listed
  have separated : fileChange.filePath = backslash :: rest := by
    rw [path, shape, getRelativeTo_shared]
  refine ⟨file, listed, path, hash, ?_⟩
  rw [← held, Host.localPath, separated, openFile, openFile, resolve_doubled]

/-- For a satisfied change the test of `requestFiles` comes down to the hash. -/
theorem alreadyHas_iff_of_satisfied {host : Host} {disk : Disk} {announcer : WString}
    {entries : List DirEntry} {fileChange : FileChangeData}
    (satisfied : AlreadySatisfied host disk announcer entries fileChange) :
    host.alreadyHas disk fileChange = true ↔
      host.localHash disk fileChange.filePath = fileChange.fileHash := by
  obtain ⟨file, _, _, _, opened⟩ := openFile_of_satisfied satisfied
  rw [Host.alreadyHas, pathExists_of_openFile opened, Bool.true_and, beq_iff_eq, eq_comm]

theorem localHash_ne_of_satisfied {host : Host} {disk : Disk} {announcer : WString}
    {entries : List DirEntry} {fileChange : FileChangeData}
    (satisfied : AlreadySatisfied host disk announcer entries fileChange)
    (short : ∀ file ∈ listFiles (sharedDirectory announcer) entries,
      file.1.length + file.2.length < 2 ^ 61) :
    host.localHash disk fileChange.filePath ≠ fileChange.fileHash := by
  obtain ⟨file, listed, path, hash, opened⟩ := openFile_of_satisfied satisfied
  rw [Host.localHash, opened, hash, Host.localPath, path]
  exact listed_hash_differs listed (short file listed)

/-- `requestFiles` leaves a list of changes that are all satisfied already alone exactly when
    the two paths of each hash alike. No two paths of a file below 2^61 do, so that only the
    empty list is left alone. -/
theorem requestFiles_idempotent_iff (host : Host) (disk : Disk) (announcer : WString)
    (entries : List DirEntry) (fileChanges : List FileChangeData) (answers : List Answer)
    (satisfied : ∀ fileChange ∈ fileChanges,
      AlreadySatisfied host disk announcer entries fileChange) :
    let after := (requestFiles host fileChanges { disk, dirLock := false, sent := [], answers }).1
    ((after.sent = [] ∧ after.disk = disk) ↔ ∀ fileChange ∈ fileChanges,
      host.localHash disk fileChange.filePath = fileChange.fileHash) ∧
    (∀ file ∈ listFiles (sharedDirectory announcer) entries,
      file.1.length + file.2.length < 2 ^ 61 →
      getFileHash host.platform host.username
          (host.localPath (getRelativeTo file.1 (sharedDirectory announcer))) (some file.2) ≠
        getFileHash host.platform announcer file.1 (some file.2)) ∧
    ((∀ file ∈ listFiles (sharedDirectory announcer) entries,
      file.1.length + file.2.length < 2 ^ 61) →
      ((after.sent = [] ∧ after.disk = disk) ↔ fileChanges = [])) := by
  intro after
  have alike : (after.sent = [] ∧ after.disk = disk) ↔ ∀ fileChange ∈ fileChanges,
      host.localHash disk fileChange.filePath = fileChange.fileHash := by
    have idle := requestFiles_idle_iff host fileChanges
      (fun fileChange member => (satisfied fileChange member).1)
      { disk, dirLock := false, sent := [], answers }
    rw [idle]
    exact forall₂_congr fun fileChange member =>
      alreadyHas_iff_of_satisfied (satisfied fileChange member)
  refine ⟨alike, fun file listed short => listed_hash_differs listed short, fun short => ?_⟩
  rw [alike]
  constructor
  · intro equal
    cases fileChanges with
    | nil => rfl
    | cons fileChange rest =>
      exact absurd (equal fileChange List.mem_cons_self)
        (localHash_ne_of_satisfied (satisfied fileChange List.mem_cons_self) short)
  · rintro rfl
    exact fun _ member => (List.not_mem_nil member).elim

/-- Both nodes hold `a.txt` with the bytes of `hi`. -/
def hiEntries : List DirEntry := [.file (wide "a.txt") [104, 105]]

/-- The announcer's file and its path. -/
def hiFile : WString × Bytes :=
  (wide "C:\\Users\\ann\\Documents\\File Sync Shared Folder\\a.txt", [104, 105])

/-- The announcement of the file, with the announcer's own hash. -/
def hiChange : FileChangeData :=
  { filePath := wide "\\a.txt"
    fileHash := getFileHash .win32 (wide "ann") hiFile.1 (some hiFile.2)
    change := .addition }

/-- The receiving node. -/
def bob : Host := { platform := .win32, username := wide "bob" }

/-- The receiver's disk with the same file. -/
def hiDisk : Disk :=
  (∅ : Disk).insert
    (["C:", "Users", "bob", "Documents", "File Sync Shared Folder", "a.txt"].map wide)
    (.file [104, 105])

theorem hiFile_listed : hiFile ∈ listFiles (sharedDirectory (wide "ann")) hiEntries := by decide

theorem hiChange_satisfied : AlreadySatisfied bob hiDisk (wide "ann") hiEntries hiChange :=
  ⟨by decide, hiFile, hiFile_listed, by decide, rfl, by decide⟩

/-- The node asks for a file that it has with the very bytes that were announced. -/
theorem requestFiles_refetches_hi :
    AlreadySatisfied bob hiDisk (wide "ann") hiEntries hiChange ∧
    (requestFiles bob [hiChange]
      { disk := hiDisk, dirLock := false, sent := [], answers := [] }).1.sent = [hiChange] :=
  ⟨hiChange_satisfied, by decide +kernel⟩

theorem requestFiles_idempotent_iff_hi :
    getFileHash bob.platform bob.username
        (bob.localPath (getRelativeTo hiFile.1 (sharedDirectory (wide "ann")))) (some hiFile.2) ≠
      getFileHash bob.platform (wide "ann") hiFile.1 (some hiFile.2) ∧
    ¬ (let after := (requestFiles bob [hiChange]
        { disk := hiDisk, dirLock := false, sent := [], answers := [] }).1
      after.sent = [] ∧ after.disk = hiDisk) := by
  have short : ∀ file ∈ listFiles (sharedDirectory (wide "ann")) hiEntries,
    file.1.length + file.2.length < 2 ^ 61 := by decide
  obtain ⟨_, differ, empty⟩ := requestFiles_idempotent_iff bob hiDisk (wide "ann") hiEntries
    [hiChange] [] fun fileChange member => List.mem_singleton.mp member ▸ hiChange_satisfied
  exact ⟨differ hiFile hiFile_listed (short hiFile hiFile_listed),
    fun idle => List.cons_ne_nil _ _ ((empty short).mp idle)⟩

end FileSync
