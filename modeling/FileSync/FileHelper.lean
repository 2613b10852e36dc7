import FileSync.Basic

/-!
# FileHelper

The functions of `FileHelper.cpp`. A file is given by what opening it finds: `some` of its
bytes, or `none` when it cannot be opened. The files below a directory are a tree, listed in
the order in which the directory iterator returns the entries.
-/

namespace FileSync

/-! ## Hashes -/

/-- The list of primes; the hash only uses how many there are. -/
def multiplands : List UInt64 := [2, 7, 17, 29, 41, 53, 67, 79, 97]

/-- `UINT64_MAX - 1000` -/
def modBase : UInt64 := 0xFFFFFFFFFFFFFFFF - 1000

/-- `C:\Users\` followed by the user name and `\Documents` (FileHelper.cpp 109-114). -/
def getDocumentsPath (username : WString) : WString :=
  wide "C:\\Users\\" ++ username ++ wide "\\Documents"

/-- assumes the path given is in the Documents directory or its subdirectories
    (FileHelper.cpp 117-120) -/
def getRelativeToDocuments (username absPath : WString) : WString :=
  absPath.drop (getDocumentsPath username).length

/-- assumes the path given is in the relDir directory or its subdirectories
    (FileHelper.cpp 123-126) -/
def getRelativeTo (absPath relDir : WString) : WString := absPath.drop relDir.length

/-- `tellg` at the end of the file, converted to `std::size_t` (FileHelper.cpp 40-52). -/
def filesize (platform : Platform) : Option Bytes → Nat
  | some bytes => platform.toSizeT bytes.length
  | none => 0

/-- What a stream opened without `std::ios::binary` reads: CR LF is read as LF, and 0x1A ends
    the file. -/
def readText : Bytes → Bytes
  | [] => []
  | 0x1A :: _ => []
  | 0x0D :: 0x0A :: rest => 0x0A :: readText rest
  | byte :: rest => byte :: readText rest

/-- A `wchar_t` narrowed to a signed `char`. -/
def charOfWide (c : UInt16) : Int := c.toUInt8.toInt8.toInt

/-- A byte as a signed `char`. -/
def charOfByte (c : UInt8) : Int := c.toInt8.toInt

/-- `(hash + value) % modBase` for a signed `value`, which is converted to `uint64_t` first. -/
def hashStep (hash : UInt64) (value : Int) : UInt64 := (hash + UInt64.ofInt value) % modBase

/-- `i = (i == multiplands.size()) ? 0 : i + 1` -/
def nextIndex (i : Nat) : Nat := if i = multiplands.length then 0 else i + 1

/-- One round of the loop over the contents: the running hash and the counter `i`. -/
def hashByte (state : UInt64 × Nat) (c : UInt8) : UInt64 × Nat :=
  (hashStep state.1 (charOfByte c * state.2), nextIndex state.2)

/-- The hash of a file (FileHelper.cpp 61-90): its size, the characters of its path relative to
    Documents, and its bytes times the running counter. A file that cannot be opened has the first
    two only. -/
def getFileHash (platform : Platform) (username absPath : WString) (file : Option Bytes) :
    UInt64 :=
  let hash := UInt64.ofNat (filesize platform file)
  let hash := (getRelativeToDocuments username absPath).foldl
    (fun hash c => hashStep hash (charOfWide c)) hash
  match file with
  | some bytes => ((readText bytes).foldl hashByte (hash, 0)).1
  | none => hash

/-! ## Directory listings -/

/-- An entry of a directory. -/
inductive DirEntry where
  | file (name : WString) (bytes : Bytes)
  | directory (name : WString) (entries : List DirEntry)

/-- `path::make_preferred`: every slash becomes a backslash. -/
def makePreferred (path : WString) : WString :=
  path.map fun c => if c = slash then backslash else c

/-- The path of a directory's entry as the directory iterator builds it: a separator is put
    between the two unless the directory's path ends with one. -/
def entryPath (absPath name : WString) : WString :=
  if absPath.getLast? = some backslash ∨ absPath.getLast? = some slash then absPath ++ name
  else absPath ++ backslash :: name

mutual

/-- `getFilepaths` (FileHelper.cpp 17-34) together with the bytes that opening each returned path
    finds. -/
def listFiles (absPath : WString) : List DirEntry → List (WString × Bytes)
  | [] => []
  | entry :: entries => listEntry absPath entry ++ listFiles absPath entries

/-- The files that one entry contributes. -/
def listEntry (absPath : WString) : DirEntry → List (WString × Bytes)
  | .file name bytes => [(makePreferred (entryPath absPath name), bytes)]
  | .directory name entries => listFiles (makePreferred (entryPath absPath name)) entries

end

/-- returns absolute paths -/
def getFilepaths (absPath : WString) (entries : List DirEntry) : List WString :=
  (listFiles absPath entries).map Prod.fst

/-- The shared folder of `main`. -/
def sharedFolder : WString := wide "\\File Sync Shared Folder"

/-- The `directory` that `main` builds (main.cpp 27). -/
def sharedDirectory (username : WString) : WString := getDocumentsPath username ++ sharedFolder

end FileSync
