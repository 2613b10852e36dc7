import FileSync.FileHelper

/-!
# The disk of a node

Paths are strings until they reach the file system, which splits them at separators, drops
empty components and resolves `.` and `..`. A disk maps the resolved components to a file
or a directory. Names are told apart by their characters, without the folding of case. The
operations throw where `std::filesystem` does.
-/

namespace FileSync

/-- A path as the file system sees it. -/
abbrev Components := List WString

/-- What a path of the disk is. -/
inductive Entry where
  | file (bytes : Bytes)
  | directory
  deriving DecidableEq, Repr

instance : Std.TransCmp (compare : Components → Components → Ordering) := inferInstance

/-- The entries of a disk by their resolved paths. -/
abbrev Disk := Std.ExtTreeMap Components Entry

/-- What the calls of `std::filesystem` throw. -/
inductive FsError where
  | directoryNotEmpty
  | notADirectory
  deriving DecidableEq, Repr

/-- The file system takes both slashes for separators. -/
def isSeparator (c : UInt16) : Bool := c == backslash || c == slash

/-- The parts between separators; neighbouring separators count as one. -/
def components (path : WString) : Components :=
  (path.splitOnP isSeparator).filter fun part => !part.isEmpty

/-- One component added to a resolved path. The drive cannot be left by `..`. -/
def resolveStep (resolved : Components) (part : WString) : Components :=
  if part = wide "." then resolved
  else if part = wide ".." then
    if resolved.length ≤ 1 then resolved else resolved.dropLast
  else resolved ++ [part]

/-- The place that a path leads to. -/
def resolve (path : WString) : Components := (components path).foldl resolveStep []

/-- `std::filesystem::exists` -/
def pathExists (disk : Disk) (path : WString) : Bool := disk.contains (resolve path)

/-- What opening a path for reading finds. -/
def openFile (disk : Disk) (path : WString) : Option Bytes :=
  match disk[resolve path]? with
  | some (.file bytes) => some bytes
  | _ => none

theorem pathExists_of_openFile {disk : Disk} {path : WString} {bytes : Bytes}
    (opened : openFile disk path = some bytes) : pathExists disk path = true := by
  unfold openFile at opened
  split at opened
  · rename_i found
    rw [pathExists, Std.ExtTreeMap.contains_eq_isSome_getElem?, found]
    rfl
  · cases opened

/-- `deleteFile` (FileHelper.cpp 54-56): `std::filesystem::remove`, which throws on a directory that
    is not empty. -/
def deleteFile (disk : Disk) (absPath : WString) : Except FsError (Bool × Disk) :=
  let path := resolve absPath
  match disk[path]? with
  | none => .ok (false, disk)
  | some (.file _) => .ok (true, disk.erase path)
  | some .directory =>
    if disk.keys.any fun other => path.isPrefixOf other && other != path then
      .error .directoryNotEmpty
    else .ok (true, disk.erase path)

/-- `path::parent_path` up to trailing separators. -/
def parentPath (path : WString) : WString :=
  (path.reverse.dropWhile fun c => !isSeparator c).reverse

/-- `std::filesystem::create_directories`, from the root down. -/
def createDirectories (disk : Disk) (above : Components) : Components → Except FsError Disk
  | [] => .ok disk
  | part :: parts =>
    let path := above ++ [part]
    match disk[path]? with
    | none => createDirectories (disk.insert path .directory) path parts
    | some .directory => createDirectories disk path parts
    | some (.file _) => .error .notADirectory

/-- creates all directories needed to create the file (FileHelper.cpp 128-135) -/
def acquireDirectories (disk : Disk) (absPath : WString) : Except FsError Disk :=
  createDirectories disk [] (resolve (parentPath absPath))

/-- Whether a path can be opened for writing: its directory exists and it is none itself. -/
def canWrite (disk : Disk) (path : Components) : Bool :=
  disk[path.dropLast]? == some .directory && disk[path]? != some .directory

/-- A file opened for writing is truncated and receives the bytes. A stream that could not be
    opened takes no bytes. -/
def writeFile (disk : Disk) (absPath : WString) (bytes : Bytes) : Disk :=
  if canWrite disk (resolve absPath) then disk.insert (resolve absPath) (.file bytes) else disk

theorem components_separator {c : UInt16} (separates : isSeparator c = true)
    (before after : WString) :
    components (before ++ c :: after) = components before ++ components after := by
  simp only [components, List.splitOnP_append_cons before after separates, List.filter_append]

/-- A doubled separator names the same file as a single one. -/
theorem resolve_doubled (before after : WString) :
    resolve (before ++ backslash :: backslash :: after) =
      resolve (before ++ backslash :: after) := by
  have separates : isSeparator backslash = true := by decide
  have empty : components [] = [] := by decide
  have doubled : components (backslash :: after) = components after := by
    rw [← List.nil_append (backslash :: after), components_separator separates, empty,
      List.nil_append]
  rw [resolve, resolve, components_separator separates, components_separator separates, doubled]

end FileSync
