import Mathlib.Algebra.Ring.Nat
import Mathlib.Tactic.Common

/-!
# Data types of the program

Strings are Windows strings: `wchar_t` has 16 bits and `std::wstring` is a list of them. The
order of lists of `UInt16` is that of `std::wstring`, so that `std::map` with such keys is
an `ExtTreeMap`: the traversal of either is in ascending key order.
-/

namespace FileSync

/-- `std::wstring` on Windows. -/
abbrev WString := List UInt16

/-- The contents of a file. -/
abbrev Bytes := List UInt8

/-- A wide string literal. -/
def wide (literal : String) : WString := literal.toList.map fun c => UInt16.ofNat c.toNat

/-- `L'\\'`. -/
def backslash : UInt16 := 0x5C

/-- `L'/'`. -/
def slash : UInt16 := 0x2F

/-- The two platforms the solution declares. -/
inductive Platform where
  | win32
  | x64
  deriving DecidableEq, Repr

/-- Number of bytes of `std::size_t`. -/
def Platform.sizeTBytes : Platform → Nat
  | .win32 => 4
  | .x64 => 8

/-- A number converted to `std::size_t`. -/
def Platform.toSizeT (platform : Platform) (n : Nat) : Nat := n % 256 ^ platform.sizeTBytes

/-- enum for describing what type of change occured -/
inductive FileChangeType where
  | addition
  | deletion
  | edit
  deriving DecidableEq, Repr

/-- packages data relevant to file change into one object -/
structure FileChangeData where
  filePath : WString
  fileHash : UInt64
  change : FileChangeType
  deriving DecidableEq, Repr

/-- `std::map<std::wstring, uint64_t>`: the hashes of a folder's files by their path relative
    to the folder. -/
abbrev FileTable := Std.ExtTreeMap WString UInt64

end FileSync
