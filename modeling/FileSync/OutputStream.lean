import FileSync.Basic

/-!
# The output stream of a receiver

`receiveFile` writes to a `std::ofstream`, which keeps the last bytes in its own memory. They
get to the disk when its buffer is full, or with `file.close()`. The position that `tellp` gives
counts them, too.
-/

namespace FileSync

/-- How a stream that gets at most 1024 bytes at a time hands them on to the disk. -/
structure Buffering where
  /-- Of `n` bytes that were written, so many are on the disk. -/
  onDisk : Nat → Nat
  within : ∀ n, onDisk n ≤ n

/-- The content of a file whose stream has got the bytes and has not been closed. -/
def Buffering.stored (buffering : Buffering) (bytes : Bytes) : Bytes :=
  bytes.take (buffering.onDisk bytes.length)

/-- A buffer of the given size, which is written out when the first byte behind it comes. -/
def Buffering.blocks (size : Nat) : Buffering where
  onDisk n := n - 1 - (n - 1) % size
  within n := Nat.le_trans (Nat.sub_le ..) (Nat.sub_le n 1)

@[simp] theorem Buffering.stored_nil (buffering : Buffering) : buffering.stored [] = [] :=
  List.take_nil

/-- No byte is left in the buffer. -/
def Buffering.flushed (buffering : Buffering) (bytes : Bytes) : Bool :=
  buffering.onDisk bytes.length == bytes.length

theorem Buffering.flushed_iff (buffering : Buffering) (bytes : Bytes) :
    buffering.flushed bytes = true ↔ buffering.stored bytes = bytes := by
  rw [flushed, beq_iff_eq]
  constructor
  · intro all
    rw [stored, all, List.take_length]
  · intro same
    have length := congrArg List.length same
    rw [stored, List.length_take] at length
    exact (Nat.min_eq_left (buffering.within _)).symm.trans length

/-- A chunk may stay in the buffer as a whole, and a block is complete one byte later. -/
example : (Buffering.blocks 4096).onDisk 1024 = 0 ∧ (Buffering.blocks 4096).onDisk 4096 = 0 ∧
    (Buffering.blocks 4096).onDisk 5120 = 4096 := by
  decide

end FileSync
