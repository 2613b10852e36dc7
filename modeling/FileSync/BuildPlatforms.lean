import FileSync.Broadcast
import FileSync.Decoding

/-!
# Builds for two platforms

The senders insert a `std::size_t` where the receivers extract 32 bits. The Win32 build inserts
32 bits, too; the x64 build inserts 64, so that the receiver of either build takes the high half
for the count or the length, and everything behind it is shifted by four bytes.
-/

namespace FileSync

open Reader

/-- The high half of a `std::size_t` of 64 bits. -/
def highHalf (size : Nat) : Nat := Platform.x64.toSizeT size / 2 ^ 32

theorem highHalf_lt (size : Nat) : highHalf size < 2 ^ 32 := by
  have small : Platform.x64.toSizeT size < 256 ^ 8 := Nat.mod_lt _ (by decide)
  unfold highHalf
  omega

theorem highHalf_of_lt {size : Nat} (small : size < 2 ^ 32) : highHalf size = 0 := by
  have le : Platform.x64.toSizeT size ≤ size := Nat.mod_le _ _
  unfold highHalf
  omega

/-- A number is its own high half only if it is 0. -/
theorem eq_highHalf_iff {size : Nat} : highHalf size = size ↔ size = 0 := by
  have le : Platform.x64.toSizeT size ≤ size := Nat.mod_le _ _
  unfold highHalf
  constructor
  · intro same
    omega
  · intro zero
    omega

theorem put_sizeT (size : Nat) : putBigEndian 8 (Platform.x64.toSizeT size) =
    putBigEndian 4 (highHalf size) ++ putBigEndian 4 (Platform.x64.toSizeT size) :=
  putBigEndian_append 4 4 _

section

variable (garbage : Uninitialized)

/-! ## Change lists -/

/-- The bytes of a record as they are inserted, with the length of the path reduced. -/
def insertedChange (fileChange : FileChangeData) : Bytes :=
  insertedEntry bigEndian (fileChange.filePath, fileChange.fileHash) ++
    putBigEndian 1 fileChange.change.toUInt8.toNat

theorem insertFileChange_eq (packet : Packet) (fileChange : FileChangeData) :
    (insertFileChange bigEndian packet fileChange).data =
      packet.data ++ insertedChange fileChange := by
  rw [insertFileChange, insertUInt8_data,
    insertEntry_data bigEndian packet (fileChange.filePath, fileChange.fileHash), insertedChange,
    List.append_assoc]
  rfl

theorem changes_data_x64 (fileChanges : List FileChangeData) :
    (changesPacket bigEndian .x64 fileChanges).data =
      (putBigEndian 1 6 ++ putBigEndian 4 (highHalf fileChanges.length)) ++
        (putBigEndian 4 (Platform.x64.toSizeT fileChanges.length) ++
          fileChanges.flatMap insertedChange) := by
  have size : bigEndian.put Platform.x64.sizeTBytes (Platform.x64.toSizeT fileChanges.length) =
      putBigEndian 4 (highHalf fileChanges.length) ++
        putBigEndian 4 (Platform.x64.toSizeT fileChanges.length) := put_sizeT _
  rw [changesPacket, insertFileChanges, foldl_data fun packet item _ =>
    insertFileChange_eq packet item, Packet.insertSizeT, insertInt_data, size, insertUInt8_data]
  simp only [Packet.empty, List.nil_append, List.append_assoc]
  rfl

/-- A round of the vector decoder's loop. -/
def changeRound (read : UInt64 × List FileChangeData) :
    StateM Packet (UInt64 × List FileChangeData) := do
  let filePath ← extractWString bigEndian
  let fileHash ← extractUInt64 bigEndian read.1
  let changeType ← extractChangeType bigEndian garbage
  return (fileHash, read.2 ++ [⟨filePath, fileHash, changeType⟩])

/-- The receiver takes as many records as the high half of the count says. -/
theorem length_readChanges_x64 (fileChanges : List FileChangeData) :
    (readChanges bigEndian garbage
      (Packet.received (changesPacket bigEndian .x64 fileChanges).data)).1.length =
        highHalf fileChanges.length := by
  have header : Yields Packet.left
      (extractHeader bigEndian garbage 4 UInt32.ofNat UInt32.toNat garbage.uint32)
      (putBigEndian 1 6 ++ putBigEndian 4 (highHalf fileChanges.length))
      (highHalf fileChanges.length) := by
    have count := (extractUInt32_yields bigEndian garbage.uint32
      (UInt32.ofNat (highHalf fileChanges.length))).map UInt32.toNat
    rw [toNat_ofNat_length (highHalf_lt _)] at count
    exact (extractUInt8_yields bigEndian garbage.uint8 6).bind count
  obtain ⟨after, read, -⟩ := header _ _
    ((left_received _).trans (congrArg some (changes_data_x64 fileChanges)))
  have pushes (read : UInt64 × List FileChangeData) (packet : Packet) :
      (changeRound garbage read packet).1.2.length = read.2.length + 1 := by
    show (read.2 ++ [_]).length = _
    simp
  have total := loop_count (fun read => read.2.length) pushes (highHalf fileChanges.length)
    (garbage.uint64, []) after
  rw [List.length_nil, Nat.zero_add] at total
  show (loop (changeRound garbage)
    (extractHeader bigEndian garbage 4 UInt32.ofNat UInt32.toNat garbage.uint32
      (Packet.received (changesPacket bigEndian .x64 fileChanges).data)).1 (garbage.uint64, [])
    (extractHeader bigEndian garbage 4 UInt32.ofNat UInt32.toNat garbage.uint32
      (Packet.received (changesPacket bigEndian .x64 fileChanges).data)).2).1.2.length = _
  rw [read]
  exact total

/-- A change list of the x64 build is read as it was only if it is empty. -/
theorem readChanges_x64_iff (fileChanges : List FileChangeData) :
    (readChanges bigEndian garbage
      (Packet.received (changesPacket bigEndian .x64 fileChanges).data)).1 = fileChanges ↔
        fileChanges = [] := by
  have length := length_readChanges_x64 garbage fileChanges
  constructor
  · intro same
    rw [same] at length
    exact List.length_eq_zero_iff.mp (eq_highHalf_iff.mp length.symm)
  · intro empty
    subst empty
    exact List.length_eq_zero_iff.mp (length.trans (highHalf_of_lt (by decide)))

/-! ## Chunks -/

theorem chunk_data_x64 (pos : UInt32) (contents : Bytes) :
    (chunkPacket bigEndian .x64 pos contents).data =
      (putBigEndian 1 100 ++ (putBigEndian 4 pos.toNat ++
        putBigEndian 4 (highHalf contents.length))) ++
          (putBigEndian 4 (Platform.x64.toSizeT contents.length) ++
            (putBigEndian 4 (UInt32.ofNat contents.length).toNat ++
              contents.take (UInt32.ofNat contents.length).toNat)) := by
  have size : bigEndian.put Platform.x64.sizeTBytes (Platform.x64.toSizeT contents.length) =
      putBigEndian 4 (highHalf contents.length) ++
        putBigEndian 4 (Platform.x64.toSizeT contents.length) := put_sizeT _
  simp only [chunkPacket, Packet.insertString, Packet.append, insertUInt32_data,
    Packet.insertSizeT, insertInt_data, size, insertUInt8_data, Packet.empty, List.nil_append,
    List.append_assoc]
  rfl

/-- The integers in front of the contents. -/
def chunkHeader : StateM Packet (UInt8 × UInt32 × UInt32) := do
  let pid ← extractUInt8 bigEndian garbage.uint8
  let serverPos ← extractUInt32 bigEndian garbage.uint32
  let length ← extractUInt32 bigEndian garbage.uint32
  return (pid, serverPos, length)

theorem receiveChunk_eq (packet : Packet) : (receiveChunk bigEndian garbage packet).1 =
    ((chunkHeader garbage packet).1.1, (chunkHeader garbage packet).1.2.1,
      (chunkHeader garbage packet).1.2.2,
      (extractString bigEndian (chunkHeader garbage packet).2).1) := rfl

theorem length_extractString (packet : Packet) :
    (extractString bigEndian packet).1.length < 2 ^ 32 := by
  show ((if (extractUInt32 bigEndian 0 packet).1.toNat > 0 then (do
      if ← checkSize (extractUInt32 bigEndian 0 packet).1.toNat then
        take (extractUInt32 bigEndian 0 packet).1.toNat
      else return []) else return [] : StateM Packet Bytes)
        (extractUInt32 bigEndian 0 packet).2).1.length < 2 ^ 32
  generalize extractUInt32 bigEndian 0 packet = read
  have bound := read.1.toNat_lt
  split
  · cases fits : (checkSize read.1.toNat read.2).1 with
    | true =>
      have checked : checkSize read.1.toNat read.2 = (true, (checkSize read.1.toNat read.2).2) :=
        Prod.ext fits rfl
      rw [checked_of_true checked]
      exact Nat.lt_of_le_of_lt (List.length_take_le _ _) bound
    | false =>
      have checked : checkSize read.1.toNat read.2 = (false, (checkSize read.1.toNat read.2).2) :=
        Prod.ext fits rfl
      rw [checked_of_false checked]
      exact Nat.two_pow_pos 32
  · exact Nat.two_pow_pos 32

/-- A chunk of the x64 build is read as it was only if it is empty. -/
theorem receiveChunk_x64_iff (pos : UInt32) (contents : Bytes) :
    (receiveChunk bigEndian garbage
      (Packet.received (chunkPacket bigEndian .x64 pos contents).data)).1 =
        (100, pos, UInt32.ofNat contents.length, contents) ↔ contents = [] := by
  have header : Yields Packet.left (chunkHeader garbage)
      (putBigEndian 1 100 ++ (putBigEndian 4 pos.toNat ++
        putBigEndian 4 (highHalf contents.length)))
      (100, pos, UInt32.ofNat (highHalf contents.length)) := by
    have length := extractUInt32_yields bigEndian garbage.uint32
      (UInt32.ofNat (highHalf contents.length))
    rw [toNat_ofNat_length (highHalf_lt _)] at length
    exact (extractUInt8_yields bigEndian garbage.uint8 100).bind
      ((extractUInt32_yields bigEndian garbage.uint32 pos).bind
        (length.bind_pure (Yields.pure _)))
  obtain ⟨after, read, left⟩ := header _ _
    ((left_received _).trans (congrArg some (chunk_data_x64 pos contents)))
  rw [receiveChunk_eq, read, Prod.mk.injEq, Prod.mk.injEq, Prod.mk.injEq]
  constructor
  · intro same
    obtain ⟨-, -, length, string⟩ := same
    have short : contents.length < 2 ^ 32 := string ▸ length_extractString after
    have zero := congrArg UInt32.toNat length
    rw [highHalf_of_lt short, toNat_ofNat_length short] at zero
    exact List.length_eq_zero_iff.mp zero.symm
  · intro empty
    subst empty
    -- the lower half of the size is taken for the length of the string
    obtain ⟨last, string, -⟩ := extractString_yields bigEndian (s := []) (by decide) after _ left
    exact ⟨rfl, rfl, rfl, congrArg Prod.fst string⟩

/-! ## Both builds -/

/-- The bytes of the two builds are never the same, and what the x64 build sends is read as it was
    only where there is nothing in it. -/
structure BuildsDiffer : Prop where
  changes : ∀ (layout : Layout) (fileChanges : List FileChangeData),
    (changesPacket layout .win32 fileChanges).data ≠ (changesPacket layout .x64 fileChanges).data
  chunk : ∀ (layout : Layout) (pos : UInt32) (contents : Bytes),
    (chunkPacket layout .win32 pos contents).data ≠ (chunkPacket layout .x64 pos contents).data
  readChanges : ∀ fileChanges : List FileChangeData,
    (readChanges bigEndian garbage
      (Packet.received (changesPacket bigEndian .x64 fileChanges).data)).1 = fileChanges ↔
        fileChanges = []
  receiveChunk : ∀ (pos : UInt32) (contents : Bytes),
    (receiveChunk bigEndian garbage
      (Packet.received (chunkPacket bigEndian .x64 pos contents).data)).1 =
        (100, pos, UInt32.ofNat contents.length, contents) ↔ contents = []

theorem length_chunkPacket (layout : Layout) (platform : Platform) (pos : UInt32)
    (contents : Bytes) : (chunkPacket layout platform pos contents).data.length =
      9 + platform.sizeTBytes + (contents.take (UInt32.ofNat contents.length).toNat).length := by
  simp only [chunkPacket, Packet.insertString, Packet.append, insertUInt32_data,
    Packet.insertSizeT, insertInt_data, insertUInt8_data, Packet.empty, List.nil_append,
    List.length_append, layout.length_put]
  omega

/-- The wire format depends on the build platform, for every change list and every chunk. -/
theorem builds_differ : BuildsDiffer garbage where
  changes layout fileChanges same := by
    have length := congrArg List.length same
    rw [length_changesPacket, length_changesPacket, datagramSize, datagramSize] at length
    simp only [Platform.sizeTBytes] at length
    omega
  chunk layout pos contents same := by
    have length := congrArg List.length same
    rw [length_chunkPacket, length_chunkPacket] at length
    simp only [Platform.sizeTBytes] at length
    omega
  readChanges := readChanges_x64_iff garbage
  receiveChunk := receiveChunk_x64_iff garbage

end

/-- One Addition: the x64 build sends four bytes more, and the receiver finds no change in them. -/
theorem x64_changes_unread :
    let fileChanges : List FileChangeData := [⟨wide "\\a", 7, .addition⟩]
    (changesPacket bigEndian .win32 fileChanges).data =
      [6, 0, 0, 0, 1, 0, 0, 0, 2, 0, 0, 0, 92, 0, 0, 0, 97, 0, 0, 0, 0, 0, 0, 0, 7, 0] ∧
    (changesPacket bigEndian .x64 fileChanges).data =
      [6, 0, 0, 0, 0, 0, 0, 0, 1, 0, 0, 0, 2, 0, 0, 0, 92, 0, 0, 0, 97, 0, 0, 0, 0, 0, 0, 0, 7,
        0] ∧
    (readChanges bigEndian ⟨9, 9, 9, 9, true, .deletion⟩
      (Packet.received (changesPacket bigEndian .x64 fileChanges).data)).1 = [] := by
  exact ⟨by decide +kernel, by decide +kernel, by decide +kernel⟩

end FileSync
