import FileSync.Messages

/-!
# Malformed datagrams

The decoders take a count from the packet and run their loops that often, without a look at the
packet's validity. A record is complete if all of its bytes are in the packet; what an extraction
past the end leaves behind is the variable as it was, or an empty path.
-/

namespace FileSync

open Reader

/-- packet must start with pid: `ptr[0]` (Node.cpp 33-36), where the data of an empty packet is a
    null pointer -/
def getPacketID (packet : Packet) : Option UInt8 := packet.data.head?

section

variable (layout : Layout) (garbage : Uninitialized)

/-- A round of the table decoder's loop, which assigns `fileHashTable[filepath] = hash`. -/
def entryRound (read : UInt64 × List (WString × UInt64)) :
    StateM Packet (UInt64 × List (WString × UInt64)) := do
  let filepath ← extractWString layout
  let hash ← extractUInt64 layout read.1
  return (hash, read.2 ++ [(filepath, hash)])

/-- The assignments that `packet >> pid >> foreignHashes` makes, in order. -/
def readEntries : StateM Packet (List (WString × UInt64)) := do
  let _ ← extractUInt8 layout garbage.uint8
  let size ← extractUInt16 layout garbage.uint16
  let read ← loop (entryRound layout) size.toNat (garbage.uint64, [])
  return read.2

/-! ## Complete records -/

/-- An integer of `width` bytes. -/
def parseInt (width : Nat) : Parser UInt8 Nat := fun bytes =>
  if width ≤ bytes.length then some (layout.get (bytes.take width), bytes.drop width) else none

/-- A length and as many characters of 32 bits. -/
def parseWString : Parser UInt8 WString := do
  let length ← UInt32.ofNat <$> parseInt layout 4
  let characters ← many (UInt32.ofNat <$> parseInt layout 4) length.toNat
  return characters.map UInt32.toUInt16

/-- A path and a hash, as the operators of the hash table write them (Node.cpp 455-476). -/
def parseEntry : Parser UInt8 (WString × UInt64) := do
  let filepath ← parseWString layout
  let hash ← UInt64.ofNat <$> parseInt layout 8
  return (filepath, hash)

/-- A `fileChangeData`, as its operators write it (fileChangePacket.cpp 27-32, 62-71). -/
def parseFileChange : Parser UInt8 FileChangeData := do
  let filePath ← parseWString layout
  let fileHash ← UInt64.ofNat <$> parseInt layout 8
  let changeType ← FileChangeType.ofUInt8 <$> (UInt8.ofNat <$> parseInt layout 1)
  return ⟨filePath, fileHash, changeType⟩

/-- A pid and a count of `width` bytes. -/
def parseHeader {α : Type} (width : Nat) (f : Nat → α) (toNat : α → Nat) : Parser UInt8 Nat := do
  let _ ← UInt8.ofNat <$> parseInt layout 1
  let size ← f <$> parseInt layout width
  return toNat size

/-- The pid and the 16-bit count in front of a hash table. -/
def parseTableHeader : Parser UInt8 Nat := parseHeader layout 2 UInt16.ofNat UInt16.toNat

/-- The pid and the 32-bit count in front of a change list, as the receiver reads it. -/
def parseChangesHeader : Parser UInt8 Nat := parseHeader layout 4 UInt32.ofNat UInt32.toNat

/-- The record behind the pid of a request, or behind the first byte of a reply. -/
def parseRecord : Parser UInt8 FileChangeData := do
  let _ ← parseInt layout 1
  parseFileChange layout

/-- The complete records of a datagram, of those that it announces. -/
def recordsInside {ι : Type} (header : Parser UInt8 Nat) (record : Parser UInt8 ι)
    (data : Bytes) : List ι :=
  match header data with
  | some (count, rest) => completeItems record count rest
  | none => []

/-- The datagram announces as many records as there are complete ones behind its header. If it
    ends before the count, the variable of the count must be 0. -/
def HoldsAnnounced {ι : Type} (header : Parser UInt8 Nat) (record : Parser UInt8 ι)
    (uninitialized : Nat) (data : Bytes) : Prop :=
  match header data with
  | some (count, rest) => (completeItems record count rest).length = count
  | none => uninitialized = 0

/-! ## Extractions of complete values -/

theorem checkSize_of_fits {packet : Packet} {bytes : Bytes} {size : Nat}
    (left : packet.left = some bytes) (fits : size ≤ bytes.length) :
    checkSize size packet = (true, packet) := by
  obtain ⟨valid, position, -⟩ := left_eq_some left
  obtain ⟨data, readPos, isValid⟩ := packet
  simp only at valid position
  subst valid
  have inside : readPos + size ≤ data.length := by omega
  simp [checkSize, inside]

theorem checkSize_of_short {packet : Packet} {size : Nat}
    (short : ∀ bytes, packet.left = some bytes → bytes.length < size) :
    checkSize size packet = (false, { packet with isValid := false }) := by
  obtain ⟨data, readPos, isValid⟩ := packet
  cases isValid with
  | false => rfl
  | true =>
    have outside : ¬ readPos + size ≤ data.length := by
      intro inside
      have left : Packet.left ⟨data, readPos, true⟩ = some (data.drop readPos) := by
        rw [Packet.left, if_pos ⟨rfl, by simp only; omega⟩]
      have few := short _ left
      rw [List.length_drop] at few
      omega
    simp [checkSize, outside]

/-- A reader behind a size check, -/
theorem checked_of_true {α : Type} {size : Nat} {reader other : StateM Packet α}
    {packet after : Packet} (checked : checkSize size packet = (true, after)) :
    (do if ← checkSize size then reader else other) packet = reader after := by
  change (if (checkSize size packet).1 then reader else other) (checkSize size packet).2 = _
  rw [checked]
  rfl

/-- and what happens instead of it. -/
theorem checked_of_false {α : Type} {size : Nat} {reader other : StateM Packet α}
    {packet after : Packet} (checked : checkSize size packet = (false, after)) :
    (do if ← checkSize size then reader else other) packet = other after := by
  change (if (checkSize size packet).1 then reader else other) (checkSize size packet).2 = _
  rw [checked]
  rfl

theorem extractInt_of_fits {packet : Packet} {bytes : Bytes} {width : Nat}
    (left : packet.left = some bytes) (fits : width ≤ bytes.length) :
    extractInt layout width packet = (some (layout.get (bytes.take width)),
      { packet with readPos := packet.readPos + width }) := by
  refine (checked_of_true (checkSize_of_fits left fits)).trans ?_
  obtain ⟨-, -, remaining⟩ := left_eq_some left
  change (some (layout.get ((packet.data.drop packet.readPos).take width)), _) = _
  rw [remaining]

/-- An integer that is not complete is not read, and the packet becomes invalid. -/
theorem extractInt_of_short {packet : Packet} {width : Nat}
    (short : ∀ bytes, packet.left = some bytes → bytes.length < width) :
    extractInt layout width packet = (none, { packet with isValid := false }) :=
  checked_of_false (checkSize_of_short short)

theorem left_of_fits {packet : Packet} {bytes : Bytes} {width : Nat}
    (left : packet.left = some bytes) (fits : width ≤ bytes.length) :
    Packet.left { packet with readPos := packet.readPos + width } = some (bytes.drop width) := by
  obtain ⟨valid, position, remaining⟩ := left_eq_some left
  rw [Packet.left, if_pos ⟨valid, by simp only; omega⟩]
  simp only [← List.drop_drop, remaining]

theorem parseInt_eq_some {width n : Nat} {input rest : Bytes}
    (parsed : parseInt layout width input = some (n, rest)) :
    width ≤ input.length ∧ n = layout.get (input.take width) ∧ rest = input.drop width := by
  unfold parseInt at parsed
  split at parsed
  · rename_i fits
    cases parsed
    exact ⟨fits, rfl, rfl⟩
  · cases parsed

theorem follows_extract {α : Type} (width : Nat) (f : Nat → α) (old : α) :
    Follows Packet.left ((fun read => (read.map f).getD old) <$> extractInt layout width)
      (f <$> parseInt layout width) := by
  intro packet input value rest left parsed
  obtain ⟨n, found, rfl⟩ := parser_map_eq_some.mp parsed
  obtain ⟨fits, rfl, rfl⟩ := parseInt_eq_some layout found
  refine ⟨_, ?_, left_of_fits left fits⟩
  change (((extractInt layout width packet).1.map f).getD old,
    (extractInt layout width packet).2) = _
  rw [extractInt_of_fits layout left fits]
  rfl

theorem length_many_ints {count : Nat} : ∀ {input rest : Bytes} {values : List UInt32},
    many (UInt32.ofNat <$> parseInt layout 4) count input = some (values, rest) →
    count * 4 ≤ input.length := by
  induction count with
  | zero => exact fun _ => Nat.zero_mul 4 ▸ Nat.zero_le _
  | succ count ih =>
    intro input rest values parsed
    obtain ⟨value, middle, first, others⟩ := parser_bind_eq_some.mp parsed
    obtain ⟨later, last, second, _⟩ := parser_bind_eq_some.mp others
    obtain ⟨n, found, _⟩ := parser_map_eq_some.mp first
    obtain ⟨fits, _, rfl⟩ := parseInt_eq_some layout found
    have more := ih second
    rw [List.length_drop] at more
    omega

theorem follows_extractWString :
    Follows Packet.left (extractWString layout) (parseWString layout) := by
  refine (follows_extract layout 4 UInt32.ofNat 0).bind fun length => ?_
  intro packet input value rest left parsed
  obtain ⟨characters, middle, found, same⟩ := parser_bind_eq_some.mp parsed
  cases same
  have enough := length_many_ints layout found
  have step (s : WString) : Follows Packet.left (do
      let character ← extractUInt32 layout 0
      return s ++ [character.toUInt16])
      ((fun character => s ++ [character.toUInt16]) <$> (UInt32.ofNat <$> parseInt layout 4)) :=
    (follows_extract layout 4 UInt32.ofNat 0).map fun character : UInt32 =>
      s ++ [character.toUInt16]
  obtain ⟨after, read, left'⟩ := Follows.loop step length.toNat [] packet input _ rest left
    (parser_map_eq_some.mpr ⟨characters, found, rfl⟩)
  rw [List.foldl_append_eq_append, ← List.flatMap_def, List.nil_append,
    ← List.map_eq_flatMap] at read
  refine ⟨after, ?_, left'⟩
  split
  · rw [checked_of_true (checkSize_of_fits left enough), read]
  · rename_i none
    rw [Nat.eq_zero_of_not_pos none] at read
    exact read

theorem follows_extractFileChange :
    Follows Packet.left (extractFileChange layout garbage) (parseFileChange layout) :=
  (follows_extractWString layout).bind fun filePath =>
    (follows_extract layout 8 UInt64.ofNat garbage.uint64).bind fun fileHash =>
      ((follows_extract layout 1 UInt8.ofNat garbage.uint8).map FileChangeType.ofUInt8).bind
        fun changeType => .pure (FileChangeData.mk filePath fileHash changeType)

/-! ## Counted records -/

theorem left_received (data : Bytes) : (Packet.received data).left = some data := by
  simp [Packet.received, Packet.left]

/-- A decoder that takes a count and then reads that many records produces those that are
    complete, and nothing else, exactly if the datagram holds as many as it announces. -/
theorem counted_iff {α ι : Type} {header : StateM Packet Nat} {headerParser : Parser UInt8 Nat}
    {round : α → StateM Packet α} {record : Parser UInt8 ι} {add : α → ι → α}
    (items : α → List ι) {start : α} {uninitialized : Nat} {data : Bytes}
    (counts : Follows Packet.left header headerParser)
    (uncounted : headerParser data = none →
      (header (Packet.received data)).1 = uninitialized)
    (step : ∀ acc, Follows Packet.left (round acc) (add acc <$> record))
    (pushes : ∀ acc packet, (items (round acc packet).1).length = (items acc).length + 1)
    (adds : ∀ acc item, items (add acc item) = items acc ++ [item]) (empty : items start = []) :
    items ((header >>= fun count => loop round count start) (Packet.received data)).1 =
      recordsInside headerParser record data ↔
    HoldsAnnounced headerParser record uninitialized data := by
  have read : ∀ (list : List ι) (acc : α), items (list.foldl add acc) = items acc ++ list := by
    intro list
    induction list with
    | nil => simp
    | cons item list ih =>
      intro acc
      rw [List.foldl_cons, ih, adds, List.append_assoc]
      rfl
  have produced (count : Nat) (packet : Packet) :
      (items (loop round count start packet).1).length = count := by
    have total := loop_count (fun acc => (items acc).length) pushes count start packet
    rw [empty] at total
    simpa using total
  change items (loop round (header (Packet.received data)).1 start
    (header (Packet.received data)).2).1 = _ ↔ _
  unfold recordsInside HoldsAnnounced
  cases announced : headerParser data with
  | none =>
    rw [uncounted announced]
    constructor
    · intro same
      have none := congrArg List.length same
      rw [produced] at none
      exact none
    · intro zero
      exact List.length_eq_zero_iff.mp ((produced _ _).trans zero)
  | some found =>
    obtain ⟨count, rest⟩ := found
    obtain ⟨after, readHeader, left⟩ := counts _ _ _ _ (left_received data) announced
    rw [readHeader]
    constructor
    · intro same
      have all := congrArg List.length same
      rw [produced] at all
      exact all.symm
    · intro whole
      obtain ⟨final, all⟩ := many_of_complete record count rest whole
      obtain ⟨last, readItems, -⟩ := Follows.loop step count start after rest _ final left
        (parser_map_eq_some.mpr ⟨_, all, rfl⟩)
      change items (loop round count start after).1 = _
      rw [readItems]
      change items (List.foldl add start _) = _
      rw [read, empty, List.nil_append]

/-- The extraction of a header: a pid and a count whose variable is `old` before. -/
def extractHeader {α : Type} (width : Nat) (f : Nat → α) (toNat : α → Nat) (old : α) :
    StateM Packet Nat := do
  let _ ← extractUInt8 layout garbage.uint8
  let size ← (fun read => (read.map f).getD old) <$> extractInt layout width
  return toNat size

theorem follows_extractHeader {α : Type} (width : Nat) (f : Nat → α) (toNat : α → Nat) (old : α) :
    Follows Packet.left (extractHeader layout garbage width f toNat old)
      (parseHeader layout width f toNat) :=
  (follows_extract layout 1 UInt8.ofNat garbage.uint8).bind fun _ =>
    (follows_extract layout width f old).bind fun size => .pure (toNat size)

/-- Without a complete header the count is what the variable held. -/
theorem extractHeader_of_short {α : Type} {width : Nat} {f : Nat → α} {toNat : α → Nat} {old : α}
    {data : Bytes} (short : parseHeader layout width f toNat data = none) :
    (extractHeader layout garbage width f toNat old (Packet.received data)).1 = toNat old := by
  have uncounted : ∀ bytes,
      (extractUInt8 layout garbage.uint8 (Packet.received data)).2.left = some bytes →
      bytes.length < width := by
    intro bytes left
    by_cases pid : 1 ≤ data.length
    · have read := extractInt_of_fits layout (left_received data) pid
      have behind : (extractUInt8 layout garbage.uint8 (Packet.received data)).2 =
          { Packet.received data with readPos := (Packet.received data).readPos + 1 } :=
        congrArg Prod.snd read
      rw [behind, left_of_fits (left_received data) pid] at left
      cases left
      by_contra long
      rw [Nat.not_lt] at long
      have first : (UInt8.ofNat <$> parseInt layout 1 : Parser UInt8 UInt8) data =
          some (UInt8.ofNat (layout.get (data.take 1)), data.drop 1) :=
        parser_map_eq_some.mpr ⟨_, if_pos pid, rfl⟩
      have second : (f <$> parseInt layout width : Parser UInt8 α) (data.drop 1) =
          some (f (layout.get ((data.drop 1).take width)), (data.drop 1).drop width) :=
        parser_map_eq_some.mpr ⟨_, if_pos long, rfl⟩
      have whole : parseHeader layout width f toNat data = some _ :=
        parser_bind_eq_some.mpr ⟨_, _, first, parser_bind_eq_some.mpr ⟨_, _, second, rfl⟩⟩
      rw [short] at whole
      cases whole
    · have empty : ∀ all, (Packet.received data).left = some all → all.length < 1 := by
        intro all left
        rw [left_received] at left
        cases left
        exact Nat.not_le.mp pid
      have read := extractInt_of_short layout empty
      have behind : (extractUInt8 layout garbage.uint8 (Packet.received data)).2 =
          { Packet.received data with isValid := false } := congrArg Prod.snd read
      rw [behind] at left
      cases left
  have unread := extractInt_of_short layout uncounted
  change toNat (((extractInt layout width
    (extractUInt8 layout garbage.uint8 (Packet.received data)).2).1.map f).getD old) = _
  rw [unread]
  rfl

/-! ## Reads inside the packet -/

/-- Nothing behind the end of the data has been read. -/
def Packet.Within (packet : Packet) : Prop := packet.readPos ≤ packet.data.length

theorem keeps_extractInt (width : Nat) : Keeps Packet.Within (extractInt layout width) := by
  intro packet within
  obtain ⟨data, readPos, isValid⟩ := packet
  by_cases checks : isValid = true ∧ readPos + width ≤ data.length
  · obtain ⟨rfl, inside⟩ := checks
    have left : Packet.left ⟨data, readPos, true⟩ = some (data.drop readPos) := by
      rw [Packet.left, if_pos ⟨rfl, within⟩]
    have fits : width ≤ (data.drop readPos).length := by
      rw [List.length_drop]
      omega
    rw [extractInt_of_fits layout left fits]
    exact inside
  · have short : ∀ bytes, Packet.left ⟨data, readPos, isValid⟩ = some bytes →
        bytes.length < width := by
      intro bytes left
      obtain ⟨valid, position, -⟩ := left_eq_some left
      by_contra long
      exact checks ⟨valid, by simp only at position; omega⟩
    rw [extractInt_of_short layout short]
    exact within

theorem keeps_checkSize (size : Nat) : Keeps Packet.Within (checkSize size) :=
  fun _ within => within

theorem keeps_extractWString : Keeps Packet.Within (extractWString layout) := by
  refine ((keeps_extractInt layout 4).map _).bind fun length => ?_
  split
  · refine (keeps_checkSize _).bind fun isValid => ?_
    split
    · exact Keeps.loop (fun s => ((keeps_extractInt layout 4).map _).bind fun _ => .pure _) _ _
    · exact .pure _
  · exact .pure _

theorem keeps_extractFileChange :
    Keeps Packet.Within (extractFileChange layout garbage) :=
  (keeps_extractWString layout).bind fun _ => ((keeps_extractInt layout 8).map _).bind fun _ =>
    (((keeps_extractInt layout 1).map _).map _).bind fun _ => .pure _

theorem keeps_readTable : Keeps Packet.Within (readTable layout garbage) :=
  ((keeps_extractInt layout 1).map _).bind fun _ =>
    (((keeps_extractInt layout 2).map _).bind fun _ =>
      (Keeps.loop (fun _ => (keeps_extractWString layout).bind fun _ =>
        ((keeps_extractInt layout 8).map _).bind fun _ => .pure _) _ _).bind fun _ => .pure _).bind
      fun _ => .pure _

theorem keeps_readChanges : Keeps Packet.Within (readChanges layout garbage) :=
  ((keeps_extractInt layout 1).map _).bind fun _ =>
    ((keeps_extractInt layout 4).map _).bind fun _ =>
      (Keeps.loop (fun _ => (keeps_extractWString layout).bind fun _ =>
        ((keeps_extractInt layout 8).map _).bind fun _ =>
          (((keeps_extractInt layout 1).map _).map _).bind fun _ => .pure _) _ _).bind
        fun _ => .pure _

theorem keeps_readRequest : Keeps Packet.Within (readRequest layout garbage) :=
  ((keeps_extractInt layout 1).map _).bind fun _ =>
    (keeps_extractFileChange layout garbage).bind fun _ =>
      ((keeps_extractInt layout 2).map _).bind fun _ => .pure _

theorem keeps_readReply : Keeps Packet.Within (readReply layout garbage) :=
  ((keeps_extractInt layout 1).map _).bind fun _ =>
    (keeps_extractFileChange layout garbage).bind fun _ =>
      ((keeps_extractInt layout 2).map _).bind fun _ => .pure _

/-! ## The decoders -/

/-- The table of a map's assignments. -/
def tableOf (entries : List (WString × UInt64)) : FileTable :=
  entries.foldl (fun table entry => table.insert entry.1 entry.2) ∅

/-- The round as `extractTable` has it. -/
def tableRound (read : UInt64 × FileTable) : StateM Packet (UInt64 × FileTable) := do
  let filepath ← extractWString layout
  let hash ← extractUInt64 layout read.1
  return (hash, read.2.insert filepath hash)

theorem tableRound_eq (read : UInt64 × List (WString × UInt64)) :
    tableRound layout (read.1, tableOf read.2) =
      (fun read => (read.1, tableOf read.2)) <$> entryRound layout read := by
  funext packet
  change ((_, _), _) = ((_, tableOf (read.2 ++ [_])), _)
  simp only [tableOf, List.foldl_append]
  rfl

/-- The table that is read is made by the assignments. -/
theorem readTable_eq (packet : Packet) :
    (readTable layout garbage packet).1.2 = tableOf (readEntries layout garbage packet).1 := by
  have table : (readTable layout garbage packet).1.2 = (loop (tableRound layout)
      (extractHeader layout garbage 2 UInt16.ofNat UInt16.toNat garbage.uint16 packet).1
      (garbage.uint64, ∅)
      (extractHeader layout garbage 2 UInt16.ofNat UInt16.toNat garbage.uint16 packet).2).1.2 :=
    rfl
  have start : ((garbage.uint64, ∅) : UInt64 × FileTable) = (garbage.uint64, tableOf []) := rfl
  rw [table, start, loop_map _ (tableRound_eq layout) _ (garbage.uint64, [])]
  rfl

/-- The entries that a decoder reads are the records inside the datagram if and only if this holds
    what it announces. -/
theorem readEntries_iff (data : Bytes) :
    (readEntries layout garbage (Packet.received data)).1 =
        recordsInside (parseTableHeader layout) (parseEntry layout) data ↔
      HoldsAnnounced (parseTableHeader layout) (parseEntry layout) garbage.uint16.toNat data := by
  have step (read : UInt64 × List (WString × UInt64)) : Follows Packet.left
      (entryRound layout read)
      ((fun entry => (entry.2, read.2 ++ [entry])) <$> parseEntry layout) := by
    intro packet input value rest left parsed
    obtain ⟨entry, found, rfl⟩ := parser_map_eq_some.mp parsed
    obtain ⟨filepath, middle, first, others⟩ := parser_bind_eq_some.mp found
    obtain ⟨hash, last, second, same⟩ := parser_bind_eq_some.mp others
    cases same
    have follows : Follows Packet.left (entryRound layout read) (do
        let filepath ← parseWString layout
        let hash ← UInt64.ofNat <$> parseInt layout 8
        return (hash, read.2 ++ [(filepath, hash)])) :=
      (follows_extractWString layout).bind fun filepath =>
        (follows_extract layout 8 UInt64.ofNat read.1).bind fun hash => .pure _
    exact follows packet input _ _ left (parser_bind_eq_some.mpr ⟨filepath, middle, first,
      parser_bind_eq_some.mpr ⟨hash, _, second, rfl⟩⟩)
  exact counted_iff Prod.snd
    (follows_extractHeader layout garbage 2 UInt16.ofNat UInt16.toNat garbage.uint16)
    (extractHeader_of_short layout garbage) step (fun read packet => by
      change (read.2 ++ [_]).length = _
      simp) (fun _ _ => rfl) rfl

theorem readChanges_iff (data : Bytes) :
    (readChanges layout garbage (Packet.received data)).1 =
        recordsInside (parseChangesHeader layout) (parseFileChange layout) data ↔
      HoldsAnnounced (parseChangesHeader layout) (parseFileChange layout)
        garbage.uint32.toNat data := by
  have step (read : UInt64 × List FileChangeData) : Follows Packet.left (do
      let filePath ← extractWString layout
      let fileHash ← extractUInt64 layout read.1
      let changeType ← extractChangeType layout garbage
      return (fileHash, read.2 ++ [⟨filePath, fileHash, changeType⟩]))
      ((fun fileChange => (fileChange.fileHash, read.2 ++ [fileChange])) <$>
        parseFileChange layout) := by
    intro packet input value rest left parsed
    obtain ⟨fileChange, found, rfl⟩ := parser_map_eq_some.mp parsed
    obtain ⟨filePath, middle, first, others⟩ := parser_bind_eq_some.mp found
    obtain ⟨fileHash, behind, second, others⟩ := parser_bind_eq_some.mp others
    obtain ⟨changeType, last, third, same⟩ := parser_bind_eq_some.mp others
    cases same
    have follows : Follows Packet.left (do
        let filePath ← extractWString layout
        let fileHash ← extractUInt64 layout read.1
        let changeType ← extractChangeType layout garbage
        return (fileHash, read.2 ++ [⟨filePath, fileHash, changeType⟩])) (do
        let filePath ← parseWString layout
        let fileHash ← UInt64.ofNat <$> parseInt layout 8
        let changeType ← FileChangeType.ofUInt8 <$> (UInt8.ofNat <$> parseInt layout 1)
        return (fileHash, read.2 ++ [FileChangeData.mk filePath fileHash changeType])) :=
      (follows_extractWString layout).bind fun filePath =>
        (follows_extract layout 8 UInt64.ofNat read.1).bind fun fileHash =>
          ((follows_extract layout 1 UInt8.ofNat garbage.uint8).map FileChangeType.ofUInt8).bind
            fun changeType => .pure _
    exact follows packet input _ _ left (parser_bind_eq_some.mpr ⟨filePath, middle, first,
      parser_bind_eq_some.mpr ⟨fileHash, behind, second,
        parser_bind_eq_some.mpr ⟨changeType, _, third, rfl⟩⟩⟩)
  exact counted_iff Prod.snd
    (follows_extractHeader layout garbage 4 UInt32.ofNat UInt32.toNat garbage.uint32)
    (extractHeader_of_short layout garbage) step (fun read packet => by
      change (read.2 ++ [_]).length = _
      simp) (fun _ _ => rfl) rfl

/-- The first byte of a message, which its decoder extracts before the record. -/
theorem follows_behind {α : Type} {reader : StateM Packet FileChangeData} (f : Nat → α) (old : α)
    (follows : Follows Packet.left reader (parseFileChange layout)) :
    Follows Packet.left (do
      let _ ← (fun read => (read.map f).getD old) <$> extractInt layout 1
      reader) (parseRecord layout) := by
  intro packet input value rest left parsed
  obtain ⟨n, middle, first, second⟩ := parser_bind_eq_some.mp parsed
  have both := (follows_extract layout 1 f old).bind fun _ => follows
  exact both packet input value rest left (parser_bind_eq_some.mpr
    ⟨f n, middle, parser_map_eq_some.mpr ⟨n, first, rfl⟩, second⟩)

/-- A decoder of one record produces one that is in the datagram exactly if one is in there. -/
theorem record_iff {reader : StateM Packet FileChangeData} (data : Bytes)
    (follows : Follows Packet.left reader (parseRecord layout)) :
    (∃ rest, parseRecord layout data = some ((reader (Packet.received data)).1, rest)) ↔
      (parseRecord layout data).isSome := by
  constructor
  · rintro ⟨rest, parsed⟩
    rw [parsed]
    rfl
  · intro complete
    obtain ⟨⟨record, rest⟩, parsed⟩ := Option.isSome_iff_exists.mp complete
    obtain ⟨after, read, -⟩ := follows _ _ _ _ (left_received data) parsed
    exact ⟨rest, by rw [read, parsed]⟩

theorem getPacketID_isSome (data : Bytes) :
    (getPacketID (Packet.received data)).isSome ↔ data ≠ [] := by
  cases data with
  | nil => simp [getPacketID, Packet.received]
  | cons pid rest => simp [getPacketID, Packet.received]

/-- What is known of the decoders on a datagram: no extraction reads behind its end, and when
    the pid, each entry and each record that they produce is in the datagram. -/
structure InventsNothing (data : Bytes) : Prop where
  pid : (getPacketID (Packet.received data)).isSome ↔ data ≠ []
  table : (readTable layout garbage (Packet.received data)).1.2 =
    tableOf (readEntries layout garbage (Packet.received data)).1
  entries : (readEntries layout garbage (Packet.received data)).1 =
      recordsInside (parseTableHeader layout) (parseEntry layout) data ↔
    HoldsAnnounced (parseTableHeader layout) (parseEntry layout) garbage.uint16.toNat data
  changes : (readChanges layout garbage (Packet.received data)).1 =
      recordsInside (parseChangesHeader layout) (parseFileChange layout) data ↔
    HoldsAnnounced (parseChangesHeader layout) (parseFileChange layout)
      garbage.uint32.toNat data
  request : (∃ rest, parseRecord layout data =
      some ((readRequest layout garbage (Packet.received data)).1.2.1, rest)) ↔
    (parseRecord layout data).isSome
  reply : (∃ rest, parseRecord layout data =
      some ((readReply layout garbage (Packet.received data)).1.2.1, rest)) ↔
    (parseRecord layout data).isSome
  tableWithin : (readTable layout garbage (Packet.received data)).2.Within
  changesWithin : (readChanges layout garbage (Packet.received data)).2.Within
  requestWithin : (readRequest layout garbage (Packet.received data)).2.Within
  replyWithin : (readReply layout garbage (Packet.received data)).2.Within

/-- Each decoder invents nothing if and only if its datagram holds what it announces. -/
theorem decoders_invent_nothing_iff (data : Bytes) : InventsNothing layout garbage data where
  pid := getPacketID_isSome data
  table := readTable_eq layout garbage (Packet.received data)
  entries := readEntries_iff layout garbage data
  changes := readChanges_iff layout garbage data
  request := record_iff layout data (follows_behind layout UInt8.ofNat garbage.uint8
    (follows_extractFileChange layout garbage))
  reply := record_iff layout data (follows_behind layout (fun value => UInt8.ofNat value != 0)
    garbage.bool (follows_extractFileChange layout garbage))
  tableWithin := keeps_readTable layout garbage _ (Nat.zero_le _)
  changesWithin := keeps_readChanges layout garbage _ (Nat.zero_le _)
  requestWithin := keeps_readRequest layout garbage _ (Nat.zero_le _)
  replyWithin := keeps_readReply layout garbage _ (Nat.zero_le _)

end

/-- Five bytes that announce two records become two changes of the folder itself, and an empty
    datagram has no pid. -/
theorem phantom_records :
    (readChanges bigEndian ⟨9, 9, 9, 7, true, .deletion⟩ (Packet.received [6, 0, 0, 0, 2])).1 =
      [⟨[], 7, .edit⟩, ⟨[], 7, .edit⟩] ∧
    recordsInside (parseChangesHeader bigEndian) (parseFileChange bigEndian) [6, 0, 0, 0, 2] = [] ∧
    getPacketID (Packet.received []) = none := by
  exact ⟨by decide +kernel, by decide +kernel, rfl⟩

end FileSync
