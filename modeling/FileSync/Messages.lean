import FileSync.Packet
import FileSync.Transfer

/-!
# Messages

The layouts of the seven messages. Each is inserted by one function and extracted by another
one: the sender of pid 6 inserts the pid with the vector, and the senders of the other pids
insert it before the value; `extractFileChanges` takes the pid itself, and the other receivers
take it first.
-/

namespace FileSync

open Reader

/-- The values of the variables that are declared without an initial one. -/
structure Uninitialized where
  uint8 : UInt8
  uint16 : UInt16
  uint32 : UInt32
  uint64 : UInt64
  bool : Bool
  change : FileChangeType

/-- `(sf::Uint8)fileChange.change` -/
def FileChangeType.toUInt8 : FileChangeType → UInt8
  | .addition => 0
  | .deletion => 1
  | .edit => 2

/-- convert extracted changeEnum from Uint8 to fileChangeType -/
def FileChangeType.ofUInt8 (changeEnum : UInt8) : FileChangeType :=
  if changeEnum = 0 then .addition
  else if changeEnum = 1 then .deletion
  else if changeEnum = 2 then .edit
  -- "Error Reading fileChangeType"
  else .edit

section

variable (layout : Layout) (garbage : Uninitialized)

/-! ## Insertions and extractions of the program's types -/

/-- custom packet operator for accepting hash tables (Node.cpp 455-462) -/
def insertTable (packet : Packet) (fileHashTable : FileTable) : Packet :=
  fileHashTable.toList.foldl
    (fun packet entry => (packet.insertWString layout entry.1).insertUInt64 layout entry.2)
    (packet.insertUInt16 layout (UInt16.ofNat fileHashTable.size))

/-- custom packet operator for returning hash tables (Node.cpp 465-476) -/
def extractTable (fileHashTable : FileTable) : StateM Packet FileTable := do
  let size ← extractUInt16 layout garbage.uint16
  let read ← loop (fun (hash, fileHashTable) => do
    let filepath ← extractWString layout
    let hash ← extractUInt64 layout hash
    return (hash, fileHashTable.insert filepath hash)) size.toNat (garbage.uint64, fileHashTable)
  return read.2

/-- `packet << fileChange` (fileChangePacket.cpp 27-32) -/
def insertFileChange (packet : Packet) (fileChange : FileChangeData) : Packet :=
  ((packet.insertWString layout fileChange.filePath).insertUInt64 layout
    fileChange.fileHash).insertUInt8 layout fileChange.change.toUInt8

/-- `packet >> changeType` (fileChangePacket.cpp 3-23) -/
def extractChangeType : StateM Packet FileChangeType :=
  FileChangeType.ofUInt8 <$> extractUInt8 layout garbage.uint8

/-- `packet >> fileChange` (fileChangePacket.cpp 62-71) -/
def extractFileChange : StateM Packet FileChangeData := do
  let filePath ← extractWString layout
  let fileHash ← extractUInt64 layout garbage.uint64
  let changeType ← extractChangeType layout garbage
  return ⟨filePath, fileHash, changeType⟩

/-- The vector operator (fileChangePacket.cpp 33-42) inserts pid 6 as well. -/
def insertFileChanges (platform : Platform) (packet : Packet)
    (filesChanged : List FileChangeData) : Packet :=
  filesChanged.foldl (insertFileChange layout)
    (Packet.insertSizeT layout platform (packet.insertUInt8 layout 6) filesChanged.length)

/-- The vector operator (fileChangePacket.cpp 44-61) extracts the pid as well. -/
def extractFileChanges (fileChangeVector : List FileChangeData) :
    StateM Packet (List FileChangeData) := do
  let _ ← extractUInt8 layout garbage.uint8
  let size ← extractUInt32 layout garbage.uint32
  let read ← loop (fun (fileHash, fileChangeVector) => do
    let filePath ← extractWString layout
    let fileHash ← extractUInt64 layout fileHash
    let changeType ← extractChangeType layout garbage
    return (fileHash, fileChangeVector ++ [⟨filePath, fileHash, changeType⟩]))
      size.toNat (garbage.uint64, fileChangeVector)
  return read.2

/-! ## The messages -/

/-- pid 0 of `discoverDriver` and pid 1 of `respondToArrival` (Node.cpp 340-342, 94-96) -/
def tablePacket (pid : UInt8) (fileHashes : FileTable) : Packet :=
  insertTable layout (Packet.empty.insertUInt8 layout pid) fileHashes

/-- `packet >> pid >> foreignHashes` of `collectUdpTraffic` (Node.cpp 67-68), and the same two
    extractions of `tableManagerDriver` (366-369). -/
def readTable : StateM Packet (UInt8 × FileTable) := do
  let pid ← extractUInt8 layout garbage.uint8
  let table ← extractTable layout garbage ∅
  return (pid, table)

/-- pid 5 of `requestFiles` (Node.cpp 412-414) -/
def requestPacket (fileChange : FileChangeData) (tcpNegotiationPort : UInt16) : Packet :=
  (insertFileChange layout (Packet.empty.insertUInt8 layout 5) fileChange).insertUInt16 layout
    tcpNegotiationPort

/-- case 5 of `handleUdp` (Node.cpp 239-246) -/
def readRequest : StateM Packet (UInt8 × FileChangeData × UInt16) := do
  let packetPID ← extractUInt8 layout garbage.uint8
  let fileChange ← extractFileChange layout garbage
  let tcpNegotiationPort ← extractUInt16 layout garbage.uint16
  return (packetPID, fileChange, tcpNegotiationPort)

/-- `tcpDetails` of `handleUdp` (Node.cpp 251-259) -/
def replyPacket (abandon : Bool) (fileChange : FileChangeData) (tcpPort : UInt16) : Packet :=
  (insertFileChange layout (Packet.empty.insertBool layout abandon) fileChange).insertUInt16
    layout tcpPort

/-- The reply as `negotiateTCPTransfer` reads it (Node.cpp 315-319). -/
def readReply : StateM Packet (Bool × FileChangeData × UInt16) := do
  let abandon ← extractBool layout garbage.bool
  let fileChange ← extractFileChange layout garbage
  let tcpPort ← extractUInt16 layout garbage.uint16
  return (abandon, fileChange, tcpPort)

/-- pid 6 of `handleUdp` (Node.cpp 201-202) -/
def changesPacket (platform : Platform) (fileChangeBuf : List FileChangeData) : Packet :=
  insertFileChanges layout platform Packet.empty fileChangeBuf

/-- case 6 of `handleUdp` (Node.cpp 280-282) -/
def readChanges : StateM Packet (List FileChangeData) := extractFileChanges layout garbage []

/-- pid 100 of `sendFile` (Node.cpp 118-125) -/
def chunkPacket (platform : Platform) (pos : UInt32) (contents : Bytes) : Packet :=
  (Packet.insertSizeT layout platform
    ((Packet.empty.insertUInt8 layout 100).insertUInt32 layout pos) contents.length).insertString
    layout contents

/-- A chunk as `receiveFile` reads it. -/
def receiveChunk : StateM Packet (UInt8 × UInt32 × UInt32 × Bytes) := do
  let pid ← extractUInt8 layout garbage.uint8
  let serverPos ← extractUInt32 layout garbage.uint32
  let length ← extractUInt32 layout garbage.uint32
  let contents ← extractString layout
  return (pid, serverPos, length, contents)

end

/-! ## Round trips -/

/-- The reader gets the value from the packet and consumes all of it. -/
def RoundTrip {α : Type} (packet : Packet) (reader : StateM Packet α) (value : α) : Prop :=
  (reader (Packet.received packet.data)).1 = value ∧
    (reader (Packet.received packet.data)).2.isValid = true ∧
    (reader (Packet.received packet.data)).2.readPos =
      (reader (Packet.received packet.data)).2.data.length

/-- The largest datagram that is accepted. -/
def maxDatagramSize : Nat := 65507

/-- The size of a `std::wstring` on Win32 has 32 bits. -/
def FileChangeData.Sized (fileChange : FileChangeData) : Prop :=
  fileChange.filePath.length < 2 ^ 32

/-- Each message is read as it was written, and the count of a table did not wrap. -/
structure RoundTrips (layout : Layout) (garbage : Uninitialized) : Prop where
  table : ∀ pid fileHashes, (tablePacket layout pid fileHashes).data.length ≤ maxDatagramSize →
    fileHashes.size < 2 ^ 16 ∧
      RoundTrip (tablePacket layout pid fileHashes) (readTable layout garbage) (pid, fileHashes)
  request : ∀ fileChange tcpNegotiationPort, fileChange.Sized →
    RoundTrip (requestPacket layout fileChange tcpNegotiationPort) (readRequest layout garbage)
      (5, fileChange, tcpNegotiationPort)
  reply : ∀ abandon fileChange tcpPort, fileChange.Sized →
    RoundTrip (replyPacket layout abandon fileChange tcpPort) (readReply layout garbage)
      (abandon, fileChange, tcpPort)
  changes : ∀ fileChanges : List FileChangeData, fileChanges.length < 2 ^ 32 →
    (∀ fileChange ∈ fileChanges, fileChange.Sized) →
    RoundTrip (changesPacket layout .win32 fileChanges) (readChanges layout garbage) fileChanges
  chunk : ∀ pos contents, contents.length < 2 ^ 32 →
    RoundTrip (chunkPacket layout .win32 pos contents) (receiveChunk layout garbage)
      (100, pos, UInt32.ofNat contents.length, contents)

section

variable (layout : Layout) (garbage : Uninitialized)

theorem roundTrip_of_yields {α : Type} {packet : Packet} {reader : StateM Packet α} {value : α}
    {symbols : Bytes} (data : packet.data = symbols)
    (yields : Yields Packet.left reader symbols value) : RoundTrip packet reader value := by
  have whole : (Packet.received packet.data).left = some (symbols ++ []) := by
    simp [Packet.received, Packet.left, data]
  obtain ⟨rest, read, empty⟩ := yields _ _ whole
  obtain ⟨valid, position, -⟩ := left_eq_some empty
  unfold RoundTrip
  rw [read]
  exact ⟨rfl, valid, position⟩

/-- The bytes of a record in a packet. -/
def fileChangeBytes (fileChange : FileChangeData) : Bytes :=
  wstringBytes layout fileChange.filePath ++ (layout.put 8 fileChange.fileHash.toNat ++
    layout.put 1 fileChange.change.toUInt8.toNat)

/-- The bytes of a table's entry in a packet. -/
def entryBytes (entry : WString × UInt64) : Bytes :=
  wstringBytes layout entry.1 ++ layout.put 8 entry.2.toNat

theorem insertWString_data_of_lt (packet : Packet) {s : WString} (bound : s.length < 2 ^ 32) :
    (packet.insertWString layout s).data = packet.data ++ wstringBytes layout s := by
  rw [insertWString_data, Nat.mod_eq_of_lt bound, List.append_assoc]
  rfl

theorem insertFileChange_data (packet : Packet) {fileChange : FileChangeData}
    (sized : fileChange.Sized) :
    (insertFileChange layout packet fileChange).data =
      packet.data ++ fileChangeBytes layout fileChange := by
  simp only [insertFileChange, insertUInt8_data, insertUInt64_data,
    insertWString_data_of_lt layout packet sized, fileChangeBytes, List.append_assoc]

theorem extractChangeType_yields (change : FileChangeType) :
    Yields Packet.left (extractChangeType layout garbage)
      (layout.put 1 change.toUInt8.toNat) change := by
  have read := (extractUInt8_yields layout garbage.uint8 change.toUInt8).map
    FileChangeType.ofUInt8
  cases change <;> exact read

theorem extractFileChange_yields {fileChange : FileChangeData} (sized : fileChange.Sized) :
    Yields Packet.left (extractFileChange layout garbage) (fileChangeBytes layout fileChange)
      fileChange :=
  (extractWString_yields layout sized).bind <|
    (extractUInt64_yields layout garbage.uint64 fileChange.fileHash).bind <|
      (extractChangeType_yields layout garbage fileChange.change).bind_pure (Yields.pure _)

theorem request_roundTrip {fileChange : FileChangeData} (tcpNegotiationPort : UInt16)
    (sized : fileChange.Sized) :
    RoundTrip (requestPacket layout fileChange tcpNegotiationPort) (readRequest layout garbage)
      (5, fileChange, tcpNegotiationPort) := by
  refine roundTrip_of_yields ?_ ((extractUInt8_yields layout garbage.uint8 5).bind
    ((extractFileChange_yields layout garbage sized).bind
      ((extractUInt16_yields layout garbage.uint16 tcpNegotiationPort).bind_pure
        (Yields.pure _))))
  simp only [requestPacket, insertUInt16_data, insertFileChange_data layout _ sized,
    insertUInt8_data, Packet.empty, List.nil_append, List.append_assoc]

theorem reply_roundTrip (abandon : Bool) {fileChange : FileChangeData} (tcpPort : UInt16)
    (sized : fileChange.Sized) :
    RoundTrip (replyPacket layout abandon fileChange tcpPort) (readReply layout garbage)
      (abandon, fileChange, tcpPort) := by
  refine roundTrip_of_yields ?_ ((extractBool_yields layout garbage.bool abandon).bind
    ((extractFileChange_yields layout garbage sized).bind
      ((extractUInt16_yields layout garbage.uint16 tcpPort).bind_pure (Yields.pure _))))
  simp only [replyPacket, insertUInt16_data, insertFileChange_data layout _ sized,
    insertBool_data, Packet.empty, List.nil_append, List.append_assoc]

/-! ## Counted messages -/

theorem foldl_push (items : List FileChangeData) : ∀ read : UInt64 × List FileChangeData,
    (items.foldl (fun read item => (item.fileHash, read.2 ++ [item])) read).2 =
      read.2 ++ items := by
  induction items with
  | nil => simp
  | cons item items ih =>
    intro read
    rw [List.foldl_cons, ih, List.append_assoc]
    rfl

theorem extractFileChanges_yields {fileChanges : List FileChangeData}
    (counted : fileChanges.length < 2 ^ 32) (sized : ∀ fileChange ∈ fileChanges, fileChange.Sized) :
    Yields Packet.left (extractFileChanges layout garbage [])
      (layout.put 1 6 ++ (layout.put 4 fileChanges.length ++
        fileChanges.flatMap (fileChangeBytes layout))) fileChanges := by
  have round (read : UInt64 × List FileChangeData) (item : FileChangeData)
      (member : item ∈ fileChanges) :
      Yields Packet.left (do
        let filePath ← extractWString layout
        let fileHash ← extractUInt64 layout read.1
        let changeType ← extractChangeType layout garbage
        return (fileHash, read.2 ++ [⟨filePath, fileHash, changeType⟩]))
        (fileChangeBytes layout item) (item.fileHash, read.2 ++ [item]) :=
    (extractWString_yields layout (sized item member)).bind <|
      (extractUInt64_yields layout read.1 item.fileHash).bind <|
        (extractChangeType_yields layout garbage item.change).bind_pure (Yields.pure _)
  have records := Yields.loop round (garbage.uint64, [])
  have count := extractUInt32_yields layout garbage.uint32 (UInt32.ofNat fileChanges.length)
  have pid := extractUInt8_yields layout garbage.uint8 6
  rw [toNat_ofNat_length counted] at count
  unfold extractFileChanges
  refine pid.bind (count.bind ?_)
  rw [toNat_ofNat_length counted]
  refine records.bind_pure ?_
  rw [foldl_push fileChanges (garbage.uint64, []), List.nil_append]
  exact Yields.pure _

theorem changes_roundTrip {fileChanges : List FileChangeData}
    (counted : fileChanges.length < 2 ^ 32)
    (sized : ∀ fileChange ∈ fileChanges, fileChange.Sized) :
    RoundTrip (changesPacket layout .win32 fileChanges) (readChanges layout garbage)
      fileChanges := by
  have inserted : ∀ packet : Packet, (fileChanges.foldl (insertFileChange layout) packet).data =
      packet.data ++ fileChanges.flatMap (fileChangeBytes layout) := by
    apply foldl_data
    intro packet item member
    exact insertFileChange_data layout packet (sized item member)
  have size : Platform.win32.toSizeT fileChanges.length = fileChanges.length :=
    Nat.mod_eq_of_lt counted
  refine roundTrip_of_yields ?_ (extractFileChanges_yields layout garbage counted sized)
  rw [changesPacket, insertFileChanges, inserted, Packet.insertSizeT, insertInt_data, size,
    insertUInt8_data, List.append_assoc]
  rfl

theorem chunk_roundTrip (pos : UInt32) {contents : Bytes} (sized : contents.length < 2 ^ 32) :
    RoundTrip (chunkPacket layout .win32 pos contents) (receiveChunk layout garbage)
      (100, pos, UInt32.ofNat contents.length, contents) := by
  have length := extractUInt32_yields layout garbage.uint32 (UInt32.ofNat contents.length)
  rw [toNat_ofNat_length sized] at length
  refine roundTrip_of_yields ?_ ((extractUInt8_yields layout garbage.uint8 100).bind
    ((extractUInt32_yields layout garbage.uint32 pos).bind (length.bind
      ((extractString_yields layout sized).bind_pure (Yields.pure _)))))
  have size : Platform.win32.toSizeT contents.length = contents.length := Nat.mod_eq_of_lt sized
  simp only [chunkPacket, insertString_data layout _ sized, Packet.insertSizeT, insertInt_data,
    Platform.sizeTBytes, size, insertUInt32_data, insertUInt8_data, Packet.empty, List.nil_append,
    List.append_assoc]

/-! ## Tables -/

/-- The bytes of an entry as they are inserted, with the length of the path reduced. -/
def insertedEntry (entry : WString × UInt64) : Bytes :=
  layout.put 4 (entry.1.length % 2 ^ 32) ++
    ((entry.1.flatMap fun c => layout.put 4 c.toNat) ++ layout.put 8 entry.2.toNat)

theorem insertEntry_data (packet : Packet) (entry : WString × UInt64) :
    ((packet.insertWString layout entry.1).insertUInt64 layout entry.2).data =
      packet.data ++ insertedEntry layout entry := by
  rw [insertUInt64_data, insertWString_data, insertedEntry, List.append_assoc, List.append_assoc]

theorem length_insertedEntry (entry : WString × UInt64) :
    (insertedEntry layout entry).length = 12 + entry.1.length * 4 := by
  simp only [insertedEntry, List.length_append, layout.length_put, length_characters]
  omega

theorem insertTable_data (packet : Packet) (fileHashTable : FileTable) :
    (insertTable layout packet fileHashTable).data =
      packet.data ++ (layout.put 2 (fileHashTable.size % 2 ^ 16) ++
        fileHashTable.toList.flatMap (insertedEntry layout)) := by
  have inserted : ∀ packet : Packet, (fileHashTable.toList.foldl (fun packet entry =>
      (packet.insertWString layout entry.1).insertUInt64 layout entry.2) packet).data =
      packet.data ++ fileHashTable.toList.flatMap (insertedEntry layout) := by
    apply foldl_data
    intro packet entry _
    exact insertEntry_data layout packet entry
  rw [insertTable, inserted, insertUInt16_data, UInt16.toNat_ofNat', List.append_assoc]

/-- Items of at least `least` bytes bound their number. -/
theorem length_flatMap_ge {ι : Type} {least : Nat} {bytes : ι → Bytes} (items : List ι)
    (each : ∀ item ∈ items, least ≤ (bytes item).length) :
    least * items.length ≤ (items.flatMap bytes).length := by
  induction items with
  | nil => exact Nat.zero_le _
  | cons item items ih =>
    have first := each item (by simp)
    have rest := ih fun other member => each other (List.mem_cons_of_mem _ member)
    rw [List.flatMap_cons, List.length_append, List.length_cons, Nat.mul_succ]
    omega

theorem length_le_flatMap {ι : Type} (bytes : ι → Bytes) {items : List ι} {item : ι}
    (member : item ∈ items) : (bytes item).length ≤ (items.flatMap bytes).length := by
  obtain ⟨before, after, rfl⟩ := List.append_of_mem member
  rw [List.flatMap_append, List.flatMap_cons, List.length_append, List.length_append]
  omega

/-- A table that fits a datagram has fewer than 2^16 entries, and its paths fit 32 bits. -/
theorem bounds_of_datagram {pid : UInt8} {fileHashes : FileTable}
    (accepted : (tablePacket layout pid fileHashes).data.length ≤ maxDatagramSize) :
    fileHashes.size < 2 ^ 16 ∧ ∀ entry ∈ fileHashes.toList, entry.1.length < 2 ^ 32 := by
  rw [tablePacket, insertTable_data, List.length_append, List.length_append] at accepted
  unfold maxDatagramSize at accepted
  constructor
  · have each (entry : WString × UInt64) (_ : entry ∈ fileHashes.toList) :
        12 ≤ (insertedEntry layout entry).length := by
      rw [length_insertedEntry]
      omega
    have count := length_flatMap_ge fileHashes.toList each
    rw [Std.ExtTreeMap.length_toList] at count
    omega
  · intro entry member
    have one := length_le_flatMap (insertedEntry layout) member
    rw [length_insertedEntry] at one
    omega

theorem foldl_insert (entries : List (WString × UInt64)) : ∀ read : UInt64 × FileTable,
    (entries.foldl (fun read entry => (entry.2, read.2.insert entry.1 entry.2)) read).2 =
      read.2.insertMany entries := by
  induction entries with
  | nil =>
    intro read
    rw [Std.ExtTreeMap.insertMany_nil]
    rfl
  | cons entry entries ih =>
    intro read
    rw [List.foldl_cons, ih, Std.ExtTreeMap.insertMany_cons]

/-- The entries of a table rebuild it. -/
theorem insertMany_toList (table : FileTable) :
    (∅ : FileTable).insertMany table.toList = table := by
  have distinct : table.toList.Pairwise fun a b => ¬ compare a.1 b.1 = .eq :=
    Std.ExtTreeMap.distinct_keys_toList
  apply Std.ExtTreeMap.ext_getElem?
  intro path
  cases found : table[path]? with
  | some hash =>
    exact Std.ExtTreeMap.getElem?_insertMany_list_of_mem Std.ReflCmp.compare_self distinct
      (Std.ExtTreeMap.mem_toList_iff_getElem?_eq_some.mpr found)
  | none =>
    have absent : (table.toList.map Prod.fst).contains path = false := by
      rw [Std.ExtTreeMap.map_fst_toList_eq_keys, List.contains_eq_mem, decide_eq_false_iff_not,
        Std.ExtTreeMap.mem_keys, Std.ExtTreeMap.mem_iff_isSome_getElem?, found]
      exact Bool.false_ne_true
    rw [Std.ExtTreeMap.getElem?_insertMany_list_of_contains_eq_false absent,
      Std.ExtTreeMap.getElem?_empty]

theorem extractTable_yields {fileHashes : FileTable} (counted : fileHashes.size < 2 ^ 16)
    (sized : ∀ entry ∈ fileHashes.toList, entry.1.length < 2 ^ 32) :
    Yields Packet.left (extractTable layout garbage ∅)
      (layout.put 2 fileHashes.size ++ fileHashes.toList.flatMap (entryBytes layout))
      fileHashes := by
  have round (read : UInt64 × FileTable) (entry : WString × UInt64)
      (member : entry ∈ fileHashes.toList) :
      Yields Packet.left (do
        let filepath ← extractWString layout
        let hash ← extractUInt64 layout read.1
        return (hash, read.2.insert filepath hash))
        (entryBytes layout entry) (entry.2, read.2.insert entry.1 entry.2) :=
    (extractWString_yields layout (sized entry member)).bind <|
      (extractUInt64_yields layout read.1 entry.2).bind_pure (Yields.pure _)
  have entries := Yields.loop round (garbage.uint64, ∅)
  have toNat : (UInt16.ofNat fileHashes.size).toNat = fileHashes.toList.length := by
    rw [UInt16.toNat_ofNat', Nat.mod_eq_of_lt counted, Std.ExtTreeMap.length_toList]
  have count := extractUInt16_yields layout garbage.uint16 (UInt16.ofNat fileHashes.size)
  rw [toNat, Std.ExtTreeMap.length_toList] at count
  unfold extractTable
  refine count.bind ?_
  rw [toNat]
  refine entries.bind_pure ?_
  rw [foldl_insert, insertMany_toList]
  exact Yields.pure _

theorem table_roundTrip {pid : UInt8} {fileHashes : FileTable}
    (accepted : (tablePacket layout pid fileHashes).data.length ≤ maxDatagramSize) :
    RoundTrip (tablePacket layout pid fileHashes) (readTable layout garbage)
      (pid, fileHashes) := by
  obtain ⟨counted, sized⟩ := bounds_of_datagram layout accepted
  have unreduced : fileHashes.toList.flatMap (insertedEntry layout) =
      fileHashes.toList.flatMap (entryBytes layout) := by
    rw [List.flatMap_def, List.flatMap_def]
    refine congrArg List.flatten (List.map_congr_left fun entry member => ?_)
    rw [insertedEntry, Nat.mod_eq_of_lt (sized entry member), entryBytes, wstringBytes,
      List.append_assoc]
  refine roundTrip_of_yields ?_ ((extractUInt8_yields layout garbage.uint8 pid).bind
    ((extractTable_yields layout garbage counted sized).bind_pure (Yields.pure _)))
  rw [tablePacket, insertTable_data, unreduced, Nat.mod_eq_of_lt counted]
  rfl

/-- Every message is read as it was written, whatever the layout of integers and the values of
    uninitialized variables. -/
theorem messages_round_trip : RoundTrips layout garbage where
  table := fun _ _ accepted =>
    ⟨(bounds_of_datagram layout accepted).1, table_roundTrip layout garbage accepted⟩
  request := fun _ tcpNegotiationPort => request_roundTrip layout garbage tcpNegotiationPort
  reply := fun abandon _ tcpPort => reply_roundTrip layout garbage abandon tcpPort
  changes := fun _ => changes_roundTrip layout garbage
  chunk := fun pos _ => chunk_roundTrip layout garbage pos

end

/-- A table with one path and a vector with one record. -/
theorem messages_round_trip_one :
    RoundTrip (tablePacket bigEndian 1 ((∅ : FileTable).insert (wide "\\a") 7))
      (readTable bigEndian ⟨9, 9, 9, 9, true, .deletion⟩)
      (1, (∅ : FileTable).insert (wide "\\a") 7) ∧
    RoundTrip (changesPacket bigEndian .win32 [⟨wide "\\a", 7, .edit⟩])
      (readChanges bigEndian ⟨9, 9, 9, 9, true, .deletion⟩) [⟨wide "\\a", 7, .edit⟩] := by
  have trips := messages_round_trip bigEndian ⟨9, 9, 9, 9, true, .deletion⟩
  refine ⟨(trips.table 1 _ (by decide)).2, trips.changes _ (by decide) fun fileChange member => ?_⟩
  rw [List.mem_singleton.mp member]
  unfold FileChangeData.Sized
  decide

/-! ## Chunks of both platforms -/

theorem lengthBytes_eq (n : Nat) : lengthBytes n = putBigEndian 4 n := by
  simp [lengthBytes, putBigEndian, Nat.shiftRight_eq_div_pow, Nat.div_div_eq_div_mul]

theorem putBigEndian_append (high low : Nat) : ∀ n, putBigEndian (high + low) n =
    putBigEndian high (n / 256 ^ low) ++ putBigEndian low n := by
  induction low with
  | zero =>
    intro n
    simp [putBigEndian]
  | succ low ih =>
    intro n
    rw [← Nat.add_assoc, putBigEndian, ih, putBigEndian, Nat.div_div_eq_div_mul, ← Nat.pow_succ',
      List.append_assoc]

/-- The fields that the client finds in a chunk packet, on either platform. -/
theorem chunkPacket_fields (platform : Platform) (pos : UInt32) {contents : Bytes}
    (sized : contents.length < 2 ^ 32) :
    (extractContents platform contents).2.length < 2 ^ 32 ∧ ∃ rest,
      (chunkPacket bigEndian platform pos contents).data =
        putBigEndian 1 100 ++ (putBigEndian 4 pos.toNat ++
          (putBigEndian 4 (extractContents platform contents).1.toNat ++
            stringBytes bigEndian (extractContents platform contents).2)) ++ rest := by
  cases platform with
  | win32 =>
    refine ⟨sized, [], ?_⟩
    have size : Platform.win32.toSizeT contents.length = contents.length :=
      Nat.mod_eq_of_lt sized
    have length : (extractContents .win32 contents).1.toNat = contents.length :=
      toNat_ofNat_length sized
    rw [length]
    simp only [chunkPacket, insertString_data bigEndian _ sized, Packet.insertSizeT,
      insertInt_data, Platform.sizeTBytes, size, insertUInt32_data, insertUInt8_data, Packet.empty,
      extractContents, List.nil_append, List.append_assoc, List.append_nil]
    rfl
  | x64 =>
    -- the high half of the size is taken for the length, the low half for that of the string
    have text : (lengthBytes contents.length ++ contents).take contents.length =
        (extractContents .x64 contents).2 := by
      rw [extractContents, Nat.mod_eq_of_lt sized]
    have length : ((extractContents .x64 contents).2).length = contents.length := by
      rw [← text, List.length_take, List.length_append]
      omega
    refine ⟨length ▸ sized, (lengthBytes contents.length ++ contents).drop contents.length, ?_⟩
    have high : contents.length / 256 ^ 4 = 0 := Nat.div_eq_of_lt sized
    have noHigh : (extractContents .x64 contents).1 = 0 := by
      rw [extractContents, Nat.shiftRight_eq_div_pow]
      exact congrArg UInt32.ofNat high
    have size : Platform.x64.toSizeT contents.length = contents.length :=
      Nat.mod_eq_of_lt (Nat.lt_trans sized (by decide))
    have wide : bigEndian.put 8 contents.length =
        putBigEndian 4 0 ++ putBigEndian 4 contents.length := by
      rw [← high]
      exact putBigEndian_append 4 4 contents.length
    have string : stringBytes bigEndian (extractContents .x64 contents).2 =
        putBigEndian 4 contents.length ++
          (lengthBytes contents.length ++ contents).take contents.length := by
      rw [stringBytes, length, text]
      rfl
    rw [string, noHigh, chunkPacket, insertString_data _ _ sized, Packet.insertSizeT,
      insertInt_data, size]
    simp only [Platform.sizeTBytes, wide, insertUInt32_data, insertUInt8_data, Packet.empty,
      stringBytes, List.append_assoc, List.take_append_drop, List.nil_append, lengthBytes_eq]
    rfl

/-- The client reads from a chunk packet what the transfer model says, on either platform. -/
theorem receiveChunk_extractContents (platform : Platform) (garbage : Uninitialized)
    (pos : UInt32) {contents : Bytes} (sized : contents.length < 2 ^ 32) :
    (receiveChunk bigEndian garbage
      (Packet.received (chunkPacket bigEndian platform pos contents).data)).1 =
      (100, pos, extractContents platform contents) := by
  obtain ⟨bounded, rest, data⟩ := chunkPacket_fields platform pos sized
  have read : Yields Packet.left (receiveChunk bigEndian garbage)
      (putBigEndian 1 100 ++ (putBigEndian 4 pos.toNat ++
        (putBigEndian 4 (extractContents platform contents).1.toNat ++
          stringBytes bigEndian (extractContents platform contents).2)))
      (100, pos, (extractContents platform contents).1, (extractContents platform contents).2) :=
    (extractUInt8_yields bigEndian garbage.uint8 100).bind
      ((extractUInt32_yields bigEndian garbage.uint32 pos).bind
        ((extractUInt32_yields bigEndian garbage.uint32 _).bind
          ((extractString_yields bigEndian bounded).bind_pure (Yields.pure _))))
  obtain ⟨after, result, -⟩ :=
    read (Packet.received (chunkPacket bigEndian platform pos contents).data) rest
      (by rw [← data]; rfl)
  rw [result]

end FileSync
