import FileSync.Decoding
import FileSync.TransferLoops

/-!
# What receiveFile writes

`receiveFile` takes the number of bytes that it writes from a field of the packet, and never
compares it with the string that it has extracted. Its variables live as long as the loop, and an
extraction past the end of a packet leaves an integer as it was, while it clears the string.
-/

namespace FileSync

open Reader DrivenLoop

section

variable (layout : Layout)

/-! ## A round on the bytes of a packet -/

/-- The integers that stay from round to round. -/
structure Leftover where
  pid : UInt8
  serverPos : UInt32
  length : UInt32

/-- `packet >> pid`, and `packet >> serverPos >> length >> contents` unless the pid is 101. -/
def extractPacket (left : Leftover) : StateM Packet (Option (Leftover × Bytes)) := do
  let pid ← extractUInt8 layout left.pid
  if pid = 101 then return none
  else do
    let serverPos ← extractUInt32 layout left.serverPos
    let length ← extractUInt32 layout left.length
    let contents ← extractString layout
    return some (⟨pid, serverPos, length⟩, contents)

/-- The bytes that `file.write(contents.data(), count)` reads: those of the string, its
    terminator, and then what `memory` has behind it. -/
def writtenBytes (memory : Nat → UInt8) (contents : Bytes) (count : Nat) : Bytes :=
  (List.range count).map fun i =>
    contents.getD i (if i = contents.length then 0 else memory i)

/-- The variables of `receiveFile`. -/
structure ReceiveVars where
  left : Leftover
  pos : UInt32
  file : Bytes

/-- What a round with a packet writes, if it writes. -/
def roundWrites (memory : Nat → UInt8) (data : Bytes) (vars : ReceiveVars) : Option Bytes :=
  (extractPacket layout vars.left (Packet.received data)).1.bind fun (left, contents) =>
    if vars.pos = left.serverPos then some (writtenBytes memory contents left.length.toNat)
    else none

/-- A round of `receiveFile` (Node.cpp 152-179) with the packet it has received, if any, and the
    memory as it is. -/
def receiveFileRound : Option Bytes × (Nat → UInt8) → ReceiveVars → Option ReceiveVars
  | (none, _), vars => some vars
  | (some data, memory), vars =>
    (extractPacket layout vars.left (Packet.received data)).1.map fun (left, contents) =>
      if vars.pos = left.serverPos then
        let file := vars.file ++ writtenBytes memory contents left.length.toNat
        { left, pos := UInt32.ofNat file.length, file }
      else { vars with left }

/-- The variables but for the integers that stay from round to round. -/
def ReceiveVars.loop (vars : ReceiveVars) : ReceiveLoop := ⟨vars.pos, vars.file⟩

/-- `receiveFile` before its first round, with the integers that it does not initialize. -/
def ReceiveVars.start (left : Leftover) : ReceiveVars := { left, pos := 0, file := [] }

/-! ## The fields of a packet -/

/-- A string of the given length. -/
def parseBytes (count : Nat) : Parser UInt8 Bytes := fun bytes =>
  if count ≤ bytes.length then some (bytes.take count, bytes.drop count) else none

/-- A length and as many bytes. -/
def parseString : Parser UInt8 Bytes := do
  let length ← UInt32.ofNat <$> parseInt layout 4
  parseBytes length.toNat

/-- The string behind the integers, or an empty one where it is cut off. -/
def stringOf (bytes : Bytes) : Bytes := ((parseString layout bytes).map Prod.fst).getD []

theorem sees_extract {α : Type} (width : Nat) (f : Nat → α) (old : α) :
    Sees Packet.left ((fun read => (read.map f).getD old) <$> extractInt layout width)
      (orKeep old (f <$> parseInt layout width)) := by
  intro packet
  show ((extractInt layout width packet).1.map f).getD old = _ ∧
    Packet.left (extractInt layout width packet).2 = _
  by_cases fits : ∃ bytes, packet.left = some bytes ∧ width ≤ bytes.length
  · obtain ⟨bytes, left, enough⟩ := fits
    have parsed : (f <$> parseInt layout width : Parser UInt8 α) bytes =
        some (f (layout.get (bytes.take width)), bytes.drop width) :=
      parser_map_eq_some.mpr ⟨_, if_pos enough, rfl⟩
    rw [extractInt_of_fits layout left enough, left_of_fits left enough, left, orKeep,
      Option.bind_some, parsed]
    exact ⟨rfl, rfl⟩
  · have short : ∀ bytes, packet.left = some bytes → bytes.length < width := fun bytes left =>
      Nat.not_le.mp fun enough => fits ⟨bytes, left, enough⟩
    have unparsed : packet.left.bind (f <$> parseInt layout width : Parser UInt8 α) = none := by
      cases left : packet.left with
      | none => rfl
      | some bytes =>
        have none : parseInt layout width bytes = none := if_neg (Nat.not_le.mpr (short _ left))
        show ((parseInt layout width bytes).bind fun result => some (f result.1, result.2)) = _
        rw [none]
        rfl
    rw [extractInt_of_short layout short, orKeep, unparsed]
    exact ⟨rfl, rfl⟩

/-- The bytes of a string behind its length. -/
theorem sees_characters (count : Nat) :
    Sees Packet.left (do
      if count > 0 then
        if ← checkSize count then take count
        else return []
      else return []) (orKeep [] (parseBytes count)) := by
  intro packet
  by_cases positive : count > 0
  · rw [if_pos positive]
    by_cases fits : ∃ bytes, packet.left = some bytes ∧ count ≤ bytes.length
    · obtain ⟨bytes, left, enough⟩ := fits
      have parsed : parseBytes count bytes = some (bytes.take count, bytes.drop count) :=
        if_pos enough
      rw [checked_of_true (checkSize_of_fits left enough), orKeep, left, Option.bind_some, parsed]
      exact ⟨by rw [take, (left_eq_some left).2.2], left_of_fits left enough⟩
    · have short : ∀ bytes, packet.left = some bytes → bytes.length < count := fun bytes left =>
        Nat.not_le.mp fun enough => fits ⟨bytes, left, enough⟩
      have unparsed : packet.left.bind (parseBytes count) = none := by
        cases left : packet.left with
        | none => rfl
        | some bytes => exact if_neg (Nat.not_le.mpr (short _ left))
      rw [checked_of_false (checkSize_of_short short), orKeep, unparsed]
      exact ⟨rfl, rfl⟩
  · rw [if_neg positive, Nat.eq_zero_of_not_pos positive, orKeep]
    cases left : packet.left with
    | none => exact ⟨rfl, left⟩
    | some bytes => exact ⟨rfl, left⟩

theorem sees_extractString :
    Sees Packet.left (extractString layout) (orKeep [] (parseString layout)) := by
  have shadow : (orKeep [] (parseString layout)) =
      (do
        let length ← orKeep 0 (UInt32.ofNat <$> parseInt layout 4)
        orKeep [] (parseBytes length.toNat)) := by
    funext input
    show _ = orKeep [] (parseBytes
      (orKeep 0 (UInt32.ofNat <$> parseInt layout 4) input).1.toNat)
        (orKeep 0 (UInt32.ofNat <$> parseInt layout 4) input).2
    cases input with
    | none => rfl
    | some bytes =>
      simp only [orKeep, Option.bind_some]
      have whole : parseString layout bytes =
          ((UInt32.ofNat <$> parseInt layout 4 : Parser UInt8 UInt32) bytes).bind fun result =>
            parseBytes result.1.toNat result.2 := rfl
      rw [whole]
      cases (UInt32.ofNat <$> parseInt layout 4 : Parser UInt8 UInt32) bytes with
      | none => rfl
      | some result => rfl
  rw [shadow]
  exact (sees_extract layout 4 UInt32.ofNat 0).bind fun length => sees_characters length.toNat

/-- What is left of a packet after each field. -/
def packetFields (left : Leftover) : StateM (Option Bytes) (Option (Leftover × Bytes)) := do
  let pid ← orKeep left.pid (UInt8.ofNat <$> parseInt layout 1)
  if pid = 101 then return none
  else do
    let serverPos ← orKeep left.serverPos (UInt32.ofNat <$> parseInt layout 4)
    let length ← orKeep left.length (UInt32.ofNat <$> parseInt layout 4)
    let contents ← orKeep [] (parseString layout)
    return some (⟨pid, serverPos, length⟩, contents)

theorem sees_extractPacket (left : Leftover) :
    Sees Packet.left (extractPacket layout left) (packetFields layout left) := by
  refine (sees_extract layout 1 UInt8.ofNat left.pid).bind fun pid => ?_
  split
  · exact .pure none
  · refine (sees_extract layout 4 UInt32.ofNat left.serverPos).bind fun serverPos => ?_
    refine (sees_extract layout 4 UInt32.ofNat left.length).bind fun length => ?_
    refine (sees_extractString layout).bind fun contents => ?_
    exact .pure (some (Leftover.mk pid serverPos length, contents))

/-- The fields of a packet, as far as they are complete. A string that is cut off counts as
    empty. -/
inductive Fields where
  | none
  | finished
  | upToPid (pid : UInt8)
  | upToPos (pid : UInt8) (serverPos : UInt32)
  | chunk (pid : UInt8) (serverPos length : UInt32) (contents : Bytes)

/-- The fields that a packet's data has. -/
def fieldsOf (data : Bytes) : Fields :=
  match (UInt8.ofNat <$> parseInt layout 1 : Parser UInt8 UInt8) data with
  | none => .none
  | some (pid, rest) =>
    if pid = 101 then .finished
    else
      match (UInt32.ofNat <$> parseInt layout 4 : Parser UInt8 UInt32) rest with
      | none => .upToPid pid
      | some (serverPos, rest) =>
        match (UInt32.ofNat <$> parseInt layout 4 : Parser UInt8 UInt32) rest with
        | none => .upToPos pid serverPos
        | some (length, rest) => .chunk pid serverPos length (stringOf layout rest)

/-- The variables after the extractions, with the leftovers in the place of missing fields. -/
def Fields.extracted (left : Leftover) : Fields → Option (Leftover × Bytes)
  | .none => if left.pid = 101 then Option.none else some (left, [])
  | .finished => Option.none
  | .upToPid pid => some ({ left with pid }, [])
  | .upToPos pid serverPos => some ({ left with pid, serverPos }, [])
  | .chunk pid serverPos length contents => some (⟨pid, serverPos, length⟩, contents)

theorem extractPacket_eq (left : Leftover) (data : Bytes) :
    (extractPacket layout left (Packet.received data)).1 =
      (fieldsOf layout data).extracted left := by
  rw [(sees_extractPacket layout left (Packet.received data)).1, left_received]
  unfold fieldsOf packetFields
  cases first : (UInt8.ofNat <$> parseInt layout 1 : Parser UInt8 UInt8) data with
  | none =>
    rw [orKeep_bind_of_none first]
    by_cases last : left.pid = 101
    · simp only [if_pos last, Fields.extracted]
      rfl
    · simp only [if_neg last, Fields.extracted]
      rfl
  | some result =>
    obtain ⟨pid, rest⟩ := result
    rw [orKeep_bind_of_some first]
    by_cases last : pid = 101
    · simp only [if_pos last, Fields.extracted]
      rfl
    · simp only [if_neg last]
      cases second : (UInt32.ofNat <$> parseInt layout 4 : Parser UInt8 UInt32) rest with
      | none =>
        rw [orKeep_bind_of_none second]
        rfl
      | some result =>
        obtain ⟨serverPos, rest⟩ := result
        rw [orKeep_bind_of_some second]
        simp only
        cases third : (UInt32.ofNat <$> parseInt layout 4 : Parser UInt8 UInt32) rest with
        | none =>
          rw [orKeep_bind_of_none third]
          rfl
        | some result =>
          obtain ⟨length, rest⟩ := result
          rw [orKeep_bind_of_some third]
          simp only [stringOf, Fields.extracted]
          cases found : parseString layout rest with
          | none =>
            rw [orKeep_bind_of_none found]
            rfl
          | some result =>
            rw [orKeep_bind_of_some found]
            rfl

/-! ## Packets that are written as they are -/

/-- What a round writes is the string, and neither it nor whether it is written depends on the
    leftovers or on the memory behind the string. -/
structure WritesReceived (data : Bytes) (vars : ReceiveVars) : Prop where
  exact : ∀ memory left contents,
    (extractPacket layout vars.left (Packet.received data)).1 = some (left, contents) →
      vars.pos = left.serverPos →
        left.length.toNat ≤ contents.length ∧
          writtenBytes memory contents left.length.toNat = contents
  own : ∀ memory memory' left,
    roundWrites layout memory' data { vars with left } = roundWrites layout memory data vars

/-- The packet tells its position; where this is the client's own, it tells its length, too, and
    the string has that length. -/
def SoundFields (pos : UInt32) : Fields → Prop
  | .none | .upToPid _ => False
  | .finished => True
  | .upToPos _ serverPos => pos ≠ serverPos
  | .chunk _ serverPos length contents => pos = serverPos → length.toNat = contents.length

theorem length_writtenBytes (memory : Nat → UInt8) (contents : Bytes) (count : Nat) :
    (writtenBytes memory contents count).length = count := by
  rw [writtenBytes, List.length_map, List.length_range]

/-- What a round writes where the string is long enough. -/
theorem writtenBytes_of_le (memory : Nat → UInt8) {contents : Bytes} {count : Nat}
    (le : count ≤ contents.length) : writtenBytes memory contents count = contents.take count := by
  apply List.ext_getElem
  · rw [length_writtenBytes, List.length_take, Nat.min_eq_left le]
  · intro i _ inside
    rw [List.getElem_take]
    simp only [writtenBytes, List.getElem_map, List.getElem_range]
    exact (List.getElem_eq_getD _).symm

theorem writtenBytes_length (memory : Nat → UInt8) (contents : Bytes) :
    writtenBytes memory contents contents.length = contents := by
  rw [writtenBytes_of_le memory (Nat.le_refl _), List.take_length]

/-- Where a missing length is taken from the leftovers, these decide how much is written. -/
theorem not_own_of_leftover {data : Bytes} {vars : ReceiveVars} (memory : Nat → UInt8)
    (taken : ∀ length, ∃ pid, (extractPacket layout ⟨0, vars.pos, length⟩
      (Packet.received data)).1 = some (⟨pid, vars.pos, length⟩, []))
    (received : WritesReceived layout data vars) : False := by
  have written (length : UInt32) : roundWrites layout memory data
      { vars with left := ⟨0, vars.pos, length⟩ } =
        some (writtenBytes memory [] length.toNat) := by
    obtain ⟨pid, extracted⟩ := taken length
    simp only [roundWrites, extracted, Option.bind_some, if_true]
  have same := (received.own memory memory ⟨0, vars.pos, 0⟩).trans
    (received.own memory memory ⟨0, vars.pos, 1⟩).symm
  rw [written, written, Option.some.injEq] at same
  have length := congrArg List.length same
  rw [length_writtenBytes, length_writtenBytes] at length
  cases length

theorem writesReceived_iff (data : Bytes) (vars : ReceiveVars) :
    WritesReceived layout data vars ↔ SoundFields vars.pos (fieldsOf layout data) := by
  have extracted := fun left => extractPacket_eq layout left data
  cases fields : fieldsOf layout data with
  | none =>
    rw [fields] at extracted
    refine iff_of_false (fun received => ?_) id
    refine not_own_of_leftover layout (fun _ => 0) (fun length => ⟨0, ?_⟩) received
    rw [extracted]
    rfl
  | finished =>
    rw [fields] at extracted
    refine iff_of_true ⟨?_, ?_⟩ trivial
    · intro memory left contents found
      rw [extracted] at found
      cases found
    · intro memory memory' left
      simp only [roundWrites, extracted, Fields.extracted, Option.bind_none]
  | upToPid pid =>
    rw [fields] at extracted
    refine iff_of_false (fun received => ?_) id
    refine not_own_of_leftover layout (fun _ => 0) (fun length => ⟨pid, ?_⟩) received
    rw [extracted]
    rfl
  | upToPos pid serverPos =>
    rw [fields] at extracted
    constructor
    · intro received same
      refine not_own_of_leftover layout (fun _ => 0) (fun length => ⟨pid, ?_⟩) received
      rw [extracted, same]
      rfl
    · intro other
      refine ⟨?_, ?_⟩
      · intro memory left contents found
        rw [extracted] at found
        cases found
        exact fun same => absurd same other
      · intro memory memory' left
        simp only [roundWrites, extracted, Fields.extracted, Option.bind_some, if_neg other]
  | chunk pid serverPos length contents =>
    rw [fields] at extracted
    constructor
    · intro received same
      have written := (received.exact (fun _ => 0) _ _ (extracted _) same).2
      have count := congrArg List.length written
      rwa [length_writtenBytes] at count
    · intro sound
      refine ⟨?_, ?_⟩
      · intro memory left other found
        rw [extracted] at found
        cases found
        intro same
        rw [sound same]
        exact ⟨le_refl _, writtenBytes_length memory contents⟩
      · intro memory memory' left
        simp only [roundWrites, extracted, Fields.extracted, Option.bind_some]
        by_cases same : vars.pos = serverPos
        · rw [if_pos same, if_pos same, sound same, writtenBytes_length, writtenBytes_length]
        · rw [if_neg same, if_neg same]

/-! ## Whole runs -/

/-- A round of a client that writes each string that comes with its own position, as it is. -/
def followRound : Option Bytes → ReceiveLoop → Option ReceiveLoop
  | none, loop => some loop
  | some data, loop =>
    match fieldsOf layout data with
    | .finished => none
    | .chunk _ serverPos _ contents =>
      if loop.pos = serverPos then
        let file := loop.file ++ contents
        some { pos := UInt32.ofNat file.length, file }
      else some loop
    | _ => some loop

theorem receiveFileRound_follows (memory : Nat → UInt8) {packet : Option Bytes}
    {vars : ReceiveVars}
    (sound : ∀ data, packet = some data → SoundFields vars.pos (fieldsOf layout data)) :
    (receiveFileRound layout (packet, memory) vars).map ReceiveVars.loop =
      followRound layout packet vars.loop := by
  cases packet with
  | none => rfl
  | some data =>
    have fine := sound data rfl
    rw [receiveFileRound, followRound, extractPacket_eq]
    cases fields : fieldsOf layout data with
    | none => exact (fields ▸ fine).elim
    | finished => rfl
    | upToPid pid => exact (fields ▸ fine).elim
    | upToPos pid serverPos =>
      have other : vars.pos ≠ serverPos := by rwa [fields] at fine
      simp only [Fields.extracted, Option.map_some, if_neg other, ReceiveVars.loop]
    | chunk pid serverPos length contents =>
      rw [fields] at fine
      by_cases same : vars.pos = serverPos
      · simp only [Fields.extracted, Option.map_some, ReceiveVars.loop, if_pos same, fine same,
          writtenBytes_length]
        exact (if_pos same).symm
      · simp only [Fields.extracted, Option.map_some, ReceiveVars.loop, if_neg same]
        exact (if_neg same).symm

theorem states_loop (left : Leftover) (inputs : Nat → Option Bytes × (Nat → UInt8))
    (sound : ∀ n vars,
      states (receiveFileRound layout) inputs (ReceiveVars.start left) n = some vars →
        states (followRound layout) (fun n => (inputs n).1) ReceiveLoop.start n = some vars.loop →
          ∀ data, (inputs n).1 = some data → SoundFields vars.pos (fieldsOf layout data))
    (n : Nat) :
    (states (receiveFileRound layout) inputs (ReceiveVars.start left) n).map ReceiveVars.loop =
      states (followRound layout) (fun n => (inputs n).1) ReceiveLoop.start n := by
  apply states_map
  intro n vars state image
  exact receiveFileRound_follows layout (inputs n).2 (sound n vars state image)

/-- What `receiveFile` writes in any run is what it has received exactly if each packet that comes
    before pid 101 tells its position and, where this is the number of bytes received so far, the
    length of its string. -/
theorem received_writes_iff (left : Leftover) (inputs : Nat → Option Bytes × (Nat → UInt8)) :
    (∀ n vars data,
      states (receiveFileRound layout) inputs (ReceiveVars.start left) n = some vars →
        (inputs n).1 = some data → WritesReceived layout data vars) ↔
    ∀ n loop data,
      states (followRound layout) (fun n => (inputs n).1) ReceiveLoop.start n = some loop →
        (inputs n).1 = some data → SoundFields loop.pos (fieldsOf layout data) := by
  constructor
  · intro received n loop data state packet
    have image := states_loop layout left inputs (fun n vars state _ data packet =>
      (writesReceived_iff layout data vars).mp (received n vars data state packet)) n
    obtain ⟨vars, before, rfl⟩ := Option.map_eq_some_iff.mp (image.trans state)
    exact (writesReceived_iff layout data vars).mp (received n vars data before packet)
  · intro sound n vars data state packet
    have image := states_loop layout left inputs
      (fun n vars _ state data packet => sound n vars.loop data state packet) n
    rw [state, Option.map_some] at image
    exact (writesReceived_iff layout data vars).mpr (sound n vars.loop data image.symm packet)

end

/-- A chunk that claims to be longer than its string makes the client write what is behind the
    string. -/
theorem receive_writes_foreign : ¬ ∀ n vars data,
    states (receiveFileRound bigEndian)
      (fun _ => (some [100, 0, 0, 0, 0, 0, 0, 0, 5, 0, 0, 0, 2, 104, 105], fun _ => 7))
      (ReceiveVars.start ⟨0, 0, 0⟩) n = some vars →
        data = [100, 0, 0, 0, 0, 0, 0, 0, 5, 0, 0, 0, 2, 104, 105] →
          WritesReceived bigEndian data vars := by
  intro received
  have written := (received 0 _ _ rfl rfl).exact (fun _ => 7) ⟨100, 0, 5⟩ [104, 105] rfl rfl
  exact absurd written.1 (by decide)

/-- The client reads a chunk of either platform as the transfer model says. -/
theorem extractPacket_chunk (platform : Platform) (left : Leftover) (pos : UInt32)
    {contents : Bytes} (sized : contents.length < 2 ^ 32) :
    (extractPacket bigEndian left
      (Packet.received (chunkPacket bigEndian platform pos contents).data)).1 =
      some (⟨100, pos, (extractContents platform contents).1⟩,
        (extractContents platform contents).2) := by
  obtain ⟨bounded, rest, data⟩ := chunkPacket_fields platform pos sized
  have read : Yields Packet.left (extractPacket bigEndian left)
      (putBigEndian 1 100 ++ (putBigEndian 4 pos.toNat ++
        (putBigEndian 4 (extractContents platform contents).1.toNat ++
          stringBytes bigEndian (extractContents platform contents).2)))
      (some (⟨100, pos, (extractContents platform contents).1⟩,
        (extractContents platform contents).2)) :=
    (extractUInt8_yields bigEndian left.pid 100).bind
      ((extractUInt32_yields bigEndian left.serverPos pos).bind
        ((extractUInt32_yields bigEndian left.length _).bind
          ((extractString_yields bigEndian bounded).bind_pure (Yields.pure _))))
  obtain ⟨after, result, -⟩ :=
    read (Packet.received (chunkPacket bigEndian platform pos contents).data) rest
      (by rw [← data]; rfl)
  rw [result]

/-- Both parties built for the same platform: the round of the transfer model. -/
theorem receiveFileRound_chunk (platform : Platform) (memory : Nat → UInt8) (pos : UInt32)
    {contents : Bytes} (short : contents.length ≤ chunkSize) (vars : ReceiveVars) :
    (receiveFileRound bigEndian (some (chunkPacket bigEndian platform pos contents).data, memory)
      vars).map ReceiveVars.loop =
      receiveRound platform (some (.chunk pos contents)) vars.loop := by
  have sized : contents.length < 2 ^ 32 := Nat.lt_of_le_of_lt short (by decide)
  have enough : (extractContents platform contents).1.toNat ≤
      (extractContents platform contents).2.length := by
    cases platform with
    | win32 => exact Nat.mod_le _ _
    | x64 =>
      rw [extractContents_short short]
      exact Nat.zero_le _
  rw [receiveFileRound, extractPacket_chunk platform vars.left pos sized, receiveRound]
  by_cases same : vars.pos = pos
  · simp only [Option.map_some, ReceiveVars.loop, if_pos same, writtenBytes_of_le memory enough]
    exact (if_pos same).symm
  · simp only [Option.map_some, ReceiveVars.loop, if_neg same]
    exact (if_neg same).symm

end FileSync
