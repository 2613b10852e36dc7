import FileSync.TransferSize
import FileSync.Library.DrivenLoop

/-!
# Leaving the transfer loops

`sendFile` stays in its loop until the client reports a position that is not below the length, and
`receiveFile` until it receives pid 101. Neither looks at why a send or a receive has failed. What
ends the loops is therefore up to the stream of the server's file and to the connection.
-/

namespace FileSync

open DrivenLoop TransitionSystem

/-! ## Either loop alone -/

/-- A round of `sendFile` (Node.cpp 117-138), which has received a position or failed to. -/
def sendRound (length : UInt32) (response : Option UInt32) (pos : UInt32) : Option UInt32 :=
  if pos < length then some (response.getD pos) else none

/-- The variables of `receiveFile`. -/
structure ReceiveLoop where
  pos : UInt32
  file : Bytes

/-- A round of `receiveFile` (Node.cpp 152-179), which has received a packet or failed to. -/
def receiveRound (platform : Platform) : Option ServerPacket → ReceiveLoop → Option ReceiveLoop
  | none, loop => some loop
  | some .finished, _ => none
  | some (.chunk serverPos contents), loop =>
    let (length, contents) := extractContents platform contents
    if loop.pos = serverPos then
      let file := loop.file ++ contents.take length.toNat
      some { pos := UInt32.ofNat file.length, file }
    else some loop

/-- `receiveFile` before its first round. -/
def ReceiveLoop.start : ReceiveLoop := { pos := 0, file := [] }

/-- `sendFile` is left once the client reports a position behind the end. -/
theorem sendLoop_leaves_iff (length : UInt32) (responses : Nat → Option UInt32) :
    Leaves (sendRound length) responses 0 ↔
      length = 0 ∨ ∃ n pos, responses n = some pos ∧ length ≤ pos := by
  constructor
  · intro leaves
    by_contra neither
    refine not_leaves (fun _ pos => pos < length) ?_ ?_ leaves
    · rw [UInt32.lt_iff_toNat_lt]
      exact Nat.pos_of_ne_zero fun zero => neither (Or.inl (UInt32.toNat_inj.mp zero))
    · intro n pos less
      refine ⟨_, if_pos less, ?_⟩
      cases response : responses n with
      | none => exact less
      | some next =>
        apply UInt32.not_le.mp
        exact fun atEnd => neither (Or.inr ⟨n, next, response, atEnd⟩)
  · rintro (zero | ⟨n, pos, response, atEnd⟩)
    · subst zero
      exact ⟨1, rfl⟩
    · cases state : states (sendRound length) responses 0 (n + 1) with
      | none => exact ⟨n + 1, state⟩
      | some next =>
        -- the position of the next round is the one that was reported
        obtain ⟨before, -, taken⟩ := Option.bind_eq_some_iff.mp state
        simp only [sendRound, response] at taken
        split at taken <;> cases taken
        refine ⟨n + 2, ?_⟩
        rw [states_succ_of_some state]
        exact if_neg (UInt32.not_lt.mpr atEnd)

theorem receiveRound_eq_none_iff {platform : Platform} {packet : Option ServerPacket}
    {loop : ReceiveLoop} :
    receiveRound platform packet loop = none ↔ packet = some .finished := by
  constructor
  · intro left
    rcases packet with _ | _ | _
    · cases left
    · simp only [receiveRound] at left
      split at left <;> cases left
    · rfl
  · rintro rfl
    rfl

/-- `receiveFile` is left only when it receives pid 101. -/
theorem receiveLoop_leaves_iff (platform : Platform) (packets : Nat → Option ServerPacket) :
    Leaves (receiveRound platform) packets ReceiveLoop.start ↔
      ∃ n, packets n = some .finished := by
  constructor
  · rw [leaves_iff]
    rintro ⟨n, loop, -, left⟩
    exact ⟨n, receiveRound_eq_none_iff.mp left⟩
  · rintro ⟨n, finished⟩
    exact leaves_of_round (n := n) fun _ => receiveRound_eq_none_iff.mpr finished

/-! ## The two loops in their surroundings -/

/-- What the two loops do not control. -/
structure Surroundings where
  /-- What `tellg` gives at the end of the stream, -1 for a stream that has failed. -/
  tell : Int
  /-- The contents that the reads of the stream return, one after the other. -/
  reads : Nat → Bytes
  short : ∀ n, (reads n).length ≤ chunkSize
  /-- The first message that does not get through, from which on all sends and receives fail. -/
  lost : Option Nat

/-- `unsigned int length = file.tellg()` -/
def Surroundings.length (s : Surroundings) : UInt32 := UInt32.ofInt s.tell

/-- The first `count` messages get through. -/
def Surroundings.delivers (s : Surroundings) (count : Nat) : Prop :=
  ∀ first ∈ s.lost, count ≤ first

instance (s : Surroundings) (count : Nat) : Decidable (s.delivers count) :=
  inferInstanceAs (Decidable (∀ first ∈ s.lost, count ≤ first))

/-- The position of `sendFile` and the variables of `receiveFile`, as long as they are in their
    loops. -/
structure Loops where
  server : Option UInt32
  client : Option ReceiveLoop

/-- What the client receives in round `n`: message `2 * n` of the connection, if it gets
    through. -/
def Loops.packet (s : Surroundings) (n : Nat) (loops : Loops) : Option ServerPacket :=
  loops.server.bind fun pos =>
    if s.delivers (2 * n + 1) then
      some (if pos < s.length then .chunk pos (s.reads n) else .finished)
    else none

/-- What the server receives in round `n`: the client's answer to a packet, message
    `2 * n + 1` of the connection. -/
def Loops.response (platform : Platform) (s : Surroundings) (n : Nat) (loops : Loops) :
    Option UInt32 :=
  (loops.packet s n).bind fun packet =>
    if s.delivers (2 * n + 2) then
      (loops.client.bind (receiveRound platform (some packet))).map ReceiveLoop.pos
    else none

/-- The two loops before round `n`. -/
def loopsAt (platform : Platform) (s : Surroundings) : Nat → Loops
  | 0 => { server := some 0, client := some ReceiveLoop.start }
  | n + 1 =>
    let loops := loopsAt platform s n
    { server := loops.server.bind (sendRound s.length (loops.response platform s n))
      client := loops.client.bind (receiveRound platform (loops.packet s n)) }

/-- What `sendFile` receives, round by round. -/
def responses (platform : Platform) (s : Surroundings) (n : Nat) : Option UInt32 :=
  (loopsAt platform s n).response platform s n

/-- What `receiveFile` receives, round by round. -/
def packets (platform : Platform) (s : Surroundings) (n : Nat) : Option ServerPacket :=
  (loopsAt platform s n).packet s n

theorem server_loopsAt (platform : Platform) (s : Surroundings) (n : Nat) :
    (loopsAt platform s n).server = states (sendRound s.length) (responses platform s) 0 n := by
  induction n with
  | zero => rfl
  | succ n ih => rw [states, ← ih]; rfl

/-- The bytes that the first `count` reads return. -/
def Surroundings.total (s : Surroundings) : Nat → Nat
  | 0 => 0
  | count + 1 => s.total count + (s.reads count).length

/-- What the client has written of the first `count` chunks: on x64 it takes each of them for a
    chunk of length 0. -/
def Surroundings.stored (s : Surroundings) (count : Nat) : Platform → Nat
  | .win32 => s.total count
  | .x64 => 0

/-- The position that the client reports after the first `count` chunks. -/
def Surroundings.position (platform : Platform) (s : Surroundings) (count : Nat) : UInt32 :=
  UInt32.ofNat (s.stored count platform)

theorem Surroundings.delivers_mono {s : Surroundings} {fewer more : Nat} (le : fewer ≤ more)
    (delivers : s.delivers more) : s.delivers fewer :=
  fun first lost => Nat.le_trans le (delivers first lost)

/-! ## While messages get through -/

/-- The client writes the chunk of a server that is on the same page. -/
theorem receiveRound_chunk (platform : Platform) {contents : Bytes}
    (short : contents.length ≤ chunkSize) (pos : UInt32) (file : Bytes) :
    ∃ next, receiveRound platform (some (.chunk pos contents)) { pos, file } =
        some { pos := UInt32.ofNat next.length, file := next } ∧
      next.length = file.length + match platform with
        | .win32 => contents.length
        | .x64 => 0 := by
  refine ⟨_, if_pos rfl, ?_⟩
  cases platform with
  | win32 =>
    have chunk : (UInt32.ofNat contents.length).toNat = contents.length :=
      UInt32.toNat_ofNat_of_lt (Nat.lt_of_le_of_lt short (by decide))
    simp [chunk]
  | x64 =>
    have none : UInt32.ofNat (contents.length >>> 32) = 0 := extractContents_short short
    simp only [none, UInt32.toNat_zero, List.take_zero, List.append_nil, Nat.add_zero]

/-- Until the server comes to a position behind the end, both loops are at the position of what
    has been written. -/
theorem loopsAt_of_delivers {platform : Platform} {s : Surroundings} {n : Nat}
    (delivers : s.delivers (2 * n))
    (before : ∀ count < n, s.position platform count < s.length) :
    ∃ file : Bytes, file.length = s.stored n platform ∧ loopsAt platform s n =
      { server := some (s.position platform n)
        client := some { pos := s.position platform n, file } } := by
  induction n with
  | zero => exact ⟨[], by cases platform <;> rfl, by cases platform <;> rfl⟩
  | succ n ih =>
    obtain ⟨file, size, loops⟩ := ih (s.delivers_mono (by omega) delivers)
      (fun count less => before count (by omega))
    have less := before n (by omega)
    have through : s.delivers (2 * n + 1) := s.delivers_mono (by omega) delivers
    obtain ⟨next, written, longer⟩ :=
      receiveRound_chunk platform (s.short n) (s.position platform n) file
    have stored : next.length = s.stored (n + 1) platform := by
      rw [longer, size]
      cases platform <;> rfl
    have packet : (loopsAt platform s n).packet s n =
        some (.chunk (s.position platform n) (s.reads n)) := by
      simp [Loops.packet, loops, through, less]
    have response : (loopsAt platform s n).response platform s n =
        some (UInt32.ofNat next.length) := by
      have answered : s.delivers (2 * n + 2) := delivers
      rw [Loops.response, packet]
      simp [answered, loops, written]
    refine ⟨next, stored, ?_⟩
    simp only [loopsAt, response, packet]
    simp only [loops, Option.bind_some, written, sendRound, if_pos less, Option.getD_some]
    rw [stored]
    rfl

theorem before_or_atEnd (platform : Platform) (s : Surroundings) (n : Nat) :
    (∀ count < n, s.position platform count < s.length) ∨
      ∃ count < n, s.length ≤ s.position platform count := by
  by_cases atEnd : ∃ count < n, s.length ≤ s.position platform count
  · exact Or.inr atEnd
  · exact Or.inl fun count less => UInt32.not_le.mp fun le => atEnd ⟨count, less, le⟩

/-- At the first position behind the end the server leaves its loop, and says so if it can. -/
theorem loopsAt_of_atEnd {platform : Platform} {s : Surroundings} {n : Nat}
    (delivers : s.delivers (2 * n)) (atEnd : s.length ≤ s.position platform n) :
    ∃ first ≤ n, (loopsAt platform s (first + 1)).server = none ∧
      (s.delivers (2 * first + 1) → packets platform s first = some .finished) := by
  induction n using Nat.strongRecOn with
  | _ n ih =>
    rcases before_or_atEnd platform s n with before | ⟨count, less, earlier⟩
    · obtain ⟨file, -, loops⟩ := loopsAt_of_delivers delivers before
      have notLess : ¬ s.position platform n < s.length := UInt32.not_lt.mpr atEnd
      refine ⟨n, Nat.le_refl n, ?_, fun through => ?_⟩
      · simp [loopsAt, loops, sendRound, notLess]
      · simp [packets, Loops.packet, loops, through, notLess]
    · obtain ⟨first, le, left⟩ := ih count less (s.delivers_mono (by omega) delivers) earlier
      exact ⟨first, by omega, left⟩

/-! ## What the loops receive -/

/-- The client's answer is its position after the packet. -/
theorem client_of_response {platform : Platform} {s : Surroundings} {n : Nat} {pos : UInt32}
    (response : responses platform s n = some pos) :
    s.delivers (2 * (n + 1)) ∧
      ∃ client, (loopsAt platform s (n + 1)).client = some client ∧ client.pos = pos := by
  obtain ⟨packet, received, answered⟩ := Option.bind_eq_some_iff.mp response
  split at answered
  · rename_i through
    obtain ⟨client, written, reported⟩ := Option.map_eq_some_iff.mp answered
    refine ⟨through, client, ?_, reported⟩
    rw [← written, loopsAt, received]
  · cases answered

/-- Pid 101 comes from a server that has left its loop. -/
theorem server_of_finished {platform : Platform} {s : Surroundings} {n : Nat}
    (finished : packets platform s n = some .finished) :
    s.delivers (2 * n + 1) ∧
      ∃ pos, (loopsAt platform s n).server = some pos ∧ s.length ≤ pos := by
  obtain ⟨pos, server, sent⟩ := Option.bind_eq_some_iff.mp finished
  split at sent
  · rename_i through
    split at sent
    · cases sent
    · rename_i notLess
      exact ⟨through, pos, server, UInt32.not_lt.mp notLess⟩
  · cases sent

theorem server_leaves_iff (platform : Platform) (s : Surroundings) :
    Leaves (sendRound s.length) (responses platform s) 0 ↔
      ∃ n, s.delivers (2 * n) ∧ s.length ≤ s.position platform n := by
  constructor
  · intro leaves
    rcases (sendLoop_leaves_iff _ _).mp leaves with zero | ⟨n, pos, response, atEnd⟩
    · refine ⟨0, fun _ _ => Nat.zero_le _, ?_⟩
      rw [zero]
      exact UInt32.zero_le
    · obtain ⟨delivers, client, after, reported⟩ := client_of_response response
      rcases before_or_atEnd platform s (n + 1) with before | ⟨count, less, earlier⟩
      · obtain ⟨file, -, loops⟩ := loopsAt_of_delivers delivers before
        rw [loops] at after
        cases after
        subst reported
        exact ⟨n + 1, delivers, atEnd⟩
      · exact ⟨count, s.delivers_mono (by omega) delivers, earlier⟩
  · rintro ⟨n, delivers, atEnd⟩
    obtain ⟨first, -, left, -⟩ := loopsAt_of_atEnd delivers atEnd
    exact ⟨first + 1, by rw [← server_loopsAt, left]⟩

theorem client_leaves_iff (platform : Platform) (s : Surroundings) :
    Leaves (receiveRound platform) (packets platform s) ReceiveLoop.start ↔
      ∃ n, s.delivers (2 * n + 1) ∧ s.length ≤ s.position platform n := by
  rw [receiveLoop_leaves_iff]
  constructor
  · rintro ⟨n, finished⟩
    obtain ⟨delivers, pos, server, atEnd⟩ := server_of_finished finished
    rcases before_or_atEnd platform s n with before | ⟨count, less, earlier⟩
    · obtain ⟨file, -, loops⟩ := loopsAt_of_delivers (s.delivers_mono (by omega) delivers) before
      rw [loops] at server
      cases server
      exact ⟨n, delivers, atEnd⟩
    · exact ⟨count, s.delivers_mono (by omega) delivers, earlier⟩
  · rintro ⟨n, delivers, atEnd⟩
    obtain ⟨first, le, -, finished⟩ :=
      loopsAt_of_atEnd (s.delivers_mono (by omega) delivers) atEnd
    exact ⟨first, finished (s.delivers_mono (by omega) delivers)⟩

/-! ## A file that stays as it is -/

/-- A file that can be read, on a connection that is not lost. -/
def Surroundings.ofFile (source : Bytes) : Surroundings where
  tell := source.length
  reads n := (source.drop (chunkSize * n)).take chunkSize
  short _ := List.length_take_le _ _
  lost := none

@[simp] theorem Surroundings.delivers_ofFile (source : Bytes) (count : Nat) :
    (Surroundings.ofFile source).delivers count :=
  nofun

theorem Surroundings.length_ofFile (source : Bytes) :
    (Surroundings.ofFile source).length = UInt32.ofNat source.length := by
  apply UInt32.toNat_inj.mp
  simp only [Surroundings.length, Surroundings.ofFile, UInt32.ofInt, UInt32.toNat_ofNat']
  omega

/-- The state of a transfer at the condition of `sendFile`. -/
def Transfer.atTest (source : Bytes) (pos : UInt32) (client : ReceiveLoop) (offset : Nat)
    (failed : Bool) : Transfer :=
  { server := { phase := .testing, length := UInt32.ofNat source.length, pos, offset, failed }
    client := { phase := .receiving, pos := client.pos, file := client.file }
    toClient := []
    toServer := [] }

/-- A round of the two loops is a round of the transfer. -/
theorem reaches_round {platform : Platform} {source : Bytes} {client next : ReceiveLoop}
    {offset : Nat} {failed : Bool} (less : client.pos < UInt32.ofNat source.length)
    (written : receiveRound platform
      (some (.chunk client.pos (readChunk source offset failed))) client = some next) :
    Reaches (transferStep platform source) (.atTest source client.pos client offset failed)
      (.atTest source next.pos next (offset + (readChunk source offset failed).length)
        (failed || decide ((readChunk source offset failed).length < chunkSize))) := by
  simp only [receiveRound, if_true] at written
  cases written
  exact ⟨[.test, .send, .receive, .write, .respond, .receiveResponse],
    .cons trivial (if_pos less) (.cons trivial rfl (.cons trivial rfl (.cons trivial (if_pos rfl)
      (.cons trivial rfl (.cons trivial rfl (.nil _))))))⟩

/-- Before each round of the two loops the transfer is at the condition of `sendFile`. -/
theorem reaches_loopsAt {platform : Platform} {source : Bytes} {n : Nat} {pos : UInt32}
    {client : ReceiveLoop}
    (loops : loopsAt platform (.ofFile source) n = { server := some pos, client := some client }) :
    pos = client.pos ∧ ∃ offset failed,
      offset = min (chunkSize * n) source.length ∧
      ((failed = false ∧ chunkSize ∣ offset) ∨ offset = source.length) ∧
      Reaches (transferStep platform source) Transfer.start
        (.atTest source pos client offset failed) := by
  induction n generalizing pos client with
  | zero =>
    cases loops
    exact ⟨rfl, 0, false, by simp, Or.inl ⟨rfl, Nat.dvd_zero _⟩,
      ⟨[.connect, .accept], .of_exec rfl⟩⟩
  | succ n ih =>
    obtain ⟨server, before, same⟩ :
        ∃ server client, loopsAt platform (.ofFile source) n = ⟨server, client⟩ := ⟨_, _, rfl⟩
    rw [loopsAt, same, Loops.mk.injEq] at loops
    obtain ⟨last, rfl, tested⟩ := Option.bind_eq_some_iff.mp loops.1
    obtain ⟨before, rfl, written⟩ := Option.bind_eq_some_iff.mp loops.2
    obtain ⟨rfl, offset, failed, place, aligned, reached⟩ := ih same
    have less : before.pos < (Surroundings.ofFile source).length := by
      by_contra notLess
      simp [sendRound, notLess] at tested
    have read : (Surroundings.ofFile source).reads n = readChunk source offset failed := by
      show (source.drop (chunkSize * n)).take chunkSize = _
      rw [readChunk_eq aligned, place]
      rcases Nat.le_total (chunkSize * n) source.length with within | beyond
      · rw [Nat.min_eq_left within]
      · rw [Nat.min_eq_right beyond, List.drop_length, List.drop_eq_nil_of_le beyond]
    simp only [Loops.packet, Option.bind_some, Surroundings.delivers_ofFile, if_true, less,
      read] at written
    simp only [Loops.response, Loops.packet, Option.bind_some, Surroundings.delivers_ofFile,
      if_true, less, read, written, sendRound, Option.map_some, Option.getD_some] at tested
    cases tested
    rw [Surroundings.length_ofFile] at less
    refine ⟨rfl, _, _, ?_, ?_, reached.trans (reaches_round less written)⟩
    · rw [length_readChunk aligned, place, Nat.mul_succ]
      omega
    · exact aligned_readChunk (by omega) aligned

/-! ## Termination -/

/-- `sendFile` leaves its loop exactly if the length is 0 or the client reports a position that is
    not below it, and `receiveFile` exactly if it receives pid 101. Together they do so if and only
    if what has been read gets to a position that is not below the length before the connection is
    lost; the client has to get one message more, which tells it so. -/
theorem loops_leave_iff (platform : Platform) :
    (∀ length responses, Leaves (sendRound length) responses 0 ↔
      length = 0 ∨ ∃ n pos, responses n = some pos ∧ length ≤ pos) ∧
    (∀ packets, Leaves (receiveRound platform) packets ReceiveLoop.start ↔
      ∃ n, packets n = some .finished) ∧
    ∀ s : Surroundings,
      (Leaves (sendRound s.length) (responses platform s) 0 ↔
        ∃ n, s.delivers (2 * n) ∧ s.length ≤ s.position platform n) ∧
      (Leaves (receiveRound platform) (packets platform s) ReceiveLoop.start ↔
        ∃ n, s.delivers (2 * n + 1) ∧ s.length ≤ s.position platform n) :=
  ⟨sendLoop_leaves_iff, receiveLoop_leaves_iff platform,
    fun s => ⟨server_leaves_iff platform s, client_leaves_iff platform s⟩⟩

/-- The stream of a directory or of a locked file. -/
def unreadable : Surroundings where
  tell := -1
  reads _ := []
  short _ := Nat.zero_le _
  lost := none

/-- A file of one byte whose peer is gone before the first message. -/
def disconnected : Surroundings := { Surroundings.ofFile [7] with lost := some 0 }

/-- On a file that cannot be opened both loops go on, and on a connection that is lost, too. -/
theorem loops_hang :
    ¬ Leaves (sendRound unreadable.length) (responses .win32 unreadable) 0 ∧
    ¬ Leaves (receiveRound .win32) (packets .win32 unreadable) ReceiveLoop.start ∧
    ¬ Leaves (sendRound disconnected.length) (responses .win32 disconnected) 0 ∧
    ¬ Leaves (receiveRound .win32) (packets .win32 disconnected) ReceiveLoop.start := by
  have nothing (n : Nat) : unreadable.position .win32 n = 0 := by
    have total : unreadable.total n = 0 := by
      induction n with
      | zero => rfl
      | succ n ih => exact ih
    simp [Surroundings.position, Surroundings.stored, total]
  have below (n : Nat) : ¬ unreadable.length ≤ unreadable.position .win32 n := by
    rw [nothing]
    decide +kernel
  have first {n : Nat} (delivers : disconnected.delivers (2 * n)) : n = 0 := by
    have none := delivers 0 rfl
    omega
  refine ⟨?_, ?_, ?_, ?_⟩
  · rw [server_leaves_iff]
    rintro ⟨n, -, atEnd⟩
    exact below n atEnd
  · rw [client_leaves_iff]
    rintro ⟨n, -, atEnd⟩
    exact below n atEnd
  · rw [server_leaves_iff]
    rintro ⟨n, delivers, atEnd⟩
    cases first delivers
    revert atEnd
    decide +kernel
  · rw [client_leaves_iff]
    rintro ⟨n, delivers, -⟩
    have none := delivers 0 rfl
    omega

end FileSync
