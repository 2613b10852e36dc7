import FileSync.TransferLoops

/-!
# Positions that differ from the offset

`sendFile` labels each chunk with the position that the client has reported last, but reads on
where it has stopped: after the first seek to the beginning there is no other. The label and the
bytes belong together only while the client reports the end of each chunk, once.
-/

namespace FileSync

open DrivenLoop TransitionSystem

/-- The position of `sendFile` with the offset and the `failbit` of its stream. -/
structure SendLoop where
  pos : UInt32
  offset : Nat
  failed : Bool

/-- `sendFile` before its first round, after `seekg(0, file.beg)`. -/
def SendLoop.start : SendLoop := { pos := 0, offset := 0, failed := false }

section

variable (source : Bytes)

/-- The packet of a round, if there is another round. -/
def SendLoop.packet (loop : SendLoop) : Option (UInt32 × Bytes) :=
  if loop.pos < UInt32.ofNat source.length then
    some (loop.pos, readChunk source loop.offset loop.failed)
  else none

/-- A round of `sendFile` (Node.cpp 117-138), which has received a position or failed to. -/
def sendFileRound (response : Option UInt32) (loop : SendLoop) : Option SendLoop :=
  if loop.pos < UInt32.ofNat source.length then
    let contents := readChunk source loop.offset loop.failed
    some
      { pos := response.getD loop.pos
        offset := loop.offset + contents.length
        failed := loop.failed || decide (contents.length < chunkSize) }
  else none

/-- The bytes of the file from `pos` on, at most a chunk. -/
def window (pos : Nat) : Bytes := (source.drop pos).take chunkSize

/-! ## Rounds in the other models -/

theorem sendFileRound_pos (response : Option UInt32) (loop : SendLoop) :
    (sendFileRound source response loop).map SendLoop.pos =
      sendRound (UInt32.ofNat source.length) response loop.pos := by
  unfold sendFileRound sendRound
  split <;> rfl

/-- The variables of the loop in the server of a transfer. -/
def SendFile.loop (server : SendFile) : SendLoop := ⟨server.pos, server.offset, server.failed⟩

/-- A round of the transfer model: it reads what it is going to send under the label of its
    position, and a position that it receives is all that changes up to the next test. -/
theorem sendFileRound_test {platform : Platform} {t next : Transfer} {contents : Bytes}
    (length : t.server.length = UInt32.ofNat source.length)
    (taken : transferStep platform source .test t = some next)
    (sending : next.server.phase = .sending contents) (response : Option UInt32) :
    t.server.loop.packet source = some (next.server.pos, contents) ∧
      sendFileRound source response t.server.loop =
        some { next.server.loop with pos := response.getD next.server.pos } := by
  cases transferEffect_of_step taken with
  | read _ less =>
    cases sending
    rw [length] at less
    exact ⟨if_pos less, if_pos less⟩
  | leave => cases sending

/-! ## The offset and the label -/

/-- The position that the client has reported last before round `n`. -/
def reported (responses : Nat → Option UInt32) : Nat → UInt32
  | 0 => 0
  | n + 1 => (responses n).getD (reported responses n)

theorem length_window (pos : Nat) :
    (window source pos).length = min chunkSize (source.length - pos) := by
  rw [window, List.length_take, List.length_drop]

/-- A stream that stands behind `n` chunks, or at the end of the file, reads the next one. -/
theorem readChunk_eq_window {n offset : Nat} {failed : Bool}
    (stands : offset = min (n * chunkSize) source.length)
    (ended : failed = true → source.length ≤ n * chunkSize) :
    readChunk source offset failed = window source (n * chunkSize) := by
  have behind : source.length ≤ n * chunkSize → source.drop (n * chunkSize) = [] :=
    List.drop_eq_nil_of_le
  cases failed with
  | true =>
    rw [readChunk, if_pos rfl, window, behind (ended rfl), List.take_nil]
  | false =>
    rw [readChunk, if_neg Bool.false_ne_true, window, stands]
    rcases Nat.le_total (n * chunkSize) source.length with within | past
    · rw [Nat.min_eq_left within]
    · rw [Nat.min_eq_right past, List.drop_length, behind past]

/-- The offset before round `n` is that of `n` chunks, whatever has been reported. -/
theorem sendLoop_offset {responses : Nat → Option UInt32} (n : Nat) : ∀ {loop : SendLoop},
    states (sendFileRound source) responses SendLoop.start n = some loop →
      loop.pos = reported responses n ∧
        loop.offset = min (n * chunkSize) source.length ∧
          (loop.failed = true → source.length ≤ n * chunkSize) := by
  induction n with
  | zero =>
    intro loop state
    cases state
    exact ⟨rfl, by rw [Nat.zero_mul, Nat.zero_min]; rfl, fun failed => by cases failed⟩
  | succ n ih =>
    intro next state
    obtain ⟨loop, before, taken⟩ := Option.bind_eq_some_iff.mp state
    obtain ⟨pos, stands, ended⟩ := ih before
    have contents := readChunk_eq_window source stands ended
    have length := length_window source (n * chunkSize)
    unfold sendFileRound at taken
    split at taken
    · cases taken
      rw [contents, length, stands, pos]
      refine ⟨rfl, ?_, ?_⟩
      · show min (n * chunkSize) source.length + min chunkSize (source.length - n * chunkSize) =
          min ((n + 1) * chunkSize) source.length
        rw [Nat.add_mul]
        omega
      · intro failed
        rw [Nat.add_mul]
        rcases Bool.or_eq_true_iff.mp failed with earlier | short
        · exact Nat.le_add_right_of_le (ended earlier)
        · have less := of_decide_eq_true short
          omega
    · cases taken

/-- The packet of round `n` has the label that the client has reported and the chunk that comes
    next in the file. -/
theorem packet_of_state {responses : Nat → Option UInt32} {n : Nat} {loop : SendLoop}
    (state : states (sendFileRound source) responses SendLoop.start n = some loop)
    {label : UInt32} {contents : Bytes} (packet : loop.packet source = some (label, contents)) :
    label = reported responses n ∧ contents = window source (n * chunkSize) := by
  obtain ⟨pos, stands, ended⟩ := sendLoop_offset source n state
  unfold SendLoop.packet at packet
  split at packet
  · cases packet
    exact ⟨pos, readChunk_eq_window source stands ended⟩
  · cases packet

theorem packet_isSome_iff {loop : SendLoop} :
    (loop.packet source).isSome ↔ loop.pos < UInt32.ofNat source.length := by
  unfold SendLoop.packet
  split
  · exact iff_of_true rfl ‹_›
  · exact iff_of_false Bool.false_ne_true ‹_›

/-- The server sends a packet in round `n` exactly if no position reported so far is the end of
    the file or behind it. -/
theorem sends_iff {responses : Nat → Option UInt32} (n : Nat) :
    (∃ loop, states (sendFileRound source) responses SendLoop.start n = some loop ∧
      (loop.packet source).isSome) ↔
    ∀ m ≤ n, reported responses m < UInt32.ofNat source.length := by
  induction n with
  | zero =>
    constructor
    · intro ⟨loop, state, sends⟩ m le
      cases state
      cases Nat.le_zero.mp le
      exact (packet_isSome_iff source).mp sends
    · intro below
      exact ⟨SendLoop.start, rfl, (packet_isSome_iff source).mpr (below 0 (Nat.le_refl 0))⟩
  | succ n ih =>
    constructor
    · intro ⟨next, state, sends⟩ m le
      obtain ⟨loop, before, taken⟩ := Option.bind_eq_some_iff.mp state
      rcases Nat.le_or_eq_of_le_succ le with earlier | last
      · apply ih.mp ⟨loop, before, ?_⟩ m earlier
        apply (packet_isSome_iff source).mpr
        by_contra left
        rw [sendFileRound, if_neg left] at taken
        cases taken
      · rw [last, ← (sendLoop_offset source (n + 1) state).1]
        exact (packet_isSome_iff source).mp sends
    · intro below
      obtain ⟨loop, state, sends⟩ := ih.mpr fun m le => below m (Nat.le_succ_of_le le)
      have taken := states_succ_of_some state
      rw [sendFileRound, if_pos ((packet_isSome_iff source).mp sends)] at taken
      refine ⟨_, taken, (packet_isSome_iff source).mpr ?_⟩
      rw [(sendLoop_offset source (n + 1) taken).1]
      exact below (n + 1) (Nat.le_refl _)

/-! ## A client that appends -/

/-- The packet of round `n`, if there is one. -/
def sentIn (responses : Nat → Option UInt32) (n : Nat) : Option (UInt32 × Bytes) :=
  (states (sendFileRound source) responses SendLoop.start n).bind (SendLoop.packet source)

/-- What a client has before round `n` that gets some of the packets and appends a chunk only
    when the label equals its own position. -/
def appended (responses : Nat → Option UInt32) (gets : Nat → Bool) : Nat → Bytes
  | 0 => []
  | n + 1 =>
    let file := appended responses gets n
    match sentIn source responses n with
    | some (label, contents) =>
      if gets n ∧ UInt32.ofNat file.length = label then file ++ contents else file
    | none => file

/-- Each packet carries the bytes that its label names, and each client that relies on this gets
    the right bytes. -/
structure Resynchronises (responses : Nat → Option UInt32) : Prop where
  packets : ∀ n label contents, sentIn source responses n = some (label, contents) →
    contents = window source label.toNat
  client : ∀ gets n, appended source responses gets n <+: source

/-- In each round that the server comes to, the file has the same bytes at the position that was
    reported last and behind the chunks that have been read. -/
def InStep (responses : Nat → Option UInt32) : Prop :=
  ∀ n, (∀ m ≤ n, (reported responses m).toNat < source.length) →
    window source (reported responses n).toNat = window source (n * chunkSize)

theorem prefix_append_window {file : Bytes} (inside : file <+: source) :
    file ++ window source file.length <+: source := by
  obtain ⟨rest, rfl⟩ := inside
  rw [window, List.drop_left]
  exact List.prefix_append_right_inj file |>.mpr (List.take_prefix _ rest)

end

/-- The packets of `sendFile` carry the bytes that their labels name exactly if each position that
    is reported is the end of the chunks read so far, or one where the file reads the same. -/
theorem resynchronises_iff {source : Bytes} (sized : source.length < 2 ^ 32)
    (responses : Nat → Option UInt32) :
    Resynchronises source responses ↔ InStep source responses := by
  have less (pos : UInt32) : pos < UInt32.ofNat source.length ↔ pos.toNat < source.length := by
    rw [UInt32.lt_iff_toNat_lt, UInt32.toNat_ofNat_of_lt' sized]
  have packets : (∀ n label contents, sentIn source responses n = some (label, contents) →
      contents = window source label.toNat) ↔ InStep source responses := by
    constructor
    · intro exact n below
      obtain ⟨loop, state, sends⟩ := (sends_iff source n).mpr fun m le =>
        (less _).mpr (below m le)
      obtain ⟨⟨label, contents⟩, packet⟩ := Option.isSome_iff_exists.mp sends
      obtain ⟨rfl, next⟩ := packet_of_state source state packet
      have right := exact n _ _ (by rw [sentIn, state, Option.bind_some, packet])
      rw [← right, next]
    · intro inStep n label contents sent
      obtain ⟨loop, state, packet⟩ := Option.bind_eq_some_iff.mp sent
      obtain ⟨rfl, next⟩ := packet_of_state source state packet
      have below := (sends_iff source n).mp ⟨loop, state, by rw [packet]; rfl⟩
      rw [next, inStep n fun m le => (less _).mp (below m le)]
  refine ⟨fun resynchronises => packets.mp resynchronises.packets, fun inStep => ?_⟩
  have exact := packets.mpr inStep
  refine ⟨exact, fun gets n => ?_⟩
  -- the client has a prefix of the file, so that its position is the length of that prefix
  induction n with
  | zero => exact List.nil_prefix
  | succ n ih =>
    rw [appended]
    split
    · rename_i label contents sent
      split
      · rename_i own
        have short : (appended source responses gets n).length < 2 ^ 32 :=
          Nat.lt_of_le_of_lt ih.length_le sized
        rw [exact n label contents sent, ← own.2, UInt32.toNat_ofNat_of_lt' short]
        exact prefix_append_window source ih
      · exact ih
    · exact ih

/-- A file of three bytes that the client confirms at once. -/
theorem resynchronises_three : Resynchronises [1, 2, 3] (fun _ => some 3) := by
  apply (resynchronises_iff (by decide) _).mpr
  intro n below
  cases n with
  | zero => rfl
  | succ n => exact absurd (below 1 (Nat.succ_le_succ (Nat.zero_le n))) (by decide)

/-- The answer to the only chunk is lost: the server sends another packet for position 0, with
    nothing in it. -/
theorem resynchronises_not : ¬ Resynchronises [7] (fun _ => none) := by
  intro resynchronises
  have second := resynchronises.packets 1 0 [] rfl
  exact absurd second (by decide)

end FileSync
