import FileSync.Transfer

/-!
# File sizes and the loop condition

`sendFile` runs its loop while `pos < length`, where `pos` is an offset and `length` the size
of the file, both modulo 2^32.
-/

namespace FileSync

open TransitionSystem

/-- What a transfer of a file is for. -/
structure TransferComplete (platform : Platform) (source : Bytes) : Prop where
  /-- The server goes on exactly while there are bytes left. -/
  loop : ∀ actions t, Run (transferStep platform source) anyStep Transfer.start actions t →
    t.server.phase = .testing →
    (t.server.pos < t.server.length ↔ t.server.offset < source.length)
  /-- The client has the whole file when the server leaves the loop. -/
  whole : ∀ actions t, Run (transferStep platform source) anyStep Transfer.start actions t →
    t.server.phase.leftLoop = true → t.client.file = source
  ends : ∀ actions t, Run (transferStep platform source) anyStep Transfer.start actions t →
    ∃ u, Reaches (transferStep platform source) t u ∧ u.server.phase = .done

/-- The files that are transferred completely: on Win32 those below 4 GiB, and those whose size
    modulo 2^32 is above the last position of a whole chunk. -/
def Transferable (platform : Platform) (source : Bytes) : Prop :=
  source = [] ∨ platform = .win32 ∧
    (source.length < 2 ^ 32 ∨ 2 ^ 32 - chunkSize < source.length % 2 ^ 32)

theorem Transferable.agree {platform : Platform} {source : Bytes}
    (transferable : Transferable platform source) : platform = .win32 ∨ source = [] := by
  rcases transferable with empty | ⟨win32, _⟩
  · exact Or.inr empty
  · exact Or.inl win32

/-! ## Transferable files -/

/-- Truncation to 32 bits keeps the order of a chunk's position and the size. -/
theorem ofNat_lt_ofNat_iff {platform : Platform} {source : Bytes}
    (transferable : Transferable platform source) {offset : Nat} (within : offset ≤ source.length)
    (aligned : chunkSize ∣ offset ∨ offset = source.length) :
    UInt32.ofNat offset < UInt32.ofNat source.length ↔ offset < source.length := by
  rw [UInt32.lt_iff_toNat_lt, UInt32.toNat_ofNat', UInt32.toNat_ofNat']
  rcases aligned with divides | rfl
  · unfold Transferable at transferable
    unfold chunkSize at *
    rcases transferable with rfl | ⟨_, small | large⟩
    · simp at within
      simp [within]
    · omega
    · omega
  · simp

theorem pos_of_coupled {source : Bytes} {t : Transfer} (coupled : Coupled source t)
    (testing : t.server.phase = .testing) :
    t.server.pos = UInt32.ofNat t.server.offset ∧
      t.server.length = UInt32.ofNat source.length ∧
      t.client.file = source.take t.server.offset := by
  obtain ⟨pos, stored⟩ := pos_of_streamed (streamed_of_coupled coupled) testing
  rw [List.length_take, Nat.min_eq_left coupled.within] at pos
  exact ⟨pos, coupled.measured (by rw [testing]; nofun), stored⟩

theorem loop_of_coupled {platform : Platform} {source : Bytes}
    (transferable : Transferable platform source) {t : Transfer} (coupled : Coupled source t)
    (testing : t.server.phase = .testing) :
    t.server.pos < t.server.length ↔ t.server.offset < source.length := by
  obtain ⟨pos, length, -⟩ := pos_of_coupled coupled testing
  rw [pos, length]
  exact ofNat_lt_ofNat_iff transferable coupled.within (coupled.aligned.imp_left And.right)

theorem whole_of_coupled {platform : Platform} {source : Bytes}
    (transferable : Transferable platform source) {t : Transfer} (coupled : Coupled source t)
    (left : t.server.phase.leftLoop = true) : t.client.file = source := by
  have within := coupled.within
  have atEnd : t.server.offset = source.length := by
    have exited := coupled.exited left
    rw [← UInt32.not_lt, ofNat_lt_ofNat_iff transferable within
      (coupled.aligned.imp_left And.right)] at exited
    omega
  have invariant := prefixInvariant_of_coupled coupled
  refine invariant.isPrefix.eq_of_length ?_
  rw [invariant.betweenRounds (Or.inr left), atEnd]

/-- The client gets the end message after the server has left its loop. -/
theorem leftLoop_of_client {source : Bytes} {t : Transfer} (coupled : Coupled source t)
    (ended : t.client.phase = .ending ∨ t.client.phase = .done) :
    t.server.phase.leftLoop = true := by
  obtain ⟨⟨inFlight, control, -, -⟩, -, -, -, -, -, -⟩ := coupled
  obtain ⟨⟨phase, length, pos, offset, failed⟩, ⟨clientPhase, clientPos, file⟩, toClient,
    toServer⟩ := t
  simp only at control ended ⊢
  rcases ended with rfl | rfl <;> cases control <;> rfl

/-- How far the transfer is from its end: the bytes to be read, then the steps of the round. -/
def Transfer.remaining (source : Bytes) (t : Transfer) : Nat :=
  16 * (source.length - t.server.offset) +
    match t.server.phase, t.client.phase with
    | .accepting, .connecting => 8
    | .accepting, _ => 7
    | .testing, _ => 6
    | .sending _, _ => 12
    | .receiving, .writing .. => 10
    | .receiving, .responding => 9
    | .receiving, _ => 8 + 3 * t.toClient.length
    | .ending, _ => 5
    | .closing, .receiving => 4
    | .closing, .ending => 3
    | .closing, _ => 2
    | .done, _ => 1

theorem transfer_progress {platform : Platform} {source : Bytes}
    (transferable : Transferable platform source) {t : Transfer} (coupled : Coupled source t)
    (unfinished : ¬ t.server.phase = .done) :
    ∃ action next, transferStep platform source action t = some next ∧ Coupled source next ∧
      next.remaining source < t.remaining source := by
  have stays (action : TransferAction) {next : Transfer}
      (taken : transferStep platform source action t = some next)
      (less : next.remaining source < t.remaining source) :
      ∃ action next, transferStep platform source action t = some next ∧ Coupled source next ∧
        next.remaining source < t.remaining source :=
    ⟨action, next, taken, coupled_step transferable.agree coupled taken, less⟩
  have loop := loop_of_coupled transferable coupled
  obtain ⟨⟨phase, length, pos, offset, failed⟩, ⟨clientPhase, clientPos, file⟩, toClient,
    toServer⟩ := t
  obtain ⟨⟨inFlight, control, -, -⟩, within, -, aligned, fresh, -, -⟩ := coupled
  simp only at control within aligned fresh unfinished loop
  cases control with
  | connecting => exact stays .connect rfl (by simp [Transfer.remaining])
  | accepting =>
    obtain ⟨rfl, -⟩ := fresh rfl
    exact stays .accept rfl (by simp [Transfer.remaining])
  | testing =>
    by_cases less : pos < length
    · have more := (loop rfl).mp less
      refine stays .test (if_pos less) ?_
      simp only [Transfer.remaining, length_readChunk aligned, chunkSize]
      omega
    · exact stays .test (if_neg less) (by simp [Transfer.remaining])
  | sending => exact stays .send rfl (by simp [Transfer.remaining])
  | sent => exact stays .receive rfl (by simp [Transfer.remaining])
  | writing => exact stays .write (if_pos rfl) (by simp [Transfer.remaining])
  | responding => exact stays .respond rfl (by simp [Transfer.remaining])
  | responded => exact stays .receiveResponse rfl (by simp [Transfer.remaining])
  | ending => exact stays .sendEnd rfl (by simp [Transfer.remaining])
  | sentEnd => exact stays .receive rfl (by simp [Transfer.remaining])
  | respondingEnd => exact stays .respondEnd rfl (by simp [Transfer.remaining])
  | respondedEnd => exact stays .receiveEnd rfl (by simp [Transfer.remaining])
  | done => exact absurd rfl unfinished

theorem transferComplete_of_transferable {platform : Platform} {source : Bytes}
    (transferable : Transferable platform source) : TransferComplete platform source where
  loop := fun _ _ run => loop_of_coupled transferable (coupled_run transferable.agree run)
  whole := fun _ _ run => whole_of_coupled transferable (coupled_run transferable.agree run)
  ends := fun _ t run => reaches_goal (Transfer.remaining source)
    (fun _ coupled unfinished => transfer_progress transferable coupled unfinished) t
    (coupled_run transferable.agree run)

/-! ## Win32: the loop is left at the first position that is not below the size -/

/-- One round of the loop, from test to test. -/
theorem transfer_round {source : Bytes} {t : Transfer} (coupled : Coupled source t)
    (testing : t.server.phase = .testing) (less : t.server.pos < t.server.length) :
    ∃ next, Reaches (transferStep .win32 source) t next ∧ next.server.phase = .testing ∧
      next.server.offset =
        t.server.offset + (readChunk source t.server.offset t.server.failed).length := by
  obtain ⟨⟨phase, length, pos, offset, failed⟩, ⟨clientPhase, clientPos, file⟩, toClient,
    toServer⟩ := t
  obtain ⟨⟨inFlight, control, -, -⟩, -, -, -, -, -, -⟩ := coupled
  simp only at control testing less
  subst testing
  cases control
  exact ⟨_, ⟨[.test, .send, .receive, .write, .respond, .receiveResponse],
    .cons trivial (if_pos less) (.cons trivial rfl (.cons trivial rfl (.cons trivial (if_pos rfl)
      (.cons trivial rfl (.cons trivial rfl (.nil _))))))⟩, rfl, rfl⟩

/-- The loop of a complete transfer gets to every whole chunk of the file. -/
theorem reaches_chunk {source : Bytes} (complete : TransferComplete .win32 source) (count : Nat)
    (within : chunkSize * count ≤ source.length) :
    ∃ t, Reaches (transferStep .win32 source) Transfer.start t ∧ t.server.phase = .testing ∧
      t.server.offset = chunkSize * count := by
  induction count with
  | zero => exact ⟨_, ⟨[.connect, .accept], .of_exec rfl⟩, rfl, rfl⟩
  | succ count ih =>
    rw [Nat.mul_succ] at within
    obtain ⟨t, ⟨actions, run⟩, testing, offset⟩ := ih (by omega)
    have coupled := coupled_run (Or.inl rfl) run
    have less : t.server.pos < t.server.length :=
      (complete.loop actions t run testing).mpr (by rw [offset]; unfold chunkSize at *; omega)
    obtain ⟨next, round, testing, advanced⟩ := transfer_round coupled testing less
    refine ⟨next, (Reaches.trans ⟨actions, run⟩ round), testing, ?_⟩
    rw [advanced, length_readChunk coupled.aligned, offset, Nat.mul_succ]
    omega

theorem size_of_complete {source : Bytes} (complete : TransferComplete .win32 source) :
    source.length < 2 ^ 32 ∨ 2 ^ 32 - chunkSize < source.length % 2 ^ 32 := by
  by_contra neither
  -- the first whole chunk whose position is not below the truncated size
  have least : ∃ count, source.length % 2 ^ 32 ≤ chunkSize * count ∧
      chunkSize * count < 2 ^ 32 ∧ 2 ^ 32 ≤ source.length := by
    refine ⟨(source.length % 2 ^ 32 + 1023) / 1024, ?_⟩
    unfold chunkSize at *
    omega
  obtain ⟨count, above, below, large⟩ := least
  obtain ⟨t, ⟨actions, run⟩, testing, offset⟩ := reaches_chunk complete count (by omega)
  obtain ⟨pos, length, -⟩ := pos_of_coupled (coupled_run (Or.inl rfl) run) testing
  have less := (complete.loop actions t run testing).mpr (by omega)
  rw [pos, length, UInt32.lt_iff_toNat_lt, UInt32.toNat_ofNat', UInt32.toNat_ofNat', offset,
    Nat.mod_eq_of_lt below] at less
  omega

/-! ## x64: the client writes nothing -/

/-- The chunks are short and the client takes each of them for a chunk of length 0. -/
structure WritesNothing (t : Transfer) : Prop where
  empty : t.client.file = []
  read : ∀ contents, t.server.phase = .sending contents → contents.length ≤ chunkSize
  sent : ∀ pos contents, .chunk pos contents ∈ t.toClient → contents.length ≤ chunkSize
  received : ∀ pos length contents, t.client.phase = .writing pos length contents → length = 0

/-- On x64 the client takes a short chunk for a chunk of length 0. -/
theorem extractContents_short {contents : Bytes} (short : contents.length ≤ chunkSize) :
    (extractContents .x64 contents).1 = 0 := by
  have noHigh : contents.length >>> 32 = 0 := by
    rw [Nat.shiftRight_eq_div_pow]
    unfold chunkSize at short
    omega
  simp only [extractContents, noHigh]
  rfl

theorem writesNothing_step {source : Bytes} {action : TransferAction} {t next : Transfer}
    (nothing : WritesNothing t) (taken : transferStep .x64 source action t = some next) :
    WritesNothing next := by
  obtain ⟨empty, read, sent, received⟩ := nothing
  cases transferEffect_of_step taken with
  | connect | respond | respondEnd => exact ⟨empty, read, sent, nofun⟩
  | accept | leave | receiveResponse | receiveEnd => exact ⟨empty, nofun, sent, received⟩
  | read =>
    refine ⟨empty, ?_, sent, received⟩
    intro contents phase
    cases phase
    exact length_readChunk_le source _ _
  | send sending =>
    refine ⟨empty, nofun, ?_, received⟩
    intro label other member
    rcases List.mem_append.mp member with before | last
    · exact sent label other before
    · cases List.mem_singleton.mp last
      exact read _ sending
  | receive _ first =>
    refine ⟨empty, read, ?_, ?_⟩
    · intro label other member
      exact sent label other (first ▸ List.mem_cons_of_mem _ member)
    · intro label size contents phase
      cases phase
      exact extractContents_short (sent _ _ (first ▸ List.mem_cons_self))
  | receiveFinished _ first =>
    refine ⟨empty, read, ?_, nofun⟩
    intro label other member
    exact sent label other (first ▸ List.mem_cons_of_mem _ member)
  | write writing =>
    cases received _ _ _ writing
    refine ⟨?_, read, sent, nofun⟩
    rw [empty]
    rfl
  | ignore => exact ⟨empty, read, sent, nofun⟩
  | sendEnd =>
    refine ⟨empty, nofun, ?_, received⟩
    intro label other member
    rcases List.mem_append.mp member with before | last
    · exact sent label other before
    · cases List.mem_singleton.mp last

theorem nil_of_complete {source : Bytes} (complete : TransferComplete .x64 source) :
    source = [] := by
  obtain ⟨t, ⟨actions, run⟩, done⟩ := complete.ends [] Transfer.start (.nil _)
  have nothing : WritesNothing t := run.invariant
    (fun _ _ _ nothing _ taken => writesNothing_step nothing taken)
    ⟨rfl, nofun, nofun, nofun⟩
  rw [← complete.whole actions t run (by rw [done]; rfl), nothing.empty]

/-- A file is transferred completely exactly if it is empty or, on Win32, smaller than 4 GiB
    or large modulo 2^32. -/
theorem transferComplete_iff (platform : Platform) (source : Bytes) :
    TransferComplete platform source ↔ Transferable platform source := by
  constructor
  · intro complete
    cases platform with
    | win32 => exact Or.inr ⟨rfl, size_of_complete complete⟩
    | x64 => exact Or.inl (nil_of_complete complete)
  · exact transferComplete_of_transferable

/-- A file of 4 GiB arrives empty. -/
theorem transferComplete_four_gib : ¬ TransferComplete .win32 (List.replicate (2 ^ 32) 0) := by
  intro complete
  rcases size_of_complete complete with small | large
  · rw [List.length_replicate] at small
    exact Nat.lt_irrefl _ small
  · rw [List.length_replicate, Nat.mod_self] at large
    exact Nat.not_lt_zero _ large

end FileSync
