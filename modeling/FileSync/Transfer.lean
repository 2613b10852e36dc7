import FileSync.Basic
import FileSync.Library.Runs

/-!
# sendFile and receiveFile

The pair of loops that moves one file over a TCP connection. The server reads the file in
chunks of 1024 bytes and never seeks; it labels each chunk with the position that the client
reported last. Both positions and the file length are 32 bits wide.
-/

namespace FileSync

open TransitionSystem

/-- What `sendFile` sends: pid 100 with a position and some contents, or pid 101. -/
inductive ServerPacket where
  | chunk (pos : UInt32) (contents : Bytes)
  | finished

/-- What `receiveFile` sends: its position, or an empty packet. -/
inductive ClientPacket where
  | position (pos : UInt32)
  | empty

/-- Where `sendFile` is. -/
inductive ServerPhase where
  | accepting
  /-- At the condition of the loop. -/
  | testing
  | sending (contents : Bytes)
  /-- Waiting for the position of the client. -/
  | receiving
  /-- Out of the loop, before pid 101 is sent. -/
  | ending
  /-- Waiting for the client's empty packet. -/
  | closing
  | done

/-- The variables of `sendFile` and its file stream. -/
structure SendFile where
  phase : ServerPhase
  length : UInt32
  pos : UInt32
  /-- The offset of the file stream. -/
  offset : Nat
  /-- The `failbit` of the file stream. -/
  failed : Bool

/-- Where `receiveFile` is. -/
inductive ClientPhase where
  | connecting
  | receiving
  | writing (serverPos length : UInt32) (contents : Bytes)
  | responding
  /-- Out of the loop, before the empty packet is sent. -/
  | ending
  | done

/-- The variables of `receiveFile` and what its stream was given. -/
structure ReceiveFile where
  phase : ClientPhase
  pos : UInt32
  /-- The file that was truncated when it was opened, as written so far. -/
  file : Bytes

/-- The two loops, with the packets between them. -/
structure Transfer where
  server : SendFile
  client : ReceiveFile
  toClient : List ServerPacket
  toServer : List ClientPacket

/-- The steps of `sendFile` and `receiveFile`. -/
inductive TransferAction where
  | connect
  | accept
  /-- The server looks at the condition and reads the next chunk or leaves the loop. -/
  | test
  | send
  | receive
  | write
  | respond
  | receiveResponse
  | sendEnd
  | respondEnd
  | receiveEnd

/-- `chunkSize` of `sendFile`. -/
def chunkSize : Nat := 1024

/-- `file.read(buffer, chunkSize)` and `gcount`: a stream that has failed reads nothing. -/
def readChunk (source : Bytes) (offset : Nat) (failed : Bool) : Bytes :=
  if failed then [] else (source.drop offset).take chunkSize

/-- A 32-bit length as `sf::Packet` writes it. -/
def lengthBytes (n : Nat) : Bytes :=
  [UInt8.ofNat (n >>> 24), UInt8.ofNat (n >>> 16), UInt8.ofNat (n >>> 8), UInt8.ofNat n]

/-- What the client extracts as `length >> contents` where the server inserted
    `contents.size() << contents`. A `std::size_t` of 64 bits fills `length` and the length of
    the string, so that the string starts with its own length. -/
def extractContents : Platform → Bytes → UInt32 × Bytes
  | .win32, contents => (UInt32.ofNat contents.length, contents)
  | .x64, contents =>
    (UInt32.ofNat (contents.length >>> 32),
      (lengthBytes contents.length ++ contents).take (contents.length % 2 ^ 32))

/-- One step of `sendFile` or `receiveFile` (Node.cpp 108-145, 147-183), where `source` is the
    contents of the server's file. -/
def transferStep (platform : Platform) (source : Bytes) :
    TransferAction → Transfer → Option Transfer
  | .connect, t =>
    match t.client.phase with
    | .connecting => some { t with client := { t.client with phase := .receiving } }
    | _ => none
  | .accept, t =>
    match t.server.phase, t.client.phase with
    | .accepting, .connecting => none
    | .accepting, _ => some { t with server := { t.server with
        phase := .testing, length := UInt32.ofNat source.length, pos := 0, offset := 0 } }
    | _, _ => none
  | .test, t =>
    match t.server.phase with
    | .testing =>
      if t.server.pos < t.server.length then
        let contents := readChunk source t.server.offset t.server.failed
        some { t with server := { t.server with
          phase := .sending contents
          offset := t.server.offset + contents.length
          failed := t.server.failed || decide (contents.length < chunkSize) } }
      else some { t with server := { t.server with phase := .ending } }
    | _ => none
  | .send, t =>
    match t.server.phase with
    | .sending contents => some { t with
        server := { t.server with phase := .receiving }
        toClient := t.toClient ++ [.chunk t.server.pos contents] }
    | _ => none
  | .receive, t =>
    match t.client.phase, t.toClient with
    | .receiving, .chunk serverPos contents :: toClient =>
      let (length, contents) := extractContents platform contents
      some { t with
        client := { t.client with phase := .writing serverPos length contents }, toClient }
    | .receiving, .finished :: toClient =>
      some { t with client := { t.client with phase := .ending }, toClient }
    | _, _ => none
  | .write, t =>
    match t.client.phase with
    | .writing serverPos length contents =>
      if t.client.pos = serverPos then
        let file := t.client.file ++ contents.take length.toNat
        some { t with client := { phase := .responding, pos := UInt32.ofNat file.length, file } }
      else some { t with client := { t.client with phase := .responding } }
    | _ => none
  | .respond, t =>
    match t.client.phase with
    | .responding => some { t with
        client := { t.client with phase := .receiving }
        toServer := t.toServer ++ [.position t.client.pos] }
    | _ => none
  | .receiveResponse, t =>
    match t.server.phase, t.toServer with
    | .receiving, .position clientPos :: toServer => some { t with
        server := { t.server with phase := .testing, pos := clientPos }, toServer }
    | _, _ => none
  | .sendEnd, t =>
    match t.server.phase with
    | .ending => some { t with
        server := { t.server with phase := .closing }
        toClient := t.toClient ++ [.finished] }
    | _ => none
  | .respondEnd, t =>
    match t.client.phase with
    | .ending => some { t with
        client := { t.client with phase := .done }
        toServer := t.toServer ++ [.empty] }
    | _ => none
  | .receiveEnd, t =>
    match t.server.phase, t.toServer with
    | .closing, _ :: toServer => some { t with
        server := { t.server with phase := .done }, toServer }
    | _, _ => none

/-- The server has opened the file and the client has truncated its own. -/
def Transfer.start : Transfer :=
  { server := { phase := .accepting, length := 0, pos := 0, offset := 0, failed := false }
    client := { phase := .connecting, pos := 0, file := [] }
    toClient := []
    toServer := [] }

/-- The server has left its loop. -/
def ServerPhase.leftLoop : ServerPhase → Bool
  | .ending | .closing | .done => true
  | _ => false

/-- The state after a step, with what the step needs. -/
inductive TransferEffect (platform : Platform) (source : Bytes) (t : Transfer) :
    TransferAction → Transfer → Prop where
  | connect : t.client.phase = .connecting →
      TransferEffect platform source t .connect
        { t with client := { t.client with phase := .receiving } }
  | accept : t.server.phase = .accepting → t.client.phase ≠ .connecting →
      TransferEffect platform source t .accept { t with server := { t.server with
        phase := .testing, length := UInt32.ofNat source.length, pos := 0, offset := 0 } }
  | read : t.server.phase = .testing → t.server.pos < t.server.length →
      TransferEffect platform source t .test { t with server := { t.server with
        phase := .sending (readChunk source t.server.offset t.server.failed)
        offset := t.server.offset + (readChunk source t.server.offset t.server.failed).length
        failed := t.server.failed ||
          decide ((readChunk source t.server.offset t.server.failed).length < chunkSize) } }
  | leave : t.server.phase = .testing → ¬ t.server.pos < t.server.length →
      TransferEffect platform source t .test
        { t with server := { t.server with phase := .ending } }
  | send {contents : Bytes} : t.server.phase = .sending contents →
      TransferEffect platform source t .send { t with
        server := { t.server with phase := .receiving }
        toClient := t.toClient ++ [.chunk t.server.pos contents] }
  | receive {serverPos : UInt32} {contents : Bytes} {toClient : List ServerPacket} :
      t.client.phase = .receiving → t.toClient = .chunk serverPos contents :: toClient →
      TransferEffect platform source t .receive { t with
        client := { t.client with
          phase := .writing serverPos (extractContents platform contents).1
            (extractContents platform contents).2 }
        toClient }
  | receiveFinished {toClient : List ServerPacket} :
      t.client.phase = .receiving → t.toClient = .finished :: toClient →
      TransferEffect platform source t .receive
        { t with client := { t.client with phase := .ending }, toClient }
  | write {length : UInt32} {contents : Bytes} :
      t.client.phase = .writing t.client.pos length contents →
      TransferEffect platform source t .write { t with
        client :=
          { phase := .responding
            pos := UInt32.ofNat (t.client.file ++ contents.take length.toNat).length
            file := t.client.file ++ contents.take length.toNat } }
  | ignore {serverPos length : UInt32} {contents : Bytes} :
      t.client.phase = .writing serverPos length contents → t.client.pos ≠ serverPos →
      TransferEffect platform source t .write
        { t with client := { t.client with phase := .responding } }
  | respond : t.client.phase = .responding →
      TransferEffect platform source t .respond { t with
        client := { t.client with phase := .receiving }
        toServer := t.toServer ++ [.position t.client.pos] }
  | receiveResponse {clientPos : UInt32} {toServer : List ClientPacket} :
      t.server.phase = .receiving → t.toServer = .position clientPos :: toServer →
      TransferEffect platform source t .receiveResponse { t with
        server := { t.server with phase := .testing, pos := clientPos }, toServer }
  | sendEnd : t.server.phase = .ending →
      TransferEffect platform source t .sendEnd { t with
        server := { t.server with phase := .closing }
        toClient := t.toClient ++ [.finished] }
  | respondEnd : t.client.phase = .ending →
      TransferEffect platform source t .respondEnd { t with
        client := { t.client with phase := .done }
        toServer := t.toServer ++ [.empty] }
  | receiveEnd {packet : ClientPacket} {toServer : List ClientPacket} :
      t.server.phase = .closing → t.toServer = packet :: toServer →
      TransferEffect platform source t .receiveEnd
        { t with server := { t.server with phase := .done }, toServer }

theorem transferEffect_of_step {platform : Platform} {source : Bytes} {action : TransferAction}
    {t next : Transfer} (taken : transferStep platform source action t = some next) :
    TransferEffect platform source t action next := by
  cases action with
  | connect =>
    simp only [transferStep] at taken
    split at taken <;> cases taken
    exact .connect ‹_›
  | accept =>
    simp only [transferStep] at taken
    split at taken <;> cases taken
    exact .accept ‹_› ‹_›
  | test =>
    simp only [transferStep] at taken
    split at taken
    · split at taken <;> cases taken
      · exact .read ‹_› ‹_›
      · exact .leave ‹_› ‹_›
    · cases taken
  | send =>
    simp only [transferStep] at taken
    split at taken <;> cases taken
    exact .send ‹_›
  | receive =>
    simp only [transferStep] at taken
    split at taken <;> cases taken
    · exact .receive ‹_› ‹_›
    · exact .receiveFinished ‹_› ‹_›
  | write =>
    simp only [transferStep] at taken
    split at taken
    · rename_i writing
      split at taken <;> cases taken
      · rename_i same
        subst same
        exact .write writing
      · exact .ignore writing ‹_›
    · cases taken
  | respond =>
    simp only [transferStep] at taken
    split at taken <;> cases taken
    exact .respond ‹_›
  | receiveResponse =>
    simp only [transferStep] at taken
    split at taken <;> cases taken
    exact .receiveResponse ‹_› ‹_›
  | sendEnd =>
    simp only [transferStep] at taken
    split at taken <;> cases taken
    exact .sendEnd ‹_›
  | respondEnd =>
    simp only [transferStep] at taken
    split at taken <;> cases taken
    exact .respondEnd ‹_›
  | receiveEnd =>
    simp only [transferStep] at taken
    split at taken <;> cases taken
    exact .receiveEnd ‹_› ‹_›

/-! ## The coupling of the two loops -/

/-- The phases and packets that go together on Win32, with the bytes that were read and not
    written yet. The label of a chunk on its way is the position of the client. -/
inductive ControlPoint (clientPos : UInt32) : UInt32 →
    ServerPhase → ClientPhase → List ServerPacket → List ClientPacket → Bytes → Prop where
  | connecting (pos : UInt32) : ControlPoint clientPos pos .accepting .connecting [] [] []
  | accepting (pos : UInt32) : ControlPoint clientPos pos .accepting .receiving [] [] []
  | testing : ControlPoint clientPos clientPos .testing .receiving [] [] []
  | sending (contents : Bytes) :
      ControlPoint clientPos clientPos (.sending contents) .receiving [] [] contents
  | sent (pos : UInt32) (contents : Bytes) : ControlPoint clientPos pos
      .receiving .receiving [.chunk clientPos contents] [] contents
  | writing (pos : UInt32) (contents : Bytes) : ControlPoint clientPos pos
      .receiving (.writing clientPos (UInt32.ofNat contents.length) contents) [] [] contents
  | responding (pos : UInt32) : ControlPoint clientPos pos .receiving .responding [] [] []
  | responded (pos : UInt32) : ControlPoint clientPos pos
      .receiving .receiving [] [.position clientPos] []
  | ending (pos : UInt32) : ControlPoint clientPos pos .ending .receiving [] [] []
  | sentEnd (pos : UInt32) : ControlPoint clientPos pos .closing .receiving [.finished] [] []
  | respondingEnd (pos : UInt32) : ControlPoint clientPos pos .closing .ending [] [] []
  | respondedEnd (pos : UInt32) : ControlPoint clientPos pos .closing .done [] [.empty] []
  | done (pos : UInt32) : ControlPoint clientPos pos .done .done [] [] []

/-- The invariant of the pair on Win32. -/
structure Coupled (source : Bytes) (t : Transfer) : Prop where
  /-- What the server has read is what the client has written and what is on its way. -/
  control : ∃ inFlight, ControlPoint t.client.pos t.server.pos t.server.phase t.client.phase
    t.toClient t.toServer inFlight ∧ t.client.file ++ inFlight = source.take t.server.offset ∧
    inFlight.length ≤ chunkSize
  within : t.server.offset ≤ source.length
  tell : t.client.pos = UInt32.ofNat t.client.file.length
  /-- The server reads whole chunks until the end of the file. -/
  aligned : (t.server.failed = false ∧ chunkSize ∣ t.server.offset) ∨
    t.server.offset = source.length
  fresh : t.server.phase = .accepting → t.server.offset = 0 ∧ t.server.failed = false
  measured : t.server.phase ≠ .accepting → t.server.length = UInt32.ofNat source.length
  exited : t.server.phase.leftLoop = true →
    UInt32.ofNat source.length ≤ UInt32.ofNat t.server.offset

theorem coupled_start (source : Bytes) : Coupled source Transfer.start where
  control := ⟨[], .connecting 0, rfl, Nat.zero_le _⟩
  within := Nat.zero_le _
  tell := rfl
  aligned := Or.inl ⟨rfl, Nat.dvd_zero _⟩
  fresh := fun _ => ⟨rfl, rfl⟩
  measured := fun h => absurd rfl h
  exited := nofun

/-- A stream that is at the end of the file reads nothing, whether it has failed or not. -/
theorem readChunk_eq {source : Bytes} {offset : Nat} {failed : Bool}
    (aligned : (failed = false ∧ chunkSize ∣ offset) ∨ offset = source.length) :
    readChunk source offset failed = (source.drop offset).take chunkSize := by
  unfold readChunk
  rcases aligned with ⟨rfl, _⟩ | rfl
  · rfl
  · simp

theorem length_readChunk_le (source : Bytes) (offset : Nat) (failed : Bool) :
    (readChunk source offset failed).length ≤ chunkSize := by
  unfold readChunk
  split
  · exact Nat.zero_le _
  · exact List.length_take_le _ _

theorem length_readChunk {source : Bytes} {offset : Nat} {failed : Bool}
    (aligned : (failed = false ∧ chunkSize ∣ offset) ∨ offset = source.length) :
    (readChunk source offset failed).length = min chunkSize (source.length - offset) := by
  rw [readChunk_eq aligned, List.length_take, List.length_drop]

theorem take_append_readChunk {source : Bytes} {offset : Nat} {failed : Bool}
    (aligned : (failed = false ∧ chunkSize ∣ offset) ∨ offset = source.length) :
    source.take offset ++ readChunk source offset failed =
      source.take (offset + (readChunk source offset failed).length) := by
  have whole : (source.drop offset).take chunkSize =
      (source.drop offset).take (min chunkSize (source.length - offset)) := by
    rw [← List.length_drop]
    exact List.take_eq_take_min
  rw [length_readChunk aligned, readChunk_eq aligned, List.take_add, whole]

/-- A short chunk ends at the end of the file. -/
theorem aligned_readChunk {source : Bytes} {offset : Nat} {failed : Bool}
    (within : offset ≤ source.length)
    (aligned : (failed = false ∧ chunkSize ∣ offset) ∨ offset = source.length) :
    ((failed || decide ((readChunk source offset failed).length < chunkSize)) = false ∧
        chunkSize ∣ offset + (readChunk source offset failed).length) ∨
      offset + (readChunk source offset failed).length = source.length := by
  rw [length_readChunk aligned]
  by_cases whole : chunkSize ≤ source.length - offset
  · rw [Nat.min_eq_left whole]
    rcases aligned with ⟨rfl, divides⟩ | atEnd
    · left
      exact ⟨by simp, Nat.dvd_add divides (Nat.dvd_refl _)⟩
    · unfold chunkSize at whole
      omega
  · right
    omega

/-- On Win32 the client extracts what the server inserted; of an empty chunk, on x64 too. -/
theorem extractContents_eq {platform : Platform} {contents : Bytes}
    (agree : platform = .win32 ∨ contents = []) :
    extractContents platform contents = (UInt32.ofNat contents.length, contents) := by
  rcases agree with rfl | rfl
  · rfl
  · cases platform <;> rfl

/-- What the step reads from the file. -/
def readBytes (source : Bytes) (t : Transfer) : TransferAction → Bytes
  | .test => if t.server.pos < t.server.length then
      readChunk source t.server.offset t.server.failed else []
  | _ => []

/-- On Win32 the client has written what the server has read, up to the bytes on their way. -/
structure Streamed (served : Bytes) (t : Transfer) : Prop where
  control : ∃ inFlight, ControlPoint t.client.pos t.server.pos t.server.phase t.client.phase
    t.toClient t.toServer inFlight ∧ t.client.file ++ inFlight = served ∧
    inFlight.length ≤ chunkSize
  tell : t.client.pos = UInt32.ofNat t.client.file.length
  fresh : t.server.phase = .accepting → served = []

/-- On Win32 the steps that do not read keep the two loops together; on an empty file on x64,
    too. -/
theorem streamed_still {platform : Platform} {served source : Bytes} {action : TransferAction}
    {t next : Transfer} (agree : platform = .win32 ∨ served = []) (streamed : Streamed served t)
    (taken : transferStep platform source action t = some next) (still : action ≠ .test) :
    Streamed served next := by
  obtain ⟨⟨phase, length, pos, offset, failed⟩, ⟨clientPhase, clientPos, file⟩, toClient,
    toServer⟩ := t
  obtain ⟨⟨inFlight, control, stored, short⟩, tell, fresh⟩ := streamed
  simp only at control stored tell fresh
  cases action with
  | connect =>
    cases control <;> cases taken
    exact ⟨⟨[], .accepting _, stored, short⟩, tell, fresh⟩
  | accept =>
    cases control <;> cases taken
    obtain rfl := fresh rfl
    have empty : file = [] := by simpa using stored
    subst empty tell
    exact ⟨⟨[], .testing, rfl, short⟩, rfl, nofun⟩
  | test => exact absurd rfl still
  | send =>
    cases control <;> cases taken
    exact ⟨⟨_, .sent _ _, stored, short⟩, tell, nofun⟩
  | receive =>
    cases control with
    | sent =>
      have empty : served = [] → inFlight = [] := by
        intro none
        rw [none] at stored
        exact (List.append_eq_nil_iff.mp stored).2
      simp only [transferStep, extractContents_eq (agree.imp_right empty)] at taken
      cases taken
      exact ⟨⟨_, .writing _ _, stored, short⟩, tell, fresh⟩
    | sentEnd =>
      cases taken
      exact ⟨⟨_, .respondingEnd _, stored, short⟩, tell, fresh⟩
    | _ => cases taken
  | write =>
    cases control <;> try cases taken
    have chunk : (UInt32.ofNat inFlight.length).toNat = inFlight.length :=
      UInt32.toNat_ofNat_of_lt (Nat.lt_of_le_of_lt short (by decide))
    simp only [transferStep, if_true, chunk, List.take_length] at taken
    cases taken
    subst stored
    exact ⟨⟨[], .responding _, List.append_nil _, Nat.zero_le _⟩, rfl, fresh⟩
  | respond =>
    cases control <;> cases taken
    exact ⟨⟨_, .responded _, stored, short⟩, tell, fresh⟩
  | receiveResponse =>
    cases control <;> cases taken
    exact ⟨⟨_, .testing, stored, short⟩, tell, nofun⟩
  | sendEnd =>
    cases control <;> cases taken
    exact ⟨⟨_, .sentEnd _, stored, short⟩, tell, nofun⟩
  | respondEnd =>
    cases control <;> cases taken
    exact ⟨⟨_, .respondedEnd _, stored, short⟩, tell, fresh⟩
  | receiveEnd =>
    cases control <;> cases taken
    exact ⟨⟨_, .done _, stored, short⟩, tell, nofun⟩

/-- What is read goes on its way behind what has been served. -/
theorem streamed_test {platform : Platform} {served source : Bytes} {t next : Transfer}
    (streamed : Streamed served t)
    (taken : transferStep platform source .test t = some next) :
    Streamed (served ++ readBytes source t .test) next := by
  obtain ⟨⟨phase, length, pos, offset, failed⟩, ⟨clientPhase, clientPos, file⟩, toClient,
    toServer⟩ := t
  obtain ⟨⟨inFlight, control, stored, short⟩, tell, fresh⟩ := streamed
  simp only at control stored tell fresh
  cases control <;> try cases taken
  simp only [transferStep] at taken
  rw [List.append_nil] at stored
  subst stored
  simp only [readBytes]
  split at taken <;> cases taken
  · rename_i less
    rw [if_pos less]
    exact ⟨⟨_, .sending _, rfl, length_readChunk_le source offset failed⟩, tell, nofun⟩
  · rename_i notLess
    rw [if_neg notLess, List.append_nil]
    exact ⟨⟨[], .ending _, List.append_nil _, short⟩, tell, nofun⟩

theorem streamed_step {platform : Platform} {served source : Bytes} {action : TransferAction}
    {t next : Transfer} (agree : platform = .win32 ∨ served = []) (streamed : Streamed served t)
    (taken : transferStep platform source action t = some next) :
    Streamed (served ++ readBytes source t action) next := by
  by_cases reads : action = .test
  · subst reads
    exact streamed_test streamed taken
  · have nothing : readBytes source t action = [] := by
      cases action <;> first | rfl | exact absurd rfl reads
    rw [nothing, List.append_nil]
    exact streamed_still agree streamed taken reads

/-- At the condition of the loop all that was served has been written. -/
theorem pos_of_streamed {served : Bytes} {t : Transfer} (streamed : Streamed served t)
    (testing : t.server.phase = .testing) :
    t.server.pos = UInt32.ofNat served.length ∧ t.client.file = served := by
  obtain ⟨⟨phase, length, pos, offset, failed⟩, ⟨clientPhase, clientPos, file⟩, toClient,
    toServer⟩ := t
  obtain ⟨⟨inFlight, control, stored, -⟩, tell, -⟩ := streamed
  simp only at control stored tell testing ⊢
  subst testing
  cases control
  rw [List.append_nil] at stored
  exact ⟨by rw [tell, stored], stored⟩

/-- What has been read of a file that stays as it is. -/
theorem streamed_of_coupled {source : Bytes} {t : Transfer} (coupled : Coupled source t) :
    Streamed (source.take t.server.offset) t := by
  refine ⟨coupled.control, coupled.tell, fun accepting => ?_⟩
  rw [(coupled.fresh accepting).1, List.take_zero]

theorem take_append_readBytes {platform : Platform} {source : Bytes} {action : TransferAction}
    {t next : Transfer} (coupled : Coupled source t)
    (taken : transferStep platform source action t = some next) :
    source.take t.server.offset ++ readBytes source t action =
      source.take next.server.offset := by
  cases transferEffect_of_step taken with
  | accept accepting =>
    rw [(coupled.fresh accepting).1]
    rfl
  | read testing less =>
    rw [readBytes, if_pos less]
    exact take_append_readChunk coupled.aligned
  | leave testing notLess => rw [readBytes, if_neg notLess, List.append_nil]
  | _ => exact List.append_nil _

theorem coupled_step {platform : Platform} {source : Bytes} {action : TransferAction}
    {t next : Transfer} (agree : platform = .win32 ∨ source = []) (coupled : Coupled source t)
    (taken : transferStep platform source action t = some next) : Coupled source next := by
  have streamed := streamed_of_coupled coupled
  have empty : source = [] → source.take t.server.offset = [] := by
    intro none
    rw [none, List.take_nil]
  obtain ⟨control, tell, -⟩ := streamed_step (agree.imp_right empty) streamed taken
  rw [take_append_readBytes coupled taken] at control
  obtain ⟨-, within, -, aligned, fresh, measured, exited⟩ := coupled
  cases transferEffect_of_step taken with
  | accept accepting =>
    exact ⟨control, Nat.zero_le _, tell, Or.inl ⟨(fresh accepting).2, Nat.dvd_zero _⟩, nofun,
      fun _ => rfl, nofun⟩
  | read testing less =>
    refine ⟨control, ?_, tell, aligned_readChunk within aligned, nofun,
      fun _ => measured (by rw [testing]; nofun), nofun⟩
    change t.server.offset + (readChunk source t.server.offset t.server.failed).length ≤ _
    rw [length_readChunk aligned]
    omega
  | leave testing notLess =>
    have size := measured (by rw [testing]; nofun)
    refine ⟨control, within, tell, aligned, nofun, fun _ => size, fun _ => ?_⟩
    rwa [UInt32.not_lt, size, (pos_of_streamed streamed testing).1, List.length_take,
      Nat.min_eq_left within] at notLess
  | send phase | receiveResponse phase =>
    exact ⟨control, within, tell, aligned, nofun, fun _ => measured (by rw [phase]; nofun), nofun⟩
  | sendEnd phase | receiveEnd phase =>
    exact ⟨control, within, tell, aligned, nofun, fun _ => measured (by rw [phase]; nofun),
      fun _ => exited (by rw [phase]; rfl)⟩
  | _ => exact ⟨control, within, tell, aligned, fresh, measured, exited⟩

theorem coupled_run {platform : Platform} {source : Bytes} {actions : List TransferAction}
    {t : Transfer} (agree : platform = .win32 ∨ source = [])
    (run : Run (transferStep platform source) anyStep Transfer.start actions t) :
    Coupled source t :=
  run.invariant (fun _ _ _ coupled _ taken => coupled_step agree coupled taken)
    (coupled_start source)

/-! ## The prefix invariant -/

/-- The contents that a packet carries. -/
def ServerPacket.contents : ServerPacket → Bytes
  | .chunk _ contents => contents
  | .finished => []

/-- The bytes that the server has read and the client has not written yet. -/
def Transfer.unwritten (t : Transfer) : Bytes :=
  match t.server.phase, t.client.phase with
  | .sending contents, _ => contents
  | _, .writing _ _ contents => contents
  | _, _ => t.toClient.flatMap ServerPacket.contents

/-- The client has a prefix of the file, and what the server has read beyond it is on its way. -/
structure PrefixInvariant (source : Bytes) (t : Transfer) : Prop where
  isPrefix : t.client.file <+: source
  /-- Between two rounds and after the last one, all that was read has been written. -/
  betweenRounds : t.server.phase = .testing ∨ t.server.phase.leftLoop = true →
    t.client.file.length = t.server.offset
  label : ∀ pos contents, .chunk pos contents ∈ t.toClient → pos = t.client.pos
  /-- The client writes the chunk that it has received, and the whole of it. -/
  accepted : ∀ serverPos length contents, t.client.phase = .writing serverPos length contents →
    serverPos = t.client.pos ∧ contents.take length.toNat = contents
  /-- Each byte that the server has read is written once or on its way, in order. -/
  once : t.client.file ++ t.unwritten = source.take t.server.offset

theorem unwritten_of_control {t : Transfer} {inFlight : Bytes}
    (control : ControlPoint t.client.pos t.server.pos t.server.phase t.client.phase t.toClient
      t.toServer inFlight) : t.unwritten = inFlight := by
  obtain ⟨⟨phase, length, pos, offset, failed⟩, ⟨clientPhase, clientPos, file⟩, toClient,
    toServer⟩ := t
  simp only at control
  cases control <;> simp [Transfer.unwritten, ServerPacket.contents]

theorem prefixInvariant_of_coupled {source : Bytes} {t : Transfer} (coupled : Coupled source t) :
    PrefixInvariant source t := by
  obtain ⟨⟨phase, length, pos, offset, failed⟩, ⟨clientPhase, clientPos, file⟩, toClient,
    toServer⟩ := t
  obtain ⟨⟨inFlight, control, stored, short⟩, within, -, -, -, -, -⟩ := coupled
  refine ⟨?_, ?_, ?_, ?_, ?_⟩
  · exact (List.prefix_append file inFlight).trans (stored ▸ List.take_prefix offset source)
  · intro between
    simp only at control between
    have empty : inFlight = [] := by
      cases control <;> first | rfl | simp [ServerPhase.leftLoop] at between
    rw [empty, List.append_nil] at stored
    simp only at stored within ⊢
    rw [stored, List.length_take, Nat.min_eq_left within]
  · intro serverPos contents member
    simp only at control member
    cases control <;> simp at member
    exact member.1
  · intro serverPos size contents phase
    simp only at control phase
    subst phase
    cases control
    have chunk : (UInt32.ofNat inFlight.length).toNat = inFlight.length :=
      UInt32.toNat_ofNat_of_lt (Nat.lt_of_le_of_lt short (by decide))
    exact ⟨rfl, by rw [chunk, List.take_length]⟩
  · rw [unwritten_of_control control]
    exact stored

/-- The chunk protocol keeps the client's file a prefix of the source. -/
theorem transfer_prefix {source : Bytes} {actions : List TransferAction} {t : Transfer}
    (run : Run (transferStep .win32 source) anyStep Transfer.start actions t) :
    PrefixInvariant source t :=
  prefixInvariant_of_coupled (coupled_run (Or.inl rfl) run)

/-- A file of three bytes, after its chunk was written. -/
theorem transfer_prefix_three :
    PrefixInvariant [1, 2, 3]
      { server := { phase := .receiving, length := 3, pos := 0, offset := 3, failed := true }
        client := { phase := .responding, pos := 3, file := [1, 2, 3] }
        toClient := []
        toServer := [] } := by
  have run : Run (transferStep .win32 [1, 2, 3]) anyStep Transfer.start
      [.connect, .accept, .test, .send, .receive, .write] _ := Run.of_exec rfl
  exact transfer_prefix run

end FileSync
