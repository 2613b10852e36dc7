import FileSync.OutputStream
import FileSync.TransferSize

/-!
# Fetches that fail

The client truncates its file before it connects, ignores what becomes of the connection, and
writes each chunk in place. A write that fails leaves the position at `2^32 - 1`, which the server
takes for the end, and nobody asks whether `file.close()` has got the last bytes to the disk. A
client whose connection is lost loops for ever and never closes its file.
-/

namespace FileSync

open TransitionSystem

/-- The connection of a fetch. -/
inductive Link where
  /-- The target has not been opened yet. -/
  | unopened
  /-- `connect` has not been called yet. -/
  | opened
  /-- `connect` has failed; `receiveFile` is run all the same. -/
  | refused
  | up
  /-- From here on every send and receive fails. -/
  | lost

/-- The `std::ofstream` of the client. -/
inductive StreamState where
  | good
  /-- The file could not be opened, or a write to the disk has failed. -/
  | failed
  | closed
  deriving DecidableEq

/-- `negotiateTCPTransfer` of the client from the reply on (Node.cpp 325-331), with the transfer. -/
structure Fetch where
  link : Link
  /-- What is on the client's disk at the path. -/
  target : Option Bytes
  transfer : Transfer
  stream : StreamState

/-- The steps of the client and of the transfer, and the failures. -/
inductive FetchAction where
  | openTarget
  /-- The target can not be opened; this is not asked. -/
  | failOpen
  | connect
  | refuse
  /-- A step of the two loops, whose messages are lost if the connection is. -/
  | transfer (action : TransferAction)
  | lose
  /-- A write that fails with so many bytes on the disk, after which `tellp` gives -1. -/
  | failWrite (count : Nat)
  /-- The server does not receive the client's position and goes on with the old one. -/
  | failResponse
  /-- The server does not receive the client's empty packet. -/
  | failEnd
  /-- `file.close()` -/
  | close
  /-- A `file.close()` that fails with so many bytes on the disk. -/
  | failClose (count : Nat)

/-- The messages on their way are lost. -/
def Transfer.dropped (t : Transfer) : Transfer := { t with toClient := [], toServer := [] }

/-- The write of a stream that has failed: nothing is written, and `tellp` gives -1. -/
def Transfer.unwritable (t : Transfer) : Option Transfer :=
  match t.client.phase with
  | .writing serverPos _ _ => some { t with client := { t.client with
      phase := .responding
      pos := if t.client.pos = serverPos then 0xFFFFFFFF else t.client.pos } }
  | _ => none

/-- A step of the loops as the stream lets it happen. -/
def Fetch.loopStep (platform : Platform) (source : Bytes) (s : Fetch) (action : TransferAction) :
    Option Transfer :=
  match s.stream, action with
  | .failed, .write => s.transfer.unwritable
  | _, _ => transferStep platform source action s.transfer

/-- The state after a step of the loops. -/
def Fetch.move (buffering : Buffering) (s : Fetch) (t : Transfer) : Fetch :=
  { s with
    transfer := match s.link with
      | .lost => t.dropped
      | _ => t
    target := match s.stream with
      | .good => some (buffering.stored t.client.file)
      | _ => s.target }

/-- The client's file once it has written what it has received. -/
def Transfer.settled (t : Transfer) : Bytes :=
  match t.client.phase with
  | .writing serverPos length contents =>
    if t.client.pos = serverPos then t.client.file ++ contents.take length.toNat
    else t.client.file
  | _ => t.client.file

/-- One step of `negotiateTCPTransfer` (Node.cpp 325-331) and the two loops (108-183), or a failure
    of the connection or of the client's stream. -/
def fetchStep (platform : Platform) (buffering : Buffering) (source : Bytes) :
    FetchAction → Fetch → Option Fetch
  | .openTarget, s =>
    match s.link with
    | .unopened => some { s with link := .opened, target := some [] }
    | _ => none
  | .failOpen, s =>
    match s.link with
    | .unopened => some { s with link := .opened, stream := .failed }
    | _ => none
  | .connect, s =>
    match s.link with
    | .opened => (transferStep platform source .connect s.transfer).map fun t =>
        { s with link := .up, transfer := t }
    | _ => none
  | .refuse, s =>
    match s.link with
    | .opened => some { s with link := .refused }
    | _ => none
  | .transfer action, s =>
    match s.link with
    | .up | .lost => (s.loopStep platform source action).map (s.move buffering)
    | _ => none
  | .lose, s =>
    match s.link with
    | .up => some { s with link := .lost, transfer := s.transfer.dropped }
    | _ => none
  | .failWrite count, s =>
    match s.transfer.client.phase with
    | .writing serverPos _ _ =>
      -- a write that fits into the buffer does not get to the disk and can not fail
      if s.transfer.client.pos = serverPos ∧ s.stream = .good ∧
          buffering.onDisk s.transfer.client.file.length <
            buffering.onDisk s.transfer.settled.length ∧
          buffering.onDisk s.transfer.client.file.length ≤ count then
        some { s with
          target := some (s.transfer.settled.take count)
          transfer := { s.transfer with client :=
            { s.transfer.client with phase := .responding, pos := 0xFFFFFFFF } }
          stream := .failed }
      else none
    | _ => none
  | .failResponse, s =>
    match s.link, s.transfer.server.phase with
    | .lost, .receiving => some { s with transfer := { s.transfer with
        server := { s.transfer.server with phase := .testing } } }
    | _, _ => none
  | .failEnd, s =>
    match s.link, s.transfer.server.phase with
    | .lost, .closing => some { s with transfer := { s.transfer with
        server := { s.transfer.server with phase := .done } } }
    | _, _ => none
  | .close, s =>
    match s.transfer.client.phase, s.stream with
    | .done, .good => some { s with target := some s.transfer.client.file, stream := .closed }
    | .done, .failed => some { s with stream := .closed }
    | _, _ => none
  | .failClose count, s =>
    match s.transfer.client.phase, s.stream with
    | .done, .good =>
      if buffering.flushed s.transfer.client.file = false ∧
          buffering.onDisk s.transfer.client.file.length ≤ count then
        some { s with target := some (s.transfer.client.file.take count), stream := .closed }
      else none
    | _, _ => none

/-- The reply was taken, and the target is as it was before. -/
def Fetch.start (before : Option Bytes) : Fetch :=
  { link := .unopened, target := before, transfer := Transfer.start, stream := .good }

/-! ## The condition -/

/-- Without a connection the client changes its file no more and does not get out of its loop. -/
def ClientPhase.hangs : ClientPhase → Bool
  | .writing .. | .ending | .done => false
  | _ => true

/-- The attempt of the client is over: it has closed its file, or it loops without a connection. -/
def Fetch.ended (s : Fetch) : Prop :=
  s.stream = .closed ∨ s.link = .refused ∨
    (s.link = .lost ∧ s.transfer.client.phase.hangs = true)

/-- What the file is when the attempt is over. -/
structure ReplacedAtomically (source : Bytes) (before : Option Bytes) (s : Fetch) : Prop where
  content : s.ended → s.target = before ∨ s.target = some source
  /-- "file received" or "file sent" -/
  reported : s.ended → s.transfer.client.phase = .done ∨ s.transfer.server.phase = .done →
    s.target = some source

/-- The client has received pid 101. -/
def Transfer.GotEnd (t : Transfer) : Prop :=
  t.client.phase = .ending ∨ t.client.phase = .done

/-- The server has a chunk to go, and does not get out of its loop without the client. -/
def Transfer.Stuck (source : Bytes) (t : Transfer) : Prop :=
  match t.server.phase with
  | .accepting => 0 < UInt32.ofNat source.length
  | .testing | .sending _ | .receiving => t.server.pos < t.server.length
  | _ => False

/-- The loops can handle the file's size; the connection is refused only where the served or the
    previous content is empty, and lost only after pid 101, or where the bytes on the disk are
    all those of the server, or where they are the previous content and the server has a chunk
    to go; where the target can not be opened it has the served content already, and where a
    write or `file.close()` fails all bytes are on the disk. -/
def harmless (platform : Platform) (buffering : Buffering) (source : Bytes)
    (before : Option Bytes) (s : Fetch) : FetchAction → Prop
  | .failOpen => before = some source
  | .connect => Transferable platform source
  | .refuse => s.stream = .good → source = [] ∨ before = some []
  | .lose => s.stream = .good → s.transfer.GotEnd ∨
      buffering.stored s.transfer.settled = source ∨
      before = some (buffering.stored s.transfer.settled) ∧ s.transfer.Stuck source
  | .failWrite count => s.transfer.settled.take count = source
  | .failClose count => s.transfer.client.file.take count = source
  | _ => True

/-! ## The invariant -/

/-- In a round of the loop the position is below the length. -/
def Transfer.PassedTest (t : Transfer) : Prop :=
  match t.server.phase with
  | .sending _ | .receiving => t.server.pos < t.server.length
  | _ => True

/-- What a client without a connection has, or will have once it has written what it received. -/
def Transfer.Lost (buffering : Buffering) (source : Bytes) (before : Option Bytes)
    (t : Transfer) : Prop :=
  (t.GotEnd ∧ t.client.file = source) ∨
    ¬ t.GotEnd ∧ (buffering.stored t.settled = source ∨
      before = some (buffering.stored t.settled) ∧ t.Stuck source)

/-- The states of a fetch whose steps are harmless. -/
inductive FetchInv (platform : Platform) (buffering : Buffering) (source : Bytes)
    (before : Option Bytes) : Fetch → Prop
  | unopened : FetchInv platform buffering source before
      ⟨.unopened, before, Transfer.start, .good⟩
  | opened : FetchInv platform buffering source before ⟨.opened, some [], Transfer.start, .good⟩
  | refused (same : source = [] ∨ before = some []) :
      FetchInv platform buffering source before ⟨.refused, some [], Transfer.start, .good⟩
  | up {t : Transfer} (transferable : Transferable platform source) (coupled : Coupled source t)
      (passed : t.PassedTest) :
      FetchInv platform buffering source before
        ⟨.up, some (buffering.stored t.client.file), t, .good⟩
  | lost {target : Option Bytes} {t : Transfer}
      (stored : target = some (buffering.stored t.client.file))
      (dropped : t.toClient = [] ∧ t.toServer = []) (content : t.Lost buffering source before) :
      FetchInv platform buffering source before ⟨.lost, target, t, .good⟩
  /-- Nothing more gets to the disk. -/
  | replaced {link : Link} {t : Transfer} {stream : StreamState} (isOpen : link ≠ .unopened)
      (notGood : stream ≠ .good) :
      FetchInv platform buffering source before ⟨link, some source, t, stream⟩

theorem passedTest_step {platform : Platform} {source : Bytes} {action : TransferAction}
    {t next : Transfer} (passed : t.PassedTest)
    (taken : transferStep platform source action t = some next) : next.PassedTest := by
  cases transferEffect_of_step taken with
  | read testing less => exact less
  | send sending =>
    simp only [Transfer.PassedTest, sending] at passed
    exact passed
  | accept | leave | receiveResponse | sendEnd | receiveEnd => trivial
  | _ => exact passed

/-- A server that is not stuck has sent the whole file. -/
theorem whole_or_stuck {platform : Platform} {source : Bytes} {t : Transfer}
    (transferable : Transferable platform source) (coupled : Coupled source t)
    (passed : t.PassedTest) :
    t.client.file = source ∧ t.client.phase.hangs = true ∨ t.GotEnd ∨ t.Stuck source := by
  have loop := loop_of_coupled transferable coupled
  have whole := whole_of_coupled transferable coupled
  obtain ⟨⟨phase, length, pos, offset, failed⟩, ⟨clientPhase, clientPos, file⟩, toClient,
    toServer⟩ := t
  obtain ⟨⟨inFlight, control, stored, -⟩, within, -, -, fresh, -, -⟩ := coupled
  simp only at control stored within fresh loop whole
  cases control with
  | connecting | accepting =>
    obtain ⟨rfl, -⟩ := fresh rfl
    have none : file = [] := by simpa using stored
    by_cases some : source = []
    · exact Or.inl ⟨none.trans some.symm, rfl⟩
    · refine Or.inr (Or.inr ?_)
      exact (ofNat_lt_ofNat_iff transferable within (Or.inl (Nat.dvd_zero _))).mpr
        (List.length_pos_iff.mpr some)
  | testing =>
    by_cases less : pos < length
    · exact Or.inr (Or.inr less)
    · have atEnd : offset = source.length := by
        have notLess := mt (loop rfl).mpr less
        omega
      have all : file = source := by
        rw [List.append_nil] at stored
        rw [stored, atEnd, List.take_length]
      exact Or.inl ⟨all, rfl⟩
  | sending | sent | writing | responding | responded => exact Or.inr (Or.inr passed)
  | ending | sentEnd => exact Or.inl ⟨whole rfl, rfl⟩
  | respondingEnd => exact Or.inr (Or.inl (Or.inl rfl))
  | respondedEnd | done => exact Or.inr (Or.inl (Or.inr rfl))

/-! ## A client without a connection -/

theorem settled_of_hangs {t : Transfer} (hangs : t.client.phase.hangs = true) :
    t.settled = t.client.file ∧ ¬ t.GotEnd := by
  unfold Transfer.settled Transfer.GotEnd
  cases phase : t.client.phase with
  | writing | ending | done =>
    rw [phase] at hangs
    cases hangs
  | _ => simp

/-- A client that receives nothing gets no further than to write what it has. -/
theorem settled_step {platform : Platform} {source : Bytes} {action : TransferAction}
    {t next : Transfer} (quiet : t.toClient = [])
    (taken : transferStep platform source action t = some next) : next.settled = t.settled := by
  cases transferEffect_of_step taken with
  | connect phase | respond phase | respondEnd phase => simp [Transfer.settled, phase]
  | write phase => simp [Transfer.settled, phase]
  | ignore phase differ => simp [Transfer.settled, phase, differ]
  | receive phase queue | receiveFinished phase queue =>
    rw [quiet] at queue
    cases queue
  | _ => rfl

theorem gotEnd_step {platform : Platform} {source : Bytes} {action : TransferAction}
    {t next : Transfer} (quiet : t.toClient = [])
    (taken : transferStep platform source action t = some next) :
    (t.GotEnd → next.GotEnd ∧ next.client.file = t.client.file) ∧ (next.GotEnd → t.GotEnd) := by
  cases transferEffect_of_step taken with
  | connect phase | write phase | ignore phase | respond phase =>
    simp [Transfer.GotEnd, phase]
  | respondEnd phase => simp [Transfer.GotEnd, phase]
  | receive phase queue | receiveFinished phase queue =>
    rw [quiet] at queue
    cases queue
  | _ => exact ⟨fun ended => ⟨ended, rfl⟩, id⟩

theorem stuck_step {platform : Platform} {source : Bytes} {action : TransferAction}
    {t next : Transfer} (stuck : t.Stuck source) (quiet : t.toServer = [])
    (taken : transferStep platform source action t = some next) : next.Stuck source := by
  unfold Transfer.Stuck at stuck
  cases transferEffect_of_step taken with
  | accept phase =>
    rw [phase] at stuck
    exact stuck
  | read phase less => exact less
  | leave phase notLess =>
    rw [phase] at stuck
    exact absurd stuck notLess
  | send phase =>
    rw [phase] at stuck
    exact stuck
  | sendEnd phase | receiveEnd phase =>
    rw [phase] at stuck
    exact stuck.elim
  | receiveResponse phase queue =>
    rw [quiet] at queue
    cases queue
  | _ => exact stuck

/-- A step of the loops without a connection. -/
theorem lost_step {platform : Platform} {buffering : Buffering} {source : Bytes}
    {before : Option Bytes} {action : TransferAction} {t next : Transfer}
    (dropped : t.toClient = [] ∧ t.toServer = []) (content : t.Lost buffering source before)
    (taken : transferStep platform source action t = some next) :
    next.Lost buffering source before := by
  have same := gotEnd_step dropped.1 taken
  rcases content with ⟨ended, whole⟩ | ⟨looping, content⟩
  · exact Or.inl ⟨(same.1 ended).1, (same.1 ended).2.trans whole⟩
  · refine Or.inr ⟨mt same.2 looping, ?_⟩
    rw [settled_step dropped.1 taken]
    exact content.imp_right fun previous => ⟨previous.1, stuck_step previous.2 dropped.2 taken⟩

/-! ## Steps -/

/-- Once nothing more gets to the disk, each step is harmless. -/
theorem fetchInv_replaced {platform : Platform} {buffering : Buffering} {source : Bytes}
    {before : Option Bytes} {action : FetchAction} {link : Link} {t : Transfer}
    {stream : StreamState} {next : Fetch} (isOpen : link ≠ .unopened) (notGood : stream ≠ .good)
    (taken : fetchStep platform buffering source action ⟨link, some source, t, stream⟩ =
      some next) :
    FetchInv platform buffering source before next := by
  cases action with
  | openTarget | failOpen => cases link <;> first | exact absurd rfl isOpen | cases taken
  | connect =>
    cases link <;> try cases taken
    obtain ⟨moved, -, rfl⟩ := Option.map_eq_some_iff.mp taken
    exact .replaced nofun notGood
  | refuse | lose =>
    cases link <;> cases taken
    exact .replaced nofun notGood
  | transfer action =>
    have kept (moved : Transfer) : FetchInv platform buffering source before
        (Fetch.move buffering ⟨link, some source, t, stream⟩ moved) := by
      cases stream with
      | good => exact absurd rfl notGood
      | failed | closed => exact .replaced isOpen nofun
    cases link <;> try cases taken
    all_goals
      obtain ⟨moved, -, rfl⟩ := Option.map_eq_some_iff.mp taken
      exact kept moved
  | failWrite count =>
    simp only [fetchStep] at taken
    split at taken <;> try cases taken
    split at taken
    · rename_i failing
      exact absurd failing.2.1 notGood
    · cases taken
  | failResponse | failEnd =>
    simp only [fetchStep] at taken
    split at taken <;> cases taken
    exact .replaced nofun notGood
  | close =>
    simp only [fetchStep] at taken
    split at taken <;> cases taken
    · exact absurd rfl notGood
    · exact .replaced isOpen nofun
  | failClose count =>
    simp only [fetchStep] at taken
    split at taken <;> try cases taken
    exact absurd rfl notGood

/-- A failure of the stream that leaves all bytes on the disk. -/
theorem fetchInv_failWrite {platform : Platform} {buffering : Buffering} {source : Bytes}
    {before : Option Bytes} {s next : Fetch} {count : Nat} (isOpen : s.link ≠ .unopened)
    (all : s.transfer.settled.take count = source)
    (taken : fetchStep platform buffering source (.failWrite count) s = some next) :
    FetchInv platform buffering source before next := by
  simp only [fetchStep] at taken
  split at taken <;> try cases taken
  split at taken <;> cases taken
  rw [all]
  exact .replaced isOpen nofun

theorem fetchInv_failClose {platform : Platform} {buffering : Buffering} {source : Bytes}
    {before : Option Bytes} {s next : Fetch} {count : Nat} (isOpen : s.link ≠ .unopened)
    (all : s.transfer.client.file.take count = source)
    (taken : fetchStep platform buffering source (.failClose count) s = some next) :
    FetchInv platform buffering source before next := by
  simp only [fetchStep] at taken
  split at taken <;> try cases taken
  split at taken <;> cases taken
  rw [all]
  exact .replaced isOpen nofun

/-- A `file.close()` after pid 101. -/
theorem fetchInv_close {platform : Platform} {buffering : Buffering} {source : Bytes}
    {before : Option Bytes} {link : Link} {target : Option Bytes} {t : Transfer} {next : Fetch}
    (isOpen : link ≠ .unopened) (whole : t.client.phase = .done → t.client.file = source)
    (taken : fetchStep platform buffering source .close ⟨link, target, t, .good⟩ = some next) :
    FetchInv platform buffering source before next := by
  cases phase : t.client.phase with
  | done =>
    simp only [fetchStep, phase] at taken
    cases taken
    rw [whole phase]
    exact .replaced isOpen nofun
  | _ =>
    simp only [fetchStep, phase] at taken
    cases taken

/-- The steps of a fetch that nothing has happened to so far. -/
theorem fetchInv_up {platform : Platform} {buffering : Buffering} {source : Bytes}
    {before : Option Bytes} {action : FetchAction} {t : Transfer} {next : Fetch}
    (transferable : Transferable platform source) (coupled : Coupled source t)
    (passed : t.PassedTest)
    (allowed : harmless platform buffering source before
      ⟨.up, some (buffering.stored t.client.file), t, .good⟩ action)
    (taken : fetchStep platform buffering source action
      ⟨.up, some (buffering.stored t.client.file), t, .good⟩ = some next) :
    FetchInv platform buffering source before next := by
  have whole (ended : t.GotEnd) : t.client.file = source :=
    whole_of_coupled transferable coupled (leftLoop_of_client coupled ended)
  have isOpen : Link.up ≠ .unopened := nofun
  cases action with
  | transfer action =>
    obtain ⟨moved, step, rfl⟩ := Option.map_eq_some_iff.mp taken
    exact .up transferable (coupled_step transferable.agree coupled step)
      (passedTest_step passed step)
  | lose =>
    cases taken
    refine .lost rfl ⟨rfl, rfl⟩ ?_
    by_cases ended : t.GotEnd
    · exact Or.inl ⟨ended, whole ended⟩
    · exact Or.inr ⟨ended, (allowed rfl).resolve_left ended⟩
  | failWrite count => exact fetchInv_failWrite isOpen allowed taken
  | close => exact fetchInv_close isOpen (fun done => whole (Or.inr done)) taken
  | failClose count => exact fetchInv_failClose isOpen allowed taken
  | _ => cases taken

/-- The steps of a fetch whose connection is lost. -/
theorem fetchInv_lost {platform : Platform} {buffering : Buffering} {source : Bytes}
    {before target : Option Bytes} {action : FetchAction} {t : Transfer} {next : Fetch}
    (stored : target = some (buffering.stored t.client.file))
    (dropped : t.toClient = [] ∧ t.toServer = []) (content : t.Lost buffering source before)
    (allowed : harmless platform buffering source before ⟨.lost, target, t, .good⟩ action)
    (taken : fetchStep platform buffering source action ⟨.lost, target, t, .good⟩ = some next) :
    FetchInv platform buffering source before next := by
  have isOpen : Link.lost ≠ .unopened := nofun
  cases action with
  | transfer action =>
    obtain ⟨moved, step, rfl⟩ := Option.map_eq_some_iff.mp taken
    have lost : moved.Lost buffering source before := lost_step dropped content step
    exact .lost rfl ⟨rfl, rfl⟩ lost
  | failWrite count => exact fetchInv_failWrite isOpen allowed taken
  | failResponse =>
    simp only [fetchStep] at taken
    split at taken <;> cases taken
    rename_i receiving
    refine .lost stored dropped ?_
    refine content.imp_right fun looping => ⟨looping.1, looping.2.imp_right fun previous => ?_⟩
    have stuck := previous.2
    rw [Transfer.Stuck, receiving] at stuck
    exact ⟨previous.1, stuck⟩
  | failEnd =>
    simp only [fetchStep] at taken
    split at taken <;> cases taken
    rename_i closing
    refine .lost stored dropped ?_
    refine content.imp_right fun looping => ⟨looping.1, looping.2.imp_right fun previous => ?_⟩
    have stuck := previous.2
    rw [Transfer.Stuck, closing] at stuck
    exact stuck.elim
  | close =>
    refine fetchInv_close isOpen (fun done => ?_) taken
    rcases content with ended | looping
    · exact ended.2
    · exact absurd (Or.inr done) looping.1
  | failClose count => exact fetchInv_failClose isOpen allowed taken
  | _ => cases taken

theorem fetchInv_step {platform : Platform} {buffering : Buffering} {source : Bytes}
    {before : Option Bytes} {action : FetchAction} {s next : Fetch}
    (inv : FetchInv platform buffering source before s)
    (allowed : harmless platform buffering source before s action)
    (taken : fetchStep platform buffering source action s = some next) :
    FetchInv platform buffering source before next := by
  cases inv with
  | unopened =>
    cases action with
    | openTarget =>
      cases taken
      exact .opened
    | failOpen =>
      cases taken
      cases allowed
      exact .replaced nofun nofun
    | _ => cases taken
  | opened =>
    cases action with
    | connect =>
      cases taken
      have connected : transferStep platform source .connect Transfer.start = some _ := rfl
      have up : FetchInv platform buffering source before
          ⟨.up, some (buffering.stored []), _, .good⟩ :=
        .up allowed (coupled_step allowed.agree (coupled_start source) connected) trivial
      rw [buffering.stored_nil] at up
      exact up
    | refuse =>
      cases taken
      exact .refused (allowed rfl)
    | _ => cases taken
  | refused same => cases action <;> cases taken
  | up transferable coupled passed => exact fetchInv_up transferable coupled passed allowed taken
  | lost stored dropped content => exact fetchInv_lost stored dropped content allowed taken
  | replaced isOpen notGood => exact fetchInv_replaced isOpen notGood taken

theorem replacedAtomically_of_inv {platform : Platform} {buffering : Buffering} {source : Bytes}
    {before : Option Bytes} {s : Fetch} (inv : FetchInv platform buffering source before s) :
    ReplacedAtomically source before s := by
  cases inv with
  | unopened | opened | up =>
    refine ⟨fun ended => ?_, fun ended => ?_⟩ <;>
      simp [Fetch.ended] at ended
  | refused same =>
    refine ⟨fun _ => ?_, fun _ reported => ?_⟩
    · exact same.symm.imp Eq.symm fun empty => congrArg some empty.symm
    · rcases reported with done | done <;> cases done
  | @lost target t stored dropped content =>
    subst stored
    have looped (ended : Fetch.ended ⟨.lost, some (buffering.stored t.client.file), t, .good⟩) :
        t.settled = t.client.file ∧ ¬ t.GotEnd :=
      settled_of_hangs (by simpa [Fetch.ended] using ended)
    refine ⟨fun ended => ?_, fun ended reported => ?_⟩
    · obtain ⟨written, looping⟩ := looped ended
      rw [Transfer.Lost, written] at content
      rcases content with gotEnd | ⟨-, whole | ⟨previous, -⟩⟩
      · exact absurd gotEnd.1 looping
      · exact Or.inr (congrArg some whole)
      · exact Or.inl previous.symm
    · obtain ⟨written, looping⟩ := looped ended
      rw [Transfer.Lost, written] at content
      rcases content with gotEnd | ⟨-, whole | ⟨-, stuck⟩⟩
      · exact absurd gotEnd.1 looping
      · exact congrArg some whole
      · rcases reported with client | server
        · exact absurd (Or.inr client) looping
        · simp only at server
          rw [Transfer.Stuck, server] at stuck
          exact stuck.elim
  | replaced => exact ⟨fun _ => Or.inr rfl, fun _ _ => rfl⟩

/-! ## Failures -/

/-- The failures of a fetch whose stream is good: the target can not be opened, the connection is
    refused or lost, or a write fails while there is a connection, or the last one does. -/
def Fetch.failsBy (platform : Platform) (source : Bytes) (s : Fetch) : FetchAction → Prop
  | .failOpen => Transferable platform source
  | .refuse | .lose => s.stream = .good
  | .failWrite _ => s.link = .up
  | .failClose _ => True
  | _ => False

section

variable {platform : Platform} {buffering : Buffering} {source : Bytes} {before : Option Bytes}

/-- The property holds in all states that harmless steps lead to. -/
def StaysAtomic (platform : Platform) (buffering : Buffering) (source : Bytes)
    (before : Option Bytes) (s : Fetch) : Prop :=
  ∀ actions t, Run (fetchStep platform buffering source)
    (harmless platform buffering source before) s actions t → ReplacedAtomically source before t

theorem StaysAtomic.after {s next : Fetch} (atomic : StaysAtomic platform buffering source before s)
    (action : FetchAction) (allowed : harmless platform buffering source before s action)
    (taken : fetchStep platform buffering source action s = some next) :
    StaysAtomic platform buffering source before next :=
  fun actions t run => atomic (action :: actions) t (.cons allowed taken run)

/-- A server that finds itself at the end stops the client, whose failed stream leaves the file as
    it is. -/
theorem whole_of_atEnd {target : Option Bytes} {length pos clientPos : UInt32} {offset : Nat}
    {failed : Bool} {file : Bytes} (atEnd : ¬ pos < length)
    (atomic : StaysAtomic platform buffering source before
      ⟨.up, target, ⟨⟨.testing, length, pos, offset, failed⟩, ⟨.receiving, clientPos, file⟩,
        [], []⟩, .failed⟩) : target = some source := by
  have test : transferStep platform source .test
      ⟨⟨.testing, length, pos, offset, failed⟩, ⟨.receiving, clientPos, file⟩, [], []⟩ =
      some ⟨⟨.ending, length, pos, offset, failed⟩, ⟨.receiving, clientPos, file⟩, [], []⟩ :=
    if_neg atEnd
  have left := atomic.after (.transfer .test) trivial (Option.map_eq_some_iff.mpr ⟨_, test, rfl⟩)
  have sent := (left.after (.transfer .sendEnd) trivial rfl).after (.transfer .receive) trivial rfl
  have closed := (sent.after (.transfer .respondEnd) trivial rfl).after .close trivial rfl
  exact (closed [] _ (.nil _)).reported (Or.inl rfl) (Or.inl rfl)

/-- The position of a failed stream is behind the end of each file. -/
theorem not_failed_lt (length : UInt32) : ¬ (0xFFFFFFFF : UInt32) < length := by
  rw [UInt32.lt_iff_toNat_lt]
  have below := length.toNat_lt
  change ¬ 2 ^ 32 - 1 < length.toNat
  omega

/-- After a write that fails both sides come to their end. -/
theorem whole_of_failWrite {t : Transfer} {next : Fetch} {target : Option Bytes} {count : Nat}
    (coupled : Coupled source t)
    (taken : fetchStep platform buffering source (.failWrite count) ⟨.up, target, t, .good⟩ =
      some next)
    (atomic : StaysAtomic platform buffering source before next) :
    t.settled.take count = source := by
  obtain ⟨⟨phase, length, pos, offset, failed⟩, ⟨clientPhase, clientPos, file⟩, toClient,
    toServer⟩ := t
  obtain ⟨⟨inFlight, control, -, -⟩, -, -, -, -, -, -⟩ := coupled
  simp only at control
  simp only [fetchStep] at taken
  split at taken <;> try cases taken
  split at taken <;> cases taken
  cases control
  have responded := (atomic.after (.transfer .respond) trivial rfl).after
    (.transfer .receiveResponse) trivial rfl
  exact Option.some.inj (whole_of_atEnd (not_failed_lt length) responded)

/-- A client whose target was not opened reports that it has received the file. -/
theorem whole_of_failOpen (transferable : Transferable platform source)
    (atomic : StaysAtomic platform buffering source before
      ⟨.opened, before, Transfer.start, .failed⟩) : before = some source := by
  have measured := (atomic.after .connect transferable rfl).after (.transfer .accept) trivial rfl
  by_cases some : 0 < UInt32.ofNat source.length
  · have test : transferStep platform source .test ⟨⟨.testing, UInt32.ofNat source.length, 0, 0,
        false⟩, ⟨.receiving, 0, []⟩, [], []⟩ = _ := if_pos some
    have read := measured.after (.transfer .test) trivial
      (Option.map_eq_some_iff.mpr ⟨_, test, rfl⟩)
    have received := (read.after (.transfer .send) trivial rfl).after
      (.transfer .receive) trivial rfl
    have written := (received.after (.transfer .write) trivial rfl).after
      (.transfer .respond) trivial rfl
    exact whole_of_atEnd (not_failed_lt _)
      (written.after (.transfer .receiveResponse) trivial rfl)
  · exact whole_of_atEnd some measured

/-- A server that has left its loop reports the file as sent, with or without the client. -/
theorem whole_of_leftLoop {server : SendFile} {client : ReceiveFile}
    (left : server.phase.leftLoop = true) (hangs : client.phase.hangs = true)
    (atomic : StaysAtomic platform buffering source before
      ⟨.lost, some (buffering.stored client.file), ⟨server, client, [], []⟩, .good⟩) :
    buffering.stored client.file = source := by
  obtain ⟨phase, length, pos, offset, failed⟩ := server
  have ofDone (atomic : StaysAtomic platform buffering source before
      ⟨.lost, some (buffering.stored client.file),
        ⟨⟨.done, length, pos, offset, failed⟩, client, [], []⟩, .good⟩) :
      buffering.stored client.file = source :=
    Option.some.inj ((atomic [] _ (.nil _)).reported (Or.inr (Or.inr ⟨rfl, hangs⟩)) (Or.inr rfl))
  cases phase with
  | ending =>
    have sent := atomic.after (.transfer .sendEnd) trivial rfl
    exact ofDone (sent.after .failEnd trivial rfl)
  | closing => exact ofDone (atomic.after .failEnd trivial rfl)
  | done => exact ofDone atomic
  | _ => cases left

/-- A server that is not stuck comes to its end without the client. -/
theorem whole_of_free {t : Transfer} (passed : t.PassedTest)
    (hangs : t.client.phase.hangs = true) (free : ¬ t.Stuck source)
    (atomic : StaysAtomic platform buffering source before
      ⟨.lost, some (buffering.stored t.client.file), t.dropped, .good⟩) :
    buffering.stored t.client.file = source := by
  obtain ⟨⟨phase, length, pos, offset, failed⟩, client, toClient, toServer⟩ := t
  have ofTesting {client : ReceiveFile} (hangs : client.phase.hangs = true) {length pos : UInt32}
      {offset : Nat} (atEnd : ¬ pos < length)
      (atomic : StaysAtomic platform buffering source before
        ⟨.lost, some (buffering.stored client.file),
          ⟨⟨.testing, length, pos, offset, failed⟩, client, [], []⟩, .good⟩) :
      buffering.stored client.file = source := by
    have test : transferStep platform source .test
        ⟨⟨.testing, length, pos, offset, failed⟩, client, [], []⟩ =
        some ⟨⟨.ending, length, pos, offset, failed⟩, client, [], []⟩ := if_neg atEnd
    have left := atomic.after (.transfer .test) trivial
      (Option.map_eq_some_iff.mpr ⟨_, test, rfl⟩)
    exact whole_of_leftLoop rfl hangs left
  cases phase with
  | accepting =>
    obtain ⟨clientPhase, clientPos, file⟩ := client
    cases clientPhase with
    | connecting =>
      have connected := atomic.after (.transfer .connect) trivial rfl
      have hangs : (ReceiveFile.mk .receiving clientPos file).phase.hangs = true := rfl
      have whole := ofTesting hangs free (connected.after (.transfer .accept) trivial rfl)
      exact whole
    | _ => exact ofTesting hangs free (atomic.after (.transfer .accept) trivial rfl)
  | testing => exact ofTesting hangs free atomic
  | sending | receiving => exact absurd passed free
  | ending | closing | done => exact whole_of_leftLoop rfl hangs atomic

/-- What has been received is written even after the connection is lost. -/
theorem harmless_of_lost {t : Transfer} (transferable : Transferable platform source)
    (coupled : Coupled source t) (passed : t.PassedTest)
    (atomic : StaysAtomic platform buffering source before
      ⟨.lost, some (buffering.stored t.client.file), t.dropped, .good⟩) :
    t.GotEnd ∨ buffering.stored t.settled = source ∨
      before = some (buffering.stored t.settled) ∧ t.Stuck source := by
  have known {server : SendFile} {client : ReceiveFile} (hangs : client.phase.hangs = true)
      (atomic : StaysAtomic platform buffering source before
        ⟨.lost, some (buffering.stored client.file), ⟨server, client, [], []⟩, .good⟩) :
      some (buffering.stored client.file) = before ∨ buffering.stored client.file = source :=
    ((atomic [] _ (.nil _)).content (Or.inr (Or.inr ⟨rfl, hangs⟩))).imp_right Option.some.inj
  rcases hangs : t.client.phase.hangs with _ | _
  · rcases whole_or_stuck transferable coupled passed with whole | ended | stuck
    · rw [hangs] at whole
      cases whole.2
    · exact Or.inl ended
    · obtain ⟨server, ⟨phase, pos, file⟩, toClient, toServer⟩ := t
      cases phase with
      | writing serverPos length contents =>
        refine Or.inr (Or.symm ?_)
        by_cases same : pos = serverPos
        · have step : transferStep platform source .write ⟨server,
              ⟨.writing serverPos length contents, pos, file⟩, [], []⟩ = some _ := if_pos same
          have written := known rfl (atomic.after (.transfer .write) trivial
            (Option.map_eq_some_iff.mpr ⟨_, step, rfl⟩))
          simp only [Transfer.settled, if_pos same]
          exact written.imp_left fun previous => ⟨previous.symm, stuck⟩
        · have step : transferStep platform source .write ⟨server,
              ⟨.writing serverPos length contents, pos, file⟩, [], []⟩ = some _ := if_neg same
          have written := known rfl (atomic.after (.transfer .write) trivial
            (Option.map_eq_some_iff.mpr ⟨_, step, rfl⟩))
          simp only [Transfer.settled, if_neg same]
          exact written.imp_left fun previous => ⟨previous.symm, stuck⟩
      | ending => exact Or.inl (Or.inl rfl)
      | done => exact Or.inl (Or.inr rfl)
      | _ => cases hangs
  · rw [(settled_of_hangs hangs).1]
    by_cases stuck : t.Stuck source
    · rcases known hangs atomic with previous | whole
      · exact Or.inr (Or.inr ⟨previous.symm, stuck⟩)
      · exact Or.inr (Or.inl whole)
    · exact Or.inr (Or.inl (whole_of_free passed hangs stuck atomic))

/-- A failure after which the property goes on to hold is harmless. -/
theorem harmless_of_staysAtomic {failure : FetchAction} {s next : Fetch}
    (inv : FetchInv platform buffering source before s)
    (fails : s.failsBy platform source failure)
    (taken : fetchStep platform buffering source failure s = some next)
    (atomic : StaysAtomic platform buffering source before next) :
    harmless platform buffering source before s failure := by
  cases failure with
  | failOpen =>
    cases inv with
    | unopened =>
      cases taken
      exact whole_of_failOpen fails atomic
    | @replaced link t stream isOpen notGood =>
      cases link with
      | unopened => exact absurd rfl isOpen
      | _ => cases taken
    | _ => cases taken
  | refuse =>
    cases inv with
    | opened =>
      cases taken
      have refused := (atomic [] _ (.nil _)).content (Or.inr (Or.inl rfl))
      exact fun _ => refused.symm.imp (fun same => (Option.some.inj same).symm) Eq.symm
    | replaced isOpen notGood => exact absurd fails notGood
    | _ => cases taken
  | lose =>
    cases inv with
    | up transferable coupled passed =>
      cases taken
      exact fun _ => harmless_of_lost transferable coupled passed atomic
    | replaced isOpen notGood => exact absurd fails notGood
    | _ => cases taken
  | failWrite count =>
    cases inv with
    | up transferable coupled => exact whole_of_failWrite coupled taken atomic
    | replaced isOpen notGood =>
      simp only [fetchStep] at taken
      split at taken <;> try cases taken
      split at taken
      · rename_i failing
        exact absurd failing.2.1 notGood
      · cases taken
    | _ => cases fails
  | failClose count =>
    simp only [fetchStep] at taken
    split at taken <;> try cases taken
    split at taken <;> cases taken
    rename_i done good failing
    exact Option.some.inj ((atomic [] _ (.nil _)).reported (Or.inl rfl) (Or.inl done))
  | _ => exact fails.elim

end

/-- As long as each failure is harmless, what a fetch leaves behind when it is over is the previous
    content or the served one, and the latter if either side reports success. At the first
    failure of the connection or of the stream this goes on to hold if and only if that failure
    is harmless, too. -/
theorem fetch_atomic_iff (platform : Platform) (buffering : Buffering) (source : Bytes)
    (before : Option Bytes) {actions : List FetchAction} {s : Fetch}
    (run : Run (fetchStep platform buffering source) (harmless platform buffering source before)
      (Fetch.start before) actions s) :
    ReplacedAtomically source before s ∧
    ∀ failure next, s.failsBy platform source failure →
      fetchStep platform buffering source failure s = some next →
      ((∀ later t, Run (fetchStep platform buffering source)
          (harmless platform buffering source before) next later t →
        ReplacedAtomically source before t) ↔
      harmless platform buffering source before s failure) := by
  have preserved : ∀ s action next, FetchInv platform buffering source before s →
      harmless platform buffering source before s action →
      fetchStep platform buffering source action s = some next →
      FetchInv platform buffering source before next := fun _ _ _ => fetchInv_step
  have inv : FetchInv platform buffering source before s := run.invariant preserved .unopened
  refine ⟨replacedAtomically_of_inv inv, fun failure next fails taken => ⟨fun atomic =>
    harmless_of_staysAtomic inv fails taken atomic, fun allowed later t continued => ?_⟩⟩
  exact replacedAtomically_of_inv (continued.invariant preserved (fetchInv_step inv allowed taken))

/-- A fetch that nothing goes wrong with. -/
theorem fetch_atomic_iff_seven : ∃ s : Fetch, ReplacedAtomically [7] (some [1, 2]) s ∧ s.ended ∧
    s.transfer.server.phase = .done ∧ s.target = some [7] := by
  have size : Transferable .win32 [7] := Or.inr ⟨rfl, Or.inl (by decide)⟩
  have run : Run (fetchStep .win32 (.blocks 4096) [7])
      (harmless .win32 (.blocks 4096) [7] (some [1, 2])) (Fetch.start (some [1, 2]))
      [.openTarget, .connect, .transfer .accept, .transfer .test, .transfer .send,
        .transfer .receive, .transfer .write, .transfer .respond, .transfer .receiveResponse,
        .transfer .test, .transfer .sendEnd, .transfer .receive, .transfer .respondEnd,
        .transfer .receiveEnd, .close] _ :=
    .cons trivial rfl (.cons size rfl (.cons trivial rfl (.cons trivial rfl (.cons trivial rfl
      (.cons trivial rfl (.cons trivial rfl (.cons trivial rfl (.cons trivial rfl
        (.cons trivial rfl (.cons trivial rfl (.cons trivial rfl (.cons trivial rfl
          (.cons trivial rfl (.cons trivial rfl (.nil _)))))))))))))))
  exact ⟨_, (fetch_atomic_iff .win32 (.blocks 4096) [7] (some [1, 2]) run).1, Or.inl rfl, rfl, rfl⟩

/-- A refused connection leaves an empty file. A single chunk stays in the buffer of the stream
    until the file is closed: if this fails, the file is empty, too, and both sides have
    reported success. -/
theorem fetch_truncates :
    (∃ actions s, Run (fetchStep .win32 (.blocks 4096) [7]) anyStep (Fetch.start (some [1, 2]))
      actions s ∧ s.ended ∧ s.target = some [] ∧ ¬ ReplacedAtomically [7] (some [1, 2]) s) ∧
    (∃ actions s, Run (fetchStep .win32 (.blocks 4096) [7]) anyStep (Fetch.start (some [1, 2]))
      actions s ∧ s.ended ∧ s.transfer.client.phase = .done ∧ s.transfer.server.phase = .done ∧
      s.target = some [] ∧ ¬ ReplacedAtomically [7] (some [1, 2]) s) := by
  constructor
  · have run : Run (fetchStep .win32 (.blocks 4096) [7]) anyStep (Fetch.start (some [1, 2]))
        [.openTarget, .refuse] _ := Run.of_exec rfl
    refine ⟨_, _, run, Or.inr (Or.inl rfl), rfl, fun replaced => ?_⟩
    rcases replaced.content (Or.inr (Or.inl rfl)) with same | same <;> cases same
  · have run : Run (fetchStep .win32 (.blocks 4096) [7]) anyStep (Fetch.start (some [1, 2]))
        [.openTarget, .connect, .transfer .accept, .transfer .test, .transfer .send,
          .transfer .receive, .transfer .write, .transfer .respond, .transfer .receiveResponse,
          .transfer .test, .transfer .sendEnd, .transfer .receive, .transfer .respondEnd,
          .transfer .receiveEnd, .failClose 0] _ := Run.of_exec rfl
    refine ⟨_, _, run, Or.inl rfl, rfl, rfl, rfl, fun replaced => ?_⟩
    cases replaced.reported (Or.inl rfl) (Or.inl rfl)

end FileSync
