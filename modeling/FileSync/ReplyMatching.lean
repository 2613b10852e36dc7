import FileSync.Rendezvous

/-!
# Replies and their requests

As long as each call takes the reply to its own request, a server that waits for a connection
waits for the one call that has its reply, so that the stream of a call is the file that the call
asked for. A late or duplicated reply to an earlier request breaks this: the client then truncates
the file of that request, and fills it with what the server sends for the current one.
-/

namespace FileSync

open TransitionSystem

/-! ## The stream of an accepted connection -/

theorem streamed_connected : Streamed [] Transfer.connected where
  control := ⟨[], .accepting 0, rfl, Nat.zero_le _⟩
  tell := rfl
  fresh := fun _ => rfl

/-- The client writes what the server reads, in order, or on x64 nothing. -/
def Carries (platform : Platform) (served : Bytes) (t : Transfer) : Prop :=
  match platform with
  | .win32 => Streamed served t
  | .x64 => WritesNothing t

theorem carries_connected (platform : Platform) : Carries platform [] Transfer.connected := by
  cases platform with
  | win32 => exact streamed_connected
  | x64 => exact ⟨rfl, by rintro _ ⟨⟩, by rintro _ _ ⟨⟩, by rintro _ _ _ ⟨⟩⟩

theorem carries_step {platform : Platform} {served source : Bytes} {action : TransferAction}
    {t next : Transfer} (carries : Carries platform served t)
    (taken : transferStep platform source action t = some next) :
    Carries platform (served ++ readBytes source t action) next := by
  cases platform with
  | win32 => exact streamed_step (Or.inl rfl) carries taken
  | x64 => exact writesNothing_step carries taken

theorem isPrefix_of_carries {platform : Platform} {served : Bytes} {t : Transfer}
    (carries : Carries platform served t) : t.client.file <+: served := by
  cases platform with
  | win32 =>
    obtain ⟨inFlight, -, stored, -⟩ := Streamed.control carries
    exact stored ▸ List.prefix_append _ _
  | x64 =>
    rw [WritesNothing.empty carries]
    exact List.nil_prefix

/-- Once the end message has arrived, all that was read has been written. -/
theorem whole_of_carries {served : Bytes} {t : Transfer} (carries : Carries .win32 served t)
    (ended : t.client.phase = .ending ∨ t.client.phase = .done) : t.client.file = served := by
  obtain ⟨⟨phase, length, pos, offset, failed⟩, ⟨clientPhase, clientPos, file⟩, toClient,
    toServer⟩ := t
  obtain ⟨inFlight, control, stored, -⟩ := Streamed.control carries
  simp only at control stored ended
  have none : inFlight = [] := by
    rcases ended with rfl | rfl <;> cases control <;> rfl
  rw [← stored, none, List.append_nil]

/-! ## The invariant -/

/-- The request for whose connection the handler waits, or will wait. -/
def Handler.awaits {N : Type} : Handler N → Option (Request N)
  | .replied request | .opened request | .listening request => some request
  | _ => none

/-- Sender and path that a call has taken from its reply, until its connection is accepted. -/
def CallPhase.target {N : Type} : CallPhase N → Option (N × WString)
  | .replied sender filePath | .opened sender filePath | .connected sender filePath
  | .refused sender filePath => some (sender, filePath)
  | _ => none

/-- The path that a call has created or truncated, and what it has stored there. -/
def CallPhase.stored {N : Type} : CallPhase N → Option (WString × Bytes)
  | .opened _ filePath | .connected _ filePath | .refused _ filePath => some (filePath, [])
  | .running filePath _ _ transfer => some (filePath, transfer.client.file)
  | _ => none

variable {N : Type}

/-- What is known of a call. Until its connection is accepted its server waits for it. -/
structure CallInv (platform : Platform) (s : Rendezvous N) (call : Call N) : Prop where
  numbered : call.request.id < s.made call.request.client
  asked : ∀ request ∈ s.requests, request.client = call.request.client →
    request.id = call.request.id → request = call.request
  answered : ∀ reply ∈ s.replies, call.phase = .requested →
    reply.request.client = call.request.client → reply.request.id = call.request.id →
    reply.request = call.request ∧
      (reply.abandon = false → (s.handlers call.request.server).awaits = some call.request)
  waiting : ∀ target, call.phase.target = some target →
    target = (call.request.server, call.request.filePath) ∧
      (s.handlers call.request.server).awaits = some call.request
  running : ∀ filePath request served transfer,
    call.phase = .running filePath request served transfer →
    request = call.request ∧ filePath = call.request.filePath ∧
      s.handlers call.request.server = .sending call.request ∧ Carries platform served transfer
  stored : ∀ file, call.phase.stored = some file →
    s.disk call.request.client file.1 = some file.2

/-- Every call has the reply and the connection of its own request. -/
structure Matched (platform : Platform) (s : Rendezvous N) : Prop where
  calls : ∀ client call, s.calls client = some call →
    call.request.client = client ∧ CallInv platform s call
  requests : ∀ request ∈ s.requests, request.id < s.made request.client
  replies : ∀ reply ∈ s.replies, reply.request.id < s.made reply.request.client
  /-- Only the call for which the server listens has a connection in its queue. -/
  queues : ∀ server queue, s.listeners server = some queue → queue ≠ [] →
    ∃ own sender filePath, queue = [own] ∧ own.server = server ∧
      s.calls own.client = some ⟨own, .connected sender filePath⟩

/-- Nothing that the call depends on has changed. -/
structure Undisturbed (s next : Rendezvous N) (call : Call N) : Prop where
  made : s.made call.request.client ≤ next.made call.request.client
  requests : ∀ request ∈ next.requests, request.client = call.request.client →
    request ∈ s.requests
  replies : ∀ reply ∈ next.replies, reply.request.client = call.request.client →
    reply ∈ s.replies
  awaits : (s.handlers call.request.server).awaits = some call.request →
    (next.handlers call.request.server).awaits = some call.request
  sending : s.handlers call.request.server = .sending call.request →
    next.handlers call.request.server = .sending call.request
  disk : next.disk call.request.client = s.disk call.request.client

theorem CallInv.of_undisturbed {platform : Platform} {s next : Rendezvous N} {call : Call N}
    (inv : CallInv platform s call) (same : Undisturbed s next call) :
    CallInv platform next call where
  numbered := Nat.lt_of_lt_of_le inv.numbered same.made
  asked := fun request member isClient =>
    inv.asked request (same.requests request member isClient) isClient
  answered := by
    intro reply member requested isClient isCall
    obtain ⟨own, awaited⟩ :=
      inv.answered reply (same.replies reply member isClient) requested isClient isCall
    exact ⟨own, fun serves => same.awaits (awaited serves)⟩
  waiting := by
    intro target found
    obtain ⟨own, awaited⟩ := inv.waiting target found
    exact ⟨own, same.awaits awaited⟩
  running := by
    intro filePath request served transfer phase
    obtain ⟨own, path, sending, carries⟩ := inv.running filePath request served transfer phase
    exact ⟨own, path, same.sending sending, carries⟩
  stored := by
    intro file found
    rw [same.disk]
    exact inv.stored file found

theorem matched_start (platform : Platform) (disk : N → WString → Option Bytes) :
    Matched platform (Rendezvous.start disk) where
  calls := by rintro _ _ ⟨⟩
  requests := by rintro _ ⟨⟩
  replies := by rintro _ ⟨⟩
  queues := by rintro _ _ ⟨⟩

/-! ## Steps -/

/-- A datagram that a call takes answers its own request. -/
def takesOwn (s : Rendezvous N) : RendezvousAction N → Prop
  | .receiveReply client i => ∀ call reply, s.calls client = some call →
      s.replies[i]? = some reply → reply.request.id = call.request.id
  | _ => True

/-- Steps that change no call. -/
theorem Matched.of_calls {platform : Platform} {s next : Rendezvous N} (inv : Matched platform s)
    (calls : next.calls = s.calls) (undisturbed : ∀ call, Undisturbed s next call)
    (requests : ∀ request ∈ next.requests, request ∈ s.requests)
    (replies : ∀ reply ∈ next.replies, reply ∈ s.replies) (made : next.made = s.made)
    (queues : ∀ server queue, next.listeners server = some queue → queue ≠ [] →
      s.listeners server = some queue) : Matched platform next where
  calls := by
    intro client call found
    rw [calls] at found
    obtain ⟨isClient, known⟩ := inv.calls client call found
    exact ⟨isClient, known.of_undisturbed (undisturbed call)⟩
  requests := by
    rw [made]
    exact fun request member => inv.requests request (requests request member)
  replies := by
    rw [made]
    exact fun reply member => inv.replies reply (replies reply member)
  queues := by
    rw [calls]
    exact fun server queue found nonempty =>
      inv.queues server queue (queues server queue found nonempty) nonempty

/-- The connection that is accepted is that of the call for which the handler waits. -/
theorem accepted_own {platform : Platform} {s : Rendezvous N} {server sender : N}
    {request connection own : Request N} {queue : List (Request N)} {filePath : WString}
    (inv : Matched platform s) (listening : s.handlers server = .listening request)
    (waiting : s.listeners server = some (connection :: queue))
    (connected : s.calls connection.client = some ⟨own, .connected sender filePath⟩) :
    queue = [] ∧ connection = own ∧ request = own ∧ own.server = server ∧
      filePath = own.filePath := by
  obtain ⟨only, _, _, single, isServer, call⟩ :=
    inv.queues server _ waiting (List.cons_ne_nil _ _)
  cases single
  cases call.symm.trans connected
  obtain ⟨-, known⟩ := inv.calls _ _ connected
  obtain ⟨target, awaited⟩ := known.waiting _ rfl
  obtain ⟨-, path⟩ := Prod.mk.inj target
  subst isServer
  rw [listening] at awaited
  cases awaited
  exact ⟨rfl, rfl, rfl, rfl, path⟩

/-- Nobody else waits at the listener when a call connects. -/
theorem queue_of_opened {platform : Platform} {s : Rendezvous N} {sender : N} {own : Request N}
    {filePath : WString} {queue : List (Request N)} (inv : Matched platform s)
    (opened : s.calls own.client = some ⟨own, .opened sender filePath⟩)
    (listens : s.listeners own.server = some queue) : queue = [] := by
  by_contra nonempty
  obtain ⟨other, _, _, -, isServer, connected⟩ := inv.queues _ _ listens nonempty
  obtain ⟨-, known⟩ := inv.calls _ _ opened
  obtain ⟨-, known'⟩ := inv.calls _ _ connected
  obtain ⟨-, awaited⟩ := known.waiting _ rfl
  obtain ⟨-, awaited'⟩ := known'.waiting _ rfl
  simp only [isServer, awaited, Option.some.injEq] at awaited'
  subst awaited'
  cases opened.symm.trans connected

theorem matched_duplicate {platform : Platform} {s : Rendezvous N} {reply : TcpDetails N} {i : Nat}
    (inv : Matched platform s) (found : s.replies[i]? = some reply) :
    Matched platform { s with replies := s.replies ++ [reply] } := by
  have copies : ∀ other ∈ s.replies ++ [reply], other ∈ s.replies := by
    intro other member
    rcases List.mem_append.mp member with before | last
    · exact before
    · cases List.mem_singleton.mp last
      exact List.mem_of_getElem? found
  exact inv.of_calls rfl (fun call => ⟨Nat.le_refl _, fun _ member _ => member,
    fun other member _ => copies other member, id, id, rfl⟩) (fun _ member => member) copies rfl
    (fun _ _ found _ => found)

variable [DecidableEq N]

/-- Steps that change the call of one client, which has no connection in a queue. -/
theorem Matched.of_call {platform : Platform} {s next : Rendezvous N} (inv : Matched platform s)
    (client : N) {phases : Option (Call N)}
    (calls : next.calls = Function.update s.calls client phases)
    (undisturbed : ∀ call, call.request.client ≠ client → s.calls call.request.client = some call →
      Undisturbed s next call)
    (changed : ∀ call, phases = some call →
      call.request.client = client ∧ CallInv platform next call)
    (requests : ∀ request ∈ next.requests, request.id < next.made request.client)
    (replies : ∀ reply ∈ next.replies, reply.request.id < next.made reply.request.client)
    (listeners : next.listeners = s.listeners)
    (unqueued : ∀ own sender filePath, s.calls client ≠ some ⟨own, .connected sender filePath⟩) :
    Matched platform next where
  calls := by
    intro other call found
    rw [calls] at found
    by_cases same : other = client
    · subst same
      rw [Function.update_self] at found
      exact changed call found
    · rw [Function.update_of_ne same] at found
      obtain ⟨isClient, known⟩ := inv.calls other call found
      subst isClient
      exact ⟨rfl, known.of_undisturbed (undisturbed call same found)⟩
  requests := requests
  replies := replies
  queues := by
    intro server queue found nonempty
    rw [listeners] at found
    obtain ⟨own, sender, filePath, only, isServer, connected⟩ :=
      inv.queues server queue found nonempty
    refine ⟨own, sender, filePath, only, isServer, ?_⟩
    have differ : own.client ≠ client := by
      rintro rfl
      exact unqueued own sender filePath connected
    rw [calls, Function.update_of_ne differ]
    exact connected

theorem matched_request {platform : Platform} {s : Rendezvous N} {client server : N}
    {filePath : WString} (inv : Matched platform s) (free : s.calls client = none) :
    Matched platform { (s.setCall client
        (some ⟨⟨client, s.made client, server, filePath⟩, .requested⟩)) with
      made := Function.update s.made client (s.made client + 1)
      requests := s.requests ++ [⟨client, s.made client, server, filePath⟩] } := by
  have grows (other : N) :
      s.made other ≤ Function.update s.made client (s.made client + 1) other := by
    by_cases same : other = client
    · subst same
      rw [Function.update_self]
      exact Nat.le_succ _
    · rw [Function.update_of_ne same]
  refine inv.of_call client rfl ?_ ?_ ?_ ?_ rfl ?_
  · intro call differ _
    refine ⟨grows _, fun request member isClient => ?_, fun reply member _ => member, id, id, rfl⟩
    rcases List.mem_append.mp member with before | last
    · exact before
    · cases List.mem_singleton.mp last
      exact absurd isClient.symm differ
  · rintro call ⟨⟩
    refine ⟨rfl, ?_, ?_, ?_, by rintro _ ⟨⟩, by rintro _ _ _ _ ⟨⟩, by rintro _ ⟨⟩⟩
    · simp only
      rw [Function.update_self]
      exact Nat.lt_succ_self _
    · intro request member isClient isCall
      rcases List.mem_append.mp member with before | last
      · have earlier := inv.requests request before
        rw [isClient, isCall] at earlier
        exact absurd earlier (Nat.lt_irrefl _)
      · exact List.mem_singleton.mp last
    · intro reply member _ isClient isCall
      have earlier := inv.replies reply member
      rw [isClient, isCall] at earlier
      exact absurd earlier (Nat.lt_irrefl _)
  · intro request member
    rcases List.mem_append.mp member with before | last
    · exact Nat.lt_of_lt_of_le (inv.requests request before) (grows _)
    · cases List.mem_singleton.mp last
      simp only
      rw [Function.update_self]
      exact Nat.lt_succ_self _
  · exact fun reply member => Nat.lt_of_lt_of_le (inv.replies reply member) (grows _)
  · intro own sender path connected
    rw [free] at connected
    cases connected

theorem matched_handle {platform : Platform} {s : Rendezvous N} {request : Request N} {i : Nat}
    {abandon : Bool} (inv : Matched platform s) (found : s.requests[i]? = some request)
    (idle : s.handlers request.server = .idle) :
    Matched platform { (s.setHandler request.server
        (if abandon then .idle else .replied request)) with
      requests := s.requests.eraseIdx i
      replies := s.replies ++ [⟨request, abandon⟩] } := by
  -- nobody depends on the handler, which was idle
  have kept (call : Call N) : Undisturbed s { (s.setHandler request.server
      (if abandon then .idle else .replied request)) with requests := s.requests.eraseIdx i }
      call := by
    refine ⟨Nat.le_refl _, fun _ member _ => List.mem_of_mem_eraseIdx member,
      fun _ member _ => member, fun awaited => ?_, fun sending => ?_, rfl⟩
    · have differ : call.request.server ≠ request.server := by
        intro same
        rw [same, idle] at awaited
        cases awaited
      simp only [Rendezvous.setHandler]
      rwa [Function.update_of_ne differ]
    · have differ : call.request.server ≠ request.server := by
        intro same
        rw [same, idle] at sending
        cases sending
      simp only [Rendezvous.setHandler]
      rwa [Function.update_of_ne differ]
  have member := List.mem_of_getElem? found
  refine ⟨?_, ?_, ?_, inv.queues⟩
  · intro client call has
    obtain ⟨isClient, known⟩ := inv.calls client call has
    have before := known.of_undisturbed (kept call)
    refine ⟨isClient, { before with answered := ?_ }⟩
    intro reply replied requested sameClient sameCall
    rcases List.mem_append.mp replied with earlier | last
    · exact before.answered reply earlier requested sameClient sameCall
    · cases List.mem_singleton.mp last
      obtain rfl := known.asked request member sameClient sameCall
      refine ⟨rfl, fun serves => ?_⟩
      simp only at serves
      subst serves
      simp only [Rendezvous.setHandler]
      rw [Function.update_self]
      rfl
  · exact fun other listed => inv.requests other (List.mem_of_mem_eraseIdx listed)
  · intro reply replied
    rcases List.mem_append.mp replied with earlier | last
    · exact inv.replies reply earlier
    · cases List.mem_singleton.mp last
      exact inv.requests request member

/-- A step of a handler that keeps what it waits for, and its file transfer if there is one. -/
theorem matched_setHandler {platform : Platform} {s : Rendezvous N} {server : N}
    {handler : Handler N} (inv : Matched platform s)
    (awaits : ∀ request, (s.handlers server).awaits = some request →
      handler.awaits = some request)
    (free : ∀ request, s.handlers server ≠ .sending request) :
    Matched platform (s.setHandler server handler) := by
  refine inv.of_calls rfl ?_ (fun _ member => member) (fun _ member => member) rfl
    (fun _ _ found _ => found)
  intro call
  refine ⟨Nat.le_refl _, fun _ member _ => member, fun _ member _ => member, fun awaited => ?_,
    fun sending => ?_, rfl⟩
  · simp only [Rendezvous.setHandler]
    by_cases same : call.request.server = server
    · rw [same, Function.update_self]
      exact awaits _ (same ▸ awaited)
    · rwa [Function.update_of_ne same]
  · simp only [Rendezvous.setHandler]
    have differ : call.request.server ≠ server := by
      intro same
      rw [same] at sending
      exact free _ sending
    rwa [Function.update_of_ne differ]

theorem matched_listen {platform : Platform} {s : Rendezvous N} (inv : Matched platform s)
    (server : N) : Matched platform (s.setListener server []) := by
  refine inv.of_calls rfl ?_ (fun _ member => member) (fun _ member => member) rfl ?_
  · exact fun call => ⟨Nat.le_refl _, fun _ member _ => member, fun _ member _ => member, id, id,
      rfl⟩
  · intro other queue found nonempty
    simp only [Rendezvous.setListener] at found
    by_cases same : other = server
    · subst same
      rw [Function.update_self] at found
      cases found
      exact absurd rfl nonempty
    · rwa [Function.update_of_ne same] at found

theorem matched_accept {platform : Platform} {s : Rendezvous N} {sender : N} {own : Request N}
    (inv : Matched platform s) (listening : s.handlers own.server = .listening own)
    (waiting : s.listeners own.server = some [own])
    (connected : s.calls own.client = some ⟨own, .connected sender own.filePath⟩) :
    Matched platform (((s.setHandler own.server (.sending own)).setListener own.server []).setCall
      own.client (some ⟨own, .running own.filePath own [] Transfer.connected⟩)) := by
  obtain ⟨-, known⟩ := inv.calls _ _ connected
  have others (call : Call N) (differ : call.request.client ≠ own.client) :
      Undisturbed s (((s.setHandler own.server (.sending own)).setListener own.server []).setCall
        own.client (some ⟨own, .running own.filePath own [] Transfer.connected⟩)) call := by
    refine ⟨Nat.le_refl _, fun _ member _ => member, fun _ member _ => member, fun awaited => ?_,
      fun sending => ?_, rfl⟩
    · have elsewhere : call.request.server ≠ own.server := by
        intro same
        rw [same, listening] at awaited
        cases awaited
        exact differ rfl
      simp only [Rendezvous.setCall, Rendezvous.setListener, Rendezvous.setHandler]
      rwa [Function.update_of_ne elsewhere]
    · have elsewhere : call.request.server ≠ own.server := by
        intro same
        rw [same, listening] at sending
        cases sending
      simp only [Rendezvous.setCall, Rendezvous.setListener, Rendezvous.setHandler]
      rwa [Function.update_of_ne elsewhere]
  refine ⟨?_, inv.requests, inv.replies, ?_⟩
  · intro client call found
    simp only [Rendezvous.setCall] at found
    by_cases same : client = own.client
    · subst same
      rw [Function.update_self] at found
      cases found
      refine ⟨rfl, known.numbered, known.asked, by rintro _ _ ⟨⟩, by rintro _ ⟨⟩, ?_, ?_⟩
      · rintro _ _ _ _ ⟨⟩
        refine ⟨rfl, rfl, ?_, carries_connected platform⟩
        simp only [Rendezvous.setCall, Rendezvous.setListener, Rendezvous.setHandler]
        exact Function.update_self ..
      · rintro _ ⟨⟩
        exact known.stored _ rfl
    · simp only [Rendezvous.setListener, Rendezvous.setHandler] at found
      rw [Function.update_of_ne same] at found
      obtain ⟨rfl, before⟩ := inv.calls client call found
      exact ⟨rfl, before.of_undisturbed (others call same)⟩
  · intro server queue found nonempty
    simp only [Rendezvous.setCall, Rendezvous.setListener] at found
    by_cases same : server = own.server
    · subst same
      rw [Function.update_self] at found
      cases found
      exact absurd rfl nonempty
    · rw [Function.update_of_ne same] at found
      obtain ⟨only, other, filePath, single, isServer, call⟩ :=
        inv.queues server queue found nonempty
      have differ : only.client ≠ own.client := by
        intro sameClient
        rw [sameClient] at call
        cases connected.symm.trans call
        exact same isServer.symm
      refine ⟨only, other, filePath, single, isServer, ?_⟩
      simp only [Rendezvous.setCall, Rendezvous.setListener, Rendezvous.setHandler]
      rw [Function.update_of_ne differ]
      exact call

theorem matched_receiveReply {platform : Platform} {s : Rendezvous N} {request own : Request N}
    {i : Nat} {abandon : Bool} (inv : Matched platform s)
    (found : s.replies[i]? = some ⟨request, abandon⟩)
    (requested : s.calls request.client = some ⟨own, .requested⟩) (isOwn : request.id = own.id) :
    Matched platform { (s.setCall request.client (if abandon then none
        else some ⟨own, .replied request.server request.filePath⟩)) with
      replies := s.replies.eraseIdx i } := by
  obtain ⟨isClient, known⟩ := inv.calls _ _ requested
  obtain ⟨same, awaited⟩ := known.answered _ (List.mem_of_getElem? found) rfl isClient.symm isOwn
  simp only at same awaited
  subst same
  refine inv.of_call request.client rfl ?_ ?_ inv.requests ?_ rfl ?_
  · exact fun call _ _ => ⟨Nat.le_refl _, fun _ member _ => member,
      fun _ member _ => List.mem_of_mem_eraseIdx member, id, id, rfl⟩
  · intro call replied
    cases abandon with
    | true => cases replied
    | false =>
      cases replied
      refine ⟨rfl, known.numbered, known.asked, by rintro _ _ ⟨⟩, ?_, by rintro _ _ _ _ ⟨⟩,
        by rintro _ ⟨⟩⟩
      rintro _ ⟨⟩
      exact ⟨rfl, awaited rfl⟩
  · exact fun reply member => inv.replies reply (List.mem_of_mem_eraseIdx member)
  · intro _ _ _ connected
    cases requested.symm.trans connected

/-- The other calls do not see the disk of the client. -/
theorem setFile_disk {s : Rendezvous N} {client other : N} (differ : other ≠ client)
    (filePath : WString) (bytes : Bytes) :
    (s.setFile client filePath bytes).disk other = s.disk other :=
  Function.update_of_ne differ ..

theorem setFile_stored (s : Rendezvous N) (client : N) (filePath : WString) (bytes : Bytes) :
    (s.setFile client filePath bytes).disk client filePath = some bytes := by
  simp only [Rendezvous.setFile, Function.update_self]

theorem matched_openTarget {platform : Platform} {s : Rendezvous N} {client sender : N}
    {own : Request N} {filePath : WString} (inv : Matched platform s)
    (replied : s.calls client = some ⟨own, .replied sender filePath⟩) :
    Matched platform
      ((s.setCall client (some ⟨own, .opened sender filePath⟩)).setFile client filePath []) := by
  obtain ⟨rfl, known⟩ := inv.calls _ _ replied
  refine inv.of_call own.client rfl ?_ ?_ inv.requests inv.replies rfl ?_
  · exact fun call differ _ => ⟨Nat.le_refl _, fun _ member _ => member,
      fun _ member _ => member, id, id, setFile_disk differ ..⟩
  · rintro call ⟨⟩
    refine ⟨rfl, known.numbered, known.asked, by rintro _ _ ⟨⟩, ?_, by rintro _ _ _ _ ⟨⟩, ?_⟩
    · rintro _ ⟨⟩
      exact known.waiting _ rfl
    · rintro _ ⟨⟩
      exact setFile_stored ..
  · intro _ _ _ connected
    cases replied.symm.trans connected

theorem matched_connect {platform : Platform} {s : Rendezvous N} {client sender : N}
    {own : Request N} {filePath : WString} {queue : List (Request N)} (inv : Matched platform s)
    (opened : s.calls client = some ⟨own, .opened sender filePath⟩)
    (listens : s.listeners sender = some queue) :
    Matched platform ((s.setCall client (some ⟨own, .connected sender filePath⟩)).setListener
      sender (queue ++ [own])) := by
  obtain ⟨rfl, known⟩ := inv.calls _ _ opened
  obtain ⟨target, -⟩ := known.waiting _ rfl
  obtain ⟨isServer, -⟩ := Prod.mk.inj target
  simp only at isServer
  subst isServer
  obtain rfl := queue_of_opened inv opened listens
  refine ⟨?_, inv.requests, inv.replies, ?_⟩
  · intro other call found
    simp only [Rendezvous.setListener, Rendezvous.setCall] at found
    by_cases same : other = own.client
    · subst same
      rw [Function.update_self] at found
      cases found
      exact ⟨rfl, known.numbered, known.asked, by rintro _ _ ⟨⟩, by
        rintro _ ⟨⟩
        exact known.waiting _ rfl, by rintro _ _ _ _ ⟨⟩, by
        rintro _ ⟨⟩
        exact known.stored _ rfl⟩
    · rw [Function.update_of_ne same] at found
      obtain ⟨isClient, before⟩ := inv.calls other call found
      exact ⟨isClient, before.of_undisturbed ⟨Nat.le_refl _, fun _ member _ => member,
        fun _ member _ => member, id, id, rfl⟩⟩
  · intro server queue found nonempty
    simp only [Rendezvous.setListener, Rendezvous.setCall] at found ⊢
    by_cases same : server = own.server
    · subst same
      rw [Function.update_self] at found
      cases found
      exact ⟨own, own.server, filePath, rfl, rfl, Function.update_self ..⟩
    · rw [Function.update_of_ne same] at found
      obtain ⟨only, other, path, single, isServer, connected⟩ :=
        inv.queues server queue found nonempty
      have differ : only.client ≠ own.client := by
        intro sameClient
        rw [sameClient] at connected
        cases opened.symm.trans connected
      exact ⟨only, other, path, single, isServer, by
        rw [Function.update_of_ne differ]
        exact connected⟩

theorem matched_refused {platform : Platform} {s : Rendezvous N} {client sender : N}
    {own : Request N} {filePath : WString} (inv : Matched platform s)
    (opened : s.calls client = some ⟨own, .opened sender filePath⟩) :
    Matched platform (s.setCall client (some ⟨own, .refused sender filePath⟩)) := by
  obtain ⟨rfl, known⟩ := inv.calls _ _ opened
  refine inv.of_call own.client rfl ?_ ?_ inv.requests inv.replies rfl ?_
  · exact fun call _ _ => ⟨Nat.le_refl _, fun _ member _ => member, fun _ member _ => member, id,
      id, rfl⟩
  · rintro call ⟨⟩
    refine ⟨rfl, known.numbered, known.asked, by rintro _ _ ⟨⟩, ?_, by rintro _ _ _ _ ⟨⟩, ?_⟩
    · rintro _ ⟨⟩
      exact known.waiting _ rfl
    · rintro _ ⟨⟩
      exact known.stored _ rfl
  · intro _ _ _ connected
    cases opened.symm.trans connected

theorem matched_transfer {platform : Platform} {s : Rendezvous N} {client : N}
    {own request : Request N} {filePath : WString} {served source : Bytes}
    {transfer next : Transfer} {action : TransferAction} (inv : Matched platform s)
    (running : s.calls client = some ⟨own, .running filePath request served transfer⟩)
    (taken : transferStep platform source action transfer = some next) :
    Matched platform ((s.setCall client (some ⟨own, .running filePath request
      (served ++ readBytes source transfer action) next⟩)).setFile client filePath
        next.client.file) := by
  obtain ⟨rfl, known⟩ := inv.calls _ _ running
  obtain ⟨isOwn, path, sending, carries⟩ := known.running _ _ _ _ rfl
  refine inv.of_call own.client rfl ?_ ?_ inv.requests inv.replies rfl ?_
  · exact fun call differ _ => ⟨Nat.le_refl _, fun _ member _ => member,
      fun _ member _ => member, id, id, setFile_disk differ ..⟩
  · rintro call ⟨⟩
    refine ⟨rfl, known.numbered, known.asked, by rintro _ _ ⟨⟩, by rintro _ ⟨⟩, ?_, ?_⟩
    · rintro _ _ _ _ ⟨⟩
      exact ⟨isOwn, path, sending, carries_step carries taken⟩
    · rintro _ ⟨⟩
      exact setFile_stored ..
  · intro _ _ _ connected
    cases running.symm.trans connected

theorem matched_finish {platform : Platform} {s : Rendezvous N} {client : N}
    {own request : Request N} {filePath : WString} {served : Bytes} {transfer : Transfer}
    (inv : Matched platform s)
    (running : s.calls client = some ⟨own, .running filePath request served transfer⟩) :
    Matched platform ((s.setCall client none).setHandler request.server .closing) := by
  obtain ⟨rfl, known⟩ := inv.calls _ _ running
  obtain ⟨isOwn, path, sending, carries⟩ := known.running _ _ _ _ rfl
  simp only at isOwn sending
  subst isOwn
  refine inv.of_call request.client rfl ?_ (by rintro _ ⟨⟩) inv.requests inv.replies rfl ?_
  · intro call differ _
    refine ⟨Nat.le_refl _, fun _ member _ => member, fun _ member _ => member, fun awaited => ?_,
      fun other => ?_, rfl⟩
    · have elsewhere : call.request.server ≠ request.server := by
        intro same
        rw [same, sending] at awaited
        cases awaited
      simp only [Rendezvous.setHandler, Rendezvous.setCall]
      rwa [Function.update_of_ne elsewhere]
    · have elsewhere : call.request.server ≠ request.server := by
        intro same
        rw [same, sending] at other
        cases other
        exact differ rfl
      simp only [Rendezvous.setHandler, Rendezvous.setCall]
      rwa [Function.update_of_ne elsewhere]
  · intro _ _ _ connected
    cases running.symm.trans connected

theorem matched_step {platform : Platform} {s next : Rendezvous N} {action : RendezvousAction N}
    (inv : Matched platform s) (own : takesOwn s action)
    (taken : rendezvousStep platform action s = some next) : Matched platform next := by
  cases rendezvousEffect_of_step taken with
  | request free => exact matched_request inv free
  | handle found idle => exact matched_handle inv found idle
  | openFile replied =>
    refine matched_setHandler inv (fun request awaited => ?_) (fun request sending => ?_)
    · rw [replied] at awaited
      exact awaited
    · cases replied.symm.trans sending
  | listen opened =>
    refine matched_listen (matched_setHandler inv (fun request awaited => ?_)
      (fun request sending => ?_)) _
    · rw [opened] at awaited
      exact awaited
    · cases opened.symm.trans sending
  | accept listening waiting connected =>
    obtain ⟨rfl, rfl, rfl, rfl, rfl⟩ := accepted_own inv listening waiting connected
    exact matched_accept inv listening waiting connected
  | abandoned found requested =>
    exact matched_receiveReply inv found requested (own _ _ requested found)
  | replied found requested =>
    exact matched_receiveReply inv found requested (own _ _ requested found)
  | duplicate found => exact matched_duplicate inv found
  | openTarget replied => exact matched_openTarget inv replied
  | connect opened listens => exact matched_connect inv opened listens
  | refused opened => exact matched_refused inv opened
  | transfer running moved => exact matched_transfer inv running moved
  | finish running => exact matched_finish inv running
  | close closing =>
    refine matched_setHandler inv (fun request awaited => ?_) (fun request sending => ?_)
    · rw [closing] at awaited
      cases awaited
    · cases closing.symm.trans sending

/-! ## Runs -/

/-- The path that each call has created or truncated is the one it was made for; what it has
    stored there is what its server has read for it, as far as it has come, and all of it at the
    end. No step writes anything else. -/
structure RepliesMatched (platform : Platform) (s : Rendezvous N) : Prop where
  target : ∀ client call file, s.calls client = some call → call.phase.stored = some file →
    file.1 = call.request.filePath ∧ s.disk client call.request.filePath = some file.2
  served : ∀ client call filePath request served transfer, s.calls client = some call →
    call.phase = .running filePath request served transfer →
    request = call.request ∧ transfer.client.file <+: served ∧
      (platform = .win32 → transfer.client.phase = .ending ∨ transfer.client.phase = .done →
        transfer.client.file = served)
  writes : ∀ action next, rendezvousStep platform action s = some next → ∀ client filePath,
    next.disk client filePath ≠ s.disk client filePath →
    ∃ call, s.calls client = some call ∧ call.request.filePath = filePath

/-- A write to one file of one node. -/
theorem setFile_writes {s : Rendezvous N} {client other : N} {filePath path : WString}
    {bytes : Bytes}
    (changed : (s.setFile client filePath bytes).disk other path ≠ s.disk other path) :
    other = client ∧ path = filePath := by
  by_cases same : other = client
  · subst same
    refine ⟨rfl, ?_⟩
    by_contra differ
    refine changed ?_
    simp only [Rendezvous.setFile, Function.update_self]
    exact Function.update_of_ne differ ..
  · exact absurd (congrFun (setFile_disk same filePath bytes) path) changed

theorem repliesMatched_of_matched {platform : Platform} {s : Rendezvous N}
    (inv : Matched platform s) : RepliesMatched platform s := by
  refine ⟨?_, ?_, ?_⟩
  · intro client call file found stored
    obtain ⟨rfl, known⟩ := inv.calls client call found
    have path : file.1 = call.request.filePath := by
      obtain ⟨request, phase⟩ := call
      cases phase with
      | requested | replied => cases stored
      | opened | connected | refused =>
        cases stored
        obtain ⟨target, -⟩ := known.waiting _ rfl
        exact (Prod.mk.inj target).2
      | running =>
        cases stored
        obtain ⟨-, path, -⟩ := known.running _ _ _ _ rfl
        exact path
    exact ⟨path, path ▸ known.stored file stored⟩
  · intro client call filePath request served transfer found phase
    obtain ⟨-, known⟩ := inv.calls client call found
    obtain ⟨own, -, -, carries⟩ := known.running _ _ _ _ phase
    refine ⟨own, isPrefix_of_carries carries, ?_⟩
    rintro rfl ended
    exact whole_of_carries carries ended
  · intro action next taken client filePath changed
    cases rendezvousEffect_of_step taken with
    | openTarget replied =>
      obtain ⟨rfl, rfl⟩ := setFile_writes changed
      obtain ⟨-, known⟩ := inv.calls _ _ replied
      obtain ⟨target, -⟩ := known.waiting _ rfl
      exact ⟨_, replied, (Prod.mk.inj target).2.symm⟩
    | transfer running moved =>
      obtain ⟨rfl, rfl⟩ := setFile_writes changed
      obtain ⟨-, known⟩ := inv.calls _ _ running
      obtain ⟨-, path, -⟩ := known.running _ _ _ _ rfl
      exact ⟨_, running, path.symm⟩
    | _ => exact absurd rfl changed

/-- If every datagram that a call takes answers the call's own request, then in every state each
    call writes to its own path only, and there what its server serves for it. -/
theorem replies_matched {platform : Platform} {disk : N → WString → Option Bytes}
    {actions : List (RendezvousAction N)} {s : Rendezvous N}
    (run : Run (rendezvousStep platform) takesOwn (Rendezvous.start disk) actions s) :
    RepliesMatched platform s :=
  repliesMatched_of_matched (run.invariant
    (fun _ _ _ inv own taken => matched_step inv own taken) (matched_start platform disk))

/-- A fetch of one byte. -/
theorem replies_matched_one : ∃ s : Rendezvous Bool, RepliesMatched .win32 s ∧
    s.disk false (wide "\\a") = some [1] := by
  have run : Run (rendezvousStep .win32) takesOwn (Rendezvous.start fun _ _ => none)
      [.request false true (wide "\\a"), .handle true 0 false, .receiveReply false 0,
        .openFile true, .listen true, .openTarget false, .connect false, .accept true,
        .transfer false [1] .accept, .transfer false [1] .test, .transfer false [1] .send,
        .transfer false [1] .receive, .transfer false [1] .write] _ :=
    .cons trivial rfl (.cons trivial rfl (.cons (fun call reply has found => by
        cases has
        cases found
        rfl) rfl (.cons trivial rfl (.cons trivial rfl (.cons trivial rfl (.cons trivial rfl
          (.cons trivial rfl (.cons trivial rfl (.cons trivial rfl (.cons trivial rfl
            (.cons trivial rfl (.cons trivial rfl (.nil _)))))))))))))
  exact ⟨_, replies_matched run, rfl⟩

/-- The reply to the first request arrives twice. The call for `\b` takes the second one, and
    the bytes of `\b` are written under `\a`. -/
theorem reply_duplicated : ∃ actions s call,
    Run (rendezvousStep .win32) anyStep (Rendezvous.start fun (_ : Bool) _ => none) actions s ∧
      s.calls false = some call ∧ call.request.filePath = wide "\\b" ∧
      s.disk false (wide "\\a") = some [2] ∧ s.disk false (wide "\\b") = none ∧
      ¬ RepliesMatched .win32 s := by
  have run : Run (rendezvousStep .win32) anyStep (Rendezvous.start fun (_ : Bool) _ => none)
      [.request false true (wide "\\a"), .handle true 0 false, .duplicate 0,
        .receiveReply false 0, .openFile true, .listen true, .openTarget false, .connect false,
        .accept true, .transfer false [] .accept, .transfer false [] .test,
        .transfer false [] .sendEnd, .transfer false [] .receive, .transfer false [] .respondEnd,
        .finish false, .close true,
        .request false true (wide "\\b"), .handle true 0 false, .receiveReply false 0,
        .openFile true, .listen true, .openTarget false, .connect false, .accept true,
        .transfer false [2] .accept, .transfer false [2] .test, .transfer false [2] .send,
        .transfer false [2] .receive, .transfer false [2] .write] _ := Run.of_exec rfl
  refine ⟨_, _, _, run, rfl, rfl, rfl, rfl, fun matched => ?_⟩
  obtain ⟨path, -⟩ := matched.target false _ _ rfl rfl
  exact absurd path (by decide)

end FileSync
