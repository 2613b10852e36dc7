import FileSync.ReplyMatching
import Mathlib.Data.List.Perm.Basic

/-!
# The moment of the connection

The handler sends its reply before it opens the file and before it listens. A client that is
faster connects to no listener, or to that of the previous transfer, which `listen` closes together
with the connections that wait there. When no datagram is duplicated and no client connects between
the reply and the call of `listen`, each connection waits where the handler accepts.
-/

namespace FileSync

open TransitionSystem

variable {N : Type}

/-- The handler has replied and does not listen yet. -/
def Handler.early : Handler N → Bool
  | .replied _ | .opened _ => true
  | _ => false

/-- No datagram is duplicated, and no client connects before the handler listens. -/
def onTime (s : Rendezvous N) : RendezvousAction N → Prop
  | .duplicate _ => False
  | .connect client => ∀ own sender filePath,
      s.calls client = some ⟨own, .opened sender filePath⟩ → (s.handlers sender).early = false
  | _ => True

/-- What the connections of a state come to: a client that is about to connect finds the listener
    of its own request if and only if the handler is through with `listen`, and what the handler
    accepts is the connection for its request. -/
structure CannotMiss (s : Rendezvous N) : Prop where
  connecting : ∀ client own sender filePath,
    s.calls client = some ⟨own, .opened sender filePath⟩ →
    ((s.handlers sender = .listening own ∧ s.listeners sender = some []) ↔
      (s.handlers sender).early = false)
  connected : ∀ client own sender filePath,
    s.calls client = some ⟨own, .connected sender filePath⟩ →
    s.handlers sender = .listening own ∧ s.listeners sender = some [own]
  notRefused : ∀ client own sender filePath,
    s.calls client ≠ some ⟨own, .refused sender filePath⟩
  accepting : ∀ server request connection queue, s.handlers server = .listening request →
    s.listeners server = some (connection :: queue) → connection = request ∧ queue = []

/-! ## Datagrams that arrive once -/

/-- The requests that have not been handled and those whose replies have not been taken. -/
def Rendezvous.underway (s : Rendezvous N) : List (Request N) :=
  s.requests ++ s.replies.map TcpDetails.request

/-- What is underway are requests that their clients wait for, and the replies to these; no request
    is underway twice. -/
structure OnceOnly (s : Rendezvous N) : Prop where
  requested : ∀ request ∈ s.underway, s.calls request.client = some ⟨request, .requested⟩
  single : s.underway.Nodup

theorem takesOwn_of_onceOnly [DecidableEq N] {platform : Platform} {s next : Rendezvous N}
    {action : RendezvousAction N} (once : OnceOnly s)
    (taken : rendezvousStep platform action s = some next) : takesOwn s action := by
  cases rendezvousEffect_of_step taken with
  | abandoned found | replied found =>
    intro call reply has taken
    cases found.symm.trans taken
    have listed := List.mem_map_of_mem (List.mem_of_getElem? found) (f := TcpDetails.request)
    cases (once.requested _ (List.mem_append_right _ listed)).symm.trans has
    rfl
  | _ => trivial

theorem underway_handle {s : Rendezvous N} {request : Request N} {i : Nat}
    (found : s.requests[i]? = some request) (abandon : Bool) :
    (s.requests.eraseIdx i ++
      (s.replies ++ [TcpDetails.mk request abandon]).map TcpDetails.request).Perm s.underway := by
  obtain ⟨within, here⟩ := List.getElem?_eq_some_iff.mp found
  have moved := List.getElem_cons_eraseIdx_perm within
  rw [here] at moved
  rw [List.map_append, ← List.append_assoc]
  exact (List.perm_append_singleton _ _).trans (moved.append_right _)

theorem underway_receive {s : Rendezvous N} {reply : TcpDetails N} {i : Nat}
    (found : s.replies[i]? = some reply) :
    (reply.request :: (s.requests ++ (s.replies.eraseIdx i).map TcpDetails.request)).Perm
      s.underway := by
  obtain ⟨within, here⟩ := List.getElem?_eq_some_iff.mp found
  have moved := List.getElem_cons_eraseIdx_perm within
  rw [here] at moved
  exact List.perm_middle.symm.trans ((moved.map TcpDetails.request).append_left s.requests)

variable [DecidableEq N]

/-- Steps on calls that do not wait for a reply. -/
theorem OnceOnly.of_setCall {s next : Rendezvous N} (once : OnceOnly s) (client : N)
    {phases : Option (Call N)} (calls : next.calls = Function.update s.calls client phases)
    (other : ∀ own, s.calls client ≠ some ⟨own, .requested⟩)
    (underway : next.underway = s.underway) : OnceOnly next := by
  refine ⟨fun request member => ?_, underway ▸ once.single⟩
  rw [underway] at member
  have waits := once.requested request member
  have differ : request.client ≠ client := by
    rintro rfl
    exact other _ waits
  rw [calls, Function.update_of_ne differ]
  exact waits

theorem OnceOnly.of_received {s next : Rendezvous N} {reply : TcpDetails N} {i : Nat}
    {phases : Option (Call N)} (once : OnceOnly s) (found : s.replies[i]? = some reply)
    (calls : next.calls = Function.update s.calls reply.request.client phases)
    (underway : next.underway = s.requests ++ (s.replies.eraseIdx i).map TcpDetails.request) :
    OnceOnly next := by
  have before := underway_receive found
  have distinct := before.nodup_iff.mpr once.single
  obtain ⟨gone, single⟩ := List.nodup_cons.mp distinct
  refine ⟨fun request member => ?_, underway ▸ single⟩
  rw [underway] at member
  have waits := once.requested request (before.subset (List.mem_cons_of_mem _ member))
  have taken := once.requested _ (before.subset List.mem_cons_self)
  have differ : request.client ≠ reply.request.client := by
    intro same
    rw [same] at waits
    cases waits.symm.trans taken
    exact gone member
  rw [calls, Function.update_of_ne differ]
  exact waits

theorem onceOnly_step {platform : Platform} {s next : Rendezvous N} {action : RendezvousAction N}
    (once : OnceOnly s) (allowed : onTime s action)
    (taken : rendezvousStep platform action s = some next) : OnceOnly next := by
  cases rendezvousEffect_of_step taken with
  | @request client server filePath free =>
    have others : ∀ request ∈ s.underway, request.client ≠ client := by
      rintro request member rfl
      cases free.symm.trans (once.requested request member)
    have moved : ((s.requests ++ [Request.mk client (s.made client) server filePath]) ++
        s.replies.map TcpDetails.request).Perm
        (Request.mk client (s.made client) server filePath :: s.underway) :=
      (List.perm_append_singleton _ _).append_right _
    refine ⟨fun request member => ?_, moved.nodup_iff.mpr (List.nodup_cons.mpr
      ⟨fun member => others _ member rfl, once.single⟩)⟩
    rcases List.mem_cons.mp (moved.subset member) with rfl | before
    · exact Function.update_self ..
    · exact (Function.update_of_ne (others _ before) ..).trans (once.requested request before)
  | @handle _ _ abandon found =>
    have moved := underway_handle found abandon
    exact ⟨fun request member => once.requested request (moved.subset member),
      moved.nodup_iff.mpr once.single⟩
  | accept _ _ connected =>
    refine once.of_setCall _ rfl (fun own waits => ?_) rfl
    cases connected.symm.trans waits
  | abandoned found | replied found => exact once.of_received found rfl rfl
  | duplicate => exact allowed.elim
  | openTarget replied =>
    refine once.of_setCall _ rfl (fun own waits => ?_) rfl
    cases replied.symm.trans waits
  | connect opened | refused opened =>
    refine once.of_setCall _ rfl (fun own waits => ?_) rfl
    cases opened.symm.trans waits
  | transfer running | finish running =>
    refine once.of_setCall _ rfl (fun own waits => ?_) rfl
    cases running.symm.trans waits
  | _ => exact ⟨once.requested, once.single⟩

/-! ## Connections that wait where the handler accepts -/

omit [DecidableEq N] in
/-- A handler that awaits a request and is not early listens for it. -/
theorem listening_of_awaits {handler : Handler N} {request : Request N}
    (awaits : handler.awaits = some request) (late : handler.early = false) :
    handler = .listening request := by
  cases handler with
  | listening =>
    cases awaits
    rfl
  | replied | opened => cases late
  | idle | sending | closing => cases awaits

/-- No connection has been refused, one that waits does so alone at the listener of a handler that
    listens for it, and a handler that listens has a listener. -/
structure Timely (s : Rendezvous N) : Prop where
  connected : ∀ client own sender filePath,
    s.calls client = some ⟨own, .connected sender filePath⟩ →
    s.handlers sender = .listening own ∧ s.listeners sender = some [own]
  notRefused : ∀ client own sender filePath,
    s.calls client ≠ some ⟨own, .refused sender filePath⟩
  listens : ∀ server request, s.handlers server = .listening request →
    ∃ queue, s.listeners server = some queue

/-- Steps of a call that neither make a connection nor fail to. -/
theorem Timely.of_call {s next : Rendezvous N} (timely : Timely s) (client : N)
    {phases : Option (Call N)} (calls : next.calls = Function.update s.calls client phases)
    (unconnected : ∀ own sender filePath, phases ≠ some ⟨own, .connected sender filePath⟩)
    (unrefused : ∀ own sender filePath, phases ≠ some ⟨own, .refused sender filePath⟩)
    (handlers : next.handlers = s.handlers) (listeners : next.listeners = s.listeners) :
    Timely next := by
  refine ⟨?_, ?_, ?_⟩
  · intro other own sender filePath connected
    rw [handlers, listeners]
    rw [calls] at connected
    by_cases same : other = client
    · subst same
      rw [Function.update_self] at connected
      exact absurd connected (unconnected _ _ _)
    · rw [Function.update_of_ne same] at connected
      exact timely.connected other own sender filePath connected
  · intro other own sender filePath refused
    rw [calls] at refused
    by_cases same : other = client
    · subst same
      rw [Function.update_self] at refused
      exact unrefused _ _ _ refused
    · rw [Function.update_of_ne same] at refused
      exact timely.notRefused _ _ _ _ refused
  · rw [handlers, listeners]
    exact timely.listens

/-- Steps of a handler that does not listen, neither before nor after. -/
theorem Timely.of_handler {s next : Rendezvous N} (timely : Timely s) (server : N)
    {handler : Handler N} (handlers : next.handlers = Function.update s.handlers server handler)
    (calls : next.calls = s.calls) (listeners : next.listeners = s.listeners)
    (before : ∀ request, s.handlers server ≠ .listening request)
    (after : ∀ request, handler ≠ .listening request) : Timely next := by
  refine ⟨?_, ?_, ?_⟩
  · intro client own sender filePath connected
    rw [calls] at connected
    obtain ⟨listening, waits⟩ := timely.connected client own sender filePath connected
    have differ : sender ≠ server := by
      rintro rfl
      exact before _ listening
    rw [handlers, listeners, Function.update_of_ne differ]
    exact ⟨listening, waits⟩
  · rw [calls]
    exact timely.notRefused
  · intro other request listening
    rw [handlers] at listening
    rw [listeners]
    by_cases same : other = server
    · subst same
      rw [Function.update_self] at listening
      exact absurd listening (after _)
    · rw [Function.update_of_ne same] at listening
      exact timely.listens other request listening

theorem timely_listen {s : Rendezvous N} {server : N} {request : Request N} (timely : Timely s)
    (opened : s.handlers server = .opened request) :
    Timely ((s.setHandler server (.listening request)).setListener server []) := by
  refine ⟨?_, timely.notRefused, ?_⟩
  · intro client own sender filePath connected
    obtain ⟨listening, waits⟩ := timely.connected client own sender filePath connected
    have differ : sender ≠ server := by
      rintro rfl
      cases opened.symm.trans listening
    simp only [Rendezvous.setListener, Rendezvous.setHandler]
    rw [Function.update_of_ne differ, Function.update_of_ne differ]
    exact ⟨listening, waits⟩
  · intro other own listening
    simp only [Rendezvous.setListener, Rendezvous.setHandler] at listening ⊢
    by_cases same : other = server
    · subst same
      exact ⟨[], Function.update_self ..⟩
    · rw [Function.update_of_ne same] at listening ⊢
      exact timely.listens other own listening

theorem timely_accept {platform : Platform} {s : Rendezvous N} {own : Request N}
    {phase : CallPhase N} (inv : Matched platform s) (timely : Timely s)
    (listening : s.handlers own.server = .listening own)
    (unconnected : ∀ sender filePath, phase ≠ .connected sender filePath)
    (unrefused : ∀ sender filePath, phase ≠ .refused sender filePath) :
    Timely (((s.setHandler own.server (.sending own)).setListener own.server []).setCall own.client
      (some ⟨own, phase⟩)) := by
  refine ⟨?_, ?_, ?_⟩
  · intro client other sender filePath connected
    simp only [Rendezvous.setCall, Rendezvous.setListener, Rendezvous.setHandler] at connected ⊢
    by_cases same : client = own.client
    · subst same
      rw [Function.update_self] at connected
      cases connected
      exact absurd rfl (unconnected _ _)
    · rw [Function.update_of_ne same] at connected
      obtain ⟨waits, queue⟩ := timely.connected client other sender filePath connected
      obtain ⟨isClient, -⟩ := inv.calls _ _ connected
      have differ : sender ≠ own.server := by
        rintro rfl
        cases listening.symm.trans waits
        exact same isClient.symm
      rw [Function.update_of_ne differ, Function.update_of_ne differ]
      exact ⟨waits, queue⟩
  · intro client other sender filePath refused
    simp only [Rendezvous.setCall, Rendezvous.setListener, Rendezvous.setHandler] at refused
    by_cases same : client = own.client
    · subst same
      rw [Function.update_self] at refused
      cases refused
      exact unrefused _ _ rfl
    · rw [Function.update_of_ne same] at refused
      exact timely.notRefused _ _ _ _ refused
  · intro other request listens
    simp only [Rendezvous.setCall, Rendezvous.setListener, Rendezvous.setHandler] at listens ⊢
    by_cases same : other = own.server
    · subst same
      exact ⟨[], Function.update_self ..⟩
    · rw [Function.update_of_ne same] at listens ⊢
      exact timely.listens other request listens

omit [DecidableEq N] in
/-- A call that is about to connect finds the listener of its request open and empty. -/
theorem listening_of_opened {platform : Platform} {s : Rendezvous N} {client sender : N}
    {own : Request N} {filePath : WString} (inv : Matched platform s) (timely : Timely s)
    (opened : s.calls client = some ⟨own, .opened sender filePath⟩)
    (late : (s.handlers sender).early = false) :
    s.handlers sender = .listening own ∧ s.listeners sender = some [] := by
  obtain ⟨rfl, known⟩ := inv.calls _ _ opened
  obtain ⟨target, awaits⟩ := known.waiting _ rfl
  obtain ⟨isServer, -⟩ := Prod.mk.inj target
  simp only at isServer awaits opened
  subst isServer
  have listening := listening_of_awaits awaits late
  obtain ⟨queue, listens⟩ := timely.listens _ _ listening
  obtain rfl := queue_of_opened inv opened listens
  exact ⟨listening, listens⟩

theorem timely_connect {platform : Platform} {s : Rendezvous N} {client sender : N}
    {own : Request N} {filePath : WString} (inv : Matched platform s) (timely : Timely s)
    (opened : s.calls client = some ⟨own, .opened sender filePath⟩)
    (listening : s.handlers sender = .listening own) :
    Timely ((s.setCall client (some ⟨own, .connected sender filePath⟩)).setListener sender
      [own]) := by
  obtain ⟨rfl, -⟩ := inv.calls _ _ opened
  refine ⟨?_, ?_, ?_⟩
  · intro client other sender' path connected
    simp only [Rendezvous.setListener, Rendezvous.setCall] at connected ⊢
    by_cases same : client = own.client
    · subst same
      rw [Function.update_self] at connected
      cases connected
      exact ⟨listening, Function.update_self ..⟩
    · rw [Function.update_of_ne same] at connected
      obtain ⟨waits, queue⟩ := timely.connected client other sender' path connected
      obtain ⟨isClient, -⟩ := inv.calls _ _ connected
      have differ : sender' ≠ sender := by
        rintro rfl
        cases listening.symm.trans waits
        exact same isClient.symm
      rw [Function.update_of_ne differ]
      exact ⟨waits, queue⟩
  · intro client other sender' path refused
    simp only [Rendezvous.setListener, Rendezvous.setCall] at refused
    by_cases same : client = own.client
    · subst same
      rw [Function.update_self] at refused
      cases refused
    · rw [Function.update_of_ne same] at refused
      exact timely.notRefused _ _ _ _ refused
  · intro server request listens
    simp only [Rendezvous.setListener, Rendezvous.setCall] at listens ⊢
    by_cases same : server = sender
    · subst same
      exact ⟨[own], Function.update_self ..⟩
    · rw [Function.update_of_ne same]
      exact timely.listens server request listens

theorem timely_step {platform : Platform} {s next : Rendezvous N} {action : RendezvousAction N}
    (inv : Matched platform s) (timely : Timely s) (allowed : onTime s action)
    (taken : rendezvousStep platform action s = some next) : Timely next := by
  cases rendezvousEffect_of_step taken with
  | request => exact timely.of_call _ rfl nofun nofun rfl rfl
  | @handle _ _ abandon _ idle =>
    refine timely.of_handler _ rfl rfl rfl (fun request listening => ?_) ?_
    · cases idle.symm.trans listening
    · cases abandon <;> rintro _ ⟨⟩
  | openFile replied =>
    refine timely.of_handler _ rfl rfl rfl (fun request listening => ?_) nofun
    cases replied.symm.trans listening
  | listen opened => exact timely_listen timely opened
  | accept listening waiting connected =>
    obtain ⟨rfl, rfl, rfl, rfl, rfl⟩ := accepted_own inv listening waiting connected
    exact timely_accept inv timely listening nofun nofun
  | abandoned | replied | openTarget | transfer =>
    exact timely.of_call _ rfl nofun nofun rfl rfl
  | duplicate => exact allowed.elim
  | connect opened listens =>
    obtain ⟨listening, empty⟩ := listening_of_opened inv timely opened (allowed _ _ _ opened)
    cases listens.symm.trans empty
    exact timely_connect inv timely opened listening
  | refused opened closed =>
    obtain ⟨-, empty⟩ := listening_of_opened inv timely opened (allowed _ _ _ opened)
    cases closed.symm.trans empty
  | @finish client own request filePath served transfer running =>
    obtain ⟨-, known⟩ := inv.calls _ _ running
    obtain ⟨isOwn, -, sending, -⟩ := known.running _ _ _ _ rfl
    simp only at isOwn sending
    subst isOwn
    have unlistened : Timely (s.setHandler request.server .closing) := by
      refine timely.of_handler _ rfl rfl rfl (fun other listening => ?_) nofun
      cases sending.symm.trans listening
    exact unlistened.of_call client rfl nofun nofun rfl rfl
  | close closing =>
    refine timely.of_handler _ rfl rfl rfl (fun request listening => ?_) nofun
    cases closing.symm.trans listening

/-! ## Runs -/

theorem inv_of_onTime {platform : Platform} {disk : N → WString → Option Bytes}
    {actions : List (RendezvousAction N)} {s : Rendezvous N}
    (run : Run (rendezvousStep platform) onTime (Rendezvous.start disk) actions s) :
    Matched platform s ∧ Timely s := by
  have preserved : ∀ (s : Rendezvous N) action next,
      (Matched platform s ∧ OnceOnly s ∧ Timely s) → onTime s action →
      rendezvousStep platform action s = some next →
      Matched platform next ∧ OnceOnly next ∧ Timely next := by
    rintro s action next ⟨inv, once, timely⟩ allowed taken
    exact ⟨matched_step inv (takesOwn_of_onceOnly once taken) taken,
      onceOnly_step once allowed taken, timely_step inv timely allowed taken⟩
  have start : Matched platform (Rendezvous.start disk) ∧ OnceOnly (Rendezvous.start disk) ∧
      Timely (Rendezvous.start disk) :=
    ⟨matched_start platform disk, ⟨nofun, List.nodup_nil⟩,
      ⟨nofun, nofun, nofun⟩⟩
  obtain ⟨inv, -, timely⟩ := run.invariant preserved start
  exact ⟨inv, timely⟩

/-- In a run in which no client has connected before its handler listened, every connection so
    far waits at, or was accepted by, the handler of its own request, and the next one does if and
    only if that handler listens already. -/
theorem connections_meet {platform : Platform} {disk : N → WString → Option Bytes}
    {actions : List (RendezvousAction N)} {s : Rendezvous N}
    (run : Run (rendezvousStep platform) onTime (Rendezvous.start disk) actions s) :
    CannotMiss s := by
  obtain ⟨inv, timely⟩ := inv_of_onTime run
  refine ⟨?_, timely.connected, timely.notRefused, ?_⟩
  · intro client own sender filePath opened
    constructor
    · rintro ⟨listening, -⟩
      rw [listening]
      rfl
    · exact listening_of_opened inv timely opened
  · intro server request connection queue listening waits
    obtain ⟨own, sender, filePath, only, isServer, connected⟩ :=
      inv.queues server _ waits (List.cons_ne_nil _ _)
    cases only
    obtain ⟨-, -, rfl, -⟩ := accepted_own inv listening waits connected
    exact ⟨rfl, rfl⟩

/-- The first connection of a run, after `listen`. -/
theorem connections_meet_one : ∃ s : Rendezvous Bool, CannotMiss s ∧
    s.listeners true = some [⟨false, 0, true, wide "\\a"⟩] := by
  have run : Run (rendezvousStep .win32) onTime (Rendezvous.start fun _ _ => none)
      [.request false true (wide "\\a"), .handle true 0 false, .receiveReply false 0,
        .openTarget false, .openFile true, .listen true, .connect false] _ :=
    .cons trivial rfl (.cons trivial rfl (.cons trivial rfl (.cons trivial rfl (.cons trivial rfl
      (.cons trivial rfl (.cons (fun _ _ _ opened => by cases opened; rfl) rfl (.nil _)))))))
  exact ⟨_, connections_meet run, rfl⟩

/-- A client that connects right after the reply is refused in the first transfer, and in the
    second one it connects to the listener of the first, which is closed under it. -/
theorem connections_miss :
    (∃ actions s, Run (rendezvousStep .win32) anyStep
        (Rendezvous.start fun (_ : Bool) _ => none) actions s ∧
      (∀ i, .duplicate i ∉ actions) ∧ ¬ CannotMiss s ∧
      s.listeners true = none) ∧
    (∃ actions s call, Run (rendezvousStep .win32) anyStep
        (Rendezvous.start fun (_ : Bool) _ => none) actions s ∧
      (∀ i, .duplicate i ∉ actions) ∧ s.calls false = some call ∧
      call.phase = .connected true (wide "\\b") ∧ s.handlers true = .listening call.request ∧
      s.listeners true = some []) := by
  constructor
  · have run : Run (rendezvousStep .win32) anyStep (Rendezvous.start fun (_ : Bool) _ => none)
        [.request false true (wide "\\a"), .handle true 0 false, .receiveReply false 0,
          .openTarget false, .connect false] _ := Run.of_exec rfl
    refine ⟨_, _, run, by simp, fun cannotMiss => ?_, rfl⟩
    exact cannotMiss.notRefused false _ _ _ rfl
  · have run : Run (rendezvousStep .win32) anyStep (Rendezvous.start fun (_ : Bool) _ => none)
        [.request false true (wide "\\a"), .handle true 0 false, .receiveReply false 0,
          .openTarget false, .openFile true, .listen true, .connect false, .accept true,
          .transfer false [] .accept, .transfer false [] .test, .transfer false [] .sendEnd,
          .transfer false [] .receive, .transfer false [] .respondEnd, .finish false, .close true,
          .request false true (wide "\\b"), .handle true 0 false, .receiveReply false 0,
          .openTarget false, .connect false, .openFile true, .listen true] _ := Run.of_exec rfl
    exact ⟨_, _, _, run, by simp, rfl, rfl, rfl, rfl⟩

end FileSync
