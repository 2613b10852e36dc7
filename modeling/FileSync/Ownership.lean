import FileSync.Decoding
import FileSync.Library.Heap
import FileSync.Library.Runs

/-!
# The messages on the heap

A message and its packet are created by `collectUdpTraffic`, passed from thread to thread as a
pointer and destroyed by `disposeUdpMessage`. Here the pointers are modelled, and what goes wrong
when one is used after its object is gone.
-/

namespace FileSync

open TransitionSystem

/-- A `UdpMessage` object. -/
structure MessageObject where
  /-- `none` is a null pointer. -/
  packet : Option Nat
  ip : UInt32
  port : UInt16

/-- How a pointer is misused. -/
inductive Fault where
  /-- `ptr[0]` of an empty packet. -/
  | nullData
  | nullMessage
  | nullPacket
  /-- The object does not live any more. -/
  | dangling

/-- Where `handleUdp` is, with its local variable `message`. -/
inductive HandlerStage where
  | idle
  | popped (message : Nat)
  /-- In case 1. -/
  | storing (message : Nat)
  /-- In one of the cases 5 and 6, with the copy of the packet. -/
  | working (message : Nat) (packet : Packet)
  | disposing (message : Nat)

/-- Where `tableManagerDriver` is, with its local variable `message`. -/
inductive ManagerStage where
  | polling
  | unpacking (message : Option Nat)
  | disposing (message : Nat)

/-- The objects of `new UdpMessage` and `new sf::Packet` and the pointers to them that the threads
    share or hold. -/
structure Ownership where
  messages : Heap MessageObject
  packets : Heap Packet
  /-- The message that `collectUdpTraffic` has created and not pushed yet. -/
  collecting : Option Nat
  todoUdp : List Nat
  handler : HandlerStage
  tableManagerMessage : Option Nat
  receivedTable : Bool
  manager : ManagerStage
  /-- The tables that the table manager has unpacked, with their senders. -/
  unpacked : List (UInt32 × FileTable)
  fault : Option Fault
  /-- The messages that were in the slot when another one was put there. -/
  overwritten : List Nat

/-- The steps of the collector, of the handler and of the table manager that use a message. -/
inductive OwnershipAction where
  /-- A datagram of another node is received. -/
  | collect (ip : UInt32) (data : Bytes)
  | push
  | pop
  /-- The handler looks at the pid. -/
  | dispatch
  | store
  /-- The rest of case 5 or 6. -/
  | work
  | dispose
  | poll
  | unpack
  | disposeTable

section

variable (garbage : Uninitialized) (port : UInt16)

/-- `message->packet` and what it points to. -/
def Ownership.packet (s : Ownership) (message : Nat) : Except Fault (Nat × Packet) :=
  match s.messages.load message with
  | none => .error .dangling
  | some object =>
    match object.packet with
    | none => .error .nullPacket
    | some pointer =>
      match s.packets.load pointer with
      | none => .error .dangling
      | some packet => .ok (pointer, packet)

/-- `disposeUdpMessage` of a pointer that is not null. -/
def Ownership.disposeUdpMessage (s : Ownership) (message : Nat) : Except Fault Ownership :=
  match s.messages.load message with
  | none => .error .dangling
  | some object =>
    match object.packet with
    | none =>
      match s.messages.delete message with
      | none => .error .dangling
      | some messages => .ok { s with messages }
    | some pointer =>
      match s.packets.delete pointer, s.messages.delete message with
      | some packets, some messages => .ok { s with messages, packets }
      | _, _ => .error .dangling

/-- The program goes on with a result, or is at fault. -/
def Ownership.proceed {α : Type} (s : Ownership) (result : Except Fault α)
    (next : α → Ownership) : Option Ownership :=
  match result with
  | .ok value => some (next value)
  | .error fault => some { s with fault := some fault }

/-- One step of `collectUdpTraffic` (Node.cpp 61-82), of `handleUdp` (208-295) or of
    `tableManagerDriver` (357-380), with `getPacketID` (33-36) and `disposeUdpMessage` (19-26). -/
def ownershipAct : OwnershipAction → Ownership → Option Ownership
  | .collect ip data, s =>
    match s.collecting with
    | some _ => none
    | none =>
      match getPacketID (.received data) with
      | none => some { s with fault := some .nullData }
      -- an arrival is answered at once
      | some 0 => some s
      | some _ =>
        let (packet, packets) := s.packets.new (.received data)
        let (message, messages) := s.messages.new ⟨some packet, ip, port⟩
        some { s with messages, packets, collecting := some message }
  | .push, s =>
    match s.collecting with
    | some message => some { s with collecting := none, todoUdp := s.todoUdp ++ [message] }
    | none => none
  | .pop, s =>
    match s.handler, s.todoUdp with
    | .idle, message :: todoUdp => some { s with todoUdp, handler := .popped message }
    | _, _ => none
  | .dispatch, s =>
    match s.handler with
    | .popped message => s.proceed (s.packet message) fun (pointer, packet) =>
      match getPacketID packet with
      | none => { s with fault := some .nullData }
      | some 1 => { s with handler := .storing message }
      | some 2 => { s with handler := .disposing message }
      | some 5 | some 6 => { s with handler := .working message packet }
      -- `unknownPacket` extracts the pid
      | some _ =>
        match s.packets.store pointer (extractUInt8 bigEndian garbage.uint8 packet).2 with
        | some packets => { s with packets, handler := .disposing message }
        | none => { s with fault := some .dangling }
    | _ => none
  | .store, s =>
    match s.handler with
    | .storing message => some { s with
        receivedTable := true
        tableManagerMessage := some message
        handler := .idle
        overwritten := s.overwritten ++ s.tableManagerMessage.toList }
    | _ => none
  | .work, s =>
    match s.handler with
    | .working message _ =>
      -- `message->ip`
      match s.messages.load message with
      | some _ => some { s with handler := .disposing message }
      | none => some { s with fault := some .dangling }
    | _ => none
  | .dispose, s =>
    match s.handler with
    | .disposing message => s.proceed (s.disposeUdpMessage message) fun next =>
      { next with handler := .idle }
    | _ => none
  | .poll, s =>
    match s.manager with
    | .polling =>
      if s.receivedTable then some { s with
        receivedTable := false
        tableManagerMessage := none
        manager := .unpacking s.tableManagerMessage }
      else some s
    | _ => none
  | .unpack, s =>
    match s.manager with
    | .unpacking none => some { s with fault := some .nullMessage }
    | .unpacking (some message) => s.proceed (s.packet message) fun (pointer, packet) =>
      let ((_, table), rest) := readTable bigEndian garbage packet
      match s.packets.store pointer rest, s.messages.load message with
      | some packets, some object => { s with
          packets
          manager := .disposing message
          unpacked := s.unpacked ++ [(object.ip, table)] }
      | _, _ => { s with fault := some .dangling }
    | _ => none
  | .disposeTable, s =>
    match s.manager with
    | .disposing message => s.proceed (s.disposeUdpMessage message) fun next =>
      { next with manager := .polling }
    | _ => none

/-- One step of a program without a fault; after one nothing is known. -/
def ownershipStep (action : OwnershipAction) (s : Ownership) : Option Ownership :=
  match s.fault with
  | some _ => none
  | none => ownershipAct garbage port action s

end

/-- No message has been received. -/
def Ownership.start : Ownership where
  messages := .empty
  packets := .empty
  collecting := none
  todoUdp := []
  handler := .idle
  tableManagerMessage := none
  receivedTable := false
  manager := .polling
  unpacked := []
  fault := none
  overwritten := []

/-! ## Owners -/

/-- The message of the handler. -/
def HandlerStage.held : HandlerStage → List Nat
  | .idle => []
  | .popped message | .storing message | .working message _ | .disposing message => [message]

/-- The message of the table manager. -/
def ManagerStage.held : ManagerStage → List Nat
  | .polling => []
  | .unpacking message => message.toList
  | .disposing message => [message]

/-- The messages of each thread, of the queue and of the slot, and those that no pointer leads to
    any more. -/
def Ownership.owned (s : Ownership) : List Nat :=
  s.collecting.toList ++ (s.todoUdp ++ (s.handler.held ++
    (s.tableManagerMessage.toList ++ (s.manager.held ++ s.overwritten))))

/-- The two heaps hold nothing but the messages of some owners, each with its sender and a packet of
    its own. -/
structure Holds (messages : Heap MessageObject) (packets : Heap Packet) (owned : List Nat)
    (packetOf : Nat → Nat) (received : Nat → UInt32 × Bytes) : Prop where
  ownsMessages : messages.Owns owned
  ownsPackets : packets.Owns (owned.map packetOf)
  carries : ∀ message ∈ owned, ∃ port,
    messages.load message = some ⟨some (packetOf message), (received message).1, port⟩

variable {messages : Heap MessageObject} {packets : Heap Packet} {owned others : List Nat}
  {packetOf : Nat → Nat} {received : Nat → UInt32 × Bytes} {message : Nat}

theorem Holds.perm (holds : Holds messages packets owned packetOf received)
    (moved : owned.Perm others) : Holds messages packets others packetOf received where
  ownsMessages := holds.ownsMessages.perm moved
  ownsPackets := holds.ownsPackets.perm (moved.map packetOf)
  carries := fun message member => holds.carries message (moved.mem_iff.mpr member)

/-- Two messages do not share a packet. -/
theorem Holds.apart (holds : Holds messages packets owned packetOf received) {other : Nat}
    (member : message ∈ owned) (inside : other ∈ owned) (differ : other ≠ message) :
    packetOf other ≠ packetOf message := fun shared =>
  differ (List.inj_on_of_nodup_map holds.ownsPackets.distinct inside member shared)

/-- A new message with a new packet. -/
theorem Holds.new (holds : Holds messages packets owned packetOf received) (ip : UInt32)
    (port : UInt16) (data : Bytes) :
    Holds (messages.new ⟨some packets.next, ip, port⟩).2 (packets.new (.received data)).2
      (messages.next :: owned) (Function.update packetOf messages.next packets.next)
      (Function.update received messages.next (ip, data)) := by
  have old (message : Nat) (member : message ∈ owned) : message ≠ messages.next :=
    Nat.ne_of_lt (holds.ownsMessages.below message member)
  have kept : owned.map (Function.update packetOf messages.next packets.next) =
      owned.map packetOf :=
    List.map_congr_left fun message member => Function.update_of_ne (old message member) ..
  refine ⟨holds.ownsMessages.new _, ?_, fun message member => ?_⟩
  · rw [List.map_cons, Function.update_self, kept]
    exact holds.ownsPackets.new _
  · rcases List.mem_cons.mp member with rfl | member
    · rw [Function.update_self, Function.update_self]
      exact ⟨port, Heap.load_new_self⟩
    · rw [Function.update_of_ne (old message member), Function.update_of_ne (old message member)]
      obtain ⟨port', object⟩ := holds.carries message member
      exact ⟨port', (holds.ownsMessages.load_new member).trans object⟩

/-- An extraction from the packet of a message. -/
theorem Holds.store (holds : Holds messages packets owned packetOf received)
    (member : message ∈ owned) (packet : Packet) :
    ∃ next, packets.store (packetOf message) packet = some next ∧
      Holds messages next owned packetOf received := by
  obtain ⟨next, stored, owns⟩ := holds.ownsPackets.store (List.mem_map_of_mem member) packet
  exact ⟨next, stored, holds.ownsMessages, owns, holds.carries⟩

/-- `disposeUdpMessage` of a message that its caller owns. -/
theorem Holds.dispose {s : Ownership}
    (holds : Holds s.messages s.packets (message :: owned) packetOf received) :
    ∃ messages packets, s.disposeUdpMessage message = .ok { s with messages, packets } ∧
      Holds messages packets owned packetOf received ∧
      s.packets.delete (packetOf message) = some packets := by
  obtain ⟨port, object⟩ := holds.carries message (List.mem_cons_self ..)
  obtain ⟨messages, deleted, ownsMessages⟩ := holds.ownsMessages.delete
  have ownsPackets := holds.ownsPackets
  rw [List.map_cons] at ownsPackets
  obtain ⟨packets, discarded, ownsPackets⟩ := ownsPackets.delete
  refine ⟨messages, packets, ?_, ⟨ownsMessages, ownsPackets, fun other inside => ?_⟩, discarded⟩
  · simp only [Ownership.disposeUdpMessage, object, discarded, deleted]
  · have differ : other ≠ message := fun same =>
      (List.nodup_cons.mp holds.ownsMessages.distinct).1 (same ▸ inside)
    obtain ⟨port, object⟩ := holds.carries other (List.mem_cons_of_mem _ inside)
    exact ⟨port, by rw [Heap.load_delete deleted, if_neg differ, object]⟩

/-! ## The way of a response -/

/-- The message has pid 1. -/
def isResponse (received : UInt32 × Bytes) : Bool := received.2.head? == some 1

/-- The datagrams with pid 1 that a list of actions receives. -/
def receivedResponses : List OwnershipAction → List (UInt32 × Bytes)
  | [] => []
  | .collect ip data :: later => [(ip, data)].filter isResponse ++ receivedResponses later
  | _ :: later => receivedResponses later

/-- What `unpack` makes of a message. -/
def unpackedTable (garbage : Uninitialized) (received : UInt32 × Bytes) : UInt32 × FileTable :=
  (received.1, (readTable bigEndian garbage (.received received.2)).1.2)

/-- The handler's message until its packet has been read. -/
def HandlerStage.waiting : HandlerStage → List Nat
  | .popped message | .storing message => [message]
  | _ => []

/-- The table manager's message until its packet has been read. -/
def ManagerStage.waiting : ManagerStage → List Nat
  | .unpacking message => message.toList
  | _ => []

/-- The messages whose packets nobody has read yet, oldest first. -/
def Ownership.waiting (s : Ownership) : List Nat :=
  s.manager.waiting ++ (s.tableManagerMessage.toList ++ (s.handler.waiting ++
    (s.todoUdp ++ s.collecting.toList)))

/-- The messages that the handler has found to be responses. -/
def Ownership.found (s : Ownership) : List Nat :=
  s.manager.waiting ++ (s.tableManagerMessage.toList ++
    match s.handler with
    | .storing message => [message]
    | _ => [])

/-- Of the responses of `log`, those of `raw` have been unpacked, in order, those of `waiting` may
    still be, and `lost` ones will not. -/
structure Flow (log raw waiting : List (UInt32 × Bytes)) (lost : Nat) : Prop where
  inOrder : (raw ++ waiting.filter isResponse).Sublist log
  counted : raw.length + (waiting.filter isResponse).length + lost = log.length

theorem Flow.receive {log raw waiting : List (UInt32 × Bytes)} {lost : Nat}
    (flow : Flow log raw waiting lost) (received : UInt32 × Bytes) :
    Flow (log ++ [received].filter isResponse) raw (waiting ++ [received]) lost where
  inOrder := by
    rw [List.filter_append, ← List.append_assoc]
    exact flow.inOrder.append (List.Sublist.refl _)
  counted := by
    have counted := flow.counted
    rw [List.filter_append, List.length_append, List.length_append]
    omega

/-- The oldest response is unpacked. -/
theorem Flow.unpack {log raw waiting : List (UInt32 × Bytes)} {lost : Nat}
    {received : UInt32 × Bytes} (flow : Flow log raw (received :: waiting) lost)
    (response : isResponse received = true) : Flow log (raw ++ [received]) waiting lost where
  inOrder := by
    have inOrder := flow.inOrder
    rw [List.filter_cons_of_pos response] at inOrder
    rwa [List.append_assoc]
  counted := by
    have counted := flow.counted
    rw [List.filter_cons_of_pos response] at counted
    rw [List.length_append]
    simp only [List.length_cons, List.length_nil] at counted ⊢
    omega

/-- Some responses are lost. -/
theorem Flow.lose {log raw older gone waiting : List (UInt32 × Bytes)} {lost : Nat}
    (flow : Flow log raw (older ++ (gone ++ waiting)) lost)
    (response : ∀ received ∈ gone, isResponse received = true) :
    Flow log raw (older ++ waiting) (lost + gone.length) where
  inOrder := by
    apply List.Sublist.trans _ flow.inOrder
    apply (List.Sublist.refl raw).append
    apply List.Sublist.filter
    exact (List.Sublist.refl older).append (List.sublist_append_right ..)
  counted := by
    have counted := flow.counted
    rw [List.filter_append, List.filter_append, List.filter_eq_self.mpr response,
      List.length_append, List.length_append] at counted
    rw [List.filter_append, List.length_append]
    omega

/-- A message that is no response is dropped. -/
theorem Flow.drop {log raw older waiting : List (UInt32 × Bytes)} {lost : Nat}
    {received : UInt32 × Bytes} (flow : Flow log raw (older ++ received :: waiting) lost)
    (other : isResponse received = false) : Flow log raw (older ++ waiting) lost := by
  have same : (older ++ received :: waiting).filter isResponse =
      (older ++ waiting).filter isResponse := by
    rw [List.filter_append, List.filter_cons_of_neg (by simp [other]), List.filter_append]
  exact ⟨same ▸ flow.inOrder, same ▸ flow.counted⟩

/-! ## The invariant -/

/-- There has been no fault, each message that lives has one owner, those that wait are as they
    were received, and the table manager has unpacked the responses in order, without those that
    were overwritten. -/
structure OwnershipInv (garbage : Uninitialized) (log : List (UInt32 × Bytes))
    (packetOf : Nat → Nat) (received : Nat → UInt32 × Bytes) (raw : List (UInt32 × Bytes))
    (s : Ownership) : Prop where
  sound : s.fault = none
  holds : Holds s.messages s.packets s.owned packetOf received
  fresh : ∀ message ∈ s.waiting, (received message).2 ≠ [] ∧
    s.packets.load (packetOf message) = some (.received (received message).2)
  found : ∀ message ∈ s.found, isResponse (received message) = true
  flow : Flow log raw (s.waiting.map received) s.overwritten.length
  unpacked : s.unpacked = raw.map (unpackedTable garbage)
  slot : s.receivedTable = s.tableManagerMessage.isSome
  manager : s.manager ≠ .unpacking none

variable {garbage : Uninitialized} {port : UInt16} {log raw : List (UInt32 × Bytes)}
  {s next : Ownership}

theorem ownershipInv_start : OwnershipInv garbage [] (fun _ => 0) (fun _ => (0, [])) []
    Ownership.start where
  sound := rfl
  holds := ⟨Heap.owns_empty, Heap.owns_empty, by simp [Ownership.owned, Ownership.start,
    HandlerStage.held, ManagerStage.held]⟩
  fresh := by
    simp [Ownership.waiting, Ownership.start, HandlerStage.waiting, ManagerStage.waiting]
  found := by simp [Ownership.found, Ownership.start, ManagerStage.waiting]
  flow := ⟨List.Sublist.refl _, rfl⟩
  unpacked := rfl
  slot := rfl
  manager := by simp [Ownership.start]

theorem waiting_owned {s : Ownership} {message : Nat} (member : message ∈ s.waiting) :
    message ∈ s.owned := by
  have handler : message ∈ s.handler.waiting → message ∈ s.handler.held := by
    cases s.handler <;> simp [HandlerStage.waiting, HandlerStage.held]
  have manager : message ∈ s.manager.waiting → message ∈ s.manager.held := by
    cases s.manager <;> simp [ManagerStage.waiting, ManagerStage.held]
  simp only [Ownership.waiting, List.mem_append] at member
  simp only [Ownership.owned, List.mem_append]
  tauto

theorem found_waiting {s : Ownership} {message : Nat} (member : message ∈ s.found) :
    message ∈ s.waiting := by
  have handler : message ∈ (match s.handler with
      | .storing message => [message]
      | _ => []) → message ∈ s.handler.waiting := by
    cases s.handler <;> simp [HandlerStage.waiting]
  simp only [Ownership.found, List.mem_append] at member
  simp only [Ownership.waiting, List.mem_append]
  tauto

/-- A new message goes to the collector. -/
theorem ownershipInv_collect {ip : UInt32} {data : Bytes} (nonempty : data ≠ [])
    (inv : OwnershipInv garbage log packetOf received raw s)
    (taken : ownershipAct garbage port (.collect ip data) s = some next) :
    ∃ packetOf received, OwnershipInv garbage (log ++ [(ip, data)].filter isResponse) packetOf
      received raw next := by
  obtain ⟨pid, rest, rfl⟩ := List.exists_cons_of_ne_nil nonempty
  cases free : s.collecting with
  | some _ =>
    simp only [ownershipAct, free] at taken
    cases taken
  | none =>
    by_cases arrival : pid = 0
    · subst arrival
      simp only [ownershipAct, free, getPacketID, Packet.received, List.head?_cons] at taken
      cases taken
      have other : [(ip, 0 :: rest)].filter isResponse = [] := by simp [isResponse]
      rw [other, List.append_nil]
      exact ⟨packetOf, received, inv⟩
    · have created : ownershipAct garbage port (.collect ip (pid :: rest)) s = some { s with
          packets := (s.packets.new (.received (pid :: rest))).2
          messages := (s.messages.new ⟨some s.packets.next, ip, port⟩).2
          collecting := some s.messages.next } := by
        simp only [ownershipAct, free, getPacketID, Packet.received, List.head?_cons]
        rfl
      cases created.symm.trans taken
      have before (message : Nat) (member : message ∈ s.owned) : message ≠ s.messages.next :=
        Nat.ne_of_lt (inv.holds.ownsMessages.below message member)
      have old {message : Nat} (member : message ∈ s.waiting) : Function.update received
          s.messages.next (ip, pid :: rest) message = received message :=
        Function.update_of_ne (before message (waiting_owned member)) ..
      have waiting : Ownership.waiting { s with
          packets := (s.packets.new (.received (pid :: rest))).2
          messages := (s.messages.new ⟨some s.packets.next, ip, port⟩).2
          collecting := some s.messages.next } = s.waiting ++ [s.messages.next] := by
        simp [Ownership.waiting, free]
      refine ⟨Function.update packetOf s.messages.next s.packets.next,
        Function.update received s.messages.next (ip, pid :: rest), inv.sound, ?_, ?_, ?_, ?_,
        inv.unpacked, inv.slot, inv.manager⟩
      · have holds := inv.holds.new ip port (pid :: rest)
        rw [Ownership.owned, free] at holds
        exact holds
      · rw [waiting]
        intro message member
        rcases List.mem_append.mp member with member | new
        · rw [old member, Function.update_of_ne (before message (waiting_owned member))]
          have mine := List.mem_map_of_mem (f := packetOf) (waiting_owned member)
          have fresh := inv.fresh message member
          exact ⟨fresh.1, (inv.holds.ownsPackets.load_new mine).trans fresh.2⟩
        · rw [List.mem_singleton.mp new, Function.update_self, Function.update_self]
          exact ⟨nonempty, Heap.load_new_self⟩
      · intro message member
        have same : message ∈ s.found := member
        rw [old (found_waiting same)]
        exact inv.found message same
      · rw [waiting, List.map_append, List.map_congr_left fun message member => old member]
        have flow := inv.flow.receive (ip, pid :: rest)
        rwa [List.map_cons, Function.update_self]

/-- A step that passes pointers on and leaves both heaps alone. -/
theorem OwnershipInv.move (inv : OwnershipInv garbage log packetOf received raw s)
    (sound : next.fault = none) (messages : next.messages = s.messages)
    (packets : next.packets = s.packets) (owned : s.owned.Perm next.owned)
    (waiting : ∀ message ∈ next.waiting, message ∈ s.waiting)
    (found : ∀ message ∈ next.found, isResponse (received message) = true)
    (flow : Flow log raw (next.waiting.map received) next.overwritten.length)
    (unpacked : next.unpacked = s.unpacked)
    (slot : next.receivedTable = next.tableManagerMessage.isSome)
    (manager : next.manager ≠ .unpacking none) :
    OwnershipInv garbage log packetOf received raw next where
  sound := sound
  holds := by
    rw [messages, packets]
    exact inv.holds.perm owned
  fresh := fun message member => by
    rw [packets]
    exact inv.fresh message (waiting message member)
  found := found
  flow := flow
  unpacked := unpacked.trans inv.unpacked
  slot := slot
  manager := manager

theorem ownershipInv_push (inv : OwnershipInv garbage log packetOf received raw s)
    (taken : ownershipAct garbage port .push s = some next) :
    OwnershipInv garbage log packetOf received raw next := by
  cases created : s.collecting with
  | none =>
    simp only [ownershipAct, created] at taken
    cases taken
  | some message =>
    simp only [ownershipAct, created] at taken
    cases taken
    have waiting : Ownership.waiting { s with
        collecting := none, todoUdp := s.todoUdp ++ [message] } = s.waiting := by
      simp [Ownership.waiting, created]
    refine inv.move inv.sound rfl rfl ?_ (fun _ member => waiting ▸ member) inv.found
      (by rw [waiting]; exact inv.flow) rfl inv.slot inv.manager
    apply List.perm_iff_count.mpr
    intro pointer
    simp only [Ownership.owned, created, Option.toList, List.count_append, List.count_nil]
    omega

theorem ownershipInv_pop (inv : OwnershipInv garbage log packetOf received raw s)
    (taken : ownershipAct garbage port .pop s = some next) :
    OwnershipInv garbage log packetOf received raw next := by
  simp only [ownershipAct] at taken
  split at taken
  · rename_i message todoUdp idle queue
    cases taken
    have waiting : Ownership.waiting { s with todoUdp, handler := .popped message } =
        s.waiting := by
      simp [Ownership.waiting, idle, queue, HandlerStage.waiting]
    have found : Ownership.found { s with todoUdp, handler := .popped message } = s.found := by
      simp [Ownership.found, idle]
    refine inv.move inv.sound rfl rfl ?_ (fun _ member => waiting ▸ member)
      (by rw [found]; exact inv.found) (by rw [waiting]; exact inv.flow) rfl inv.slot inv.manager
    apply List.perm_iff_count.mpr
    intro pointer
    simp only [Ownership.owned, idle, queue, HandlerStage.held, List.count_append, List.count_cons,
      List.count_nil]
    omega
  · cases taken

theorem ownershipInv_store (inv : OwnershipInv garbage log packetOf received raw s)
    (taken : ownershipAct garbage port .store s = some next) :
    OwnershipInv garbage log packetOf received raw next := by
  simp only [ownershipAct] at taken
  split at taken
  · rename_i message storing
    cases taken
    have found := inv.found
    have flow := inv.flow
    simp only [Ownership.found, storing, List.mem_append, List.mem_singleton] at found
    simp only [Ownership.waiting, storing, HandlerStage.waiting] at flow
    refine inv.move inv.sound rfl rfl ?_ ?_ ?_ ?_ rfl rfl inv.manager
    · apply List.perm_iff_count.mpr
      intro pointer
      simp only [Ownership.owned, storing, HandlerStage.held, Option.toList, List.count_append,
        List.count_cons, List.count_nil]
      omega
    · intro other member
      simp only [Ownership.waiting, storing, HandlerStage.waiting, Option.toList, List.mem_append,
        List.mem_singleton, List.not_mem_nil, false_or] at member ⊢
      tauto
    · intro other member
      simp only [Ownership.found, Option.toList, List.append_nil, List.mem_append,
        List.mem_singleton] at member
      exact found other (by tauto)
    · rw [List.map_append, List.map_append] at flow
      have lost := flow.lose fun response member => by
        obtain ⟨other, slot, rfl⟩ := List.mem_map.mp member
        exact found other (Or.inr (Or.inl slot))
      simpa [Ownership.waiting, HandlerStage.waiting] using lost
  · cases taken

theorem ownershipInv_poll (inv : OwnershipInv garbage log packetOf received raw s)
    (taken : ownershipAct garbage port .poll s = some next) :
    OwnershipInv garbage log packetOf received raw next := by
  simp only [ownershipAct] at taken
  split at taken
  · rename_i polling
    split at taken
    · rename_i full
      cases taken
      obtain ⟨message, slot⟩ := Option.isSome_iff_exists.mp (inv.slot ▸ full)
      have waiting : Ownership.waiting { s with
          receivedTable := false
          tableManagerMessage := none
          manager := .unpacking s.tableManagerMessage } = s.waiting := by
        simp [Ownership.waiting, polling, ManagerStage.waiting]
      have found : Ownership.found { s with
          receivedTable := false
          tableManagerMessage := none
          manager := .unpacking s.tableManagerMessage } = s.found := by
        simp [Ownership.found, polling, ManagerStage.waiting]
      refine inv.move inv.sound rfl rfl ?_ (fun _ member => waiting ▸ member)
        (by rw [found]; exact inv.found) (by rw [waiting]; exact inv.flow) rfl rfl (by simp [slot])
      apply List.perm_iff_count.mpr
      intro pointer
      simp only [Ownership.owned, polling, ManagerStage.held, Option.toList_none, List.count_append,
        List.count_nil]
      omega
    · cases taken
      exact inv
  · cases taken

/-- What the handler does not own. -/
def Ownership.unhandled (s : Ownership) : List Nat :=
  s.collecting.toList ++ (s.todoUdp ++ (s.tableManagerMessage.toList ++
    (s.manager.held ++ s.overwritten)))

theorem owned_handler (s : Ownership) : s.owned.Perm (s.handler.held ++ s.unhandled) := by
  apply List.perm_iff_count.mpr
  intro pointer
  simp only [Ownership.owned, Ownership.unhandled, List.count_append]
  omega

/-- What the table manager does not own. -/
def Ownership.unmanaged (s : Ownership) : List Nat :=
  s.collecting.toList ++ (s.todoUdp ++ (s.handler.held ++
    (s.tableManagerMessage.toList ++ s.overwritten)))

theorem owned_manager (s : Ownership) : s.owned.Perm (s.manager.held ++ s.unmanaged) := by
  apply List.perm_iff_count.mpr
  intro pointer
  simp only [Ownership.owned, Ownership.unmanaged, List.count_append]
  omega

theorem not_mem_unhandled (inv : OwnershipInv garbage log packetOf received raw s)
    (held : s.handler.held = [message]) : message ∉ s.unhandled := by
  have distinct := (owned_handler s).nodup_iff.mp inv.holds.ownsMessages.distinct
  rw [held] at distinct
  exact (List.nodup_cons.mp distinct).1

theorem not_mem_unmanaged (inv : OwnershipInv garbage log packetOf received raw s)
    (held : s.manager.held = [message]) : message ∉ s.unmanaged := by
  have distinct := (owned_manager s).nodup_iff.mp inv.holds.ownsMessages.distinct
  rw [held] at distinct
  exact (List.nodup_cons.mp distinct).1

/-- The messages that are still to be read and not with the handler. -/
theorem mem_unhandled {pointer : Nat} (stage : HandlerStage) (idle : stage.waiting = [])
    {packets : Heap Packet}
    (member : pointer ∈ Ownership.waiting { s with packets, handler := stage }) :
    pointer ∈ s.waiting ∧ pointer ∈ s.unhandled := by
  have manager : pointer ∈ s.manager.waiting → pointer ∈ s.manager.held := by
    cases s.manager <;> simp [ManagerStage.waiting, ManagerStage.held]
  simp only [Ownership.waiting, idle, List.nil_append, List.mem_append] at member
  simp only [Ownership.waiting, Ownership.unhandled, List.mem_append]
  tauto

/-- The packet of a message that is still to be read. -/
theorem OwnershipInv.packet (inv : OwnershipInv garbage log packetOf received raw s)
    (member : message ∈ s.waiting) :
    s.packet message = .ok (packetOf message, .received (received message).2) ∧
      ∃ pid rest, (received message).2 = pid :: rest := by
  obtain ⟨nonempty, load⟩ := inv.fresh message member
  obtain ⟨port, object⟩ := inv.holds.carries message (waiting_owned member)
  exact ⟨by simp only [Ownership.packet, object, load], List.exists_cons_of_ne_nil nonempty⟩

/-- The handler has looked at a message that is no response, and may have extracted its pid. -/
theorem OwnershipInv.handled (inv : OwnershipInv garbage log packetOf received raw s)
    (popped : s.handler = .popped message) (other : isResponse (received message) = false)
    {stage : HandlerStage} (held : stage.held = [message]) (waiting : stage.waiting = [])
    (storing : ∀ message, stage ≠ .storing message) {packets : Heap Packet}
    (holds : Holds s.messages packets s.owned packetOf received)
    (kept : ∀ pointer, pointer ≠ packetOf message → packets.load pointer = s.packets.load pointer) :
    OwnershipInv garbage log packetOf received raw { s with packets, handler := stage } := by
  have owned : Ownership.owned { s with packets, handler := stage } = s.owned := by
    simp only [Ownership.owned, popped, held]
    rfl
  have flow := inv.flow
  have found := inv.found
  have distinct := inv.holds.ownsMessages.distinct
  simp only [Ownership.waiting, popped, HandlerStage.waiting] at flow
  simp only [Ownership.found, popped] at found
  refine ⟨inv.sound, by rw [owned]; exact holds, fun pointer member => ?_, fun pointer member => ?_,
    ?_, inv.unpacked, inv.slot, inv.manager⟩
  · obtain ⟨member, unhandled⟩ := mem_unhandled stage waiting member
    have differ : pointer ≠ message := fun same =>
      not_mem_unhandled inv (by rw [popped]; rfl) (same ▸ unhandled)
    have mine : message ∈ s.owned :=
      (owned_handler s).mem_iff.mpr (by simp [popped, HandlerStage.held])
    rw [kept _ (inv.holds.apart mine (waiting_owned member) differ)]
    exact inv.fresh pointer member
  · apply found pointer
    cases stage with
    | storing message => exact absurd rfl (storing message)
    | _ => exact member
  · rw [List.map_append, List.map_append, List.map_append, ← List.append_assoc] at flow
    have dropped := flow.drop other
    simpa [Ownership.waiting, waiting] using dropped

theorem ownershipInv_dispatch (inv : OwnershipInv garbage log packetOf received raw s)
    (taken : ownershipAct garbage port .dispatch s = some next) :
    OwnershipInv garbage log packetOf received raw next := by
  cases popped : s.handler with
  | popped message =>
    have member : message ∈ s.waiting := by
      simp [Ownership.waiting, popped, HandlerStage.waiting]
    obtain ⟨packet, pid, rest, data⟩ := inv.packet member
    have mine := waiting_owned member
    have heads : getPacketID (.received (received message).2) = some pid := by
      rw [data]
      rfl
    simp only [ownershipAct, popped, packet, Ownership.proceed, heads, Option.some.injEq] at taken
    have unread (other : isResponse (received message) = false) (stage : HandlerStage)
        (held : stage.held = [message]) (waiting : stage.waiting = [])
        (storing : ∀ message, stage ≠ .storing message) :
        OwnershipInv garbage log packetOf received raw { s with handler := stage } :=
      inv.handled popped other held waiting storing inv.holds fun _ _ => rfl
    have response : isResponse (received message) = (pid == 1) := by simp [isResponse, data]
    rw [response] at unread
    split at taken
    · cases ‹some pid = none›
    · cases ‹some pid = some 1›
      cases taken
      have waiting : Ownership.waiting { s with handler := .storing message } = s.waiting := by
        simp [Ownership.waiting, popped, HandlerStage.waiting]
      have found := inv.found
      simp only [Ownership.found, popped, List.append_nil, List.mem_append] at found
      refine inv.move inv.sound rfl rfl ?_ (fun _ member => waiting ▸ member) ?_
        (by rw [waiting]; exact inv.flow) rfl inv.slot inv.manager
      · simp only [Ownership.owned, popped]
        exact List.Perm.refl _
      · intro pointer member
        simp only [Ownership.found, List.mem_append, List.mem_singleton] at member
        rcases member with known | known | rfl
        · exact found pointer (Or.inl known)
        · exact found pointer (Or.inr known)
        · exact response
    · cases ‹some pid = some 2›
      cases taken
      exact unread rfl (.disposing message) rfl rfl (by simp)
    · cases ‹some pid = some 5›
      cases taken
      exact unread rfl (.working message _) rfl rfl (by simp)
    · cases ‹some pid = some 6›
      cases taken
      exact unread rfl (.working message _) rfl rfl (by simp)
    · rename_i value notResponse _ _ _ same
      cases same
      obtain ⟨packets, stored, holds⟩ := inv.holds.store mine
        (extractUInt8 bigEndian garbage.uint8 (.received (received message).2)).2
      rw [stored] at taken
      cases taken
      have other : isResponse (received message) = false := by
        rw [response, beq_eq_false_iff_ne]
        exact notResponse
      apply inv.handled popped other rfl rfl (by simp) holds
      intro pointer differ
      rw [Heap.load_store stored, if_neg differ]
  | _ =>
    simp only [ownershipAct, popped] at taken
    cases taken

theorem ownershipInv_work (inv : OwnershipInv garbage log packetOf received raw s)
    (taken : ownershipAct garbage port .work s = some next) :
    OwnershipInv garbage log packetOf received raw next := by
  simp only [ownershipAct] at taken
  split at taken
  · rename_i message packet working
    have mine : message ∈ s.owned :=
      (owned_handler s).mem_iff.mpr (by simp [working, HandlerStage.held])
    obtain ⟨port, object⟩ := inv.holds.carries message mine
    rw [object] at taken
    cases taken
    have waiting : Ownership.waiting { s with handler := .disposing message } = s.waiting := by
      simp [Ownership.waiting, working, HandlerStage.waiting]
    have found : Ownership.found { s with handler := .disposing message } = s.found := by
      simp [Ownership.found, working]
    refine inv.move inv.sound rfl rfl ?_ (fun _ member => waiting ▸ member)
      (by rw [found]; exact inv.found) (by rw [waiting]; exact inv.flow) rfl inv.slot inv.manager
    simp only [Ownership.owned, working]
    exact List.Perm.refl _
  · cases taken

theorem ownershipInv_dispose (inv : OwnershipInv garbage log packetOf received raw s)
    (taken : ownershipAct garbage port .dispose s = some next) :
    OwnershipInv garbage log packetOf received raw next := by
  simp only [ownershipAct] at taken
  split at taken
  · rename_i message disposing
    have held : s.handler.held = [message] := by rw [disposing]; rfl
    have owned := owned_handler s
    rw [held] at owned
    obtain ⟨messages, packets, disposed, holds, deleted⟩ := (inv.holds.perm owned).dispose
    rw [disposed] at taken
    cases taken
    refine ⟨inv.sound, holds, fun pointer member => ?_, fun pointer member => ?_, ?_, inv.unpacked,
      inv.slot, inv.manager⟩
    · obtain ⟨member, unhandled⟩ := mem_unhandled .idle rfl member
      have differ : pointer ≠ message := fun same => not_mem_unhandled inv held (same ▸ unhandled)
      have mine : message ∈ s.owned := owned.mem_iff.mpr (List.mem_cons_self ..)
      rw [Heap.load_delete deleted,
        if_neg (inv.holds.apart mine (waiting_owned member) differ)]
      exact inv.fresh pointer member
    · apply inv.found pointer
      simpa only [Ownership.found, disposing] using member
    · have flow := inv.flow
      simpa only [Ownership.waiting, disposing, HandlerStage.waiting] using flow
  · cases taken

/-- The messages that are still to be read and not with the table manager. -/
theorem mem_unmanaged {pointer : Nat} (stage : ManagerStage) (idle : stage.waiting = [])
    {messages : Heap MessageObject} {packets : Heap Packet} {unpacked : List (UInt32 × FileTable)}
    (member : pointer ∈
      Ownership.waiting { s with messages, packets, unpacked, manager := stage }) :
    pointer ∈ s.waiting ∧ pointer ∈ s.unmanaged := by
  have handler : pointer ∈ s.handler.waiting → pointer ∈ s.handler.held := by
    cases s.handler <;> simp [HandlerStage.waiting, HandlerStage.held]
  simp only [Ownership.waiting, idle, List.nil_append, List.mem_append] at member
  simp only [Ownership.waiting, Ownership.unmanaged, List.mem_append]
  tauto

theorem ownershipInv_unpack (inv : OwnershipInv garbage log packetOf received raw s)
    (taken : ownershipAct garbage port .unpack s = some next) :
    ∃ raw, OwnershipInv garbage log packetOf received raw next := by
  simp only [ownershipAct] at taken
  split at taken
  · exact absurd ‹_› inv.manager
  · rename_i message unpacking
    have held : s.manager.held = [message] := by rw [unpacking]; rfl
    have member : message ∈ s.waiting := by
      simp [Ownership.waiting, unpacking, ManagerStage.waiting]
    have mine := waiting_owned member
    obtain ⟨port, object⟩ := inv.holds.carries message mine
    cases read : readTable bigEndian garbage (.received (received message).2) with
    | mk values rest =>
    obtain ⟨packets, stored, holds⟩ := inv.holds.store mine rest
    simp only [(inv.packet member).1, Ownership.proceed, read, stored, object] at taken
    cases taken
    have flow := inv.flow
    have found := inv.found
    simp only [Ownership.waiting, unpacking, ManagerStage.waiting, Option.toList_some,
      List.singleton_append, List.map_cons] at flow
    simp only [Ownership.found, unpacking, ManagerStage.waiting, Option.toList_some,
      List.singleton_append] at found
    refine ⟨raw ++ [received message], inv.sound, ?_, fun pointer member => ?_,
      fun pointer member => ?_, flow.unpack (found message (List.mem_cons_self ..)), ?_, inv.slot,
      by simp⟩
    · simpa only [Ownership.owned, unpacking, ManagerStage.held, Option.toList_some] using holds
    · obtain ⟨member, unmanaged⟩ := mem_unmanaged (.disposing message) rfl member
      have differ : pointer ≠ message := fun same => not_mem_unmanaged inv held (same ▸ unmanaged)
      rw [Heap.load_store stored,
        if_neg (inv.holds.apart mine (waiting_owned member) differ)]
      exact inv.fresh pointer member
    · exact found pointer (List.mem_cons_of_mem _ member)
    · rw [List.map_append, ← inv.unpacked, List.map_singleton, unpackedTable, read]
  · cases taken

theorem ownershipInv_disposeTable (inv : OwnershipInv garbage log packetOf received raw s)
    (taken : ownershipAct garbage port .disposeTable s = some next) :
    OwnershipInv garbage log packetOf received raw next := by
  simp only [ownershipAct] at taken
  split at taken
  · rename_i message disposing
    have held : s.manager.held = [message] := by rw [disposing]; rfl
    have owned := owned_manager s
    rw [held] at owned
    obtain ⟨messages, packets, disposed, holds, deleted⟩ := (inv.holds.perm owned).dispose
    rw [disposed] at taken
    cases taken
    refine ⟨inv.sound, holds, fun pointer member => ?_, fun pointer member => ?_, ?_, inv.unpacked,
      inv.slot, by simp⟩
    · obtain ⟨member, unmanaged⟩ := mem_unmanaged .polling rfl member
      have differ : pointer ≠ message := fun same => not_mem_unmanaged inv held (same ▸ unmanaged)
      have mine : message ∈ s.owned := owned.mem_iff.mpr (List.mem_cons_self ..)
      rw [Heap.load_delete deleted,
        if_neg (inv.holds.apart mine (waiting_owned member) differ)]
      exact inv.fresh pointer member
    · apply inv.found pointer
      simpa only [Ownership.found, disposing, ManagerStage.waiting] using member
    · have flow := inv.flow
      simpa only [Ownership.waiting, disposing, ManagerStage.waiting] using flow
  · cases taken

/-! ## All runs -/

/-- What holds of the messages of a node after some actions. -/
structure Handled (garbage : Uninitialized) (actions : List OwnershipAction) (s : Ownership) :
    Prop where
  /-- Each message that lives has one owner, or nobody has a pointer to it because it was in the
      slot when another one was put there. -/
  messages : s.messages.Owns s.owned
  /-- Each packet that lives belongs to such a message. -/
  packets : ∃ packetOf : Nat → Nat, s.packets.Owns (s.owned.map packetOf)
  /-- The table manager has read responses as they were received, in order. -/
  unpacked : ∃ raw : List (UInt32 × Bytes), raw.Sublist (receivedResponses actions) ∧
    s.unpacked = raw.map (unpackedTable garbage)
  /-- When no message is under way, the responses that were not read are those that were
      overwritten in the slot. -/
  idle : s.waiting = [] →
    s.unpacked.length + s.overwritten.length = (receivedResponses actions).length

/-- No empty datagram is received. -/
def carriesData (_ : Ownership) : OwnershipAction → Prop
  | .collect _ data => data ≠ []
  | _ => True

theorem ownershipInv_step {action : OwnershipAction} (allowed : carriesData s action)
    (inv : OwnershipInv garbage log packetOf received raw s)
    (taken : ownershipStep garbage port action s = some next) :
    ∃ packetOf received raw,
      OwnershipInv garbage (log ++ receivedResponses [action]) packetOf received raw next := by
  rw [ownershipStep, inv.sound] at taken
  simp only at taken
  cases action with
  | collect ip data =>
    obtain ⟨packetOf, received, inv⟩ := ownershipInv_collect allowed inv taken
    exact ⟨packetOf, received, raw, by simpa [receivedResponses] using inv⟩
  | unpack =>
    obtain ⟨raw, inv⟩ := ownershipInv_unpack inv taken
    exact ⟨packetOf, received, raw, by simpa [receivedResponses] using inv⟩
  | push => exact ⟨_, _, _, by simpa [receivedResponses] using ownershipInv_push inv taken⟩
  | pop => exact ⟨_, _, _, by simpa [receivedResponses] using ownershipInv_pop inv taken⟩
  | dispatch =>
    exact ⟨_, _, _, by simpa [receivedResponses] using ownershipInv_dispatch inv taken⟩
  | store => exact ⟨_, _, _, by simpa [receivedResponses] using ownershipInv_store inv taken⟩
  | work => exact ⟨_, _, _, by simpa [receivedResponses] using ownershipInv_work inv taken⟩
  | dispose => exact ⟨_, _, _, by simpa [receivedResponses] using ownershipInv_dispose inv taken⟩
  | poll => exact ⟨_, _, _, by simpa [receivedResponses] using ownershipInv_poll inv taken⟩
  | disposeTable =>
    exact ⟨_, _, _, by simpa [receivedResponses] using ownershipInv_disposeTable inv taken⟩

theorem receivedResponses_append (first later : List OwnershipAction) :
    receivedResponses (first ++ later) = receivedResponses first ++ receivedResponses later := by
  induction first with
  | nil => rfl
  | cons action first ih => cases action <;> simp [receivedResponses, ih]

theorem ownershipInv_run {actions : List OwnershipAction} {t : Ownership}
    (run : Run (ownershipStep garbage port) carriesData s actions t) :
    ∀ {log packetOf received raw}, OwnershipInv garbage log packetOf received raw s →
    ∃ packetOf received raw,
      OwnershipInv garbage (log ++ receivedResponses actions) packetOf received raw t := by
  induction run with
  | nil =>
    intro log packetOf received raw inv
    exact ⟨packetOf, received, raw, by simpa [receivedResponses] using inv⟩
  | @cons s next t action actions allowed taken _ ih =>
    intro log packetOf received raw inv
    obtain ⟨packetOf, received, raw, inv⟩ := ownershipInv_step allowed inv taken
    obtain ⟨packetOf, received, raw, inv⟩ := ih inv
    refine ⟨packetOf, received, raw, ?_⟩
    rwa [List.append_assoc, ← receivedResponses_append] at inv

theorem handled_of_inv {actions : List OwnershipAction}
    (inv : OwnershipInv garbage (receivedResponses actions) packetOf received raw s) :
    Handled garbage actions s where
  messages := inv.holds.ownsMessages
  packets := ⟨packetOf, inv.holds.ownsPackets⟩
  unpacked := ⟨raw, (List.sublist_append_left ..).trans inv.flow.inOrder, inv.unpacked⟩
  idle := by
    intro empty
    have counted := inv.flow.counted
    rw [empty] at counted
    simpa [inv.unpacked] using counted

/-- Nothing follows a fault. -/
theorem fault_ends {actions : List OwnershipAction} {t : Ownership} (fault : s.fault ≠ none)
    (run : Run (ownershipStep garbage port) anyStep s actions t) : t = s := by
  cases run with
  | nil => rfl
  | cons _ taken _ =>
    obtain ⟨kind, faulty⟩ := Option.ne_none_iff_exists'.mp fault
    rw [ownershipStep, faulty] at taken
    cases taken

/-- The collector takes an empty packet for a null pointer. -/
theorem fault_of_empty {ip : UInt32} (sound : s.fault = none)
    (taken : ownershipStep garbage port (.collect ip []) s = some next) :
    next.fault = some .nullData := by
  simp only [ownershipStep, sound, ownershipAct] at taken
  split at taken
  · cases taken
  · cases taken
    rfl

/-- The only fault that a message leads to is that of `getPacketID` at an empty datagram. Otherwise
    no thread uses a message or a packet that another one has destroyed or may destroy, each is
    destroyed once, and those that are not destroyed are those that were overwritten in the slot. -/
theorem messages_safe {actions : List OwnershipAction} {t : Ownership}
    (run : Run (ownershipStep garbage port) anyStep Ownership.start actions t) :
    (t.fault = some .nullData ↔ ∃ ip, .collect ip [] ∈ actions) ∧
      (t.fault = some .nullData ∨ t.fault = none ∧ Handled garbage actions t) := by
  by_cases empty : ∃ ip, .collect ip [] ∈ actions
  · have fault : t.fault = some .nullData := by
      obtain ⟨ip, member⟩ := empty
      obtain ⟨before, after, rfl⟩ := List.append_of_mem member
      obtain ⟨u, next, _, _, taken, rest⟩ := run.around
      have sound : u.fault = none := by
        by_contra faulty
        obtain ⟨kind, faulty⟩ := Option.ne_none_iff_exists'.mp faulty
        rw [ownershipStep, faulty] at taken
        cases taken
      have faulty := fault_of_empty sound taken
      rwa [fault_ends (by simp [faulty]) rest]
    exact ⟨iff_of_true fault empty, Or.inl fault⟩
  · have data : Run (ownershipStep garbage port) carriesData Ownership.start actions t := by
      refine run.allow fun s action member => ?_
      cases action with
      | collect ip data => exact fun same => empty ⟨ip, same ▸ member⟩
      | _ => trivial
    obtain ⟨packetOf, received, raw, inv⟩ := ownershipInv_run data ownershipInv_start
    rw [List.nil_append] at inv
    have sound := inv.sound
    exact ⟨iff_of_false (by simp [sound]) empty, Or.inr ⟨sound, handled_of_inv inv⟩⟩

/-- Two responses, the second of which is put in the slot before the table manager looks. -/
def twoResponses : List OwnershipAction :=
  [.collect 1 [1], .push, .pop, .dispatch, .store, .collect 2 [1], .push, .pop, .dispatch, .store]

theorem messages_safe_twoResponses : ∃ t : Ownership,
    (t.fault = some .nullData ↔ ∃ ip, .collect ip [] ∈ twoResponses) ∧
    (t.fault = some .nullData ∨
      t.fault = none ∧ Handled ⟨0, 0, 0, 0, false, .addition⟩ twoResponses t) ∧
    t.overwritten = [0] := by
  have run : ∃ t : Ownership, exec (ownershipStep ⟨0, 0, 0, 0, false, .addition⟩ 0) twoResponses
      Ownership.start = some t ∧ t.overwritten = [0] := ⟨_, rfl, rfl⟩
  obtain ⟨t, run, leaked⟩ := run
  exact ⟨t, (messages_safe (.of_exec run)).1, (messages_safe (.of_exec run)).2, leaked⟩

end FileSync
