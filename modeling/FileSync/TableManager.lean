import FileSync.ChangeBuffer
import FileSync.DealWithHashTable

/-!
# The hand-over from the handler to the table manager

`handleUdp` passes a pid-1 message on to `tableManagerDriver` through one slot:
`tableManagerMessage`, with the flag `receivedTable` and the mutex `tableManagerMutex`. The
handler writes the slot without looking whether it is full.
-/

namespace FileSync

open TransitionSystem

/-- A pid-1 message: who sent it and the table in its packet. -/
structure UdpMessage where
  ip : UInt32
  table : FileTable

/-- Where `handleUdp` is. -/
inductive HandlerPhase where
  | idle
  /-- In case 1, before it locks `tableManagerMutex`. -/
  | responding (message : UdpMessage)

/-- Where `tableManagerDriver` is in its loop. -/
inductive ManagerPhase where
  | polling
  /-- In `dealWithHashTable`, for as long as the file transfers take. -/
  | processing (message : UdpMessage)
  | disposing (message : UdpMessage)

/-- The slot for a response, with the threads at both ends of it and what has become of the
    messages. -/
structure Mailbox where
  fileHashes : FileTable
  todoUdp : List UdpMessage
  handler : HandlerPhase
  tableManagerMessage : Option UdpMessage
  receivedTable : Bool
  manager : ManagerPhase
  /-- The messages that `handleUdp` has popped so far, in order. -/
  popped : List UdpMessage
  /-- The messages that `tableManagerDriver` has found in the slot, in order. -/
  taken : List UdpMessage
  /-- The messages whose table was processed, with the changes that were requested. -/
  processed : List (UdpMessage × List FileChangeData)
  disposed : List UdpMessage

/-- The steps of the collector, of the handler and of the table manager. -/
inductive MailboxAction where
  /-- The collector queues a message. -/
  | collect (message : UdpMessage)
  /-- The handler applies the change buffer to its table. -/
  | drain (fileChangeBuf : List FileChangeData)
  | pop
  /-- The handler sets `receivedTable` and `tableManagerMessage` under the mutex. -/
  | put
  /-- The table manager looks at `receivedTable` under the mutex and empties the slot. -/
  | poll
  | process
  | dispose

/-- One step of the collector (Node.cpp 74-80), of the drain (186-207), of case 1 of `handleUdp`
    (215-230) or of `tableManagerDriver` (354-382). -/
def mailboxStep : MailboxAction → Mailbox → Option Mailbox
  | .collect message, s => some { s with todoUdp := s.todoUdp ++ [message] }
  | .drain fileChangeBuf, s =>
    match s.handler with
    | .idle => some { s with fileHashes := applyChanges s.fileHashes fileChangeBuf }
    | .responding _ => none
  | .pop, s =>
    match s.handler, s.todoUdp with
    | .idle, message :: todoUdp => some { s with
        todoUdp, handler := .responding message, popped := s.popped ++ [message] }
    | _, _ => none
  | .put, s =>
    match s.handler with
    | .responding message => some { s with
        receivedTable := true, tableManagerMessage := some message, handler := .idle }
    | .idle => none
  | .poll, s =>
    match s.manager with
    | .polling =>
      if s.receivedTable then
        match s.tableManagerMessage with
        | some message => some { s with
            receivedTable := false, tableManagerMessage := none
            manager := .processing message, taken := s.taken ++ [message] }
        -- a null pointer would be dereferenced
        | none => none
      else some s
    | _ => none
  | .process, s =>
    match s.manager with
    | .processing message => some { s with
        manager := .disposing message
        processed := s.processed ++
          [(message, dealWithHashTable s.fileHashes message.table false)] }
    | _ => none
  | .dispose, s =>
    match s.manager with
    | .disposing message => some { s with
        manager := .polling, disposed := s.disposed ++ [message] }
    | _ => none

/-- The state after an action, with what the action needs. -/
inductive MailboxEffect (s : Mailbox) : MailboxAction → Mailbox → Prop where
  | collect (message : UdpMessage) :
      MailboxEffect s (.collect message) { s with todoUdp := s.todoUdp ++ [message] }
  | drain (fileChangeBuf : List FileChangeData) : s.handler = .idle →
      MailboxEffect s (.drain fileChangeBuf)
        { s with fileHashes := applyChanges s.fileHashes fileChangeBuf }
  | pop {message : UdpMessage} {todoUdp : List UdpMessage} : s.handler = .idle →
      s.todoUdp = message :: todoUdp →
      MailboxEffect s .pop { s with
        todoUdp, handler := .responding message, popped := s.popped ++ [message] }
  | put {message : UdpMessage} : s.handler = .responding message →
      MailboxEffect s .put { s with
        receivedTable := true, tableManagerMessage := some message, handler := .idle }
  | look : s.manager = .polling → s.receivedTable = false → MailboxEffect s .poll s
  | take {message : UdpMessage} : s.manager = .polling → s.receivedTable = true →
      s.tableManagerMessage = some message →
      MailboxEffect s .poll { s with
        receivedTable := false, tableManagerMessage := none
        manager := .processing message, taken := s.taken ++ [message] }
  | process {message : UdpMessage} : s.manager = .processing message →
      MailboxEffect s .process { s with
        manager := .disposing message
        processed := s.processed ++
          [(message, dealWithHashTable s.fileHashes message.table false)] }
  | dispose {message : UdpMessage} : s.manager = .disposing message →
      MailboxEffect s .dispose { s with
        manager := .polling, disposed := s.disposed ++ [message] }

theorem mailboxEffect_of_step {action : MailboxAction} {s next : Mailbox}
    (taken : mailboxStep action s = some next) : MailboxEffect s action next := by
  cases action with
  | collect message =>
    cases taken
    exact .collect message
  | drain fileChangeBuf =>
    simp only [mailboxStep] at taken
    split at taken <;> cases taken
    exact .drain fileChangeBuf ‹_›
  | pop =>
    simp only [mailboxStep] at taken
    split at taken <;> cases taken
    exact .pop ‹_› ‹_›
  | put =>
    simp only [mailboxStep] at taken
    split at taken <;> cases taken
    exact .put ‹_›
  | poll =>
    simp only [mailboxStep] at taken
    split at taken
    · split at taken
      · split at taken <;> cases taken
        exact .take ‹_› ‹_› ‹_›
      · rename_i empty
        cases taken
        exact .look ‹_› (by simpa using empty)
    · cases taken
  | process =>
    simp only [mailboxStep] at taken
    split at taken <;> cases taken
    exact .process ‹_›
  | dispose =>
    simp only [mailboxStep] at taken
    split at taken <;> cases taken
    exact .dispose ‹_›

/-- Both threads are at the top of their loops and the slot is empty. -/
def Mailbox.start (fileHashes : FileTable) (todoUdp : List UdpMessage) : Mailbox :=
  { fileHashes, todoUdp, handler := .idle, tableManagerMessage := none, receivedTable := false
    manager := .polling, popped := [], taken := [], processed := [], disposed := [] }

/-! ## What the hand-over promises -/

/-- The message that the handler has popped and not put into the slot yet. -/
def HandlerPhase.held : HandlerPhase → List UdpMessage
  | .idle => []
  | .responding message => [message]

/-- The message that the table manager has not disposed yet. -/
def ManagerPhase.held : ManagerPhase → List UdpMessage
  | .polling => []
  | .processing message => [message]
  | .disposing message => [message]

/-- The message whose table the table manager has not processed yet. -/
def ManagerPhase.unprocessed : ManagerPhase → List UdpMessage
  | .processing message => [message]
  | _ => []

/-- Each popped message is with the handler, in the slot or taken, and each taken one is
    processed once and disposed once, in order. -/
structure Mailbox.Accounted (s : Mailbox) : Prop where
  popped : s.popped = s.taken ++ s.tableManagerMessage.toList ++ s.handler.held
  processed : s.taken = s.processed.map Prod.fst ++ s.manager.unprocessed
  disposed : s.taken = s.disposed ++ s.manager.held

/-- The messages that the collector queues in a list of actions. -/
def collected : List MailboxAction → List UdpMessage
  | [] => []
  | .collect message :: later => message :: collected later
  | _ :: later => collected later

/-- No response is lost when the two threads take the given steps. -/
structure HandsOver (fileHashes : FileTable) (todoUdp : List UdpMessage)
    (actions : List MailboxAction) : Prop where
  /-- The slot is not overwritten while it is full. -/
  kept : ∀ first later s, actions = first ++ .put :: later →
    Run mailboxStep anyStep (Mailbox.start fileHashes todoUdp) first s → s.receivedTable = false
  accounted : ∀ first later s, actions = first ++ later →
    Run mailboxStep anyStep (Mailbox.start fileHashes todoUdp) first s → s.Accounted
  /-- The threads can go on until all messages have been processed and disposed. -/
  completes : ∀ s, Run mailboxStep anyStep (Mailbox.start fileHashes todoUdp) actions s →
    ∃ t, Reaches mailboxStep s t ∧ t.processed.map Prod.fst = todoUdp ++ collected actions ∧
      t.disposed = todoUdp ++ collected actions

/-- Between any two puts there is a poll; `full` tells whether a put came before without a
    poll since. -/
def pollsBetweenPuts (full : Bool) : List MailboxAction → Bool
  | [] => true
  | .put :: later => !full && pollsBetweenPuts true later
  | .poll :: later => pollsBetweenPuts false later
  | _ :: later => pollsBetweenPuts full later

/-- The guard of the runs that never overwrite the slot. -/
def slotFree (s : Mailbox) (action : MailboxAction) : Prop :=
  action = .put → s.receivedTable = false

/-! ## The invariant -/

/-- The messages queued so far are `queued`, none of them is lost, and the flag tells whether
    the slot is full. -/
structure MailboxInv (queued : List UdpMessage) (s : Mailbox) : Prop where
  queue : s.popped ++ s.todoUdp = queued
  accounted : s.Accounted
  flag : s.receivedTable = s.tableManagerMessage.isSome

theorem mailboxInv_start (fileHashes : FileTable) (todoUdp : List UdpMessage) :
    MailboxInv todoUdp (Mailbox.start fileHashes todoUdp) where
  queue := rfl
  accounted := ⟨rfl, rfl, rfl⟩
  flag := rfl

theorem mailboxInv_step {queued : List UdpMessage} {action : MailboxAction} {s next : Mailbox}
    (inv : MailboxInv queued s) (free : slotFree s action)
    (taken : mailboxStep action s = some next) :
    MailboxInv (queued ++ collected [action]) next := by
  obtain ⟨queue, ⟨allPopped, allProcessed, allDisposed⟩, full⟩ := inv
  cases mailboxEffect_of_step taken with
  | collect message =>
    refine ⟨?_, ⟨allPopped, allProcessed, allDisposed⟩, full⟩
    simp only [collected, ← queue, List.append_assoc]
  | drain fileChangeBuf idle =>
    exact ⟨by simpa [collected] using queue, ⟨allPopped, allProcessed, allDisposed⟩, full⟩
  | pop idle first =>
    refine ⟨by simpa [collected, first] using queue, ⟨?_, allProcessed, allDisposed⟩, full⟩
    simp [allPopped, idle, HandlerPhase.held]
  | put responding =>
    -- the slot is empty, so nothing is overwritten
    have empty : s.tableManagerMessage = none := by
      have unset : s.receivedTable = false := free rfl
      rw [unset] at full
      simpa using full.symm
    refine ⟨by simpa [collected] using queue, ⟨?_, allProcessed, allDisposed⟩, rfl⟩
    simpa [empty, responding, HandlerPhase.held] using allPopped
  | look => exact ⟨by simpa [collected] using queue, ⟨allPopped, allProcessed, allDisposed⟩, full⟩
  | take polling set found =>
    refine ⟨by simpa [collected] using queue, ⟨?_, ?_, ?_⟩, rfl⟩
    · simpa [found] using allPopped
    · simpa [polling, ManagerPhase.unprocessed] using allProcessed
    · simpa [polling, ManagerPhase.held] using allDisposed
  | process processing =>
    refine ⟨by simpa [collected] using queue, ⟨allPopped, ?_, ?_⟩, full⟩
    · simpa [processing, ManagerPhase.unprocessed] using allProcessed
    · simpa [processing, ManagerPhase.held] using allDisposed
  | dispose disposing =>
    refine ⟨by simpa [collected] using queue, ⟨allPopped, ?_, ?_⟩, full⟩
    · simpa [disposing, ManagerPhase.unprocessed] using allProcessed
    · simpa [disposing, ManagerPhase.held] using allDisposed

theorem collected_cons (action : MailboxAction) (later : List MailboxAction) :
    collected (action :: later) = collected [action] ++ collected later := by
  cases action <;> rfl

theorem mailboxInv_run {actions : List MailboxAction} : ∀ {queued : List UdpMessage}
    {s t : Mailbox}, MailboxInv queued s → Run mailboxStep slotFree s actions t →
    MailboxInv (queued ++ collected actions) t := by
  induction actions with
  | nil =>
    intro queued s t inv run
    cases run
    simpa [collected] using inv
  | cons action later ih =>
    intro queued s t inv run
    cases run with
    | cons free taken rest =>
      rw [collected_cons, ← List.append_assoc]
      exact ih (mailboxInv_step inv free taken) rest

/-! ## Polls and puts -/

/-- Only a put sets the flag, and a poll leaves it clear. -/
theorem receivedTable_step {action : MailboxAction} {s next : Mailbox}
    (taken : mailboxStep action s = some next) (later : List MailboxAction) :
    pollsBetweenPuts s.receivedTable (action :: later) = true ↔
      slotFree s action ∧ pollsBetweenPuts next.receivedTable later = true := by
  cases mailboxEffect_of_step taken with
  | look polling clear => simp [pollsBetweenPuts, slotFree, clear]
  | _ => simp [pollsBetweenPuts, slotFree]

theorem run_slotFree_iff {actions : List MailboxAction} : ∀ {s t : Mailbox},
    Run mailboxStep anyStep s actions t →
    (Run mailboxStep slotFree s actions t ↔ pollsBetweenPuts s.receivedTable actions = true) := by
  induction actions with
  | nil =>
    intro s t run
    cases run
    exact ⟨fun _ => rfl, fun _ => .nil s⟩
  | cons action later ih =>
    intro s t run
    cases run with
    | cons _ taken rest =>
      rw [receivedTable_step taken later, ← ih rest]
      constructor
      · intro guarded
        cases guarded with
        | cons free same rest =>
          cases same.symm.trans taken
          exact ⟨free, rest⟩
      · rintro ⟨free, rest⟩
        exact .cons free taken rest

/-- A run that overwrites nothing at any of its puts meets the guard. -/
theorem run_slotFree_of_kept {actions : List MailboxAction} : ∀ {s t : Mailbox},
    Run mailboxStep anyStep s actions t →
    (∀ first later u, actions = first ++ .put :: later → Run mailboxStep anyStep s first u →
      u.receivedTable = false) →
    Run mailboxStep slotFree s actions t := by
  induction actions with
  | nil =>
    intro s t run _
    cases run
    exact .nil s
  | cons action later ih =>
    intro s t run kept
    cases run with
    | cons _ taken rest =>
      refine .cons ?_ taken (ih rest fun first rest u split before => ?_)
      · rintro rfl
        exact kept [] later s rfl (.nil s)
      · exact kept (action :: first) rest u (by rw [split]; rfl) (.cons trivial taken before)

/-! ## The threads can finish -/

/-- What is still to be done for the messages that the collector has queued. -/
def Mailbox.work (s : Mailbox) : Nat :=
  6 * s.todoUdp.length + 5 * s.handler.held.length + 4 * s.tableManagerMessage.toList.length +
    s.manager.held.length + s.manager.unprocessed.length

theorem mailbox_progress {queued : List UdpMessage} {s : Mailbox} (inv : MailboxInv queued s)
    (unfinished : s.work ≠ 0) : ∃ action next, mailboxStep action s = some next ∧
      MailboxInv queued next ∧ next.work < s.work := by
  have stays (action : MailboxAction) {next : Mailbox} (none : collected [action] = [])
      (free : slotFree s action) (taken : mailboxStep action s = some next) :
      MailboxInv queued next := by
    have kept := mailboxInv_step inv free taken
    rwa [none, List.append_nil] at kept
  obtain ⟨fileHashes, todoUdp, handler, slot, flag, manager, popped, took, processed, disposed⟩ := s
  have full : flag = slot.isSome := inv.flag
  cases manager with
  | processing message =>
    refine ⟨.process, _, rfl, stays .process rfl (fun h => by cases h) rfl, ?_⟩
    simp [Mailbox.work, ManagerPhase.held, ManagerPhase.unprocessed]
  | disposing message =>
    refine ⟨.dispose, _, rfl, stays .dispose rfl (fun h => by cases h) rfl, ?_⟩
    simp [Mailbox.work, ManagerPhase.held, ManagerPhase.unprocessed]
  | polling =>
    cases slot with
    | some message =>
      subst full
      refine ⟨.poll, _, rfl, stays .poll rfl (fun h => by cases h) rfl, ?_⟩
      simp [Mailbox.work, ManagerPhase.held, ManagerPhase.unprocessed]
    | none =>
      cases handler with
      | responding message =>
        refine ⟨.put, _, rfl, stays .put rfl (fun _ => full) rfl, ?_⟩
        simp [Mailbox.work, HandlerPhase.held]
      | idle =>
        cases todoUdp with
        | cons message todoUdp =>
          refine ⟨.pop, _, rfl, stays .pop rfl (fun h => by cases h) rfl, ?_⟩
          simp [Mailbox.work, HandlerPhase.held]
          omega
        | nil =>
          exact absurd rfl unfinished

theorem finished_of_work {queued : List UdpMessage} {s : Mailbox} (inv : MailboxInv queued s)
    (finished : s.work = 0) : s.processed.map Prod.fst = queued ∧ s.disposed = queued := by
  obtain ⟨queue, accounted, -⟩ := inv
  unfold Mailbox.work at finished
  have noTodo : s.todoUdp = [] := List.length_eq_zero_iff.mp (by omega)
  have noHandler : s.handler.held = [] :=
    List.length_eq_zero_iff.mp (by omega)
  have noSlot : s.tableManagerMessage.toList = [] :=
    List.length_eq_zero_iff.mp (by omega)
  have noManager : s.manager.held = [] :=
    List.length_eq_zero_iff.mp (by omega)
  have noTable : s.manager.unprocessed = [] :=
    List.length_eq_zero_iff.mp (by omega)
  have taken : s.taken = queued := by
    rw [← queue, accounted.popped, noTodo, noHandler, noSlot]
    simp
  have processed := accounted.processed
  have disposed := accounted.disposed
  rw [noTable, List.append_nil, taken] at processed
  rw [noManager, List.append_nil, taken] at disposed
  exact ⟨processed.symm, disposed.symm⟩

/-- No response is lost exactly when the table manager polls between any two puts. -/
theorem handsOver_iff {fileHashes : FileTable} {todoUdp : List UdpMessage}
    {actions : List MailboxAction} {last : Mailbox}
    (run : Run mailboxStep anyStep (Mailbox.start fileHashes todoUdp) actions last) :
    HandsOver fileHashes todoUdp actions ↔ pollsBetweenPuts false actions = true := by
  rw [show false = (Mailbox.start fileHashes todoUdp).receivedTable from rfl,
    ← run_slotFree_iff run]
  constructor
  · intro handsOver
    exact run_slotFree_of_kept run handsOver.kept
  · intro guarded
    have invAt : ∀ first later s, actions = first ++ later →
        Run mailboxStep anyStep (Mailbox.start fileHashes todoUdp) first s →
        Run mailboxStep slotFree s later last ∧ MailboxInv (todoUdp ++ collected first) s := by
      rintro first later s rfl reached
      obtain ⟨middle, before, after⟩ := guarded.split
      cases before.unique reached
      exact ⟨after, mailboxInv_run (mailboxInv_start fileHashes todoUdp) before⟩
    refine ⟨?_, fun first later s split reached => (invAt first later s split reached).2.accounted,
      ?_⟩
    · intro first later s split reached
      cases (invAt first (.put :: later) s split reached).1 with
      | cons free _ _ => exact free rfl
    · intro s reached
      have start := (invAt actions [] s (List.append_nil actions).symm reached).2
      have finish : ∀ t, MailboxInv (todoUdp ++ collected actions) t → ∃ u,
          Reaches mailboxStep t u ∧ MailboxInv (todoUdp ++ collected actions) u ∧ u.work = 0 :=
        reaches_goal Mailbox.work fun t inv short =>
          mailbox_progress inv fun finished => short ⟨inv, finished⟩
      obtain ⟨t, reaches, inv, finished⟩ := finish s start
      exact ⟨t, reaches, finished_of_work inv finished⟩

/-- One response is put, taken, processed and disposed before the next one is put. -/
theorem handsOver_two :
    HandsOver ∅ [⟨1, ∅⟩, ⟨2, ∅⟩] [.pop, .put, .poll, .process, .dispose, .pop, .put] := by
  have run : Run mailboxStep anyStep (Mailbox.start ∅ [⟨1, ∅⟩, ⟨2, ∅⟩])
      [.pop, .put, .poll, .process, .dispose, .pop, .put] _ := Run.of_exec rfl
  exact (handsOver_iff run).mpr rfl

/-- Two responses are put before the table manager polls: the first one is neither processed
    nor disposed, and nothing is left to be done. -/
theorem handsOver_overwritten :
    ¬ HandsOver ∅ [⟨1, ∅⟩, ⟨2, ∅⟩] [.pop, .put, .pop, .put] ∧
      ∃ t, Run mailboxStep anyStep (Mailbox.start ∅ [⟨1, ∅⟩, ⟨2, ∅⟩])
        [.pop, .put, .pop, .put, .poll, .process, .dispose] t ∧
        t.disposed = [⟨2, ∅⟩] ∧ t.work = 0 := by
  constructor
  · intro handsOver
    cases handsOver.kept [.pop, .put, .pop] [] _ rfl (Run.of_exec rfl)
  · exact ⟨_, Run.of_exec rfl, rfl, rfl⟩

end FileSync
