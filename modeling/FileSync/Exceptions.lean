import FileSync.RequestFiles

/-!
# Exceptions in requestFiles

`dirLock` is locked and unlocked by hand. The calls of `std::filesystem` that are made in between
may throw, and there is no handler up to the function of the thread, so that an exception ends
the loop and, as it leaves the thread, the program.
-/

namespace FileSync

/-- What `requestFiles` does to `dirLock`. -/
inductive LockOp where
  | lock
  | unlock
  deriving DecidableEq

namespace Throwing

section

variable {ε : Type}

/-- What becomes of a pid-5 request. -/
inductive Reply (ε : Type) where
  | noReply
  | abandon
  /-- The file is sent, with the outcome of `create_directories` for its path. -/
  | transfer (createDirectories : Except ε Bool)

/-- The outcomes of the calls that may be made for an element of a change list. -/
structure Outcomes (ε : Type) where
  pathExists : Except ε Bool
  localHash : UInt64
  reply : Reply ε
  remove : Except ε Bool

/-- A change with the outcomes of the calls for it. -/
abbrev Request (ε : Type) := FileChangeData × Outcomes ε

/-- What a run of `requestFiles` has done to `dirLock`, and how far it has got. -/
structure Trace where
  dirLock : Bool
  lockOps : List LockOp
  /-- The changes that the loop has dealt with. -/
  processed : List FileChangeData

/-- A thread with exceptions, which leave what has been done before as it is. -/
abbrev Thread (ε : Type) := ExceptT ε (StateM Trace)

/-- `dirLock->lock()` (Node.cpp 397) -/
def lock : Thread ε Unit :=
  modify fun t => { t with dirLock := true, lockOps := t.lockOps ++ [.lock] }

/-- `dirLock->unlock()` (Node.cpp 409, 417, 422) -/
def unlock : Thread ε Unit :=
  modify fun t => { t with dirLock := false, lockOps := t.lockOps ++ [.unlock] }

/-- The end of a round of the loop. -/
def finish (fileChange : FileChangeData) : Thread ε Unit :=
  modify fun t => { t with processed := t.processed ++ [fileChange] }

/-- `acquireDirectories` (FileHelper.cpp 128-135), which passes on what `create_directories`
    throws. -/
def acquireDirectories (createDirectories : Except ε Bool) : Thread ε Unit := do
  let _ ← ofExcept createDirectories

/-- `deleteFile` (FileHelper.cpp 54-56), which passes on what `remove` throws. -/
def deleteFile (remove : Except ε Bool) : Thread ε Bool := ofExcept remove

/-- `negotiateTCPTransfer` (Node.cpp 299-336) up to its calls that may throw. -/
def negotiateTCPTransfer : Reply ε → Thread ε Bool
  | .noReply => return true
  | .abandon => return false
  | .transfer createDirectories => do
    acquireDirectories createDirectories
    return true

/-- The body of the loop (Node.cpp 397-425). -/
def requestFile (fileChange : FileChangeData) (calls : Outcomes ε) : Thread ε Unit := do
  lock
  match fileChange.change with
  | .edit | .addition =>
    if (← ofExcept calls.pathExists) && fileChange.fileHash == calls.localHash then unlock
    else
      let _ ← negotiateTCPTransfer calls.reply
      unlock
  | .deletion =>
    let _ ← deleteFile calls.remove
    unlock
  finish fileChange

/-- The loop of `requestFiles` (Node.cpp 395-427), which has no handler for exceptions. -/
def requestFiles : List (Request ε) → Thread ε Unit
  | [] => return
  | (fileChange, calls) :: requests => do
    requestFile fileChange calls
    requestFiles requests

/-- Before the loop the lock is free. -/
def Trace.start : Trace := { dirLock := false, lockOps := [], processed := [] }

/-- The threads that a node starts. -/
structure Threads where
  handler : Bool
  collector : Bool
  tableManager : Bool

/-- An exception that leaves the function of any thread ends all of them. -/
def threadsAfter : Except ε Unit → Threads
  | .ok _ => ⟨true, true, true⟩
  | .error _ => ⟨false, false, false⟩

/-! ## One element -/

/-- The exception of a call that is made for an element, if there is one. -/
def thrown (fileChange : FileChangeData) (calls : Outcomes ε) : Option ε :=
  match fileChange.change with
  | .edit | .addition =>
    match calls.pathExists with
    | .error error => some error
    | .ok found =>
      if found && fileChange.fileHash == calls.localHash then none
      else
        match calls.reply with
        | .transfer (.error error) => some error
        | _ => none
  | .deletion =>
    match calls.remove with
    | .error error => some error
    | .ok _ => none

/-- A round of the loop that no exception ends. -/
def Trace.round (t : Trace) (fileChange : FileChangeData) : Trace :=
  { dirLock := false
    lockOps := (t.lockOps ++ [.lock]) ++ [.unlock]
    processed := t.processed ++ [fileChange] }

/-- The state in which an exception leaves the loop. -/
def Trace.left (t : Trace) : Trace :=
  { t with dirLock := true, lockOps := t.lockOps ++ [.lock] }

theorem requestFile_eq (fileChange : FileChangeData) (calls : Outcomes ε) (t : Trace) :
    requestFile fileChange calls t =
      match thrown fileChange calls with
      | some error => (.error error, t.left)
      | none => (.ok (), t.round fileChange) := by
  unfold requestFile thrown
  cases kind : fileChange.change with
  | deletion =>
    cases removed : calls.remove with
    | error error => rfl
    | ok => rfl
  | addition | edit =>
    cases looked : calls.pathExists with
    | error error => rfl
    | ok found =>
      have returned : (ofExcept (.ok found) : Thread ε Bool) = pure found := rfl
      simp only [returned, pure_bind]
      cases found && fileChange.fileHash == calls.localHash with
      | true => rfl
      | false =>
        cases calls.reply with
        | noReply | abandon => rfl
        | transfer created =>
          cases created with
          | error | ok => rfl

/-! ## The whole list -/

theorem requestFiles_cons (fileChange : FileChangeData) (calls : Outcomes ε)
    (requests : List (Request ε)) (t : Trace) :
    requestFiles ((fileChange, calls) :: requests) t =
      match thrown fileChange calls with
      | some error => (.error error, t.left)
      | none => requestFiles requests (t.round fileChange) := by
  have run : requestFiles ((fileChange, calls) :: requests) t =
      match requestFile fileChange calls t with
      | (.error error, after) => (.error error, after)
      | (.ok _, after) => requestFiles requests after := by
    show (ExceptT.bindCont _ (requestFile fileChange calls t).1 : StateM Trace _)
      (requestFile fileChange calls t).2 = _
    rcases requestFile fileChange calls t with ⟨_ | _, after⟩ <;> rfl
  rw [run, requestFile_eq]
  cases thrown fileChange calls <;> rfl

/-- The rounds of elements that none of the calls throws for. -/
def Trace.rounds (t : Trace) (requests : List (Request ε)) : Trace :=
  requests.foldl (fun t request => t.round request.1) t

theorem Trace.rounds_eq (requests : List (Request ε)) : ∀ t : Trace, t.dirLock = false →
    t.rounds requests =
      { dirLock := false
        lockOps := t.lockOps ++ requests.flatMap fun _ => [.lock, .unlock]
        processed := t.processed ++ requests.map Prod.fst } := by
  induction requests with
  | nil =>
    intro t free
    rw [List.flatMap_nil, List.map_nil, List.append_nil, List.append_nil, ← free]
    rfl
  | cons request requests ih =>
    intro t _
    show (t.round request.1).rounds requests = _
    rw [ih _ rfl]
    simp only [Trace.round, List.flatMap_cons, List.map_cons, List.append_assoc,
      List.cons_append, List.nil_append]

/-- Without exceptions the loop comes to its end. -/
theorem requestFiles_of_none (requests : List (Request ε)) : ∀ t : Trace,
    (∀ request ∈ requests, thrown request.1 request.2 = none) →
      requestFiles requests t = (.ok (), t.rounds requests) := by
  induction requests with
  | nil => exact fun _ _ => rfl
  | cons request requests ih =>
    intro t none
    obtain ⟨fileChange, calls⟩ := request
    have first := none _ List.mem_cons_self
    simp only at first
    rw [requestFiles_cons, first]
    exact ih _ fun other member => none other (List.mem_cons_of_mem _ member)

/-- The first exception leaves the loop with the lock held, and no element behind it is looked
    at. -/
theorem requestFiles_of_thrown {before after : List (Request ε)} {bad : Request ε} {error : ε}
    (threw : thrown bad.1 bad.2 = some error) : ∀ t : Trace,
      (∀ request ∈ before, thrown request.1 request.2 = none) →
        requestFiles (before ++ bad :: after) t = (.error error, (t.rounds before).left) := by
  induction before with
  | nil =>
    intro t _
    obtain ⟨fileChange, calls⟩ := bad
    simp only at threw
    rw [List.nil_append, requestFiles_cons, threw]
    rfl
  | cons request before ih =>
    intro t none
    obtain ⟨fileChange, calls⟩ := request
    have first := none _ List.mem_cons_self
    simp only at first
    rw [List.cons_append, requestFiles_cons, first]
    exact ih _ fun other member => none other (List.mem_cons_of_mem _ member)

/-- The elements that fail do not touch the others: these are dealt with in order, the lock is
    taken and released once for each element, and the threads go on. -/
structure Contained (requests : List (Request ε)) (result : Except ε Unit × Trace) : Prop where
  others : result.2.processed =
    (requests.filter fun request => (thrown request.1 request.2).isNone).map Prod.fst
  lockOps : result.2.lockOps = requests.flatMap fun _ => [.lock, .unlock]
  free : result.2.dirLock = false
  running : threadsAfter result.1 = ⟨true, true, true⟩

/-- The first element of a list that something is thrown for. -/
theorem first_thrown {requests : List (Request ε)}
    (fails : ¬ ∀ request ∈ requests, thrown request.1 request.2 = none) :
    ∃ before bad after error, requests = before ++ bad :: after ∧
      (∀ request ∈ before, thrown request.1 request.2 = none) ∧
        thrown bad.1 bad.2 = some error := by
  induction requests with
  | nil => exact absurd (fun _ member => (List.not_mem_nil member).elim) fails
  | cons request requests ih =>
    cases first : thrown request.1 request.2 with
    | some error =>
      exact ⟨[], request, requests, error, rfl, fun _ member => (List.not_mem_nil member).elim,
        first⟩
    | none =>
      obtain ⟨before, bad, after, error, rfl, none, threw⟩ := ih fun others =>
        fails (List.forall_mem_cons.mpr ⟨first, others⟩)
      exact ⟨request :: before, bad, after, error, rfl, List.forall_mem_cons.mpr ⟨first, none⟩,
        threw⟩

/-- A bad change leaves the others and the lock alone only if there is none: exactly if none of
    the calls that are made throws. -/
theorem contained_iff (requests : List (Request ε)) :
    Contained requests (requestFiles requests Trace.start) ↔
      ∀ request ∈ requests, thrown request.1 request.2 = none := by
  constructor
  · intro contained
    by_contra fails
    obtain ⟨before, bad, after, error, rfl, none, threw⟩ := first_thrown fails
    have held := contained.free
    rw [requestFiles_of_thrown threw Trace.start none] at held
    cases held
  · intro none
    have all : requests.filter (fun request => (thrown request.1 request.2).isNone) = requests :=
      List.filter_eq_self.mpr fun request member => by rw [none request member]; rfl
    rw [requestFiles_of_none requests Trace.start none, Trace.rounds_eq requests _ rfl]
    exact ⟨by rw [all]; rfl, rfl, rfl, rfl⟩

end

/-! ## On the disk of a node -/

/-- The outcomes of the calls on the disk. -/
def outcomesOf (host : Host) (s : RequestState) (fileChange : FileChangeData) :
    Outcomes FsError :=
  { pathExists := .ok (FileSync.pathExists s.disk (host.localPath fileChange.filePath))
    localHash := host.localHash s.disk fileChange.filePath
    reply :=
      match s.answers.head?.getD .noReply with
      | .noReply => .noReply
      | .abandon => .abandon
      | .transfer reply _ => .transfer <|
        (FileSync.acquireDirectories s.disk (host.localPath reply.filePath)).map fun _ => true
    remove := (FileSync.deleteFile s.disk (host.localPath fileChange.filePath)).map Prod.fst }

/-- The changes of a list with the outcomes that they meet one after the other. -/
def requestsOf (host : Host) : List FileChangeData → RequestState → List (Request FsError)
  | [], _ => []
  | fileChange :: fileChanges, s =>
    (fileChange, outcomesOf host s fileChange) ::
      requestsOf host fileChanges
        { (FileSync.requestFile host fileChange { s with dirLock := true }).1 with
          dirLock := false }

theorem thrown_outcomesOf (host : Host) (s : RequestState) (fileChange : FileChangeData) :
    thrown fileChange (outcomesOf host s fileChange) =
      (FileSync.requestFile host fileChange { s with dirLock := true }).2 := by
  unfold thrown outcomesOf
  cases kind : fileChange.change with
  | deletion =>
    rw [requestFile_deletion kind]
    simp only
    cases FileSync.deleteFile s.disk (host.localPath fileChange.filePath) <;> rfl
  | addition | edit =>
    have update : fileChange.change ≠ .deletion := by
      rw [kind]
      exact nofun
    cases has : host.alreadyHas s.disk fileChange with
    | true =>
      rw [requestFile_skipped (s := { s with dirLock := true }) update has]
      unfold Host.alreadyHas at has
      simp only [has, if_true]
    | false =>
      rw [requestFile_requested (s := { s with dirLock := true }) update has]
      unfold Host.alreadyHas at has
      simp only [has, Bool.false_eq_true, if_false]
      unfold FileSync.negotiateTCPTransfer
      cases s.answers.head?.getD .noReply with
      | noReply | abandon => rfl
      | transfer reply bytes =>
        simp only
        cases FileSync.acquireDirectories s.disk (host.localPath reply.filePath) <;> rfl

/-- The loop on the disk leaves the lock as the loop on the outcomes does, with the same
    exception. -/
theorem requestFiles_requestsOf (host : Host) (fileChanges : List FileChangeData) :
    ∀ (s : RequestState) (t : Trace), s.dirLock = t.dirLock →
      let after := FileSync.requestFiles host fileChanges s
      let result := requestFiles (requestsOf host fileChanges s) t
      after.1.dirLock = result.2.dirLock ∧
        result.1 = match after.2 with
          | some error => .error error
          | none => .ok () := by
  induction fileChanges with
  | nil => exact fun s t same => ⟨same, rfl⟩
  | cons fileChange fileChanges ih =>
    intro s t _
    have held := (requestFile_fst host fileChange { s with dirLock := true }).1
    simp only [requestsOf, requestFiles_cons, thrown_outcomesOf, FileSync.requestFiles]
    rcases ran : FileSync.requestFile host fileChange { s with dirLock := true } with
      ⟨s', _ | error⟩
    · exact ih _ _ rfl
    · rw [ran] at held
      exact ⟨held, rfl⟩

/-- A change list is dealt with as it should be exactly if the disk throws nothing. -/
theorem contained_requestsOf_iff (host : Host) (fileChanges : List FileChangeData)
    (s : RequestState) (free : s.dirLock = false) :
    Contained (requestsOf host fileChanges s)
        (requestFiles (requestsOf host fileChanges s) Trace.start) ↔
      (FileSync.requestFiles host fileChanges s).2 = none := by
  obtain ⟨-, result⟩ := requestFiles_requestsOf host fileChanges s Trace.start free
  constructor
  · intro contained
    have none := (contained_iff _).mp contained
    rw [requestFiles_of_none _ _ none] at result
    cases threw : (FileSync.requestFiles host fileChanges s).2 with
    | none => rfl
    | some error =>
      rw [threw] at result
      cases result
  · intro finished
    rw [finished] at result
    apply (contained_iff _).mpr
    by_contra fails
    obtain ⟨before, bad, after, error, split, none, threw⟩ := first_thrown fails
    rw [split, requestFiles_of_thrown threw _ none] at result
    cases result

/-- A folder with a directory that is not empty. -/
def fullDirectory : Disk :=
  ((∅ : Disk).insert
    (["C:", "Users", "bob", "Documents", "File Sync Shared Folder", "d"].map wide)
    .directory).insert
    (["C:", "Users", "bob", "Documents", "File Sync Shared Folder", "d", "f"].map wide) (.file [])

/-- The first of two Deletions throws: the second is not looked at, and the lock stays held. -/
theorem deletion_not_contained :
    let s : RequestState := { disk := fullDirectory, dirLock := false, sent := [], answers := [] }
    let fileChanges := [⟨wide "d", 0, .deletion⟩, ⟨wide "x", 0, .deletion⟩]
    let requests := requestsOf ⟨.win32, wide "bob"⟩ fileChanges s
    ¬ Contained requests (requestFiles requests Trace.start) := by
  intro s fileChanges requests contained
  have held : (requestFiles requests Trace.start).2.dirLock = true := by decide +kernel
  exact absurd (contained.free.symm.trans held) Bool.false_ne_true

end Throwing

end FileSync
