import FileSync.Disk

/-!
# requestFiles

A node asks a server for the files of a change list, one after the other under `dirLock`.
What the server and the network do about a request is its answer.
-/

namespace FileSync

/-- A node's own data: the platform it was built for and the user it runs as. -/
structure Host where
  platform : Platform
  username : WString

/-- The folder that `main` makes of the user's Documents (main.cpp 27). -/
def Host.directory (host : Host) : WString := sharedDirectory host.username

/-- `directory + L'\\' + fileChange.filePath` -/
def Host.localPath (host : Host) (filePath : WString) : WString :=
  host.directory ++ backslash :: filePath

/-- What becomes of a pid-5 request: no datagram can be received, the server abandons, or
    it sends a reply with a record and serves some bytes over TCP. -/
inductive Answer where
  | noReply
  | abandon
  | transfer (fileChange : FileChangeData) (bytes : Bytes)

/-- What `requestFiles` reads and changes, with the requests that it sends. -/
structure RequestState where
  disk : Disk
  dirLock : Bool
  /-- The pid-5 requests sent so far. -/
  sent : List FileChangeData
  /-- The answers to the requests still to come. -/
  answers : List Answer

/-- The hash of a local file as `requestFiles` computes it. -/
def Host.localHash (host : Host) (disk : Disk) (filePath : WString) : UInt64 :=
  getFileHash host.platform host.username (host.localPath filePath)
    (openFile disk (host.localPath filePath))

/-- The test that makes `requestFiles` skip an Addition or Edit. -/
def Host.alreadyHas (host : Host) (disk : Disk) (fileChange : FileChangeData) : Bool :=
  pathExists disk (host.localPath fileChange.filePath) &&
    fileChange.fileHash == host.localHash disk fileChange.filePath

/-- The request and what its answer does to the disk (Node.cpp 299-336). The path is the one of the
    reply. -/
def negotiateTCPTransfer (host : Host) (fileChange : FileChangeData) (s : RequestState) :
    RequestState × Option FsError :=
  let answer := s.answers.head?.getD .noReply
  let s := { s with sent := s.sent ++ [fileChange], answers := s.answers.tail }
  match answer with
  | .noReply => (s, none)
  | .abandon => (s, none)
  | .transfer reply bytes =>
    match acquireDirectories s.disk (host.localPath reply.filePath) with
    | .error error => (s, some error)
    | .ok disk => ({ s with disk := writeFile disk (host.localPath reply.filePath) bytes }, none)

/-- The body of the loop for an element (Node.cpp 398-425), with the lock held. -/
def requestFile (host : Host) (fileChange : FileChangeData) (s : RequestState) :
    RequestState × Option FsError :=
  match fileChange.change with
  | .edit | .addition =>
    if host.alreadyHas s.disk fileChange then (s, none)
    else negotiateTCPTransfer host fileChange s
  | .deletion =>
    match deleteFile s.disk (host.localPath fileChange.filePath) with
    | .error error => (s, some error)
    | .ok (_, disk) => ({ s with disk }, none)

/-- `requestFiles` (Node.cpp 395-427). An exception leaves the loop with the lock still held. -/
def requestFiles (host : Host) : List FileChangeData → RequestState →
    RequestState × Option FsError
  | [], s => (s, none)
  | fileChange :: fileChanges, s =>
    match requestFile host fileChange { s with dirLock := true } with
    | (s, some error) => (s, some error)
    | (s, none) => requestFiles host fileChanges { s with dirLock := false }

/-! ## The body of the loop -/

section

variable {host : Host} {fileChange : FileChangeData} {s : RequestState}

theorem requestFile_deletion (deletion : fileChange.change = .deletion) :
    requestFile host fileChange s =
      match deleteFile s.disk (host.localPath fileChange.filePath) with
      | .error error => (s, some error)
      | .ok (_, disk) => ({ s with disk }, none) := by
  simp only [requestFile, deletion]

theorem requestFile_skipped (update : fileChange.change ≠ .deletion)
    (has : host.alreadyHas s.disk fileChange = true) :
    requestFile host fileChange s = (s, none) := by
  unfold requestFile
  cases kind : fileChange.change with
  | deletion => exact absurd kind update
  | addition | edit => simp only [has, if_true]

theorem requestFile_requested (update : fileChange.change ≠ .deletion)
    (lacks : host.alreadyHas s.disk fileChange = false) :
    requestFile host fileChange s = negotiateTCPTransfer host fileChange s := by
  unfold requestFile
  cases kind : fileChange.change with
  | deletion => exact absurd kind update
  | addition | edit => simp only [lacks, Bool.false_eq_true, if_false]

end

/-- A request changes the disk at most, next to what is sent and still to be answered. -/
theorem negotiateTCPTransfer_fst (host : Host) (fileChange : FileChangeData) (s : RequestState) :
    ∃ disk, (negotiateTCPTransfer host fileChange s).1 =
      { s with disk, sent := s.sent ++ [fileChange], answers := s.answers.tail } := by
  unfold negotiateTCPTransfer
  cases s.answers.head?.getD .noReply with
  | noReply | abandon => exact ⟨s.disk, rfl⟩
  | transfer reply bytes =>
    simp only
    cases acquireDirectories s.disk (host.localPath reply.filePath) with
    | error error => exact ⟨s.disk, rfl⟩
    | ok disk => exact ⟨_, rfl⟩

/-- The body of the loop leaves the lock alone, and requests are only added. -/
theorem requestFile_fst (host : Host) (fileChange : FileChangeData) (s : RequestState) :
    (requestFile host fileChange s).1.dirLock = s.dirLock ∧
      s.sent <+: (requestFile host fileChange s).1.sent := by
  by_cases deletion : fileChange.change = .deletion
  · rw [requestFile_deletion deletion]
    cases deleteFile s.disk (host.localPath fileChange.filePath) <;>
      exact ⟨rfl, List.prefix_rfl⟩
  · cases has : host.alreadyHas s.disk fileChange with
    | true =>
      rw [requestFile_skipped deletion has]
      exact ⟨rfl, List.prefix_rfl⟩
    | false =>
      obtain ⟨disk, after⟩ := negotiateTCPTransfer_fst host fileChange s
      rw [requestFile_requested deletion has, after]
      exact ⟨rfl, List.prefix_append _ _⟩

/-! ## Requests are only added -/

/-- The requests of the first element are among those of the whole list. -/
theorem requestFiles_cons_sent (host : Host) (fileChange : FileChangeData)
    {fileChanges : List FileChangeData}
    (rest : ∀ s : RequestState, s.sent <+: (requestFiles host fileChanges s).1.sent)
    (s : RequestState) :
    (requestFile host fileChange { s with dirLock := true }).1.sent <+:
      (requestFiles host (fileChange :: fileChanges) s).1.sent := by
  rw [requestFiles]
  split
  · rename_i after error thrown
    exact ⟨[], by rw [thrown, List.append_nil]⟩
  · rename_i after finished
    rw [finished]
    exact rest { after with dirLock := false }

theorem requestFiles_sent (host : Host) (fileChanges : List FileChangeData) :
    ∀ s : RequestState, s.sent <+: (requestFiles host fileChanges s).1.sent := by
  induction fileChanges with
  | nil => exact fun s => List.prefix_rfl
  | cons fileChange fileChanges ih =>
    intro s
    exact (requestFile_fst host fileChange { s with dirLock := true }).2.trans
      (requestFiles_cons_sent host fileChange ih s)

/-- A list of Additions and Edits is left alone exactly when the test is passed for each. -/
theorem requestFiles_idle_iff (host : Host) (fileChanges : List FileChangeData) :
    (∀ fileChange ∈ fileChanges, fileChange.change ≠ .deletion) → ∀ s : RequestState,
      ((requestFiles host fileChanges s).1.sent = s.sent ∧
        (requestFiles host fileChanges s).1.disk = s.disk) ↔
      ∀ fileChange ∈ fileChanges, host.alreadyHas s.disk fileChange = true := by
  induction fileChanges with
  | nil => exact fun _ s => ⟨fun _ _ member => (List.not_mem_nil member).elim, fun _ => ⟨rfl, rfl⟩⟩
  | cons fileChange rest ih =>
    intro updates s
    have first := updates fileChange List.mem_cons_self
    have later := ih (fun other member => updates other (List.mem_cons_of_mem _ member))
      { s with dirLock := false }
    cases has : host.alreadyHas s.disk fileChange with
    | true =>
      have unfolded : requestFiles host (fileChange :: rest) s =
          requestFiles host rest { s with dirLock := false } := by
        rw [requestFiles, requestFile_skipped (s := { s with dirLock := true }) first has]
      rw [unfolded, later, List.forall_mem_cons]
      exact ⟨fun others => ⟨has, others⟩, fun all => all.2⟩
    | false =>
      refine ⟨fun idle => ?_, fun all => ?_⟩
      · -- the request for the head is sent, and requests are never taken back
        have sent : (requestFile host fileChange { s with dirLock := true }).1.sent =
            s.sent ++ [fileChange] := by
          obtain ⟨disk, after⟩ :=
            negotiateTCPTransfer_fst host fileChange { s with dirLock := true }
          rw [requestFile_requested (s := { s with dirLock := true }) first has, after]
        have more := requestFiles_cons_sent host fileChange (requestFiles_sent host rest) s
        rw [sent, idle.1] at more
        have longer := more.length_le
        rw [List.length_append, List.length_singleton] at longer
        omega
      · rw [all fileChange List.mem_cons_self] at has
        cases has

end FileSync
