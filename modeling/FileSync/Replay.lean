import FileSync.ScanHistory

/-!
# Replaying a change list

A receiver works through the change lists of a sender whose folder does not change any more. What
it requests is served from the last folder, whatever the folder was when the change was found.
-/

namespace FileSync

open TransitionSystem TreeReplay

/-- The answer of case 5 of `handleUdp`, which looks the path up in its folder. A path that exists
    and cannot be opened is never done (see the transfer loops). -/
def serveRequest (server : Host) (served : Disk) (fileChange : FileChangeData) : Option Answer :=
  if pathExists served (server.localPath fileChange.filePath) then
    (openFile served (server.localPath fileChange.filePath)).map (.transfer fileChange)
  else some .abandon

/-- Whether the file of a change is requested. -/
def Host.requests (host : Host) (disk : Disk) (fileChange : FileChangeData) : Bool :=
  fileChange.change != .deletion && !host.alreadyHas disk fileChange

/-- A round of `requestFiles` (Node.cpp 396-426), unless it throws or does not end. All transfers
    succeed. -/
def replayStep (host server : Host) (served : Disk) (fileChange : FileChangeData) (disk : Disk) :
    Option Disk :=
  let answers := if host.requests disk fileChange then
    (serveRequest server served fileChange).map fun answer => [answer] else some []
  answers.bind fun answers =>
    match requestFile host fileChange { disk, dirLock := true, sent := [], answers } with
    | (s, none) => some s.disk
    | (_, some _) => none

/-- The test that makes `requestFiles` skip an Addition or Edit, for what is at its path. -/
def Host.passes (host : Host) (path : Components) (fileHash : UInt64) (item : Option (Item Bytes)) :
    Prop :=
  item ≠ none ∧ fileHash = getFileHash host.platform host.username
    (host.localPath (relativePath path)) (match item with
      | some (.file bytes) => some bytes
      | _ => none)

theorem alreadyHas_iff {host : Host} {disk : Disk} {fileChange : FileChangeData}
    {path : Components} (names : fileChange.Names path) :
    host.alreadyHas disk fileChange = true ↔
      host.passes path fileChange.fileHash (host.view disk path) := by
  obtain ⟨same, -, valid⟩ := names
  simp only [Host.alreadyHas, Host.passes, Host.localHash, Host.view, pathExists, openFile, same,
    resolve_localPath host valid, Bool.and_eq_true, beq_iff_eq,
    Std.ExtTreeMap.contains_eq_isSome_getElem?]
  cases disk[host.base ++ path]? with
  | none => simp
  | some entry => cases entry <;> simp [Entry.item]

theorem serveRequest_eq {server : Host} {served : Disk} {fileChange : FileChangeData}
    {path : Components} (names : fileChange.Names path) :
    serveRequest server served fileChange =
      match server.view served path with
      | none => some .abandon
      | some .directory => none
      | some (.file bytes) => some (.transfer fileChange bytes) := by
  obtain ⟨same, -, valid⟩ := names
  simp only [serveRequest, Host.view, pathExists, openFile, same, resolve_localPath server valid,
    Std.ExtTreeMap.contains_eq_isSome_getElem?]
  cases served[server.base ++ path]? with
  | none => simp
  | some entry => cases entry <;> simp [Entry.item]

/-- What a round does with a file that is requested and served. -/
theorem replayStep_requested {host server : Host} {served disk : Disk}
    {fileChange : FileChangeData} (update : fileChange.change ≠ .deletion)
    (lacks : host.alreadyHas disk fileChange = false) :
    replayStep host server served fileChange disk =
      (serveRequest server served fileChange).bind fun answer =>
        match answer with
        | .transfer reply bytes =>
          (acquireDirectories disk (host.localPath reply.filePath)).toOption.map fun next =>
            writeFile next (host.localPath reply.filePath) bytes
        | _ => some disk := by
  have requested : host.requests disk fileChange = true := by
    simp [Host.requests, update, lacks]
  simp only [replayStep, requested, if_true]
  cases serveRequest server served fileChange with
  | none => rfl
  | some answer =>
    have round := requestFile_requested
      (s := { disk, dirLock := true, sent := [], answers := [answer] }) update lacks
    simp only [Option.map_some, Option.bind_some, round, negotiateTCPTransfer, List.head?_cons,
      Option.getD_some]
    cases answer with
    | transfer reply bytes =>
      simp only
      cases acquireDirectories disk (host.localPath reply.filePath) <;> rfl
    | _ => rfl

theorem replayStep_skipped {host server : Host} {served disk : Disk}
    {fileChange : FileChangeData} (update : fileChange.change ≠ .deletion)
    (has : host.alreadyHas disk fileChange = true) :
    replayStep host server served fileChange disk = some disk := by
  have notRequested : host.requests disk fileChange = false := by simp [Host.requests, has]
  have skipped := requestFile_skipped
    (s := { disk, dirLock := true, sent := [], answers := [] }) update has
  simp only [replayStep, notRequested, Bool.false_eq_true, if_false, Option.bind_some, skipped]

theorem replayStep_deletion {host server : Host} {served disk : Disk}
    {fileChange : FileChangeData} (deletion : fileChange.change = .deletion) :
    replayStep host server served fileChange disk =
      (deleteFile disk (host.localPath fileChange.filePath)).toOption.map Prod.snd := by
  simp only [replayStep, Host.requests, deletion, bne_self_eq_false, Bool.false_and,
    Bool.false_eq_true, if_false, Option.bind_some, requestFile_deletion deletion]
  cases deleteFile disk (host.localPath fileChange.filePath) <;> rfl

/-- A round of `requestFiles` is a step of the replay on the tree below the shared folder. -/
theorem view_replayStep {host server : Host} {served disk : Disk} {fileChange : FileChangeData}
    {path : Components} (names : fileChange.Names path) (rooted : host.Rooted disk) :
    (replayStep host server served fileChange disk).map host.view =
      step (server.view served) host.passes fileChange.toChange (host.view disk) := by
  rw [toChange_of_names names]
  obtain ⟨same, nonempty, valid⟩ := id names
  by_cases deletion : fileChange.change = .deletion
  · rw [replayStep_deletion deletion, if_pos deletion, same]
    exact (Option.map_map ..).trans (view_delete host valid)
  · rw [if_neg deletion]
    cases has : host.alreadyHas disk fileChange with
    | true =>
      rw [replayStep_skipped deletion has, step, if_pos ((alreadyHas_iff names).mp has)]
      rfl
    | false =>
      have fails : ¬ host.passes path fileChange.fileHash (host.view disk path) := by
        rw [← alreadyHas_iff names, has]
        simp
      rw [replayStep_requested deletion has, serveRequest_eq names, step, if_neg fails]
      cases server.view served path with
      | none => rfl
      | some item =>
        cases item with
        | directory => rfl
        | file bytes =>
          obtain empty | ⟨parts, part, rfl⟩ := List.eq_nil_or_concat' path
          · exact absurd empty nonempty
          · refine Eq.trans ?_ (view_write host rooted valid bytes)
            simp only [Option.bind_some, same, Option.map_map]
            rfl

theorem rooted_replayStep {host server : Host} {served disk next : Disk}
    {fileChange : FileChangeData} {path : Components} (names : fileChange.Names path)
    (rooted : host.Rooted disk)
    (taken : replayStep host server served fileChange disk = some next) : host.Rooted next := by
  obtain ⟨same, nonempty, valid⟩ := id names
  by_cases deletion : fileChange.change = .deletion
  · rw [replayStep_deletion deletion, same] at taken
    cases removed : deleteFile disk (host.localPath (relativePath path)) with
    | error error => simp [removed, Except.toOption] at taken
    | ok result =>
      obtain rfl : result.2 = next := by simpa [removed, Except.toOption] using taken
      exact rooted_delete rooted valid nonempty removed
  · cases has : host.alreadyHas disk fileChange with
    | true =>
      rw [replayStep_skipped deletion has] at taken
      cases taken
      exact rooted
    | false =>
      rw [replayStep_requested deletion has, serveRequest_eq names] at taken
      cases found : server.view served path with
      | none =>
        simp only [found, Option.bind_some] at taken
        cases taken
        exact rooted
      | some item =>
        cases item with
        | directory => simp [found] at taken
        | file bytes =>
          obtain empty | ⟨parts, part, rfl⟩ := List.eq_nil_or_concat' path
          · exact absurd empty nonempty
          · simp only [found, Option.bind_some, same] at taken
            cases acquired : acquireDirectories disk
                (host.localPath (relativePath (parts ++ [part]))) with
            | error error => simp [acquired, Except.toOption] at taken
            | ok made =>
              rw [acquired] at taken
              cases taken
              exact rooted_write valid bytes acquired

/-! ## The rounds of requestFiles -/

theorem requestFile_of_replayStep {host server : Host} {served disk next : Disk}
    {fileChange : FileChangeData}
    (taken : replayStep host server served fileChange disk = some next) :
    ∃ consumed, ∀ dirLock sent rest, ∃ more,
      requestFile host fileChange { disk, dirLock, sent, answers := consumed ++ rest } =
        ({ disk := next, dirLock, sent := more, answers := rest }, none) := by
  by_cases deletion : fileChange.change = .deletion
  · refine ⟨[], fun dirLock sent rest => ⟨sent, ?_⟩⟩
    rw [replayStep_deletion deletion] at taken
    rw [requestFile_deletion deletion]
    cases removed : deleteFile disk (host.localPath fileChange.filePath) with
    | error error => simp [removed, Except.toOption] at taken
    | ok result =>
      obtain rfl : result.2 = next := by simpa [removed, Except.toOption] using taken
      simp
  · cases has : host.alreadyHas disk fileChange with
    | true =>
      refine ⟨[], fun dirLock sent rest => ⟨sent, ?_⟩⟩
      rw [replayStep_skipped deletion has] at taken
      cases taken
      exact requestFile_skipped deletion has
    | false =>
      rw [replayStep_requested deletion has] at taken
      obtain ⟨answer, -, taken⟩ := Option.bind_eq_some_iff.mp taken
      refine ⟨[answer], fun dirLock sent rest => ⟨sent ++ [fileChange], ?_⟩⟩
      rw [requestFile_requested deletion has]
      cases answer with
      | transfer reply bytes =>
        cases acquired : acquireDirectories disk (host.localPath reply.filePath) with
        | error error => simp [acquired, Except.toOption] at taken
        | ok made =>
          simp only [acquired, Except.toOption, Option.map_some] at taken
          cases taken
          simp [negotiateTCPTransfer, acquired]
      | _ =>
        cases taken
        rfl

/-- A replay that gets through is what `requestFiles` does with the sender's answers. -/
theorem requestFiles_of_run {host server : Host} {served disk next : Disk}
    {changes : List FileChangeData}
    (run : Run (replayStep host server served) anyStep disk changes next) :
    ∃ answers, ∀ dirLock sent, ∃ s,
      requestFiles host changes { disk, dirLock, sent, answers } = (s, none) ∧ s.disk = next := by
  induction run with
  | nil disk => exact ⟨[], fun dirLock sent => ⟨_, rfl, rfl⟩⟩
  | cons _ taken _ ih =>
    obtain ⟨consumed, round⟩ := requestFile_of_replayStep taken
    obtain ⟨answers, rest⟩ := ih
    refine ⟨consumed ++ answers, fun dirLock sent => ?_⟩
    obtain ⟨more, first⟩ := round true sent answers
    obtain ⟨s, later, reached⟩ := rest false more
    exact ⟨s, by rw [requestFiles, first]; exact later, reached⟩

/-! ## Replays as runs on the tree below the folder -/

theorem run_view {host server : Host} {served disk next : Disk} {changes : List FileChangeData}
    (run : Run (replayStep host server served) anyStep disk changes next)
    (named : ∀ fileChange ∈ changes, ∃ path, fileChange.Names path) (rooted : host.Rooted disk) :
    Run (step (server.view served) host.passes) anyStep (host.view disk)
      (changes.map FileChangeData.toChange) (host.view next) := by
  induction run with
  | nil => exact .nil _
  | cons _ taken _ ih =>
    rw [List.forall_mem_cons] at named
    obtain ⟨⟨path, names⟩, later⟩ := named
    refine .cons trivial ?_ (ih later (rooted_replayStep names rooted taken))
    rw [← view_replayStep names rooted, taken]
    rfl

theorem run_of_view {host server : Host} {served : Disk} {changes : List FileChangeData} :
    ∀ {disk : Disk} {t : Tree WString Bytes},
    Run (step (server.view served) host.passes) anyStep (host.view disk)
      (changes.map FileChangeData.toChange) t →
    (∀ fileChange ∈ changes, ∃ path, fileChange.Names path) → host.Rooted disk →
    ∃ next, Run (replayStep host server served) anyStep disk changes next ∧
      host.view next = t := by
  induction changes with
  | nil =>
    intro disk t run named rooted
    cases run
    exact ⟨disk, .nil _, rfl⟩
  | cons fileChange changes ih =>
    intro disk t run named rooted
    rw [List.forall_mem_cons] at named
    obtain ⟨⟨path, names⟩, later⟩ := named
    cases run with
    | cons _ taken rest =>
      rw [← view_replayStep names rooted] at taken
      obtain ⟨middle, first, rfl⟩ := Option.map_eq_some_iff.mp taken
      obtain ⟨next, run, reached⟩ := ih rest later (rooted_replayStep names rooted first)
      exact ⟨next, .cons trivial first run, reached⟩

end FileSync
