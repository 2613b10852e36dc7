import FileSync.DirectoryMonitor
import FileSync.Library.EditScript
import FileSync.Library.Runs

/-!
# The change buffer between the watcher and the handler

The watcher appends the changes of each scan to `fileChangeBuf`; the handler applies the
buffer to `Node::fileHashes`, broadcasts it and clears it. Each side has a table of its own:
`prevDir` is the watcher's, `fileHashes` the handler's.
-/

namespace FileSync

open TransitionSystem

/-- One round of `handleUdp`'s loop that updates the local file hash table (Node.cpp 189-199). -/
def updateFileHashes (fileHashes : FileTable) (changeData : FileChangeData) : FileTable :=
  if changeData.change ≠ .deletion then
    fileHashes.insert changeData.filePath changeData.fileHash
  else
    match fileHashes[changeData.filePath]? with
    | some _ => fileHashes.erase changeData.filePath
    | none => fileHashes

/-- The whole loop over a drained buffer. -/
def applyChanges (fileHashes : FileTable) (fileChangeBuf : List FileChangeData) : FileTable :=
  fileChangeBuf.foldl updateFileHashes fileHashes

/-- Where the drain of `handleUdp` is. It holds `dirLock` except in `idle`. -/
inductive DrainPhase where
  | idle
  /-- In the loop over the buffer, between its two parts. -/
  | updating (done rest : List FileChangeData)
  /-- The buffer has been broadcast and is about to be cleared. -/
  | sent

/-- What the watcher thread and the drain of the handler thread share. -/
structure Monitor where
  prevDir : FileTable
  fileHashes : FileTable
  fileChangeBuf : List FileChangeData
  phase : DrainPhase
  /-- The lists broadcast so far, in order. -/
  broadcasts : List (List FileChangeData)

/-- The steps of the watcher and of the drain. -/
inductive MonitorAction where
  /-- The watcher scans a folder whose table is `newDir`. -/
  | scan (newDir : FileTable)
  /-- `handleUdp` gets the lock and finds a nonempty buffer. -/
  | lock
  /-- One round of the loop that updates the table. -/
  | update
  | broadcast
  /-- The buffer is cleared and the lock released. -/
  | clear

/-- One step of the watcher with `dirLock` held (DirectoryMonitor.cpp 56-65) or of the drain of
    `handleUdp` (Node.cpp 186-207). A `try_lock` that fails and an empty buffer change nothing and
    are no steps. -/
def monitorStep : MonitorAction → Monitor → Option Monitor
  | .scan newDir, m =>
    match m.phase with
    | .idle =>
      let (dirChanges, prevDir) := getDirectoryChangesScan newDir m.prevDir
      some { m with prevDir, fileChangeBuf := m.fileChangeBuf ++ dirChanges }
    | _ => none
  | .lock, m =>
    match m.phase with
    | .idle =>
      if m.fileChangeBuf.isEmpty then none
      else some { m with phase := .updating [] m.fileChangeBuf }
    | _ => none
  | .update, m =>
    match m.phase with
    | .updating done (changeData :: rest) => some { m with
        fileHashes := updateFileHashes m.fileHashes changeData
        phase := .updating (done ++ [changeData]) rest }
    | _ => none
  | .broadcast, m =>
    match m.phase with
    | .updating _ [] => some { m with
        broadcasts := m.broadcasts ++ [m.fileChangeBuf], phase := .sent }
    | _ => none
  | .clear, m =>
    match m.phase with
    | .sent => some { m with fileChangeBuf := [], phase := .idle }
    | _ => none

/-- The state after an action, with what the action needs. -/
inductive MonitorEffect (m : Monitor) : MonitorAction → Monitor → Prop where
  | scan (newDir : FileTable) : m.phase = .idle →
      MonitorEffect m (.scan newDir) { m with
        prevDir := newDir
        fileChangeBuf := m.fileChangeBuf ++
          (updates m.prevDir newDir ++ deletions m.prevDir newDir) }
  | lock : m.phase = .idle → m.fileChangeBuf ≠ [] →
      MonitorEffect m .lock { m with phase := .updating [] m.fileChangeBuf }
  | update {done rest : List FileChangeData} {changeData : FileChangeData} :
      m.phase = .updating done (changeData :: rest) →
      MonitorEffect m .update { m with
        fileHashes := updateFileHashes m.fileHashes changeData
        phase := .updating (done ++ [changeData]) rest }
  | broadcast {done : List FileChangeData} : m.phase = .updating done [] →
      MonitorEffect m .broadcast { m with
        broadcasts := m.broadcasts ++ [m.fileChangeBuf], phase := .sent }
  | clear : m.phase = .sent →
      MonitorEffect m .clear { m with fileChangeBuf := [], phase := .idle }

theorem monitorEffect_of_step {action : MonitorAction} {m next : Monitor}
    (taken : monitorStep action m = some next) : MonitorEffect m action next := by
  cases action with
  | scan newDir =>
    simp only [monitorStep, getDirectoryChangesScan_eq] at taken
    split at taken <;> cases taken
    exact .scan newDir ‹_›
  | lock =>
    simp only [monitorStep] at taken
    split at taken
    · split at taken <;> cases taken
      rename_i idle nonempty
      exact .lock idle fun empty => nonempty (List.isEmpty_iff.mpr empty)
    · cases taken
  | update =>
    simp only [monitorStep] at taken
    split at taken <;> cases taken
    exact .update ‹_›
  | broadcast =>
    simp only [monitorStep] at taken
    split at taken <;> cases taken
    exact .broadcast ‹_›
  | clear =>
    simp only [monitorStep] at taken
    split at taken <;> cases taken
    exact .clear ‹_›

/-- The changes that the handler has not applied to its table yet. -/
def Monitor.undrained (m : Monitor) : List FileChangeData :=
  match m.phase with
  | .idle => m.fileChangeBuf
  | .updating _ rest => rest
  | .sent => []

/-- The changes that the drain under way has applied but not broadcast yet. -/
def Monitor.unsent (m : Monitor) : List FileChangeData :=
  match m.phase with
  | .updating done _ => done
  | _ => []

/-- The changes that are buffered, or in the drain under way, and not broadcast yet. -/
def Monitor.unbroadcast (m : Monitor) : List FileChangeData :=
  match m.phase with
  | .sent => []
  | _ => m.fileChangeBuf

/-- Both threads start from the same table. -/
def Monitor.start (table : FileTable) : Monitor :=
  { prevDir := table, fileHashes := table, fileChangeBuf := [], phase := .idle, broadcasts := [] }

/-- The scans of a list of folder tables one after the other, each from the table that the
    one before left: the concatenated change lists and the last `prevDir`. -/
def scanChain (prevDir : FileTable) : List FileTable → List FileChangeData × FileTable
  | [] => ([], prevDir)
  | newDir :: later =>
    let (dirChanges, prevDir) := getDirectoryChangesScan newDir prevDir
    let (rest, last) := scanChain prevDir later
    (dirChanges ++ rest, last)

/-- The table of the last scan among some actions. -/
def lastScan (table : FileTable) : List MonitorAction → FileTable
  | [] => table
  | .scan newDir :: later => lastScan newDir later
  | _ :: later => lastScan table later

/-! ## Changes as edits of a table -/

/-- A change as an edit: its path gets the hash, or is removed by a Deletion. -/
def FileChangeData.toEdit (change : FileChangeData) : EditScript.Edit WString UInt64 :=
  (change.filePath, if change.change = .deletion then none else some change.fileHash)

theorem erase_of_none {table : FileTable} {path : WString} (h : table[path]? = none) :
    table.erase path = table := by
  apply Std.ExtTreeMap.ext_getElem?
  intro other
  by_cases same : path = other
  · subst same
    simp [h]
  · simp [Std.ExtTreeMap.getElem?_erase, same]

theorem updateFileHashes_eq (fileHashes : FileTable) (change : FileChangeData) :
    updateFileHashes fileHashes change = EditScript.applyEdit fileHashes change.toEdit := by
  by_cases deletes : change.change = .deletion
  · cases found : fileHashes[change.filePath]? with
    | some hash =>
      simp [updateFileHashes, EditScript.applyEdit, FileChangeData.toEdit, deletes, found]
    | none =>
      simp [updateFileHashes, EditScript.applyEdit, FileChangeData.toEdit, deletes, found,
        erase_of_none found]
  · simp [updateFileHashes, EditScript.applyEdit, FileChangeData.toEdit, deletes]

theorem applyChanges_eq_patch (changes : List FileChangeData) : ∀ fileHashes : FileTable,
    applyChanges fileHashes changes =
      EditScript.patch fileHashes (changes.map FileChangeData.toEdit) := by
  induction changes with
  | nil => intro fileHashes; rfl
  | cons change changes ih =>
    intro fileHashes
    change applyChanges (updateFileHashes fileHashes change) changes = _
    rw [ih, updateFileHashes_eq]
    rfl

theorem applyChanges_append (fileHashes : FileTable) (first second : List FileChangeData) :
    applyChanges fileHashes (first ++ second) =
      applyChanges (applyChanges fileHashes first) second :=
  List.foldl_append

/-- Batches folded one after the other do what their concatenation does. -/
theorem foldl_applyChanges (batches : List (List FileChangeData)) (fileHashes : FileTable) :
    batches.foldl applyChanges fileHashes = applyChanges fileHashes batches.flatten := by
  induction batches generalizing fileHashes with
  | nil => rfl
  | cons batch batches ih =>
    rw [List.foldl_cons, List.flatten_cons, applyChanges_append, ih]

/-- The changes of a scan lead from the table before it to the scanned one. -/
theorem applyChanges_scan (old new : FileTable) :
    applyChanges old (updates old new ++ deletions old new) = new := by
  rw [applyChanges_eq_patch]
  apply EditScript.patch_eq_of_correct
  · intro edit isEdit
    obtain ⟨change, member, rfl⟩ := List.mem_map.mp isEdit
    rcases List.mem_append.mp member with update | deletion
    · obtain ⟨found, kind⟩ := mem_updates.mp update
      rcases kind with ⟨kind, _⟩ | ⟨kind, _⟩ <;> simp [FileChangeData.toEdit, kind, found]
    · obtain ⟨kind, _, _, gone⟩ := mem_deletions.mp deletion
      simp [FileChangeData.toEdit, kind, gone]
  · intro path unmentioned
    -- a path at which the tables differ has an update, or a deletion if it is gone
    by_contra differ
    cases after : new[path]? with
    | some hash =>
      cases before : old[path]? with
      | none =>
        apply unmentioned (some hash)
        refine List.mem_map.mpr ⟨⟨path, hash, .addition⟩, List.mem_append_left _ ?_, by
          simp [FileChangeData.toEdit]⟩
        exact mem_updates.mpr ⟨after, Or.inl ⟨rfl, before⟩⟩
      | some oldHash =>
        apply unmentioned (some hash)
        refine List.mem_map.mpr ⟨⟨path, hash, .edit⟩, List.mem_append_left _ ?_, by
          simp [FileChangeData.toEdit]⟩
        refine mem_updates.mpr ⟨after, Or.inr ⟨rfl, oldHash, before, ?_⟩⟩
        intro same
        exact differ (by rw [before, after, same])
    | none =>
      cases before : old[path]? with
      | none => exact differ (by rw [before, after])
      | some oldHash =>
        apply unmentioned none
        refine List.mem_map.mpr ⟨⟨path, 0, .deletion⟩, List.mem_append_right _ ?_, by
          simp [FileChangeData.toEdit]⟩
        exact mem_deletions.mpr ⟨rfl, rfl, ⟨oldHash, before⟩, after⟩

theorem scanChain_snd (tables : List FileTable) : ∀ prevDir : FileTable,
    (scanChain prevDir tables).2 = tables.getLast?.getD prevDir := by
  induction tables with
  | nil => intro prevDir; rfl
  | cons table tables ih =>
    intro prevDir
    simp only [scanChain, getDirectoryChangesScan_eq, ih]
    cases tables <;> simp [List.getLast?_cons]

/-- The concatenated changes of a chain of scans lead from the first table to the last. -/
theorem applyChanges_scanChain (tables : List FileTable) : ∀ prevDir : FileTable,
    applyChanges prevDir (scanChain prevDir tables).1 = (scanChain prevDir tables).2 := by
  induction tables with
  | nil => intro prevDir; rfl
  | cons table tables ih =>
    intro prevDir
    simp only [scanChain, getDirectoryChangesScan_eq]
    rw [applyChanges_append, applyChanges_scan, ih]

/-! ## Runs of the watcher and the drain -/

/-- What is still undrained separates the two tables, and what was broadcast, with what the
    drain under way has applied, leads from the first table to the handler's. -/
structure MonitorInv (first : FileTable) (m : Monitor) : Prop where
  pending : applyChanges m.fileHashes m.undrained = m.prevDir
  drained : applyChanges (m.broadcasts.foldl applyChanges first) m.unsent = m.fileHashes
  whole : ∀ done rest, m.phase = .updating done rest → m.fileChangeBuf = done ++ rest

theorem monitorInv_start (first : FileTable) : MonitorInv first (Monitor.start first) where
  pending := rfl
  drained := rfl
  whole := fun _ _ h => by cases h

theorem monitorInv_step {first : FileTable} {action : MonitorAction} {m next : Monitor}
    (inv : MonitorInv first m) (taken : monitorStep action m = some next) :
    MonitorInv first next := by
  obtain ⟨prevDir, fileHashes, fileChangeBuf, phase, broadcasts⟩ := m
  obtain ⟨pending, drained, whole⟩ := inv
  cases monitorEffect_of_step taken with
  | scan newDir idle =>
    cases idle
    refine ⟨?_, drained, fun _ _ h => by cases h⟩
    change applyChanges fileHashes (fileChangeBuf ++ _) = newDir
    rw [applyChanges_append, show applyChanges fileHashes fileChangeBuf = prevDir from pending,
      applyChanges_scan]
  | lock idle nonempty =>
    cases idle
    refine ⟨pending, drained, fun done rest h => ?_⟩
    cases h
    rfl
  | @update done rest changeData updating =>
    cases updating
    refine ⟨pending, ?_, fun _ _ h => ?_⟩
    · change applyChanges _ (done ++ [changeData]) = _
      rw [applyChanges_append, show applyChanges _ done = fileHashes from drained]
      rfl
    · cases h
      rw [whole done (changeData :: rest) rfl, List.append_assoc]
      rfl
  | @broadcast done updating =>
    cases updating
    have buffer : fileChangeBuf = done := by simpa using whole done [] rfl
    refine ⟨pending, ?_, fun _ _ h => by cases h⟩
    change applyChanges ((broadcasts ++ [fileChangeBuf]).foldl applyChanges first) [] = _
    rw [List.foldl_append, buffer]
    exact drained
  | clear sent =>
    cases sent
    exact ⟨pending, drained, fun _ _ h => by cases h⟩

/-- What was broadcast, with what is not broadcast yet, leads to the watcher's table. -/
theorem applyChanges_unbroadcast {first : FileTable} {m : Monitor} (inv : MonitorInv first m) :
    applyChanges (m.broadcasts.foldl applyChanges first) m.unbroadcast = m.prevDir := by
  obtain ⟨prevDir, fileHashes, fileChangeBuf, phase, broadcasts⟩ := m
  obtain ⟨pending, drained, whole⟩ := inv
  cases phase with
  | idle =>
    change applyChanges _ fileChangeBuf = prevDir
    rw [show broadcasts.foldl applyChanges first = fileHashes from drained]
    exact pending
  | updating done rest =>
    change applyChanges _ fileChangeBuf = prevDir
    rw [show fileChangeBuf = done ++ rest from whole done rest rfl, applyChanges_append,
      show applyChanges _ done = fileHashes from drained]
    exact pending
  | sent =>
    change broadcasts.foldl applyChanges first = prevDir
    rw [show broadcasts.foldl applyChanges first = fileHashes from drained]
    exact pending

/-- What the drain under way has applied is not broadcast yet. -/
theorem unsent_subset {first : FileTable} {m : Monitor} (inv : MonitorInv first m) :
    m.unsent ⊆ m.unbroadcast := by
  obtain ⟨prevDir, fileHashes, fileChangeBuf, phase, broadcasts⟩ := m
  cases phase with
  | updating done rest =>
    have whole : fileChangeBuf = done ++ rest := inv.whole done rest rfl
    change done ⊆ fileChangeBuf
    rw [whole]
    exact List.subset_append_left done rest
  | _ => exact List.nil_subset _

/-- Changes that are all repeated later may as well not have been made. -/
theorem applyChanges_of_subset {earlier changes : List FileChangeData}
    (repeated : earlier ⊆ changes) (fileHashes : FileTable) :
    applyChanges (applyChanges fileHashes earlier) changes = applyChanges fileHashes changes := by
  simp only [applyChanges_eq_patch]
  apply EditScript.patch_patch_of_subset
  intro edit isEdit
  obtain ⟨change, member, rfl⟩ := List.mem_map.mp isEdit
  exact List.mem_map_of_mem (repeated member)

theorem prevDir_step {action : MonitorAction} {m next : Monitor}
    (taken : monitorStep action m = some next) :
    next.prevDir = lastScan m.prevDir [action] := by
  cases monitorEffect_of_step taken <;> rfl

theorem prevDir_of_run {actions : List MonitorAction} : ∀ {m next : Monitor},
    Run monitorStep anyStep m actions next → next.prevDir = lastScan m.prevDir actions := by
  induction actions with
  | nil =>
    intro m next run
    cases run
    rfl
  | cons action actions ih =>
    intro m next run
    cases run with
    | cons _ taken rest =>
      rw [ih rest, prevDir_step taken]
      cases action <;> rfl

/-- Diff and patch are inverse over every chain of scans, however the changes are cut into
    batches, and at every moment the undrained changes lead from the handler's table to the
    watcher's. -/
theorem scans_drains_agree (first : FileTable) :
    (∀ (tables : List FileTable) (batches : List (List FileChangeData)),
      batches.flatten = (scanChain first tables).1 →
      batches.foldl applyChanges first = tables.getLast?.getD first) ∧
    (∀ (actions : List MonitorAction) (m : Monitor),
      Run monitorStep anyStep (Monitor.start first) actions m →
      applyChanges m.fileHashes m.undrained = m.prevDir ∧
        applyChanges (m.broadcasts.foldl applyChanges first) m.unsent = m.fileHashes ∧
        m.prevDir = lastScan first actions) := by
  constructor
  · intro tables batches cut
    rw [foldl_applyChanges, cut, applyChanges_scanChain, scanChain_snd]
  · intro actions m run
    have inv : MonitorInv first m := run.invariant
      (fun _ _ _ inv _ taken => monitorInv_step inv taken) (monitorInv_start first)
    exact ⟨inv.pending, inv.drained, prevDir_of_run run⟩

/-- A file is added, drained, and deleted again before the next drain. -/
theorem scans_drains_agree_added_deleted :
    [[⟨wide "\\a", 7, .addition⟩], [⟨wide "\\a", 0, .deletion⟩]].foldl applyChanges
      (∅ : FileTable) = ∅ ∧
    applyChanges ((∅ : FileTable).insert (wide "\\a") 7) [⟨wide "\\a", 0, .deletion⟩] = ∅ := by
  refine ⟨(scans_drains_agree ∅).1 [(∅ : FileTable).insert (wide "\\a") 7, ∅] _ (by decide), ?_⟩
  exact ((scans_drains_agree ∅).2
    [.scan ((∅ : FileTable).insert (wide "\\a") 7), .lock, .update, .broadcast, .clear, .scan ∅]
    { prevDir := ∅
      fileHashes := (∅ : FileTable).insert (wide "\\a") 7
      fileChangeBuf := [⟨wide "\\a", 0, .deletion⟩]
      phase := .idle
      broadcasts := [[⟨wide "\\a", 7, .addition⟩]] } (Run.of_exec rfl)).1

end FileSync
