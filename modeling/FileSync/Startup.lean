import FileSync.ChangeBuffer
import FileSync.Folder

/-!
# The start of the program

`Node::Node` hashes the folder into `fileHashes`; later the watcher thread hashes it again into a
table of its own, without `dirLock`, and announces only what differs from that. Both passes read
one file after the other, while the user changes files and, once the threads have started, other
threads receive and delete some.
-/

namespace FileSync

open TransitionSystem

/-- A pass over the listed files: the paths still to be hashed and the table so far. -/
structure HashPass where
  rest : List WString
  table : FileTable

/-- Where `main` is. -/
inductive MainPhase where
  | starting
  /-- In the loop of `Node::Node`. -/
  | constructing (pass : HashPass)
  /-- The four threads have been created. -/
  | running

/-- Where the watcher thread is. -/
inductive WatcherPhase where
  | starting
  /-- In the `CreateFileHashes` before the loop of `WatchDirectory`. -/
  | snapshot (pass : HashPass)
  | waiting
  /-- In `getDirectoryChanges`, with `dirLock` held. -/
  | scanning (pass : HashPass)

/-- The program from its start on, with its folder. -/
structure Startup where
  folder : Folder
  main : MainPhase
  watcher : WatcherPhase
  /-- Whether some thread holds `dirLock` in `requestFiles`. -/
  requesting : Bool
  /-- The table that `Node::Node` built. -/
  constructed : FileTable
  /-- The tables, the buffer and the drain; its `prevDir` counts from the snapshot on. -/
  monitor : Monitor

/-- The steps of `main`, of the threads and of the user. -/
inductive StartupAction where
  /-- The user writes or deletes a file. -/
  | change (path : WString) (content : Option Bytes)
  /-- `Node::Node` lists the folder, -/
  | construct
  /-- hashes a file, -/
  | constructFile
  /-- and returns, and `main` creates the threads. -/
  | run
  /-- `WatchDirectory` lists the folder, -/
  | snapshot
  | snapshotFile
  /-- and enters its loop. -/
  | watch
  /-- `WatchDirectory` gets `dirLock` and lists the folder, -/
  | scan
  | scanFile
  /-- compares, fills the buffer and releases the lock. -/
  | compare
  /-- The handler's drain takes a step. -/
  | drain (action : MonitorAction)
  /-- A thread in `requestFiles` gets `dirLock`, -/
  | request
  /-- writes or deletes files, -/
  | store (path : WString) (content : Option Bytes)
  /-- and releases the lock. -/
  | release

/-- The hash that a pass finds for a listed path. A file that is gone hashes like an empty one. -/
def Folder.hash (platform : Platform) (folder : Folder) (path : WString) : UInt64 :=
  sharedHash platform path (folder[path]?.getD [])

/-- Whether `dirLock` can be taken. -/
def Startup.lockFree (s : Startup) : Bool :=
  match s.watcher, s.monitor.phase with
  | .scanning _, _ => false
  | _, .idle => !s.requesting
  | _, _ => false

/-- One step of `main` and `Node::Node` (main.cpp 26-35, Node.cpp 6-11), of `WatchDirectory` with
    `CreateFileHashes` (DirectoryMonitor.cpp 5-67, 69-79), of the drain (Node.cpp 186-207), of a
    thread in `requestFiles` (395-427) or of the user. -/
def startupStep (platform : Platform) : StartupAction → Startup → Option Startup
  | .change path content, s => some { s with folder := s.folder.set path content }
  | .construct, s =>
    match s.main with
    | .starting => some { s with main := .constructing ⟨s.folder.keys, ∅⟩ }
    | _ => none
  | .constructFile, s =>
    match s.main with
    | .constructing ⟨path :: rest, table⟩ => some { s with
        main := .constructing ⟨rest, table.insert path (s.folder.hash platform path)⟩ }
    | _ => none
  | .run, s =>
    match s.main with
    | .constructing ⟨[], table⟩ => some { s with
        main := .running
        constructed := table
        monitor := { s.monitor with fileHashes := table } }
    | _ => none
  | .snapshot, s =>
    match s.main, s.watcher with
    | .running, .starting => some { s with watcher := .snapshot ⟨s.folder.keys, ∅⟩ }
    | _, _ => none
  | .snapshotFile, s =>
    match s.watcher with
    | .snapshot ⟨path :: rest, table⟩ => some { s with
        watcher := .snapshot ⟨rest, table.insertIfNew path (s.folder.hash platform path)⟩ }
    | _ => none
  | .watch, s =>
    match s.watcher with
    | .snapshot ⟨[], table⟩ => some { s with
        watcher := .waiting
        monitor := { s.monitor with prevDir := table } }
    | _ => none
  | .scan, s =>
    match s.watcher with
    | .waiting =>
      if s.lockFree then some { s with watcher := .scanning ⟨s.folder.keys, ∅⟩ } else none
    | _ => none
  | .scanFile, s =>
    match s.watcher with
    | .scanning ⟨path :: rest, table⟩ => some { s with
        watcher := .scanning ⟨rest, table.insertIfNew path (s.folder.hash platform path)⟩ }
    | _ => none
  | .compare, s =>
    match s.watcher with
    | .scanning ⟨[], table⟩ =>
      (monitorStep (.scan table) s.monitor).map fun monitor => { s with
        watcher := .waiting, monitor }
    | _ => none
  | .drain action, s =>
    match s.main, action with
    | .running, .lock =>
      if s.lockFree then
        (monitorStep .lock s.monitor).map fun monitor => { s with monitor }
      else none
    | .running, .scan _ => none
    | .running, action => (monitorStep action s.monitor).map fun monitor => { s with monitor }
    | _, _ => none
  | .request, s =>
    match s.main with
    | .running => if s.lockFree then some { s with requesting := true } else none
    | _ => none
  | .store path content, s =>
    if s.requesting then some { s with folder := s.folder.set path content } else none
  | .release, s => if s.requesting then some { s with requesting := false } else none

/-- `main` has made the folder and is about to construct the node. -/
def Startup.start (folder : Folder) : Startup :=
  { folder, main := .starting, watcher := .starting, requesting := false, constructed := ∅
    monitor := Monitor.start ∅ }

/-- The watcher has scanned the folder as it is, and the buffer has been drained. -/
def Startup.Scanned (platform : Platform) (s : Startup) : Prop :=
  s.watcher = .waiting ∧ s.monitor.phase = .idle ∧ s.monitor.fileChangeBuf = [] ∧
    s.monitor.prevDir = s.folder.table platform

/-- The table that other nodes get is that of the folder, and so is the one they get by
    applying what was broadcast. -/
def Startup.Advertised (platform : Platform) (s : Startup) : Prop :=
  s.monitor.fileHashes = s.folder.table platform ∧
    s.monitor.broadcasts.foldl applyChanges s.constructed = s.folder.table platform

/-- Between the listing of `Node::Node` and the loop of `WatchDirectory`. -/
def Startup.betweenBaselines (s : Startup) : Bool :=
  match s.main, s.watcher with
  | .starting, _ => false
  | _, .starting | _, .snapshot _ => true
  | _, _ => false

/-- Between the two baselines files are only changed to others with the same hashes. -/
def undisturbed (platform : Platform) (s : Startup) : StartupAction → Prop
  | .change path content | .store path content => s.betweenBaselines = true →
      (s.folder.set path content).table platform = s.folder.table platform
  | _ => True

/-! ## What each action does -/

/-- The state after an action, with what the action needs. -/
inductive StartupEffect (platform : Platform) (s : Startup) : StartupAction → Startup → Prop where
  | change (path : WString) (content : Option Bytes) :
      StartupEffect platform s (.change path content)
        { s with folder := s.folder.set path content }
  | construct : s.main = .starting →
      StartupEffect platform s .construct { s with main := .constructing ⟨s.folder.keys, ∅⟩ }
  | constructFile {path : WString} {rest : List WString} {table : FileTable} :
      s.main = .constructing ⟨path :: rest, table⟩ →
      StartupEffect platform s .constructFile { s with
        main := .constructing ⟨rest, table.insert path (s.folder.hash platform path)⟩ }
  | run {table : FileTable} : s.main = .constructing ⟨[], table⟩ →
      StartupEffect platform s .run { s with
        main := .running
        constructed := table
        monitor := { s.monitor with fileHashes := table } }
  | snapshot : s.main = .running → s.watcher = .starting →
      StartupEffect platform s .snapshot { s with watcher := .snapshot ⟨s.folder.keys, ∅⟩ }
  | snapshotFile {path : WString} {rest : List WString} {table : FileTable} :
      s.watcher = .snapshot ⟨path :: rest, table⟩ →
      StartupEffect platform s .snapshotFile { s with
        watcher := .snapshot ⟨rest, table.insertIfNew path (s.folder.hash platform path)⟩ }
  | watch {table : FileTable} : s.watcher = .snapshot ⟨[], table⟩ →
      StartupEffect platform s .watch { s with
        watcher := .waiting
        monitor := { s.monitor with prevDir := table } }
  | scan : s.watcher = .waiting →
      StartupEffect platform s .scan { s with watcher := .scanning ⟨s.folder.keys, ∅⟩ }
  | scanFile {path : WString} {rest : List WString} {table : FileTable} :
      s.watcher = .scanning ⟨path :: rest, table⟩ →
      StartupEffect platform s .scanFile { s with
        watcher := .scanning ⟨rest, table.insertIfNew path (s.folder.hash platform path)⟩ }
  | compare {table : FileTable} {monitor : Monitor} : s.watcher = .scanning ⟨[], table⟩ →
      monitorStep (.scan table) s.monitor = some monitor →
      StartupEffect platform s .compare { s with watcher := .waiting, monitor }
  | drain {action : MonitorAction} {monitor : Monitor} : s.main = .running →
      (∀ newDir, action ≠ .scan newDir) → monitorStep action s.monitor = some monitor →
      StartupEffect platform s (.drain action) { s with monitor }
  | request : StartupEffect platform s .request { s with requesting := true }
  | store (path : WString) (content : Option Bytes) :
      StartupEffect platform s (.store path content)
        { s with folder := s.folder.set path content }
  | release : StartupEffect platform s .release { s with requesting := false }

theorem startupEffect_of_step {platform : Platform} {action : StartupAction} {s next : Startup}
    (taken : startupStep platform action s = some next) :
    StartupEffect platform s action next := by
  cases action with
  | change path content =>
    cases taken
    exact .change path content
  | construct =>
    simp only [startupStep] at taken
    split at taken <;> cases taken
    exact .construct ‹_›
  | constructFile =>
    simp only [startupStep] at taken
    split at taken <;> cases taken
    exact .constructFile ‹_›
  | run =>
    simp only [startupStep] at taken
    split at taken <;> cases taken
    exact .run ‹_›
  | snapshot =>
    simp only [startupStep] at taken
    split at taken <;> cases taken
    exact .snapshot ‹_› ‹_›
  | snapshotFile =>
    simp only [startupStep] at taken
    split at taken <;> cases taken
    exact .snapshotFile ‹_›
  | watch =>
    simp only [startupStep] at taken
    split at taken <;> cases taken
    exact .watch ‹_›
  | scan =>
    simp only [startupStep] at taken
    split at taken
    · split at taken <;> cases taken
      exact .scan ‹_›
    · cases taken
  | scanFile =>
    simp only [startupStep] at taken
    split at taken <;> cases taken
    exact .scanFile ‹_›
  | compare =>
    simp only [startupStep] at taken
    split at taken
    · obtain ⟨monitor, moved, rfl⟩ := Option.map_eq_some_iff.mp taken
      exact .compare ‹_› moved
    · cases taken
  | drain action =>
    simp only [startupStep] at taken
    split at taken
    · split at taken
      · obtain ⟨monitor, moved, rfl⟩ := Option.map_eq_some_iff.mp taken
        exact .drain ‹_› nofun moved
      · cases taken
    · cases taken
    · rename_i running _ notScan
      obtain ⟨monitor, moved, rfl⟩ := Option.map_eq_some_iff.mp taken
      exact .drain running notScan moved
    · cases taken
  | request =>
    simp only [startupStep] at taken
    split at taken
    · split at taken <;> cases taken
      exact .request
    · cases taken
  | store path content =>
    simp only [startupStep] at taken
    split at taken <;> cases taken
    exact .store path content
  | release =>
    simp only [startupStep] at taken
    split at taken <;> cases taken
    exact .release

/-! ## A pass over an unchanged folder -/

/-- The pass finds the entries of the table: those of the hashed paths are there, and those of
    the other paths are still to come. -/
structure HashPass.Tracks (pass : HashPass) (table : FileTable) : Prop where
  done : ∀ path, path ∉ pass.rest → pass.table[path]? = table[path]?
  listed : ∀ path ∈ pass.rest, ∃ hash, table[path]? = some hash
  fresh : ∀ path ∈ pass.rest, pass.table[path]? = none
  nodup : pass.rest.Nodup

theorem tracks_start (platform : Platform) (folder : Folder) :
    HashPass.Tracks ⟨folder.keys, ∅⟩ (folder.table platform) where
  done := fun path unlisted => by
    have absent : folder[path]? = none := by
      rw [Std.ExtTreeMap.mem_keys, Std.ExtTreeMap.mem_iff_isSome_getElem?] at unlisted
      simpa using unlisted
    rw [table_getElem?, absent]
    rfl
  listed := fun path member => by
    rw [Std.ExtTreeMap.mem_keys, Std.ExtTreeMap.mem_iff_isSome_getElem?,
      Option.isSome_iff_exists] at member
    obtain ⟨bytes, found⟩ := member
    exact ⟨sharedHash platform path bytes, by rw [table_getElem?, found]; rfl⟩
  fresh := fun _ _ => rfl
  nodup := Std.ExtTreeMap.nodup_keys

theorem insertIfNew_eq_insert {table : FileTable} {path : WString} (hash : UInt64)
    (fresh : table[path]? = none) : table.insertIfNew path hash = table.insert path hash := by
  have absent : path ∉ table := by
    rw [Std.ExtTreeMap.mem_iff_isSome_getElem?, fresh]
    exact Bool.false_ne_true
  apply Std.ExtTreeMap.ext_getElem?
  intro other
  simp [Std.ExtTreeMap.getElem?_insertIfNew, Std.ExtTreeMap.getElem?_insert, absent]

/-- A pass that hashes its next file tracks the table of the folder as before. -/
theorem tracks_insert {platform : Platform} {folder : Folder} {path : WString}
    {rest : List WString} {table : FileTable}
    (tracks : HashPass.Tracks ⟨path :: rest, table⟩ (folder.table platform)) :
    HashPass.Tracks ⟨rest, table.insert path (folder.hash platform path)⟩
      (folder.table platform) := by
  obtain ⟨done, listed, fresh, nodup⟩ := tracks
  obtain ⟨unlisted, nodup⟩ := List.nodup_cons.mp nodup
  refine ⟨fun other unlistedOther => ?_, fun other member => ?_, fun other member => ?_, nodup⟩
  · rw [Std.ExtTreeMap.getElem?_insert]
    by_cases same : path = other
    · subst same
      obtain ⟨hash, found⟩ := listed path List.mem_cons_self
      rw [table_getElem?] at found ⊢
      obtain ⟨bytes, held, _⟩ := Option.map_eq_some_iff.mp found
      simp [Folder.hash, held]
    · have differ : other ∉ path :: rest := by simp [Ne.symm same, unlistedOther]
      simpa [same] using done other differ
  · exact listed other (List.mem_cons_of_mem _ member)
  · have differ : path ≠ other := by
      rintro rfl
      exact unlisted member
    simpa [Std.ExtTreeMap.getElem?_insert, differ] using
      fresh other (List.mem_cons_of_mem _ member)

theorem tracks_insertIfNew {platform : Platform} {folder : Folder} {path : WString}
    {rest : List WString} {table : FileTable}
    (tracks : HashPass.Tracks ⟨path :: rest, table⟩ (folder.table platform)) :
    HashPass.Tracks ⟨rest, table.insertIfNew path (folder.hash platform path)⟩
      (folder.table platform) := by
  rw [insertIfNew_eq_insert _ (tracks.fresh path List.mem_cons_self)]
  exact tracks_insert tracks

theorem tracks_end {found table : FileTable} (tracks : HashPass.Tracks ⟨[], found⟩ table) :
    found = table := by
  apply Std.ExtTreeMap.ext_getElem?
  intro path
  exact tracks.done path List.not_mem_nil

/-! ## The loop of the watcher -/

/-- The threads run, and the watcher is in its loop. -/
structure Startup.InLoop (s : Startup) : Prop where
  running : s.main = .running
  watcher : s.watcher = .waiting ∨ ∃ pass, s.watcher = .scanning pass

theorem inLoop_step {platform : Platform} {action : StartupAction} {s next : Startup}
    (inLoop : s.InLoop) (taken : startupStep platform action s = some next) :
    next.InLoop ∧ (MonitorInv s.constructed s.monitor →
      MonitorInv next.constructed next.monitor) := by
  obtain ⟨running, watches⟩ := inLoop
  cases startupEffect_of_step taken with
  | construct isMain => cases isMain.symm.trans running
  | constructFile isMain => cases isMain.symm.trans running
  | run isMain => cases isMain.symm.trans running
  | snapshot _ isWatcher => simp [isWatcher] at watches
  | snapshotFile isWatcher => simp [isWatcher] at watches
  | watch isWatcher => simp [isWatcher] at watches
  | scan => exact ⟨⟨running, Or.inr ⟨_, rfl⟩⟩, id⟩
  | scanFile => exact ⟨⟨running, Or.inr ⟨_, rfl⟩⟩, id⟩
  | compare _ moved => exact ⟨⟨running, Or.inl rfl⟩, fun inv => monitorInv_step inv moved⟩
  | drain _ _ moved => exact ⟨⟨running, watches⟩, fun inv => monitorInv_step inv moved⟩
  | change | store | request | release => exact ⟨⟨running, watches⟩, id⟩

theorem advertised_of_scanned {platform : Platform} {s : Startup}
    (inv : MonitorInv s.constructed s.monitor) (scanned : s.Scanned platform) :
    s.Advertised platform := by
  obtain ⟨-, idle, empty, table⟩ := scanned
  have pending := inv.pending
  have drained := inv.drained
  rw [Monitor.undrained, idle] at pending
  rw [Monitor.unsent, idle] at drained
  simp only [empty] at pending drained
  exact ⟨pending.trans table, drained.trans (pending.trans table)⟩

/-! ## Before the loop of the watcher -/

/-- The tables and the buffer as long as there has been no scan. -/
def Startup.unscanned (s : Startup) : Monitor :=
  { Monitor.start ∅ with fileHashes := s.constructed }

/-- Each hash is that of some content of its path. -/
def Realizable (platform : Platform) (table : FileTable) : Prop :=
  ∀ path hash, table[path]? = some hash → ∃ bytes, sharedHash platform path bytes = hash

/-- Where the program is until the watcher enters its loop. -/
structure Startup.BeforeLoop (platform : Platform) (s : Startup) : Prop where
  watcher : (s.watcher = .starting ∨ s.main = .running ∧ ∃ pass, s.watcher = .snapshot pass)
  monitor : s.monitor = s.unscanned
  realizable : ∀ pass, s.watcher = .snapshot pass → Realizable platform pass.table

theorem realizable_insertIfNew {platform : Platform} {table : FileTable}
    (realizable : Realizable platform table) (folder : Folder) (path : WString) :
    Realizable platform (table.insertIfNew path (folder.hash platform path)) := by
  intro other hash found
  rw [Std.ExtTreeMap.getElem?_insertIfNew] at found
  split at found
  · rename_i inserted
    obtain ⟨same, -⟩ := inserted
    cases found
    cases Std.LawfulEqCmp.eq_of_compare same
    exact ⟨_, rfl⟩
  · exact realizable other hash found

theorem beforeLoop_start (platform : Platform) (folder : Folder) :
    (Startup.start folder).BeforeLoop platform where
  watcher := Or.inl rfl
  monitor := rfl
  realizable := fun _ isWatcher => by cases isWatcher

/-- With nothing buffered the drain takes no step. -/
theorem drain_of_unscanned {action : MonitorAction} {s : Startup} {monitor : Monitor}
    (unscanned : s.monitor = s.unscanned) (drains : ∀ newDir, action ≠ .scan newDir) :
    monitorStep action s.monitor ≠ some monitor := by
  intro moved
  rw [unscanned] at moved
  cases monitorEffect_of_step moved with
  | scan newDir => exact drains newDir rfl
  | lock _ nonempty => exact nonempty rfl
  | update updating => cases updating
  | broadcast updating => cases updating
  | clear sent => cases sent

theorem beforeLoop_step {platform : Platform} {action : StartupAction} {s next : Startup}
    (before : s.BeforeLoop platform) (taken : startupStep platform action s = some next)
    (stays : action ≠ .watch) : next.BeforeLoop platform := by
  obtain ⟨watches, unscanned, realizable⟩ := before
  cases startupEffect_of_step taken with
  | construct isMain =>
    simp only [isMain, reduceCtorEq, false_and, or_false] at watches
    exact ⟨Or.inl watches, unscanned, realizable⟩
  | constructFile isMain =>
    simp only [isMain, reduceCtorEq, false_and, or_false] at watches
    exact ⟨Or.inl watches, unscanned, realizable⟩
  | run isMain =>
    simp only [isMain, reduceCtorEq, false_and, or_false] at watches
    refine ⟨Or.inl watches, ?_, realizable⟩
    simp only [unscanned]
    rfl
  | snapshot running isWatcher =>
    refine ⟨Or.inr ⟨running, _, rfl⟩, unscanned, fun pass same => ?_⟩
    cases same
    exact fun path hash found => by cases found
  | snapshotFile isWatcher =>
    simp only [isWatcher, reduceCtorEq, false_or] at watches
    refine ⟨Or.inr ⟨watches.1, _, rfl⟩, unscanned, fun pass same => ?_⟩
    cases same
    exact realizable_insertIfNew (realizable _ isWatcher) _ _
  | watch => exact absurd rfl stays
  | scan isWatcher => simp [isWatcher] at watches
  | scanFile isWatcher => simp [isWatcher] at watches
  | compare isWatcher => simp [isWatcher] at watches
  | drain _ drains moved => exact absurd moved (drain_of_unscanned unscanned drains)
  | change | store | request | release => exact ⟨watches, unscanned, realizable⟩

/-- When the watcher enters its loop, its table is the one of its pass. -/
theorem inLoop_watch {platform : Platform} {s next : Startup} (before : s.BeforeLoop platform)
    (taken : startupStep platform .watch s = some next) :
    next.InLoop ∧ next.watcher = .waiting ∧ Realizable platform next.monitor.prevDir ∧
      next.monitor = { next.unscanned with prevDir := next.monitor.prevDir } := by
  obtain ⟨watches, unscanned, realizable⟩ := before
  cases startupEffect_of_step taken with
  | watch isWatcher =>
    simp only [isWatcher, reduceCtorEq, false_or] at watches
    refine ⟨⟨watches.1, Or.inl rfl⟩, rfl, realizable _ isWatcher, ?_⟩
    simp only [unscanned]
    rfl

theorem before_or_inLoop_step {platform : Platform} {action : StartupAction} {s next : Startup}
    (phase : s.BeforeLoop platform ∨ s.InLoop)
    (taken : startupStep platform action s = some next) :
    next.BeforeLoop platform ∨ next.InLoop := by
  rcases phase with before | inLoop
  · by_cases watch : action = .watch
    · subst watch
      exact Or.inr (inLoop_watch before taken).1
    · exact Or.inl (beforeLoop_step before taken watch)
  · exact Or.inr (inLoop_step inLoop taken).1

/-- The state in which the watcher has just entered its loop. -/
theorem watched_of_run {platform : Platform} {folder : Folder} {actions : List StartupAction}
    {s : Startup} (run : Run (startupStep platform) anyStep (Startup.start folder)
      (actions ++ [.watch]) s) :
    s.InLoop ∧ s.watcher = .waiting ∧ Realizable platform s.monitor.prevDir ∧
      s.monitor = { s.unscanned with prevDir := s.monitor.prevDir } := by
  obtain ⟨before, earlier, last⟩ := run.split
  have phase : before.BeforeLoop platform ∨ before.InLoop :=
    earlier.invariant (fun _ _ _ phase _ taken => before_or_inLoop_step phase taken)
      (Or.inl (beforeLoop_start platform folder))
  cases last with
  | cons _ taken rest =>
    cases rest
    rcases phase with before | inLoop
    · exact inLoop_watch before taken
    · cases startupEffect_of_step taken with
      | watch isWatcher =>
        have watches := inLoop.watcher
        simp [isWatcher] at watches

/-! ## Runs without a change between the baselines -/

/-- Both passes find the table of the folder. -/
structure Startup.Tracking (platform : Platform) (s : Startup) : Prop where
  constructing : ∀ pass, s.main = .constructing pass → pass.Tracks (s.folder.table platform)
  constructed : s.main = .running → s.constructed = s.folder.table platform
  snapshot : ∀ pass, s.watcher = .snapshot pass → pass.Tracks (s.folder.table platform)

theorem tracking_folder {platform : Platform} {s : Startup} {folder : Folder}
    (before : s.BeforeLoop platform) (tracking : s.Tracking platform)
    (kept : s.betweenBaselines = true → folder.table platform = s.folder.table platform) :
    Startup.Tracking platform { s with folder } := by
  have phase : (s.main = .starting ∧ s.watcher = .starting) ∨ s.betweenBaselines = true := by
    rcases before.watcher with starting | ⟨running, pass, isWatcher⟩
    · cases isMain : s.main with
      | starting => exact Or.inl ⟨rfl, starting⟩
      | _ => exact Or.inr (by simp [Startup.betweenBaselines, isMain, starting])
    · exact Or.inr (by simp [Startup.betweenBaselines, running, isWatcher])
  rcases phase with ⟨isMain, isWatcher⟩ | between
  · refine ⟨fun pass same => ?_, fun running => ?_, fun pass same => ?_⟩
    · cases isMain.symm.trans same
    · cases isMain.symm.trans running
    · cases isWatcher.symm.trans same
  · have table := kept between
    refine ⟨fun pass isMain => ?_, fun running => ?_, fun pass isWatcher => ?_⟩
    · exact table.symm ▸ tracking.constructing pass isMain
    · exact table.symm ▸ tracking.constructed running
    · exact table.symm ▸ tracking.snapshot pass isWatcher

theorem tracking_step {platform : Platform} {action : StartupAction} {s next : Startup}
    (before : s.BeforeLoop platform) (tracking : s.Tracking platform)
    (quiet : undisturbed platform s action)
    (taken : startupStep platform action s = some next) : next.Tracking platform := by
  obtain ⟨constructing, constructed, snapshot⟩ := tracking
  cases startupEffect_of_step taken with
  | change | store => exact tracking_folder before ⟨constructing, constructed, snapshot⟩ quiet
  | construct isMain =>
    refine ⟨fun pass same => ?_, nofun, snapshot⟩
    cases same
    exact tracks_start platform s.folder
  | constructFile isMain =>
    refine ⟨fun pass same => ?_, nofun, snapshot⟩
    cases same
    exact tracks_insert (constructing _ isMain)
  | run isMain => exact ⟨nofun, fun _ => tracks_end (constructing _ isMain), snapshot⟩
  | snapshot =>
    refine ⟨constructing, constructed, fun pass same => ?_⟩
    cases same
    exact tracks_start platform s.folder
  | snapshotFile isWatcher =>
    refine ⟨constructing, constructed, fun pass same => ?_⟩
    cases same
    exact tracks_insertIfNew (snapshot _ isWatcher)
  | watch => exact ⟨constructing, constructed, nofun⟩
  | scan => exact ⟨constructing, constructed, nofun⟩
  | scanFile => exact ⟨constructing, constructed, nofun⟩
  | compare => exact ⟨constructing, constructed, nofun⟩
  | drain | request | release => exact ⟨constructing, constructed, snapshot⟩

/-- The watcher enters its loop with the table of `Node::Node` if no change came between. -/
theorem prevDir_of_tracking {platform : Platform} {s next : Startup}
    (before : s.BeforeLoop platform) (tracking : s.Tracking platform)
    (taken : startupStep platform .watch s = some next) :
    next.monitor.prevDir = next.constructed := by
  cases startupEffect_of_step taken with
  | watch isWatcher =>
    rcases before.watcher with starting | ⟨running, _⟩
    · cases starting.symm.trans isWatcher
    · exact (tracks_end (tracking.snapshot _ isWatcher)).trans (tracking.constructed running).symm

theorem monitorInv_of_watched {s : Startup}
    (agree : s.monitor.prevDir = s.constructed)
    (entered : s.monitor = { s.unscanned with prevDir := s.monitor.prevDir }) :
    MonitorInv s.constructed s.monitor := by
  rw [entered, agree]
  exact monitorInv_start s.constructed

theorem inv_of_undisturbed {platform : Platform} {folder : Folder}
    {actions : List StartupAction} {s : Startup}
    (run : Run (startupStep platform) (undisturbed platform) (Startup.start folder) actions s) :
    (s.BeforeLoop platform ∧ s.Tracking platform) ∨
      s.InLoop ∧ MonitorInv s.constructed s.monitor := by
  have start : (Startup.start folder).BeforeLoop platform ∧
      (Startup.start folder).Tracking platform :=
    ⟨beforeLoop_start platform folder, nofun, nofun, nofun⟩
  have preserved : ∀ s action next, ((s.BeforeLoop platform ∧ s.Tracking platform) ∨
      s.InLoop ∧ MonitorInv s.constructed s.monitor) → undisturbed platform s action →
      startupStep platform action s = some next →
      (next.BeforeLoop platform ∧ next.Tracking platform) ∨
        next.InLoop ∧ MonitorInv next.constructed next.monitor := by
    rintro s action next (⟨before, tracking⟩ | ⟨inLoop, inv⟩) quiet taken
    · by_cases watch : action = .watch
      · subst watch
        obtain ⟨inLoop, -, -, entered⟩ := inLoop_watch before taken
        exact Or.inr ⟨inLoop, monitorInv_of_watched
          (prevDir_of_tracking before tracking taken) entered⟩
      · exact Or.inl ⟨beforeLoop_step before taken watch,
          tracking_step before tracking quiet taken⟩
    · exact Or.inr ⟨(inLoop_step inLoop taken).1, (inLoop_step inLoop taken).2 inv⟩
  exact run.invariant preserved (Or.inl start)

/-! ## Baselines that differ -/

theorem exists_folder {platform : Platform} {table : FileTable}
    (realizable : Realizable platform table) :
    ∃ folder : Folder, folder.table platform = table := by
  classical
  refine ⟨table.map fun path hash =>
    if known : ∃ bytes, sharedHash platform path bytes = hash then known.choose else [], ?_⟩
  apply Std.ExtTreeMap.ext_getElem?
  intro path
  rw [table_getElem?, Std.ExtTreeMap.getElem?_map]
  cases found : table[path]? with
  | none => rfl
  | some hash =>
    have known := realizable path hash found
    simp only [Option.map_some, dif_pos known, known.choose_spec]

theorem set_eq_applyEdit (folder : Folder) (path : WString) (content : Option Bytes) :
    folder.set path content = EditScript.applyEdit folder (path, content) := by
  cases content <;> rfl

theorem changes_run {platform : Platform} (script : List (EditScript.Edit WString Bytes)) :
    ∀ s : Startup, Run (startupStep platform) anyStep s
      (script.map fun edit => .change edit.1 edit.2)
      { s with folder := EditScript.patch s.folder script } := by
  induction script with
  | nil => exact fun s => .nil s
  | cons edit script ih =>
    intro s
    have rest := ih { s with folder := s.folder.set edit.1 edit.2 }
    simp only [set_eq_applyEdit] at rest
    exact .cons trivial (by simp only [startupStep, set_eq_applyEdit]) rest

/-- The user can change the files so that the folder becomes any other. -/
theorem folder_reached {platform : Platform} (s : Startup) (folder : Folder) :
    Reaches (startupStep platform) s { s with folder } := by
  have script : EditScript.patch s.folder
      ((s.folder.keys ++ folder.keys).map fun path => (path, folder[path]?)) = folder := by
    apply EditScript.patch_eq_of_correct
    · intro edit member
      obtain ⟨path, -, rfl⟩ := List.mem_map.mp member
      rfl
    · intro path unmentioned
      have absent : path ∉ s.folder.keys ++ folder.keys := fun listed =>
        unmentioned _ (List.mem_map.mpr ⟨path, listed, rfl⟩)
      simp only [List.mem_append, Std.ExtTreeMap.mem_keys, not_or] at absent
      rw [Std.ExtTreeMap.getElem?_eq_none absent.1, Std.ExtTreeMap.getElem?_eq_none absent.2]
  have run : Run (startupStep platform) anyStep s _ _ :=
    changes_run ((s.folder.keys ++ folder.keys).map fun path => (path, folder[path]?)) s
  rw [script] at run
  exact ⟨_, run⟩

/-! ## The advertised table -/

/-- When the watcher enters its loop, then in all later states in which it has scanned the
    folder as it is and the buffer has been drained the advertised table is the folder's, exactly
    if its table agrees with that of `Node::Node`. It does if in between no file was changed to
    one with another hash. -/
theorem advertised_iff (platform : Platform) (folder : Folder) :
    (∀ actions s,
      Run (startupStep platform) anyStep (Startup.start folder) (actions ++ [.watch]) s →
      ((∀ t, Reaches (startupStep platform) s t → t.Scanned platform → t.Advertised platform) ↔
        s.monitor.prevDir = s.constructed)) ∧
    (∀ actions t,
      Run (startupStep platform) (undisturbed platform) (Startup.start folder) actions t →
      t.Scanned platform → t.Advertised platform) := by
  constructor
  · intro actions s run
    obtain ⟨inLoop, waiting, realizable, entered⟩ := watched_of_run run
    constructor
    · intro advertised
      -- the user makes the folder what the watcher's pass has found
      obtain ⟨seen, table⟩ := exists_folder realizable
      have scanned : Startup.Scanned platform { s with folder := seen } := by
        refine ⟨waiting, ?_, ?_, table.symm⟩
        · change s.monitor.phase = .idle
          rw [entered]
          rfl
        · change s.monitor.fileChangeBuf = []
          rw [entered]
          rfl
      have hashes : s.monitor.fileHashes = s.constructed := by
        rw [entered]
        rfl
      exact table.symm.trans ((advertised _ (folder_reached s seen) scanned).1.symm.trans hashes)
    · intro agree t reaches scanned
      have start : s.InLoop ∧ MonitorInv s.constructed s.monitor :=
        ⟨inLoop, monitorInv_of_watched agree entered⟩
      have preserved : ∀ s action next, (s.InLoop ∧ MonitorInv s.constructed s.monitor) →
          startupStep platform action s = some next →
          next.InLoop ∧ MonitorInv next.constructed next.monitor :=
        fun _ _ _ inv taken => ⟨(inLoop_step inv.1 taken).1, (inLoop_step inv.1 taken).2 inv.2⟩
      exact advertised_of_scanned (reaches.invariant preserved start).2 scanned
  · intro actions t run scanned
    rcases inv_of_undisturbed run with ⟨before, -⟩ | ⟨-, inv⟩
    · rcases before.watcher with starting | ⟨-, pass, snapshot⟩
      · cases starting.symm.trans scanned.1
      · cases snapshot.symm.trans scanned.1
    · exact advertised_of_scanned inv scanned

/-- A file that is added after the watcher has entered its loop. -/
theorem advertised_iff_added : ∃ t : Startup,
    t.folder = Folder.set ∅ (wide "\\a") (some [1]) ∧ t.Advertised .win32 := by
  have run : Run (startupStep .win32) anyStep (Startup.start ∅)
      ([.construct, .run, .snapshot] ++ [.watch])
      { Startup.start ∅ with main := .running, watcher := .waiting } := Run.of_exec rfl
  have later : Run (startupStep .win32) anyStep
      { Startup.start ∅ with main := .running, watcher := .waiting }
      [.change (wide "\\a") (some [1]), .scan, .scanFile, .compare, .drain .lock,
        .drain .update, .drain .broadcast, .drain .clear] _ := Run.of_exec rfl
  exact ⟨_, rfl, ((advertised_iff .win32 ∅).1 _ _ run).mpr rfl _ later.reaches
    ⟨rfl, rfl, rfl, rfl⟩⟩

/-- A file that is added after `Node::Node` and before the watcher's first pass is never
    announced, and it is missing from the advertised table. -/
theorem added_between_baselines : ∃ s : Startup,
    Run (startupStep .win32) anyStep (Startup.start ∅)
      [.construct, .run, .change (wide "\\a") (some [1]), .snapshot, .snapshotFile, .watch] s ∧
    s.Scanned .win32 ∧ (s.folder.table .win32)[wide "\\a"]? ≠ none ∧
    s.monitor.fileHashes[wide "\\a"]? = none ∧ s.monitor.broadcasts = [] := by
  refine ⟨_, Run.of_exec rfl, ⟨rfl, rfl, rfl, ?_⟩, ?_, rfl, rfl⟩
  · rfl
  · decide

end FileSync
