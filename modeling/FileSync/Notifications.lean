import FileSync.Startup

/-!
# The change notification of the watcher

`WatchDirectory` opens a change notification before its first pass, and in its loop it first waits
for the notification, then renews it and only then scans the folder. While a scan is under way and
before the notification is renewed more files can change.
-/

namespace FileSync

open TransitionSystem

/-- The handles for change notifications of the operating system, and what its documentation says
    about the functions that `WatchDirectory` calls. -/
structure ChangeNotification where
  Handle : Type
  /-- What `FindFirstChangeNotification` returns for the folder. -/
  first : Handle
  /-- `INVALID_HANDLE_VALUE`, which it returns when it fails. -/
  invalid : Handle
  /-- A file of the folder is changed. -/
  change : Handle → Handle
  /-- `WaitForSingleObject` returns. -/
  signaled : Handle → Bool
  /-- After `FindNextChangeNotification`. -/
  next : Handle → Handle
  /-- After a `FindNextChangeNotification` that fails. -/
  failNext : Handle → Handle
  /-- The handle is one for the folder, and each call for it has succeeded. -/
  Watches : Handle → Prop
  watches_first : Watches first
  watches_change : ∀ handle, Watches handle → Watches (change handle)
  watches_next : ∀ handle, Watches handle → Watches (next handle)
  /-- A change satisfies the wait. -/
  signaled_change : ∀ handle, Watches handle → signaled (change handle) = true
  /-- The changes that are recorded while the handle is signaled satisfy one more wait. -/
  signaled_next : ∀ handle, Watches handle → signaled handle = true →
    signaled (next handle) = true → signaled (next (next handle)) = false
  /-- The value also stands for the own process, and a wait for this returns when it ends. -/
  signaled_invalid : signaled invalid = false
  change_invalid : change invalid = invalid

/-- Where a round of the loop of `WatchDirectory` is before its scan. -/
inductive WaitStage where
  | waiting
  /-- `WaitForSingleObject` has returned. -/
  | woken
  /-- `FindNextChangeNotification` has returned. -/
  | renewed
  deriving DecidableEq

/-- The program with the watcher's notification. -/
structure Watching (notification : ChangeNotification) where
  startup : Startup
  /-- What `FindFirstChangeNotification` has returned, and what became of it. -/
  handle : Option notification.Handle
  stage : WaitStage

/-- The calls of `WatchDirectory` for its notification, and all other steps. -/
inductive WatchingAction where
  /-- `FindFirstChangeNotification` -/
  | findFirst (succeeds : Bool)
  /-- `WaitForSingleObject` returns. -/
  | wait
  /-- `FindNextChangeNotification`; the loop goes on if it fails. -/
  | findNext (succeeds : Bool)
  /-- Any other step of the program or of the user. -/
  | act (action : StartupAction)

variable {notification : ChangeNotification}

/-- The place of the calls between the other steps of the watcher. -/
def Watching.inOrder (s : Watching notification) : StartupAction → Bool
  | .snapshot => s.handle.isSome
  | .scan => s.stage == .renewed
  | _ => true

/-- One step of `WatchDirectory` (DirectoryMonitor.cpp 5-67), of the other threads or of the user.
    The handle is compared with `NULL` only. -/
def watchingStep (platform : Platform) (notification : ChangeNotification) :
    WatchingAction → Watching notification → Option (Watching notification)
  | .findFirst succeeds, s =>
    match s.startup.main, s.startup.watcher, s.handle with
    | .running, .starting, none => some { s with
        handle := some (if succeeds then notification.first else notification.invalid) }
    | _, _, _ => none
  | .wait, s =>
    match s.startup.watcher, s.stage, s.handle with
    | .waiting, .waiting, some handle =>
      if notification.signaled handle then some { s with stage := .woken } else none
    | _, _, _ => none
  | .findNext succeeds, s =>
    match s.stage with
    | .woken => some { s with
        handle := s.handle.map fun handle =>
          if succeeds then notification.next handle else notification.failNext handle
        stage := .renewed }
    | _ => none
  | .act action, s =>
    if s.inOrder action then
      (startupStep platform action s.startup).map fun startup =>
        match action with
        | .change _ _ | .store _ _ =>
          { s with startup, handle := s.handle.map notification.change }
        | .compare => { s with startup, stage := .waiting }
        | _ => { s with startup }
    else none

/-- The program is about to start, and nothing is watched. -/
def Watching.start (notification : ChangeNotification) (folder : Folder) :
    Watching notification where
  startup := .start folder
  handle := none
  stage := .waiting

/-- The watcher is in `WaitForSingleObject`, which does not return. -/
def Watching.Asleep (s : Watching notification) : Prop :=
  s.startup.watcher = .waiting ∧ s.stage = .waiting ∧ s.handle.any notification.signaled = false

/-- The calls for the notification succeed. -/
def renewing (_ : Watching notification) : WatchingAction → Prop
  | .findFirst succeeds | .findNext succeeds => succeeds = true
  | _ => True

/-! ## What each action does -/

/-- The state after an action, with what the action needs. -/
inductive WatchingEffect (platform : Platform) (s : Watching notification) :
    WatchingAction → Watching notification → Prop where
  | findFirst (succeeds : Bool) : s.startup.main = .running → s.startup.watcher = .starting →
      s.handle = none → WatchingEffect platform s (.findFirst succeeds) { s with
        handle := some (if succeeds then notification.first else notification.invalid) }
  | wait {handle : notification.Handle} : s.startup.watcher = .waiting → s.stage = .waiting →
      s.handle = some handle → notification.signaled handle = true →
      WatchingEffect platform s .wait { s with stage := .woken }
  | findNext (succeeds : Bool) : s.stage = .woken → WatchingEffect platform s (.findNext succeeds)
      { s with
        handle := s.handle.map fun handle =>
          if succeeds then notification.next handle else notification.failNext handle
        stage := .renewed }
  | change (path : WString) (content : Option Bytes) (action : StartupAction) :
      action = .change path content ∨ action = .store path content →
      WatchingEffect platform s (.act action) { s with
        startup := { s.startup with folder := s.startup.folder.set path content }
        handle := s.handle.map notification.change }
  | compare {startup : Startup} : StartupEffect platform s.startup .compare startup →
      WatchingEffect platform s (.act .compare) { s with startup, stage := .waiting }
  | act {action : StartupAction} {startup : Startup} : s.inOrder action = true →
      StartupEffect platform s.startup action startup →
      (∀ path content, action ≠ .change path content ∧ action ≠ .store path content) →
      action ≠ .compare → WatchingEffect platform s (.act action) { s with startup }

theorem watchingEffect_of_step {platform : Platform} {action : WatchingAction}
    {s next : Watching notification}
    (taken : watchingStep platform notification action s = some next) :
    WatchingEffect platform s action next := by
  cases action with
  | findFirst succeeds =>
    simp only [watchingStep] at taken
    split at taken <;> cases taken
    exact .findFirst succeeds ‹_› ‹_› ‹_›
  | wait =>
    simp only [watchingStep] at taken
    split at taken
    · split at taken <;> cases taken
      exact .wait ‹_› ‹_› ‹_› ‹_›
    · cases taken
  | findNext succeeds =>
    simp only [watchingStep] at taken
    split at taken <;> cases taken
    exact .findNext succeeds ‹_›
  | act action =>
    rw [watchingStep] at taken
    split at taken
    · rename_i inOrder
      obtain ⟨startup, moved, rfl⟩ := Option.map_eq_some_iff.mp taken
      have effect := startupEffect_of_step moved
      cases action with
      | change path content =>
        cases effect
        exact .change path content _ (Or.inl rfl)
      | store path content =>
        cases effect
        exact .change path content _ (Or.inr rfl)
      | compare => exact .compare effect
      | _ => exact .act inOrder effect (by simp) (by simp)
    · cases taken

/-! ## What the watcher knows -/

/-- As long as no change is signaled, a pass under way sees one folder, and the watcher sleeps with
    the table of the folder. -/
structure Watching.Quiet (platform : Platform) (s : Watching notification) : Prop where
  snapshot : ∀ pass, s.startup.watcher = .snapshot pass →
    pass.Tracks (s.startup.folder.table platform)
  scanning : ∀ pass, s.startup.watcher = .scanning pass →
    pass.Tracks (s.startup.folder.table platform)
  waiting : s.startup.watcher = .waiting → s.stage = .waiting →
    s.startup.monitor.prevDir = s.startup.folder.table platform

/-- The handle is one for the folder from before the first table on, the stage fits the watcher,
    and what the handle has not signaled is in the watcher's table. -/
structure Watching.Inv (platform : Platform) (s : Watching notification) : Prop where
  closed : s.handle = none → s.startup.watcher = .starting
  watches : ∀ handle, s.handle = some handle → notification.Watches handle
  early : (s.startup.watcher = .starting ∨ ∃ pass, s.startup.watcher = .snapshot pass) →
    s.stage = .waiting
  woken : s.stage = .woken → s.startup.watcher = .waiting
  quiet : s.handle.any notification.signaled = false → s.Quiet platform

theorem watchingInv_start (platform : Platform) (folder : Folder) :
    (Watching.start notification folder).Inv platform where
  closed := fun _ => rfl
  watches := nofun
  early := fun _ => rfl
  woken := nofun
  quiet := fun _ => ⟨nofun, nofun, nofun⟩

/-- While there is no handle the watcher has not begun. -/
theorem quiet_of_starting {platform : Platform} {s : Watching notification}
    (starting : s.startup.watcher = .starting) : s.Quiet platform where
  snapshot := fun _ same => by cases starting.symm.trans same
  scanning := fun _ same => by cases starting.symm.trans same
  waiting := fun same => by cases starting.symm.trans same

/-- A step that leaves the folder alone keeps what the watcher knows. -/
theorem quiet_startup {platform : Platform} {s : Watching notification} {action : StartupAction}
    {startup : Startup} (quiet : s.Quiet platform)
    (effect : StartupEffect platform s.startup action startup)
    (other : ∀ path content, action ≠ .change path content ∧ action ≠ .store path content)
    (notCompare : action ≠ .compare) : Watching.Quiet platform { s with startup } := by
  obtain ⟨snapshot, scanning, waiting⟩ := quiet
  cases effect with
  | change path content => exact absurd rfl (other path content).1
  | store path content => exact absurd rfl (other path content).2
  | compare => exact absurd rfl notCompare
  | construct | constructFile | run | request | release => exact ⟨snapshot, scanning, waiting⟩
  | snapshot =>
    refine ⟨fun pass same => ?_, nofun, nofun⟩
    cases same
    exact tracks_start platform s.startup.folder
  | snapshotFile isWatcher =>
    refine ⟨fun pass same => ?_, nofun, nofun⟩
    cases same
    exact tracks_insertIfNew (snapshot _ isWatcher)
  | watch isWatcher => exact ⟨nofun, nofun, fun _ _ => tracks_end (snapshot _ isWatcher)⟩
  | scan =>
    refine ⟨nofun, fun pass same => ?_, nofun⟩
    cases same
    exact tracks_start platform s.startup.folder
  | scanFile isWatcher =>
    refine ⟨nofun, fun pass same => ?_, nofun⟩
    cases same
    exact tracks_insertIfNew (scanning _ isWatcher)
  | drain _ drains moved =>
    refine ⟨snapshot, scanning, fun isWatcher stage => ?_⟩
    rw [← waiting isWatcher stage]
    cases monitorEffect_of_step moved with
    | scan newDir => exact absurd rfl (drains newDir)
    | _ => rfl

/-- A step other than a scan leaves the watcher in its loop. -/
theorem waiting_startup {platform : Platform} {s startup : Startup} {action : StartupAction}
    (effect : StartupEffect platform s action startup) (waiting : s.watcher = .waiting)
    (other : action ≠ .scan) : startup.watcher = .waiting := by
  cases effect with
  | snapshot _ starting => cases starting.symm.trans waiting
  | snapshotFile isWatcher | watch isWatcher | scanFile isWatcher | compare isWatcher =>
    cases isWatcher.symm.trans waiting
  | scan => exact absurd rfl other
  | _ => exact waiting

/-- The watcher does not begin without a handle. -/
theorem starting_startup {platform : Platform} {s startup : Startup} {action : StartupAction}
    (effect : StartupEffect platform s action startup) (starting : s.watcher = .starting)
    (other : action ≠ .snapshot) : startup.watcher = .starting := by
  cases effect with
  | snapshot => exact absurd rfl other
  | snapshotFile isWatcher | watch isWatcher | scan isWatcher | scanFile isWatcher
    | compare isWatcher => cases isWatcher.symm.trans starting
  | _ => exact starting

/-- The watcher does not go back to before its loop. -/
theorem early_startup {platform : Platform} {s startup : Startup} {action : StartupAction}
    (effect : StartupEffect platform s action startup)
    (early : startup.watcher = .starting ∨ ∃ pass, startup.watcher = .snapshot pass) :
    s.watcher = .starting ∨ ∃ pass, s.watcher = .snapshot pass := by
  cases effect with
  | snapshot _ starting => exact Or.inl starting
  | snapshotFile isWatcher => exact Or.inr ⟨_, isWatcher⟩
  | watch | scan | scanFile | compare => simp at early
  | _ => exact early

theorem watchingInv_step {platform : Platform} {action : WatchingAction}
    {s next : Watching notification} (inv : s.Inv platform) (renewed : renewing s action)
    (taken : watchingStep platform notification action s = some next) : next.Inv platform := by
  obtain ⟨closed, watches, early, woken, quiet⟩ := inv
  cases watchingEffect_of_step taken with
  | findFirst succeeds _ starting =>
    cases (show succeeds = true from renewed)
    refine ⟨nofun, fun handle same => ?_, early, woken, fun _ => quiet_of_starting starting⟩
    cases same
    exact notification.watches_first
  | wait waiting _ opened signaled =>
    refine ⟨closed, watches, fun before => ?_, fun _ => waiting, fun same => ?_⟩
    · simp [waiting] at before
    · simp [opened, signaled] at same
  | findNext succeeds stage =>
    cases (show succeeds = true from renewed)
    have waiting := woken stage
    refine ⟨fun same => closed (Option.map_eq_none_iff.mp same), fun handle same => ?_,
      fun before => ?_, nofun, fun _ => ⟨fun _ same => ?_, fun _ same => ?_, nofun⟩⟩
    · obtain ⟨old, opened, rfl⟩ := Option.map_eq_some_iff.mp same
      exact notification.watches_next old (watches old opened)
    · simp [waiting] at before
    · cases waiting.symm.trans same
    · cases waiting.symm.trans same
  | change path content =>
    refine ⟨fun same => closed (Option.map_eq_none_iff.mp same), fun handle same => ?_, early,
      woken, fun same => ?_⟩
    · obtain ⟨old, opened, rfl⟩ := Option.map_eq_some_iff.mp same
      exact notification.watches_change old (watches old opened)
    · cases opened : s.handle with
      | none => exact quiet_of_starting (closed opened)
      | some handle =>
        have signaled := notification.signaled_change handle (watches handle opened)
        simp [opened, signaled] at same
  | compare effect =>
    cases effect with
    | compare isWatcher compared =>
      refine ⟨fun same => ?_, watches, fun _ => rfl, nofun,
        fun same => ⟨nofun, nofun, fun _ _ => ?_⟩⟩
      · cases isWatcher.symm.trans (closed same)
      · rw [prevDir_step compared]
        exact tracks_end ((quiet same).scanning _ isWatcher)
  | @act action _ inOrder effect other notCompare =>
    refine ⟨fun same => ?_, watches, fun before => early (early_startup effect before),
      fun same => ?_, fun same => quiet_startup (quiet same) effect other notCompare⟩
    · apply starting_startup effect (closed same)
      intro isSnapshot
      subst isSnapshot
      rw [Watching.inOrder, show s.handle = none from same] at inOrder
      cases inOrder
    · apply waiting_startup effect (woken same)
      intro isScan
      subst isScan
      rw [Watching.inOrder, show s.stage = .woken from same] at inOrder
      cases inOrder

theorem watchingInv_run {platform : Platform} {folder : Folder} {actions : List WatchingAction}
    {s : Watching notification}
    (run : Run (watchingStep platform notification) renewing (Watching.start notification folder)
      actions s) : s.Inv platform :=
  run.invariant (fun _ _ _ inv renewed taken => watchingInv_step inv renewed taken)
    (watchingInv_start platform folder)

/-! ## Rounds -/

/-- No file changes, and the calls for the notification succeed. -/
def quietly (s : Watching notification) (action : WatchingAction) : Prop :=
  match action with
  | .act (.change _ _) | .act (.store _ _) => False
  | _ => renewing s action

theorem renewing_of_quietly {s : Watching notification} {action : WatchingAction}
    (quiet : quietly s action) : renewing s action := by
  cases action with
  | act => trivial
  | _ => exact quiet

/-- How many waits are satisfied, if no file changes. -/
def ChangeNotification.pending (notification : ChangeNotification)
    (handle : notification.Handle) : Nat :=
  if notification.signaled handle then
    if notification.signaled (notification.next handle) then 2 else 1
  else 0

theorem pending_of_signaled {handle : notification.Handle}
    (watches : notification.Watches handle) (signaled : notification.signaled handle = true) :
    notification.pending handle = notification.pending (notification.next handle) + 1 := by
  rw [ChangeNotification.pending, ChangeNotification.pending, if_pos signaled]
  by_cases again : notification.signaled (notification.next handle) = true
  · simp [again, notification.signaled_next handle watches signaled again]
  · simp [again]

/-- How many waits the watcher has before it, before it has a handle, too. -/
def Watching.pending (s : Watching notification) : Nat :=
  notification.pending (s.handle.getD notification.first)

/-- How many scans begin before the watcher sleeps, if no file changes. -/
def Watching.rounds (s : Watching notification) : Nat :=
  match s.stage, s.startup.watcher with
  | .woken, _ => notification.pending (notification.next (s.handle.getD notification.first)) + 1
  | .renewed, .waiting => s.pending + 1
  | _, _ => s.pending

/-- The scans that begin in a list of actions. -/
def scans : List WatchingAction → Nat
  | [] => 0
  | .act .scan :: later => scans later + 1
  | _ :: later => scans later

theorem pending_le (handle : notification.Handle) : notification.pending handle ≤ 2 := by
  unfold ChangeNotification.pending
  split
  · split <;> decide
  · decide

theorem rounds_le (s : Watching notification) : s.rounds ≤ 3 := by
  rw [Watching.rounds]
  split
  · exact Nat.succ_le_succ (pending_le _)
  · exact Nat.succ_le_succ (pending_le _)
  · exact Nat.le_succ_of_le (pending_le _)

/-- The part of a run that is left after a step without a change. -/
theorem rounds_step {platform : Platform} {action : WatchingAction}
    {s next : Watching notification} (inv : s.Inv platform) (quiet : quietly s action)
    (taken : watchingStep platform notification action s = some next) :
    s.rounds = scans [action] + next.rounds := by
  cases watchingEffect_of_step taken with
  | findFirst succeeds running starting closed =>
    cases (show succeeds = true from quiet)
    simp [Watching.rounds, Watching.pending, starting, closed, scans, inv.early (Or.inl starting)]
  | @wait handle waiting stage opened signaled =>
    simp only [Watching.rounds, Watching.pending, stage, opened, scans, Nat.zero_add,
      Option.getD_some]
    exact pending_of_signaled (inv.watches handle opened) signaled
  | findNext succeeds stage =>
    cases (show succeeds = true from quiet)
    have waiting := inv.woken stage
    cases opened : s.handle with
    | none => cases (inv.closed opened).symm.trans waiting
    | some handle => simp [Watching.rounds, Watching.pending, stage, waiting, opened, scans]
  | change path content action isChange =>
    rcases isChange with rfl | rfl <;> exact absurd quiet id
  | compare effect =>
    cases effect with
    | compare isWatcher =>
      cases stage : s.stage with
      | woken => cases isWatcher.symm.trans (inv.woken stage)
      | _ => simp [Watching.rounds, Watching.pending, stage, isWatcher, scans]
  | act inOrder effect other notCompare =>
    cases effect with
    | change path content => exact absurd rfl (other path content).1
    | store path content => exact absurd rfl (other path content).2
    | compare => exact absurd rfl notCompare
    | construct | constructFile | run | drain | request | release =>
      simp [Watching.rounds, Watching.pending, scans]
    | snapshot _ starting =>
      simp [Watching.rounds, Watching.pending, inv.early (Or.inl starting), starting, scans]
    | snapshotFile isWatcher | watch isWatcher =>
      simp [Watching.rounds, Watching.pending, inv.early (Or.inr ⟨_, isWatcher⟩), isWatcher,
        scans]
    | scan isWatcher =>
      have renewed : s.stage = .renewed := by simpa [Watching.inOrder] using inOrder
      simp [Watching.rounds, Watching.pending, renewed, isWatcher, scans]
      omega
    | scanFile isWatcher =>
      cases stage : s.stage with
      | woken => cases isWatcher.symm.trans (inv.woken stage)
      | _ => simp [Watching.rounds, Watching.pending, stage, isWatcher, scans]

theorem scans_cons (action : WatchingAction) (later : List WatchingAction) :
    scans (action :: later) = scans [action] + scans later := by
  cases action with
  | act action => cases action <;> simp [scans, Nat.add_comm]
  | _ => simp [scans]

theorem rounds_run {platform : Platform} {s t : Watching notification}
    {actions : List WatchingAction}
    (run : Run (watchingStep platform notification) quietly s actions t) (inv : s.Inv platform) :
    s.rounds = scans actions + t.rounds := by
  induction run with
  | nil => exact (Nat.zero_add _).symm
  | @cons s next t action actions quiet taken _ ih =>
    have stays := watchingInv_step inv (renewing_of_quietly quiet) taken
    rw [scans_cons, rounds_step inv quiet taken, ih stays, Nat.add_assoc]

/-! ## The way to sleep -/

/-- The steps until the threads are created, for a folder of so many files. -/
def MainPhase.work (files : Nat) : MainPhase → Nat
  | .starting => files + 2
  | .constructing pass => pass.rest.length + 1
  | .running => 0

/-- The steps until the drain has released the lock. -/
def DrainPhase.work : DrainPhase → Nat
  | .idle => 0
  | .updating _ rest => rest.length + 2
  | .sent => 1

/-- No file changes, and nobody gets or releases `dirLock` for a fetch. -/
def unlocked (s : Watching notification) (action : WatchingAction) : Prop :=
  quietly s action ∧ action ≠ .act .request ∧ action ≠ .act .release

/-- The steps of the watcher up to its next wait, or to its next scan. -/
def Watching.ownWork (files : Nat) (s : Watching notification) : Nat :=
  match s.startup.watcher, s.stage with
  | .starting, _ =>
    match s.handle with
    | none => files + 5
    | some _ => files + 4
  | .snapshot pass, _ | .scanning pass, _ => pass.rest.length + 3
  | .waiting, .waiting => 2
  | .waiting, .woken => 1
  | .waiting, .renewed => 0

/-- The steps of `main`, of a drain that holds `dirLock`, and of the watcher. -/
def Watching.workAhead (s : Watching notification) : Nat :=
  s.startup.main.work s.startup.folder.keys.length + s.startup.monitor.phase.work +
    s.ownWork s.startup.folder.keys.length

/-- The work ahead with that of the scans to come. -/
def Watching.work (s : Watching notification) : Nat :=
  s.workAhead + s.rounds * (s.startup.folder.keys.length + 4)

theorem folder_quietly {platform : Platform} {action : WatchingAction}
    {s next : Watching notification} (quiet : quietly s action)
    (taken : watchingStep platform notification action s = some next) :
    next.startup.folder = s.startup.folder := by
  cases watchingEffect_of_step taken with
  | change path content action isChange =>
    rcases isChange with rfl | rfl <;> exact absurd quiet id
  | compare effect =>
    cases effect
    rfl
  | act inOrder effect other =>
    cases effect with
    | change path content => exact absurd rfl (other path content).1
    | store path content => exact absurd rfl (other path content).2
    | _ => rfl
  | _ => rfl

/-- The thread that has `dirLock` for a fetch, if any, keeps it. -/
theorem requesting_unlocked {platform : Platform} {action : WatchingAction}
    {s next : Watching notification} (own : unlocked s action)
    (taken : watchingStep platform notification action s = some next) :
    next.startup.requesting = s.startup.requesting := by
  cases watchingEffect_of_step taken with
  | compare effect =>
    cases effect
    rfl
  | act inOrder effect =>
    cases effect with
    | request => exact absurd rfl own.2.1
    | release => exact absurd rfl own.2.2
    | _ => rfl
  | _ => rfl

variable {platform : Platform} {action : WatchingAction} {s next : Watching notification}

theorem work_lt (inv : s.Inv platform) (quiet : quietly s action)
    (taken : watchingStep platform notification action s = some next)
    (other : scans [action] = 0) (less : next.workAhead < s.workAhead) : next.work < s.work := by
  have counted := rounds_step inv quiet taken
  rw [other, Nat.zero_add] at counted
  rw [Watching.work, Watching.work, counted, folder_quietly quiet taken]
  exact Nat.add_lt_add_right less _

/-- A step of the program that neither changes a file nor ends a scan. -/
theorem step_act {action : StartupAction} {startup : Startup} (inOrder : s.inOrder action = true)
    (moved : startupStep platform action s.startup = some startup)
    (other : ∀ path content, action ≠ .change path content ∧ action ≠ .store path content)
    (notCompare : action ≠ .compare) :
    watchingStep platform notification (.act action) s = some { s with startup } := by
  rw [watchingStep, if_pos inOrder, moved]
  cases action with
  | change path content => exact absurd rfl (other path content).1
  | store path content => exact absurd rfl (other path content).2
  | compare => exact absurd rfl notCompare
  | _ => rfl

/-- Some step that is no scan brings the watcher nearer to sleep. -/
def Watching.Advances (platform : Platform) (s : Watching notification) : Prop :=
  ∃ action next, unlocked s action ∧ watchingStep platform notification action s = some next ∧
    scans [action] = 0 ∧ next.workAhead < s.workAhead

/-- `main` gets to the threads. -/
theorem main_advances (starting : s.startup.main ≠ .running) : s.Advances platform := by
  cases main : s.startup.main with
  | running => exact absurd main starting
  | starting =>
    have moved : startupStep platform .construct s.startup = some { s.startup with
        main := .constructing ⟨s.startup.folder.keys, ∅⟩ } := by
      simp only [startupStep, main]
    refine ⟨.act .construct, _, ⟨trivial, by simp, by simp⟩,
      step_act rfl moved (by simp) (by simp), rfl, ?_⟩
    simp [Watching.workAhead, Watching.ownWork, main, MainPhase.work]
  | constructing pass =>
    obtain ⟨rest, table⟩ := pass
    cases rest with
    | nil =>
      have moved : startupStep platform .run s.startup = some { s.startup with
          main := .running
          constructed := table
          monitor := { s.startup.monitor with fileHashes := table } } := by
        simp only [startupStep, main]
      refine ⟨.act .run, _, ⟨trivial, by simp, by simp⟩,
        step_act rfl moved (by simp) (by simp), rfl, ?_⟩
      simp [Watching.workAhead, Watching.ownWork, main, MainPhase.work]
    | cons path rest =>
      have moved : startupStep platform .constructFile s.startup = some { s.startup with
          main := .constructing
            ⟨rest, table.insert path (s.startup.folder.hash platform path)⟩ } := by
        simp only [startupStep, main]
      refine ⟨.act .constructFile, _, ⟨trivial, by simp, by simp⟩,
        step_act rfl moved (by simp) (by simp), rfl, ?_⟩
      simp [Watching.workAhead, Watching.ownWork, main, MainPhase.work]

/-- The handler in its drain gets to its end and releases `dirLock`. -/
theorem drain_advances (running : s.startup.main = .running)
    (held : s.startup.monitor.phase ≠ .idle) : s.Advances platform := by
  have drain {action : MonitorAction} {monitor : Monitor} (notLock : action ≠ .lock)
      (notScan : ∀ newDir, action ≠ .scan newDir)
      (moved : monitorStep action s.startup.monitor = some monitor)
      (less : monitor.phase.work < s.startup.monitor.phase.work) : s.Advances platform := by
    have drained : startupStep platform (.drain action) s.startup = some { s.startup with
        monitor } := by
      cases action with
      | lock => exact absurd rfl notLock
      | scan newDir => exact absurd rfl (notScan newDir)
      | _ => simp only [startupStep, running, moved, Option.map_some]
    refine ⟨.act (.drain action), _, ⟨trivial, by simp, by simp⟩,
      step_act rfl drained (by simp) (by simp), rfl, ?_⟩
    simpa [Watching.workAhead, Watching.ownWork] using less
  cases phase : s.startup.monitor.phase with
  | idle => exact absurd phase held
  | sent =>
    have moved : monitorStep .clear s.startup.monitor = some { s.startup.monitor with
        fileChangeBuf := [], phase := .idle } := by
      simp only [monitorStep, phase]
    exact drain (by simp) (by simp) moved (by simp [phase, DrainPhase.work])
  | updating done rest =>
    cases rest with
    | nil =>
      have moved : monitorStep .broadcast s.startup.monitor = some { s.startup.monitor with
          broadcasts := s.startup.monitor.broadcasts ++ [s.startup.monitor.fileChangeBuf]
          phase := .sent } := by
        simp only [monitorStep, phase]
      exact drain (by simp) (by simp) moved (by simp [phase, DrainPhase.work])
    | cons changeData rest =>
      have moved : monitorStep .update s.startup.monitor = some { s.startup.monitor with
          fileHashes := updateFileHashes s.startup.monitor.fileHashes changeData
          phase := .updating (done ++ [changeData]) rest } := by
        simp only [monitorStep, phase]
      exact drain (by simp) (by simp) moved (by simp [phase, DrainPhase.work])

/-- The watcher before its loop. -/
theorem early_advances (running : s.startup.main = .running)
    (early : s.startup.watcher = .starting ∨ ∃ pass, s.startup.watcher = .snapshot pass) :
    s.Advances platform := by
  rcases early with starting | ⟨⟨rest, table⟩, isWatcher⟩
  · cases opened : s.handle with
    | none =>
      have taken : watchingStep platform notification (.findFirst true) s = some { s with
          handle := some notification.first } := by
        simp only [watchingStep, running, starting, opened, if_true]
      refine ⟨.findFirst true, _, ⟨rfl, by simp, by simp⟩, taken, rfl, ?_⟩
      simp [Watching.workAhead, Watching.ownWork, starting, opened]
    | some handle =>
      have moved : startupStep platform .snapshot s.startup = some { s.startup with
          watcher := .snapshot ⟨s.startup.folder.keys, ∅⟩ } := by
        simp only [startupStep, running, starting]
      have inOrder : s.inOrder .snapshot = true := by simp [Watching.inOrder, opened]
      refine ⟨.act .snapshot, _, ⟨trivial, by simp, by simp⟩,
        step_act inOrder moved (by simp) (by simp), rfl, ?_⟩
      simp [Watching.workAhead, Watching.ownWork, starting, opened]
  · cases rest with
    | nil =>
      have moved : startupStep platform .watch s.startup = some { s.startup with
          watcher := .waiting
          monitor := { s.startup.monitor with prevDir := table } } := by
        simp only [startupStep, isWatcher]
      refine ⟨.act .watch, _, ⟨trivial, by simp, by simp⟩,
        step_act rfl moved (by simp) (by simp), rfl, ?_⟩
      cases stage : s.stage <;> simp [Watching.workAhead, Watching.ownWork, isWatcher]
    | cons path rest =>
      have moved : startupStep platform .snapshotFile s.startup = some { s.startup with
          watcher := .snapshot
            ⟨rest, table.insertIfNew path (s.startup.folder.hash platform path)⟩ } := by
        simp only [startupStep, isWatcher]
      refine ⟨.act .snapshotFile, _, ⟨trivial, by simp, by simp⟩,
        step_act rfl moved (by simp) (by simp), rfl, ?_⟩
      simp [Watching.workAhead, Watching.ownWork, isWatcher]

/-- A scan under way. -/
theorem scanning_advances {pass : HashPass} (isWatcher : s.startup.watcher = .scanning pass)
    (idle : s.startup.monitor.phase = .idle) : s.Advances platform := by
  obtain ⟨rest, table⟩ := pass
  cases rest with
  | nil =>
    have compared : ∃ monitor, monitorStep (.scan table) s.startup.monitor = some monitor ∧
        monitor.phase = .idle := by
      simp only [monitorStep, idle]
      exact ⟨_, rfl, rfl⟩
    obtain ⟨monitor, compared, stays⟩ := compared
    have taken : watchingStep platform notification (.act .compare) s = some { s with
        startup := { s.startup with watcher := .waiting, monitor }, stage := .waiting } := by
      have moved : startupStep platform .compare s.startup = some { s.startup with
          watcher := .waiting, monitor } := by
        simp only [startupStep, isWatcher, compared, Option.map_some]
      have inOrder : s.inOrder .compare = true := rfl
      rw [watchingStep, if_pos inOrder, moved]
      rfl
    refine ⟨.act .compare, _, ⟨trivial, by simp, by simp⟩, taken, rfl, ?_⟩
    simp [Watching.workAhead, Watching.ownWork, isWatcher, idle, stays]
  | cons path rest =>
    have moved : startupStep platform .scanFile s.startup = some { s.startup with
        watcher := .scanning
          ⟨rest, table.insertIfNew path (s.startup.folder.hash platform path)⟩ } := by
      simp only [startupStep, isWatcher]
    refine ⟨.act .scanFile, _, ⟨trivial, by simp, by simp⟩,
      step_act rfl moved (by simp) (by simp), rfl, ?_⟩
    simp [Watching.workAhead, Watching.ownWork, isWatcher]

/-- A satisfied wait, and the renewal after it. -/
theorem waiting_advances (inv : s.Inv platform) (isWatcher : s.startup.watcher = .waiting)
    (other : s.stage ≠ .renewed) (awake : ¬ s.Asleep) : s.Advances platform := by
  cases stage : s.stage with
  | renewed => exact absurd stage other
  | waiting =>
    cases opened : s.handle with
    | none => cases (inv.closed opened).symm.trans isWatcher
    | some handle =>
      have signaled : notification.signaled handle = true := by
        cases signaled : notification.signaled handle with
        | true => rfl
        | false => exact absurd ⟨isWatcher, stage, by simp [opened, signaled]⟩ awake
      have taken : watchingStep platform notification .wait s = some { s with
          stage := .woken } := by
        simp only [watchingStep, isWatcher, stage, opened, if_pos signaled]
      refine ⟨.wait, _, ⟨trivial, by simp, by simp⟩, taken, rfl, ?_⟩
      simp [Watching.workAhead, Watching.ownWork, isWatcher, stage]
  | woken =>
    have taken : watchingStep platform notification (.findNext true) s = some { s with
        handle := s.handle.map notification.next, stage := .renewed } := by
      simp only [watchingStep, stage, if_true]
    refine ⟨.findNext true, _, ⟨rfl, by simp, by simp⟩, taken, rfl, ?_⟩
    simp [Watching.workAhead, Watching.ownWork, isWatcher, stage]

/-- A scan costs as much as one round. -/
theorem scan_work (inv : s.Inv platform) (running : s.startup.main = .running)
    (free : s.startup.requesting = false) (idle : s.startup.monitor.phase = .idle)
    (isWatcher : s.startup.watcher = .waiting) (renewed : s.stage = .renewed) :
    ∃ next, watchingStep platform notification (.act .scan) s = some next ∧
      next.work < s.work := by
  have lockFree : s.startup.lockFree = true := by
    simp [Startup.lockFree, isWatcher, idle, free]
  have moved : startupStep platform .scan s.startup = some { s.startup with
      watcher := .scanning ⟨s.startup.folder.keys, ∅⟩ } := by
    simp only [startupStep, isWatcher, if_pos lockFree]
  have inOrder : s.inOrder .scan = true := by simp [Watching.inOrder, renewed]
  have taken := step_act inOrder moved (by simp) (by simp)
  refine ⟨_, taken, ?_⟩
  have counted := @rounds_step _ platform (.act .scan) s _ inv trivial taken
  rw [Watching.work, Watching.work, counted]
  simp [Watching.workAhead, Watching.ownWork, isWatcher, renewed, running, MainPhase.work, scans,
    Nat.add_mul]
  omega

theorem progress_asleep (inv : s.Inv platform) (free : s.startup.requesting = false)
    (awake : ¬ s.Asleep) : ∃ action next, unlocked s action ∧
      watchingStep platform notification action s = some next ∧ next.work < s.work := by
  have advance (advances : s.Advances platform) : ∃ action next, unlocked s action ∧
      watchingStep platform notification action s = some next ∧ next.work < s.work := by
    obtain ⟨action, next, own, taken, other, less⟩ := advances
    exact ⟨action, next, own, taken, work_lt inv own.1 taken other less⟩
  by_cases running : s.startup.main = .running
  · by_cases idle : s.startup.monitor.phase = .idle
    · cases isWatcher : s.startup.watcher with
      | starting => exact advance (early_advances running (Or.inl isWatcher))
      | snapshot pass => exact advance (early_advances running (Or.inr ⟨pass, isWatcher⟩))
      | scanning pass => exact advance (scanning_advances isWatcher idle)
      | waiting =>
        by_cases renewed : s.stage = .renewed
        · obtain ⟨next, taken, less⟩ := scan_work inv running free idle isWatcher renewed
          exact ⟨.act .scan, next, ⟨trivial, by simp, by simp⟩, taken, less⟩
        · exact advance (waiting_advances inv isWatcher renewed awake)
    · exact advance (drain_advances running idle)
  · exact advance (main_advances running)

/-! ## At rest -/

/-- The baselines of the two tables, as `undisturbed` says. -/
def undisturbedly (platform : Platform) (s : Watching notification) : WatchingAction → Prop
  | .act action => undisturbed platform s.startup action
  | _ => True

/-- Either the watcher has not entered its loop, or its table and that of the handler agree but for
    the changes between them. -/
def Startup.Agreeing (platform : Platform) (s : Startup) : Prop :=
  (s.BeforeLoop platform ∧ s.Tracking platform) ∨ s.InLoop ∧ MonitorInv s.constructed s.monitor

theorem agreeing_step {action : StartupAction} {s next : Startup} (agreeing : s.Agreeing platform)
    (quiet : undisturbed platform s action) (taken : startupStep platform action s = some next) :
    next.Agreeing platform := by
  rcases agreeing with ⟨before, tracking⟩ | ⟨inLoop, inv⟩
  · by_cases watch : action = .watch
    · subst watch
      obtain ⟨inLoop, -, -, entered⟩ := inLoop_watch before taken
      have agree := prevDir_of_tracking before tracking taken
      exact Or.inr ⟨inLoop, monitorInv_of_watched agree entered⟩
    · have stays := beforeLoop_step before taken watch
      exact Or.inl ⟨stays, tracking_step before tracking quiet taken⟩
  · obtain ⟨stays, kept⟩ := inLoop_step inLoop taken
    exact Or.inr ⟨stays, kept inv⟩

theorem agreeing_run {folder : Folder} {actions : List WatchingAction}
    (run : Run (watchingStep platform notification) (undisturbedly platform)
      (Watching.start notification folder) actions s) : s.startup.Agreeing platform := by
  have start : (Watching.start notification folder).startup.Agreeing platform :=
    Or.inl ⟨beforeLoop_start platform folder, nofun, nofun, nofun⟩
  have preserved (s : Watching notification) (action : WatchingAction)
      (next : Watching notification) (agreeing : s.startup.Agreeing platform)
      (quiet : undisturbedly platform s action)
      (taken : watchingStep platform notification action s = some next) :
      next.startup.Agreeing platform := by
    cases action with
    | act action =>
      rw [watchingStep] at taken
      split at taken
      · obtain ⟨startup, moved, rfl⟩ := Option.map_eq_some_iff.mp taken
        have stays := agreeing_step agreeing quiet moved
        cases action <;> exact stays
      · cases taken
    | _ =>
      cases watchingEffect_of_step taken
      exact agreeing
  exact run.invariant preserved start

theorem rounds_of_asleep (inv : s.Inv platform) (asleep : s.Asleep) : s.rounds = 0 := by
  obtain ⟨isWatcher, stage, unsignaled⟩ := asleep
  cases opened : s.handle with
  | none => cases (inv.closed opened).symm.trans isWatcher
  | some handle =>
    rw [opened, Option.any_some] at unsignaled
    simp [Watching.rounds, Watching.pending, ChangeNotification.pending, stage, opened, unsignaled]

/-- Where the calls for the notification succeed, the watcher sleeps only when it has seen the
    folder as it is, also when files were changed during a scan. When no more files change and no
    fetch holds `dirLock`, it gets there by steps of `main`, of the drain and of its own; whoever
    else gets the lock in between, it begins at most three scans more before it sleeps. And when
    the buffer has been drained then, the other nodes can know the whole folder, unless files
    were changed between the two baselines. -/
theorem watcher_misses_nothing {folder : Folder} {actions : List WatchingAction}
    (run : Run (watchingStep platform notification) renewing (Watching.start notification folder)
      actions s) :
    (s.Asleep → s.startup.monitor.prevDir = s.startup.folder.table platform) ∧
    (s.startup.requesting = false → ∃ later t,
      Run (watchingStep platform notification) unlocked s later t ∧ t.Asleep) ∧
    (∀ later t, Run (watchingStep platform notification) quietly s later t → t.Asleep →
      t.startup.folder = s.startup.folder ∧ scans later = s.rounds ∧ s.rounds ≤ 3) ∧
    (Run (watchingStep platform notification) (undisturbedly platform)
        (Watching.start notification folder) actions s →
      s.Asleep → s.startup.monitor.phase = .idle → s.startup.monitor.fileChangeBuf = [] →
      s.startup.Advertised platform) := by
  have inv := watchingInv_run run
  have seen (asleep : s.Asleep) :
      s.startup.monitor.prevDir = s.startup.folder.table platform :=
    (inv.quiet asleep.2.2).waiting asleep.1 asleep.2.1
  refine ⟨seen, fun free => ?_, fun later t quiet asleep => ?_, fun quiet asleep idle empty => ?_⟩
  · obtain ⟨later, t, own, asleep⟩ := run_to_goal Watching.work
      (fun s (inv : s.Inv platform ∧ s.startup.requesting = false) awake => by
        obtain ⟨action, next, own, taken, less⟩ := progress_asleep inv.1 inv.2 awake
        have stays := watchingInv_step inv.1 (renewing_of_quietly own.1) taken
        have free := (requesting_unlocked own taken).trans inv.2
        exact ⟨action, next, own, taken, ⟨stays, free⟩, less⟩)
      s ⟨inv, free⟩
    exact ⟨later, t, own, asleep⟩
  · have folder : t.startup.folder = s.startup.folder := by
      have preserved (u : Watching notification) (action : WatchingAction)
          (next : Watching notification) (same : u.startup.folder = s.startup.folder)
          (calm : quietly u action)
          (taken : watchingStep platform notification action u = some next) :
          next.startup.folder = s.startup.folder := (folder_quietly calm taken).trans same
      exact quiet.invariant preserved rfl
    have counted := rounds_run quiet inv
    have stays := (quiet.mono fun _ _ => renewing_of_quietly).invariant
      (fun _ _ _ inv renewed taken => watchingInv_step inv renewed taken) inv
    rw [rounds_of_asleep stays asleep, Nat.add_zero] at counted
    exact ⟨folder, counted.symm, rounds_le s⟩
  · rcases agreeing_run quiet with ⟨before, -⟩ | ⟨-, agree⟩
    · have waiting := asleep.1
      rcases before.watcher with starting | ⟨-, pass, isWatcher⟩
      · cases starting.symm.trans waiting
      · cases isWatcher.symm.trans waiting
    · exact advertised_of_scanned agree ⟨asleep.1, idle, empty, seen asleep⟩

/-! ## A latch -/

/-- A handle that tells one change from several. -/
inductive Latch where
  | invalid
  | quiet
  | signaled
  /-- There was another change after the one that is signaled. -/
  | recorded

/-- A change is signaled, or recorded if one is signaled already. -/
def Latch.change : Latch → Latch
  | .quiet => .signaled
  | .signaled => .recorded
  | other => other

/-- Whether a wait for the latch returns. -/
def Latch.isSignaled : Latch → Bool
  | .invalid | .quiet => false
  | .signaled | .recorded => true

/-- What was recorded is signaled next. -/
def Latch.renew : Latch → Latch
  | .signaled => .quiet
  | .recorded => .signaled
  | other => other

/-- The notification as a latch. -/
def latched : ChangeNotification where
  Handle := Latch
  first := .quiet
  invalid := .invalid
  change := Latch.change
  signaled := Latch.isSignaled
  next := Latch.renew
  failNext := id
  Watches := (· ≠ .invalid)
  watches_first := nofun
  watches_change handle watches := by
    cases handle with
    | invalid => exact absurd rfl watches
    | _ => simp [Latch.change]
  watches_next handle watches := by
    cases handle with
    | invalid => exact absurd rfl watches
    | _ => simp [Latch.renew]
  signaled_change handle watches := by
    cases handle with
    | invalid => exact absurd rfl watches
    | _ => rfl
  signaled_next handle _ signaled again := by
    cases handle with
    | invalid | quiet => cases signaled
    | signaled => cases again
    | recorded => rfl
  signaled_invalid := rfl
  change_invalid := rfl

/-- A file is written while another one is being hashed. -/
def writtenWhileScanning : List WatchingAction :=
  [.act .construct, .act .run, .findFirst true, .act .snapshot, .act .watch,
    .act (.change (wide "\\a") (some [1])), .wait, .findNext true, .act .scan,
    .act (.change (wide "\\b") (some [2])), .act .scanFile, .act .compare]

theorem watcher_misses_nothing_written : ∃ s t : Watching latched, ∃ later : List WatchingAction,
    Run (watchingStep .win32 latched) renewing (Watching.start latched ∅)
      writtenWhileScanning s ∧
    s.startup.monitor.prevDir[wide "\\b"]? = none ∧
    Run (watchingStep .win32 latched) unlocked s later t ∧ t.Asleep ∧ scans later = 1 := by
  have run : ∃ s, exec (watchingStep .win32 latched) writtenWhileScanning
      (Watching.start latched ∅) = some s ∧
      s.startup.monitor.prevDir[wide "\\b"]? = none ∧ s.startup.requesting = false ∧
      s.rounds = 1 := ⟨_, rfl, rfl, rfl, rfl⟩
  obtain ⟨s, found, unseen, free, rounds⟩ := run
  have run : Run (watchingStep .win32 latched) renewing (Watching.start latched ∅)
      writtenWhileScanning s := by
    refine (Run.of_exec found).allow fun _ action member => ?_
    simp only [writtenWhileScanning, List.mem_cons, List.not_mem_nil, or_false] at member
    rcases member with rfl | rfl | rfl | rfl | rfl | rfl | rfl | rfl | rfl | rfl | rfl | rfl <;>
      trivial
  have misses := watcher_misses_nothing run
  obtain ⟨later, t, own, asleep⟩ := misses.2.1 free
  have quiet := own.mono fun _ _ own => own.1
  refine ⟨s, t, later, run, unseen, own, asleep, ?_⟩
  exact (misses.2.2.1 later t quiet asleep).2.1.trans rounds

/-! ## A notification that can not be opened -/

/-- If `FindFirstChangeNotification` fails, `WatchDirectory` does not notice it and waits for the
    end of its own process: it never scans. -/
theorem scans_of_invalid {t : Watching notification} {actions : List WatchingAction}
    (run : Run (watchingStep platform notification) anyStep s actions t)
    (invalid : s.handle = some notification.invalid) (stage : s.stage = .waiting) :
    scans actions = 0 := by
  induction run with
  | nil => rfl
  | @cons s next t action actions _ taken _ ih =>
    have kept : next.handle = some notification.invalid ∧ next.stage = .waiting ∧
        scans [action] = 0 := by
      cases watchingEffect_of_step taken with
      | findFirst _ _ _ closed => cases invalid.symm.trans closed
      | wait _ _ opened signaled =>
        cases invalid.symm.trans opened
        cases notification.signaled_invalid.symm.trans signaled
      | findNext _ woken => cases stage.symm.trans woken
      | change path content action isChange =>
        have none : scans [.act action] = 0 := by rcases isChange with rfl | rfl <;> rfl
        exact ⟨by simp [invalid, notification.change_invalid], stage, none⟩
      | compare => exact ⟨invalid, rfl, rfl⟩
      | act inOrder effect =>
        refine ⟨invalid, stage, ?_⟩
        cases effect with
        | scan => simp [Watching.inOrder, stage] at inOrder
        | _ => rfl
    rw [scans_cons, kept.2.2, ih kept.1 kept.2.1]

end FileSync
