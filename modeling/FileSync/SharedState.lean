import FileSync.Library.Locking

/-!
# What the threads share

Three mutexes protect what the four threads share. Here the control flow of the threads is modelled,
with the mutexes that each point holds and with what it reads and writes; a branch of the source may
go either way.
-/

namespace FileSync

open TransitionSystem Locking

/-- The threads of `main` (main.cpp 32-35). -/
inductive NodeThread where
  | collector
  | handler
  | tableManager
  | watcher
  deriving DecidableEq

/-- `dirLock` of main.cpp and the two mutexes of the class `Node`. -/
inductive Mutex where
  | dirLock
  | queueMutex
  | tableManagerMutex
  deriving DecidableEq

instance : Fintype Mutex where
  elems := {.dirLock, .queueMutex, .tableManagerMutex}
  complete := fun mutex => by cases mutex <;> decide

/-- What more than one thread uses. -/
inductive Shared where
  | fileHashes
  | fileChangeBuf
  | todoUdp
  /-- `tableManagerMessage` and `receivedTable` -/
  | tableManagerMessage
  | tcpClient
  | tcpServer
  /-- The files of the shared folder. -/
  | folder
  deriving DecidableEq

/-- The points of `requestFiles`. -/
inductive RequestPoint where
  /-- At the head of the loop. -/
  | loop
  | switch
  /-- `exists` and `getFileHash` -/
  | comparing
  /-- `negotiateTCPTransfer` up to the answer. -/
  | negotiating
  | receivingFile
  | deleting
  | unlocking
  deriving DecidableEq

/-- The thread that is in `requestFiles`. -/
inductive Caller where
  | collector
  | handler
  | tableManager
  deriving DecidableEq

/-- The points of the four threads. -/
inductive Point where
  /-- `discoverDriver`, before `collectUdpTraffic`. -/
  | announcing
  /-- At the head of the loop of `collectUdpTraffic`. -/
  | receiving
  | responding
  /-- The collector in `dealWithHashTable`. -/
  | comparingArrival
  | queueing
  | pushing
  /-- After the `break` of `collectUdpTraffic`. -/
  | ended
  /-- At the `try_lock` of `handleUdp`. -/
  | trying
  /-- `fileChangeBuf.empty()` -/
  | looking
  | updating
  | broadcasting
  | clearing
  | drained
  /-- Before `queueMutex.lock()`. -/
  | taking
  | popping
  /-- At the `switch` of `handleUdp`. -/
  | dispatching
  | storing
  | stored
  /-- Case 5. -/
  | serving
  /-- At the head of the loop of `tableManagerDriver`. -/
  | polling
  | polled
  /-- The table manager in `dealWithHashTable`. -/
  | comparingResponse
  /-- The first `CreateFileHashes` of `WatchDirectory`. -/
  | snapshot
  /-- `WaitForSingleObject` and `FindNextChangeNotification` -/
  | waiting
  | locking
  | scanning
  | buffering
  /-- In `requestFiles`. -/
  | requesting (caller : Caller) (point : RequestPoint)
  deriving DecidableEq

/-- Where `requestFiles` returns to. -/
def Caller.returns : Caller → Point
  | .collector => .receiving
  | .handler => .trying
  | .tableManager => .polling

/-- The control flow of `requestFiles` (Node.cpp 395-427) with `negotiateTCPTransfer` (299-336).
    -/
def RequestPoint.edges (caller : Caller) : RequestPoint → List (Operation Mutex × Point)
  | .loop => [(.acquire .dirLock, .requesting caller .switch), (.go, caller.returns)]
  | .switch => [(.go, .requesting caller .comparing), (.go, .requesting caller .deleting)]
  | .comparing => [(.go, .requesting caller .unlocking), (.go, .requesting caller .negotiating)]
  | .negotiating =>
    [(.go, .requesting caller .unlocking), (.go, .requesting caller .receivingFile)]
  | .receivingFile | .deleting => [(.go, .requesting caller .unlocking)]
  | .unlocking => [(.release .dirLock, .requesting caller .loop)]

/-- The control flow of the threads: `discoverDriver` and `collectUdpTraffic` (Node.cpp 338-346,
    51-91), `handlerDriver` and `handleUdp` (348-352, 185-296), `tableManagerDriver` (354-382) and
    `WatchDirectory` (DirectoryMonitor.cpp 5-67). -/
def Point.edges : Program Point Mutex
  | .announcing => [(.go, .receiving)]
  | .receiving => [(.go, .receiving), (.go, .responding), (.go, .queueing), (.go, .ended)]
  | .responding => [(.go, .comparingArrival)]
  | .comparingArrival => [(.go, .requesting .collector .loop)]
  | .queueing => [(.acquire .queueMutex, .pushing)]
  | .pushing => [(.release .queueMutex, .receiving)]
  | .ended => []
  | .trying => [(.acquire .dirLock, .looking), (.go, .taking)]
  | .looking => [(.go, .updating), (.go, .drained)]
  | .updating => [(.go, .updating), (.go, .broadcasting)]
  | .broadcasting => [(.go, .clearing)]
  | .clearing => [(.go, .drained)]
  | .drained => [(.release .dirLock, .taking)]
  | .taking => [(.acquire .queueMutex, .popping)]
  | .popping => [(.release .queueMutex, .trying), (.release .queueMutex, .dispatching)]
  | .dispatching =>
    [(.go, .storing), (.go, .trying), (.go, .serving), (.go, .requesting .handler .loop)]
  | .storing => [(.acquire .tableManagerMutex, .stored)]
  | .stored => [(.release .tableManagerMutex, .trying)]
  | .serving => [(.go, .trying)]
  | .polling => [(.acquire .tableManagerMutex, .polled)]
  | .polled =>
    [(.release .tableManagerMutex, .comparingResponse), (.release .tableManagerMutex, .polling)]
  | .comparingResponse => [(.go, .requesting .tableManager .loop)]
  | .snapshot => [(.go, .waiting)]
  | .waiting => [(.go, .locking)]
  | .locking => [(.acquire .dirLock, .scanning)]
  | .scanning => [(.go, .buffering)]
  | .buffering => [(.release .dirLock, .waiting)]
  | .requesting caller point => point.edges caller

/-- What a point reads. -/
def Point.reads : Point → Shared → Bool
  | .announcing, .fileHashes | .responding, .fileHashes | .comparingArrival, .fileHashes
  | .comparingResponse, .fileHashes => true
  | .looking, .fileChangeBuf | .updating, .fileChangeBuf | .broadcasting, .fileChangeBuf => true
  | .serving, .folder | .snapshot, .folder | .scanning, .folder => true
  | .requesting _ .comparing, .folder => true
  | _, _ => false

/-- What a point writes. -/
def Point.writes : Point → Shared → Bool
  | .updating, .fileHashes => true
  | .clearing, .fileChangeBuf | .buffering, .fileChangeBuf => true
  | .pushing, .todoUdp | .popping, .todoUdp => true
  | .stored, .tableManagerMessage | .polled, .tableManagerMessage => true
  | .serving, .tcpServer => true
  | .requesting _ .receivingFile, .tcpClient => true
  | .requesting _ .receivingFile, .folder | .requesting _ .deleting, .folder => true
  | _, _ => false

/-- `requestFiles` has `dirLock` except at the head of its loop. -/
def RequestPoint.locked : RequestPoint → Bool
  | .loop => false
  | _ => true

/-- The mutexes that the thread at a point has locked. -/
def Point.held : Point → Mutex → Bool
  | .looking, .dirLock | .updating, .dirLock | .broadcasting, .dirLock | .clearing, .dirLock
  | .drained, .dirLock | .scanning, .dirLock | .buffering, .dirLock => true
  | .requesting _ point, .dirLock => point.locked
  | .pushing, .queueMutex | .popping, .queueMutex => true
  | .stored, .tableManagerMutex | .polled, .tableManagerMutex => true
  | _, _ => false

/-- The caller as one of the threads. -/
def Caller.thread : Caller → NodeThread
  | .collector => .collector
  | .handler => .handler
  | .tableManager => .tableManager

/-- The thread whose point it is. -/
def Point.thread : Point → NodeThread
  | .announcing | .receiving | .responding | .comparingArrival | .queueing | .pushing | .ended =>
    .collector
  | .trying | .looking | .updating | .broadcasting | .clearing | .drained | .taking | .popping
  | .dispatching | .storing | .stored | .serving => .handler
  | .polling | .polled | .comparingResponse => .tableManager
  | .snapshot | .waiting | .locking | .scanning | .buffering => .watcher
  | .requesting caller _ => caller.thread

/-- `main` has created the four threads. -/
def NodeThread.start : NodeThread → Point
  | .collector => .announcing
  | .handler => .trying
  | .tableManager => .polling
  | .watcher => .snapshot

/-- Each thread releases what it has locked, and never locks a mutex twice. -/
theorem edges_disciplined : Disciplined Point.edges Point.held := by
  intro point
  cases point with
  | requesting caller point => cases point <;> cases caller <;> decide
  | _ => decide

/-- A thread stays at its own points. -/
theorem thread_of_edge {point : Point} : ∀ edge ∈ point.edges, edge.2.thread = point.thread := by
  cases point with
  | requesting caller point => cases point <;> cases caller <;> decide
  | _ => decide

theorem thread_reaches {s : Threads NodeThread Point Mutex}
    (reaches : Reaches (step Point.edges) (.start NodeThread.start) s) (thread : NodeThread) :
    (s.point thread).thread = thread := by
  have start (thread : NodeThread) : (NodeThread.start thread).thread = thread := by
    cases thread <;> rfl
  have preserved (s : Threads NodeThread Point Mutex) (edge : NodeThread × Operation Mutex × Point)
      (next : Threads NodeThread Point Mutex) (stays : ∀ thread, (s.point thread).thread = thread)
      (taken : step Point.edges edge s = some next) :
      ∀ thread, (next.point thread).thread = thread := by
    intro thread
    obtain ⟨mover, isEdge, others⟩ := point_of_step taken
    by_cases moves : thread = mover
    · subst moves
      rw [thread_of_edge _ isEdge]
      exact stays thread
    · rw [others thread moves]
      exact stays thread
  exact reaches.invariant preserved start thread

/-! ## Getting rid of a mutex -/

theorem frees_drained (mutex : Mutex) : Frees Point.edges Point.held mutex .drained :=
  .release (List.mem_singleton_self _) (.free (by cases mutex <;> rfl))

theorem frees_clearing (mutex : Mutex) : Frees Point.edges Point.held mutex .clearing :=
  .go (List.mem_singleton_self _) (frees_drained mutex)

theorem frees_broadcasting (mutex : Mutex) : Frees Point.edges Point.held mutex .broadcasting :=
  .go (List.mem_singleton_self _) (frees_clearing mutex)

theorem frees_buffering (mutex : Mutex) : Frees Point.edges Point.held mutex .buffering :=
  .release (List.mem_singleton_self _) (.free (by cases mutex <;> rfl))

theorem frees_unlocking (caller : Caller) (mutex : Mutex) :
    Frees Point.edges Point.held mutex (.requesting caller .unlocking) :=
  .release (List.mem_singleton_self _) (.free (by cases mutex <;> rfl))

theorem frees_requesting (caller : Caller) (point : RequestPoint) (mutex : Mutex) :
    Frees Point.edges Point.held mutex (.requesting caller point) := by
  have unlocking := frees_unlocking caller mutex
  have comparing : Frees Point.edges Point.held mutex (.requesting caller .comparing) :=
    .go (List.mem_cons_self ..) unlocking
  cases point with
  | loop => exact .free (by cases mutex <;> rfl)
  | switch => exact .go (List.mem_cons_self ..) comparing
  | comparing => exact comparing
  | negotiating => exact .go (List.mem_cons_self ..) unlocking
  | receivingFile | deleting => exact .go (List.mem_singleton_self _) unlocking
  | unlocking => exact unlocking

theorem frees_edges (point : Point) (mutex : Mutex) : Frees Point.edges Point.held mutex point := by
  cases point with
  | requesting caller point => exact frees_requesting caller point mutex
  | looking => exact .go (List.mem_cons_of_mem _ (List.mem_singleton_self _)) (frees_drained mutex)
  | updating =>
    exact .go (List.mem_cons_of_mem _ (List.mem_singleton_self _)) (frees_broadcasting mutex)
  | broadcasting => exact frees_broadcasting mutex
  | clearing => exact frees_clearing mutex
  | drained => exact frees_drained mutex
  | scanning => exact .go (List.mem_singleton_self _) (frees_buffering mutex)
  | buffering => exact frees_buffering mutex
  | pushing | popping | stored | polled =>
    exact .release (List.mem_cons_self ..) (.free (by cases mutex <;> rfl))
  | _ => exact .free (by cases mutex <;> rfl)

/-! ## Races -/

/-- The first thread writes while the second one reads. -/
def racy : NodeThread → NodeThread → Shared → Bool
  | .handler, .collector, .fileHashes | .handler, .tableManager, .fileHashes => true
  | .collector, .handler, .folder | .tableManager, .handler, .folder => true
  | .collector, .watcher, .folder | .handler, .watcher, .folder
  | .tableManager, .watcher, .folder => true
  | _, _, _ => false

/-- What is read and written under `dirLock` only. -/
theorem held_of_dirLock {point : Point} {shared : Shared}
    (guarded : shared = .fileChangeBuf ∨ shared = .tcpClient)
    (access : point.writes shared = true ∨ point.reads shared = true) :
    point.held .dirLock = true := by
  rcases guarded with rfl | rfl <;> cases point with
  | requesting caller point =>
    cases point <;> simp_all [Point.writes, Point.reads, Point.held, RequestPoint.locked]
  | _ => simp_all [Point.writes, Point.reads, Point.held]

theorem held_of_todoUdp {point : Point}
    (access : point.writes .todoUdp = true ∨ point.reads .todoUdp = true) :
    point.held .queueMutex = true := by
  cases point <;> simp_all [Point.writes, Point.reads, Point.held]

theorem held_of_tableManagerMessage {point : Point}
    (access : point.writes .tableManagerMessage = true ∨
      point.reads .tableManagerMessage = true) : point.held .tableManagerMutex = true := by
  cases point <;> simp_all [Point.writes, Point.reads, Point.held]

/-- Only the handler writes the table. -/
theorem writes_fileHashes {point : Point} (writes : point.writes .fileHashes = true) :
    point.thread = .handler := by
  cases point <;> simp_all [Point.writes, Point.thread]

/-- The watcher does not read the table. -/
theorem reads_fileHashes {point : Point} (reads : point.reads .fileHashes = true) :
    point.thread = .collector ∨ point.thread = .tableManager := by
  cases point <;> simp_all [Point.reads, Point.thread]

theorem writes_tcpServer {point : Point}
    (access : point.writes .tcpServer = true ∨ point.reads .tcpServer = true) :
    point.thread = .handler := by
  cases point <;> simp_all [Point.writes, Point.reads, Point.thread]

/-- Files are written in `requestFiles`, with `dirLock` locked. -/
theorem writes_folder {point : Point} (writes : point.writes .folder = true) :
    point.held .dirLock = true ∧ point.thread ≠ .watcher := by
  cases point with
  | requesting caller point =>
    cases point <;> cases caller <;> simp_all [Point.writes, Point.held, Point.thread,
      RequestPoint.locked, Caller.thread]
  | _ => simp_all [Point.writes]

/-- Two threads read files without `dirLock`. -/
theorem reads_folder {point : Point} (reads : point.reads .folder = true) :
    point.held .dirLock = true ∨ point.thread = .handler ∨ point.thread = .watcher := by
  cases point with
  | requesting caller point =>
    cases point <;> simp_all [Point.reads, Point.held, RequestPoint.locked]
  | _ => simp_all [Point.reads, Point.held, Point.thread]

theorem owned_threads :
    Threads.Owned Point.held (.start NodeThread.start : Threads NodeThread Point Mutex) :=
  owned_start fun thread mutex => by cases thread <;> cases mutex <;> rfl

/-- A race is one of the list. -/
theorem racy_of_races {s : Threads NodeThread Point Mutex} {thread other : NodeThread}
    {shared : Shared} (reaches : Reaches (step Point.edges) (.start NodeThread.start) s)
    (races : s.Races Point.reads Point.writes thread other shared) :
    racy thread other shared = true := by
  have owned := owned_reaches edges_disciplined owned_threads reaches
  have mine := thread_reaches reaches thread
  have yours := thread_reaches reaches other
  cases shared with
  | fileChangeBuf =>
    exact absurd races (not_races owned fun _ => held_of_dirLock (Or.inl rfl))
  | tcpClient => exact absurd races (not_races owned fun _ => held_of_dirLock (Or.inr rfl))
  | todoUdp => exact absurd races (not_races owned fun _ => held_of_todoUdp)
  | tableManagerMessage =>
    exact absurd races (not_races owned fun _ => held_of_tableManagerMessage)
  | tcpServer =>
    obtain ⟨differ, writes, access⟩ := races
    rw [writes_tcpServer (Or.inl writes)] at mine
    rw [writes_tcpServer access] at yours
    exact absurd (mine.symm.trans yours) differ
  | fileHashes =>
    obtain ⟨differ, writes, access⟩ := races
    rw [writes_fileHashes writes] at mine
    subst mine
    rcases access with writes | reads
    · exact absurd ((writes_fileHashes writes).symm.trans yours) differ
    · rcases reads_fileHashes reads with reader | reader <;> rw [← yours, reader] <;> rfl
  | folder =>
    obtain ⟨differ, writes, access⟩ := races
    obtain ⟨locked, notWatcher⟩ := writes_folder writes
    have unlocked : (s.point other).held .dirLock ≠ true := fun held =>
      differ (exclusive owned locked held)
    have readsFolder := reads_folder (access.resolve_left fun writes =>
      unlocked (writes_folder writes).1)
    rw [mine] at notWatcher
    rw [yours] at readsFolder
    rcases readsFolder.resolve_left unlocked with rfl | rfl
    · cases thread with
      | handler => exact absurd rfl differ
      | watcher => exact absurd rfl notWatcher
      | _ => rfl
    · cases thread with
      | watcher => exact absurd rfl notWatcher
      | _ => rfl

/-- The way of a thread from its start to a write. -/
def NodeThread.wayToWrite : NodeThread → Shared → List (NodeThread × Operation Mutex × Point)
  | .handler, .fileHashes =>
    [(.handler, .acquire .dirLock, .looking), (.handler, .go, .updating)]
  | .collector, .folder =>
    [(.collector, .go, .receiving), (.collector, .go, .responding),
      (.collector, .go, .comparingArrival), (.collector, .go, .requesting .collector .loop),
      (.collector, .acquire .dirLock, .requesting .collector .switch),
      (.collector, .go, .requesting .collector .deleting)]
  | .tableManager, .folder =>
    [(.tableManager, .acquire .tableManagerMutex, .polled),
      (.tableManager, .release .tableManagerMutex, .comparingResponse),
      (.tableManager, .go, .requesting .tableManager .loop),
      (.tableManager, .acquire .dirLock, .requesting .tableManager .switch),
      (.tableManager, .go, .requesting .tableManager .deleting)]
  | .handler, .folder =>
    [(.handler, .go, .taking), (.handler, .acquire .queueMutex, .popping),
      (.handler, .release .queueMutex, .dispatching), (.handler, .go, .requesting .handler .loop),
      (.handler, .acquire .dirLock, .requesting .handler .switch),
      (.handler, .go, .requesting .handler .deleting)]
  | _, _ => []

/-- The way of a thread from its start to a read without a mutex. -/
def NodeThread.wayToRead : NodeThread → Shared → List (NodeThread × Operation Mutex × Point)
  | .tableManager, .fileHashes =>
    [(.tableManager, .acquire .tableManagerMutex, .polled),
      (.tableManager, .release .tableManagerMutex, .comparingResponse)]
  | .handler, .folder =>
    [(.handler, .go, .taking), (.handler, .acquire .queueMutex, .popping),
      (.handler, .release .queueMutex, .dispatching), (.handler, .go, .serving)]
  | _, _ => []

/-- The races of the list take place. -/
theorem races_of_racy {thread other : NodeThread} {shared : Shared}
    (isRacy : racy thread other shared = true) :
    ∃ s, Reaches (step Point.edges) (.start NodeThread.start) s ∧
      s.Races Point.reads Point.writes thread other shared := by
  have both : ∃ s, exec (step Point.edges)
      (thread.wayToWrite shared ++ other.wayToRead shared) (.start NodeThread.start) = some s ∧
      (s.point thread).writes shared = true ∧ (s.point other).reads shared = true := by
    cases thread <;> cases other <;> cases shared <;> try cases isRacy
    all_goals exact ⟨_, rfl, rfl, rfl⟩
  have differ : thread ≠ other := by
    intro same
    subst same
    cases thread <;> cases shared <;> cases isRacy
  obtain ⟨s, run, writes, reads⟩ := both
  exact ⟨s, .of_exec run, differ, writes, Or.inr reads⟩

/-- One thread at a time gets to the buffer, to the queue, to the slot of the table manager and to
    each TCP socket. The table of hashes is written by the handler alone, but without a mutex the
    collector and the table manager read it; and files are written by one thread at a time, but the
    handler that serves one and the watcher's first pass read them meanwhile. No thread that asks
    for a mutex has to wait for ever because of the other mutexes. -/
theorem shared_state :
    (∀ thread other shared, (∃ s, Reaches (step Point.edges) (.start NodeThread.start) s ∧
      s.Races Point.reads Point.writes thread other shared) ↔ racy thread other shared = true) ∧
    ∀ s, Reaches (step Point.edges) (.start NodeThread.start) s → ∀ thread mutex point,
      (.acquire mutex, point) ∈ (s.point thread).edges →
      ∃ t, Reaches (step Point.edges) s t ∧ t.point thread = point ∧
        t.owner mutex = some thread := by
  refine ⟨fun thread other shared => ⟨?_, races_of_racy⟩, ?_⟩
  · intro found
    obtain ⟨s, reaches, races⟩ := found
    exact racy_of_races reaches races
  · intro s reaches thread mutex point asks
    have owned := owned_reaches edges_disciplined owned_threads reaches
    exact gets_lock edges_disciplined frees_edges owned asks

end FileSync
