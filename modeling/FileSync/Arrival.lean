import FileSync.ChangeBuffer

/-!
# The arrival of a node

A joining node binds its socket and announces itself with pid 0. The existing node's collector
answers with pid 1, which carries the table of its handler as it is at that moment, without
`dirLock`; its pid-6 broadcasts reach the joining node from the binding on. The table is a
snapshot taken at some point of the log that the broadcasts are a suffix of.
-/

namespace FileSync

open TransitionSystem

/-- An existing node and what a joining node has received from it. -/
structure Arrival where
  existing : Monitor
  /-- Whether `listenUdp` has bound the socket of the joining node. -/
  bound : Bool
  /-- Whether the pid-0 packet is on its way. -/
  announced : Bool
  /-- The pid-6 lists broadcast since the socket was bound, in order. -/
  received : List (List FileChangeData)
  /-- The table of the pid-1 packet. -/
  response : Option FileTable

/-- What happens between an existing node and a joining one. -/
inductive ArrivalAction where
  /-- The watcher or the drain of the existing node takes a step. -/
  | existing (action : MonitorAction)
  /-- `listenUdp` of the joining node. -/
  | bind
  /-- `discoverDriver` of the joining node. -/
  | announce
  /-- `collectUdpTraffic` of the existing node gets pid 0, and `respondToArrival` reads
      `fileHashes`. -/
  | respond

/-- One step of the existing node's watcher or drain, of `listenUdp` and `discoverDriver` of the
    joining node (Node.cpp 38-41, 338-346), or of `respondToArrival` (93-98), which reads
    `fileHashes` without a lock. -/
def arrivalStep : ArrivalAction → Arrival → Option Arrival
  | .existing action, s =>
    match monitorStep action s.existing with
    | some existing =>
      match action with
      | .broadcast => some { s with
          existing
          received := if s.bound then s.received ++ [s.existing.fileChangeBuf] else s.received }
      | _ => some { s with existing }
    | none => none
  | .bind, s => if s.bound then none else some { s with bound := true }
  | .announce, s => if s.bound then some { s with announced := true } else none
  | .respond, s =>
    if s.announced then
      some { s with announced := false, response := some s.existing.fileHashes }
    else none

/-- The tables of the existing node agree, and the joining node has not started. -/
def Arrival.start (table : FileTable) : Arrival :=
  { existing := Monitor.start table, bound := false, announced := false, received := []
    response := none }

/-! ## The log since the binding -/

/-- From the moment of the binding on there is a table from which the log has been received
    completely. The snapshot is that table with some of the log applied. -/
structure ArrivalInv (first : FileTable) (s : Arrival) : Prop where
  monitor : MonitorInv first s.existing
  unbound : s.bound = false → s.announced = false ∧ s.received = [] ∧ s.response = none
  logged : s.bound = true → ∃ base : FileTable,
    applyChanges base s.received.flatten = s.existing.broadcasts.foldl applyChanges first ∧
      ∀ snapshot, s.response = some snapshot → ∃ seen, snapshot = applyChanges base seen ∧
        seen ⊆ s.received.flatten ++ s.existing.unbroadcast
  /-- Between a broadcast and the end of its drain the buffer is the last thing broadcast. -/
  lastSent : s.existing.phase = .sent → ∃ older : FileTable,
    s.existing.broadcasts.foldl applyChanges first =
      applyChanges older s.existing.fileChangeBuf

theorem arrivalInv_start (first : FileTable) : ArrivalInv first (Arrival.start first) where
  monitor := monitorInv_start first
  unbound := fun _ => ⟨rfl, rfl, rfl⟩
  logged := fun bound => by cases bound
  lastSent := fun sent => by cases sent

/-- A step of the existing node other than a broadcast only adds to what is unbroadcast. -/
theorem unbroadcast_grows {action : MonitorAction} {m next : Monitor}
    (taken : monitorStep action m = some next) (silent : action ≠ .broadcast) :
    next.broadcasts = m.broadcasts ∧ m.unbroadcast ⊆ next.unbroadcast ∧ next.phase ≠ .sent := by
  obtain ⟨prevDir, fileHashes, fileChangeBuf, phase, broadcasts⟩ := m
  cases monitorEffect_of_step taken with
  | scan newDir idle =>
    cases idle
    exact ⟨rfl, List.subset_append_left _ _, nofun⟩
  | lock idle nonempty =>
    cases idle
    exact ⟨rfl, List.Subset.refl _, nofun⟩
  | update updating =>
    cases updating
    exact ⟨rfl, List.Subset.refl _, nofun⟩
  | broadcast => exact absurd rfl silent
  | clear sent =>
    cases sent
    exact ⟨rfl, List.nil_subset _, nofun⟩

theorem arrivalInv_existing {first : FileTable} {action : MonitorAction} {s : Arrival}
    {existing : Monitor} (inv : ArrivalInv first s)
    (taken : monitorStep action s.existing = some existing) (silent : action ≠ .broadcast) :
    ArrivalInv first { s with existing } := by
  obtain ⟨same, grows, unsent⟩ := unbroadcast_grows taken silent
  refine ⟨monitorInv_step inv.monitor taken, inv.unbound, fun bound => ?_, fun sent => ?_⟩
  · obtain ⟨base, log, snapshots⟩ := inv.logged bound
    refine ⟨base, log.trans (by rw [same]), fun snapshot answered => ?_⟩
    obtain ⟨seen, read, within⟩ := snapshots snapshot answered
    refine ⟨seen, read, List.Subset.trans within ?_⟩
    exact List.append_subset.mpr ⟨List.subset_append_left _ _,
      List.Subset.trans grows (List.subset_append_right _ _)⟩
  · exact absurd sent unsent

theorem arrivalInv_broadcast {first : FileTable} {s : Arrival} {existing : Monitor}
    (inv : ArrivalInv first s) (taken : monitorStep .broadcast s.existing = some existing) :
    ArrivalInv first { s with
      existing
      received := if s.bound then s.received ++ [s.existing.fileChangeBuf] else s.received } := by
  have monitor := monitorInv_step inv.monitor taken
  obtain ⟨⟨prevDir, fileHashes, fileChangeBuf, phase, broadcasts⟩, bound, announced, received,
    response⟩ := s
  cases monitorEffect_of_step taken with
  | broadcast updating =>
    cases updating
    have after : (broadcasts ++ [fileChangeBuf]).foldl applyChanges first =
        applyChanges (broadcasts.foldl applyChanges first) fileChangeBuf := by
      rw [List.foldl_append]
      rfl
    refine ⟨monitor, fun unbound => ?_, fun isBound => ?_, fun _ => ⟨_, after⟩⟩
    · cases unbound
      exact inv.unbound rfl
    · cases isBound
      obtain ⟨base, log, snapshots⟩ := inv.logged rfl
      simp only at log
      have flat : (received ++ [fileChangeBuf]).flatten = received.flatten ++ fileChangeBuf := by
        simp
      refine ⟨base, ?_, fun snapshot answered => ?_⟩
      · change applyChanges base (received ++ [fileChangeBuf]).flatten = _
        rw [flat, applyChanges_append, log, after]
      · obtain ⟨seen, read, within⟩ := snapshots snapshot answered
        refine ⟨seen, read, ?_⟩
        change seen ⊆ (received ++ [fileChangeBuf]).flatten ++ []
        rw [List.append_nil, flat]
        exact within

theorem arrivalInv_step {first : FileTable} {action : ArrivalAction} {s next : Arrival}
    (inv : ArrivalInv first s) (taken : arrivalStep action s = some next) :
    ArrivalInv first next := by
  cases action with
  | existing action =>
    simp only [arrivalStep] at taken
    split at taken
    · rename_i existing moved
      split at taken <;> cases taken
      · exact arrivalInv_broadcast inv moved
      · rename_i silent
        exact arrivalInv_existing inv moved silent
    · cases taken
  | bind =>
    simp only [arrivalStep] at taken
    split at taken <;> cases taken
    rename_i unbound
    obtain ⟨_, received, response⟩ := inv.unbound (by simpa using unbound)
    refine ⟨inv.monitor, (fun isBound => by cases isBound), fun _ => ?_, inv.lastSent⟩
    refine ⟨s.existing.broadcasts.foldl applyChanges first, ?_, fun snapshot answered => ?_⟩
    · rw [received]
      rfl
    · rw [response] at answered
      cases answered
  | announce =>
    simp only [arrivalStep] at taken
    split at taken <;> cases taken
    rename_i bound
    refine ⟨inv.monitor, fun unbound => ?_, inv.logged, inv.lastSent⟩
    rw [bound] at unbound
    cases unbound
  | respond =>
    simp only [arrivalStep] at taken
    split at taken <;> cases taken
    rename_i announced
    refine ⟨inv.monitor, fun unbound => ?_, fun bound => ?_, inv.lastSent⟩
    · rw [(inv.unbound unbound).1] at announced
      cases announced
    · obtain ⟨base, log, _⟩ := inv.logged bound
      refine ⟨base, log, fun snapshot answered => ?_⟩
      cases answered
      refine ⟨s.received.flatten ++ s.existing.unsent, ?_, ?_⟩
      · rw [applyChanges_append, log]
        exact inv.monitor.drained.symm
      · exact List.append_subset.mpr ⟨List.subset_append_left _ _,
          List.Subset.trans (unsent_subset inv.monitor) (List.subset_append_right _ _)⟩

/-! ## The snapshot and the log -/

/-- The pid-6 lists since the binding, replayed on the table of pid 1 with what is still
    buffered, give the watcher's table, whether the drain that has just broadcast its buffer
    counts as done or not. -/
theorem response_replayed {first : FileTable} {actions : List ArrivalAction} {s : Arrival}
    {snapshot : FileTable}
    (run : Run arrivalStep anyStep (Arrival.start first) actions s)
    (answered : s.response = some snapshot) :
    (s.received ++ [s.existing.unbroadcast]).foldl applyChanges snapshot = s.existing.prevDir ∧
      (s.received ++ [s.existing.fileChangeBuf]).foldl applyChanges snapshot =
        s.existing.prevDir := by
  have inv : ArrivalInv first s := run.invariant
    (fun _ _ _ inv _ taken => arrivalInv_step inv taken) (arrivalInv_start first)
  have bound : s.bound = true := by
    by_contra unbound
    rw [(inv.unbound (by simpa using unbound)).2.2] at answered
    cases answered
  obtain ⟨base, log, snapshots⟩ := inv.logged bound
  obtain ⟨seen, rfl, within⟩ := snapshots snapshot answered
  have replayed : applyChanges (applyChanges base seen)
      (s.received.flatten ++ s.existing.unbroadcast) = s.existing.prevDir := by
    rw [applyChanges_of_subset within, applyChanges_append, log,
      applyChanges_unbroadcast inv.monitor]
  simp only [foldl_applyChanges, List.flatten_append, List.flatten_singleton]
  refine ⟨replayed, ?_⟩
  cases phase : s.existing.phase with
  | sent =>
    -- the buffer has just been broadcast: it is replayed once more
    have unbroadcast : s.existing.unbroadcast = [] := by
      rw [Monitor.unbroadcast, phase]
    obtain ⟨older, lastSent⟩ := inv.lastSent phase
    have reached : applyChanges older s.existing.fileChangeBuf = s.existing.prevDir := by
      rw [← lastSent, ← applyChanges_unbroadcast inv.monitor, unbroadcast]
      rfl
    rw [unbroadcast, List.append_nil] at replayed
    rw [applyChanges_append, replayed, ← reached]
    exact applyChanges_of_subset (List.Subset.refl _) older
  | _ =>
    rw [Monitor.unbroadcast, phase] at replayed
    exact replayed

/-- A file is edited after the binding, and the table is read before the edit is broadcast. -/
theorem response_replayed_edited :
    [[⟨wide "\\a", 2, .edit⟩], []].foldl applyChanges ((∅ : FileTable).insert (wide "\\a") 2) =
      (∅ : FileTable).insert (wide "\\a") 2 := by
  have run : Run arrivalStep anyStep (Arrival.start ((∅ : FileTable).insert (wide "\\a") 1))
      [.bind, .announce, .existing (.scan ((∅ : FileTable).insert (wide "\\a") 2)),
        .existing .lock, .existing .update, .respond, .existing .broadcast, .existing .clear]
      { existing :=
          { prevDir := (∅ : FileTable).insert (wide "\\a") 2
            fileHashes := (∅ : FileTable).insert (wide "\\a") 2
            fileChangeBuf := []
            phase := .idle
            broadcasts := [[⟨wide "\\a", 2, .edit⟩]] }
        bound := true
        announced := false
        received := [[⟨wide "\\a", 2, .edit⟩]]
        response := some ((∅ : FileTable).insert (wide "\\a") 2) } := Run.of_exec rfl
  exact (response_replayed run rfl).1

end FileSync
