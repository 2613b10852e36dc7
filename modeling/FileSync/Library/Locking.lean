import FileSync.Library.Runs
import Mathlib.Data.Fintype.Pi
import Mathlib.Logic.Function.Basic

/-!
# Threads with locks

The control flow of a program is a graph of points; an edge may acquire or release a lock. Where the
locks that a thread holds can be read off the point it has reached, what is done under one lock is
done by one thread at a time.
-/

namespace Locking

open TransitionSystem

universe u v w x

variable {T : Type u} {P : Type v} {L : Type w} {V : Type x}

/-- What a thread does on an edge. -/
inductive Operation (L : Type w) where
  | go
  | acquire (lock : L)
  | release (lock : L)
  deriving DecidableEq

/-- The edges from each point. -/
abbrev Program (P : Type v) (L : Type w) : Type (max v w) := P → List (Operation L × P)

/-- The points of the threads and the owners of the locks. -/
structure Threads (T : Type u) (P : Type v) (L : Type w) where
  point : T → P
  owner : L → Option T

section

variable [DecidableEq T] [DecidableEq P] [DecidableEq L]

/-- A thread goes to a point. -/
def Threads.go (s : Threads T P L) (thread : T) (point : P) : Threads T P L :=
  { s with point := Function.update s.point thread point }

/-- A thread takes an edge. -/
def step (program : Program P L) : T × Operation L × P → Threads T P L → Option (Threads T P L)
  | (thread, operation, point), s =>
    if (operation, point) ∈ program (s.point thread) then
      match operation with
      | .go => some (s.go thread point)
      | .acquire lock =>
        match s.owner lock with
        | none => some { s.go thread point with
            owner := Function.update s.owner lock (some thread) }
        | some _ => none
      | .release lock => some { s.go thread point with
          owner := Function.update s.owner lock none }
    else none

/-- No thread owns a lock. -/
def Threads.start (point : T → P) : Threads T P L := ⟨point, fun _ => none⟩

/-! ## Discipline -/

/-- What an operation makes of the locks that are held. -/
def Operation.Makes (before after : L → Bool) : Operation L → Prop
  | .go => after = before
  | .acquire lock => before lock = false ∧ after = Function.update before lock true
  | .release lock => before lock = true ∧ after = Function.update before lock false

instance [Fintype L] (before after : L → Bool) :
    DecidablePred (Operation.Makes before after)
  | .go => inferInstanceAs (Decidable (after = before))
  | .acquire lock => inferInstanceAs
    (Decidable (before lock = false ∧ after = Function.update before lock true))
  | .release lock => inferInstanceAs
    (Decidable (before lock = true ∧ after = Function.update before lock false))

/-- A thread that has reached a point holds the locks of that point. -/
def Disciplined (program : Program P L) (held : P → L → Bool) : Prop :=
  ∀ point, ∀ edge ∈ program point, edge.1.Makes (held point) (held edge.2)

/-- The owners of the locks are the threads whose points say so. -/
def Threads.Owned (held : P → L → Bool) (s : Threads T P L) : Prop :=
  ∀ lock thread, s.owner lock = some thread ↔ held (s.point thread) lock = true

variable {program : Program P L} {held : P → L → Bool} {s next : Threads T P L}

omit [DecidableEq T] [DecidableEq P] [DecidableEq L] in
theorem owned_start {point : T → P} (free : ∀ thread lock, held (point thread) lock = false) :
    (Threads.start point : Threads T P L).Owned held := by
  intro lock thread
  simp [Threads.start, free]

omit [DecidableEq P] [DecidableEq L] in
/-- A step of a thread that leaves its locks as they are. -/
theorem owned_go {thread : T} {point : P} (owned : s.Owned held)
    (same : held point = held (s.point thread)) : (s.go thread point).Owned held := by
  intro lock other
  by_cases mine : other = thread
  · subst mine
    simp only [Threads.go, Function.update_self, same]
    exact owned lock other
  · simp only [Threads.go, Function.update_of_ne mine]
    exact owned lock other

omit [DecidableEq P] in
theorem owned_acquire {thread : T} {point : P} {lock : L} (owned : s.Owned held)
    (free : s.owner lock = none)
    (holds : held point = Function.update (held (s.point thread)) lock true) :
    Threads.Owned held { s.go thread point with
      owner := Function.update s.owner lock (some thread) } := by
  intro other taker
  have others : held (s.point taker) lock = false := by
    cases taken : held (s.point taker) lock with
    | false => rfl
    | true => cases free.symm.trans ((owned lock taker).mpr taken)
  by_cases mine : taker = thread
  · subst mine
    by_cases this : other = lock
    · subst this
      simp [Threads.go, holds]
    · simp only [Threads.go, Function.update_self, holds, Function.update_of_ne this]
      exact owned other taker
  · simp only [Threads.go, Function.update_of_ne mine]
    by_cases this : other = lock
    · subst this
      simp [others, Ne.symm mine]
    · rw [Function.update_of_ne this]
      exact owned other taker

omit [DecidableEq P] in
theorem owned_release {thread : T} {point : P} {lock : L} (owned : s.Owned held)
    (had : held (s.point thread) lock = true)
    (holds : held point = Function.update (held (s.point thread)) lock false) :
    Threads.Owned held { s.go thread point with
      owner := Function.update s.owner lock none } := by
  intro other taker
  by_cases mine : taker = thread
  · subst mine
    by_cases this : other = lock
    · subst this
      simp [Threads.go, holds]
    · simp only [Threads.go, Function.update_self, holds, Function.update_of_ne this]
      exact owned other taker
  · have others : held (s.point taker) lock = false := by
      cases taken : held (s.point taker) lock with
      | false => rfl
      | true =>
        have same := ((owned lock taker).mpr taken).symm.trans ((owned lock thread).mpr had)
        exact absurd (Option.some.inj same) mine
    simp only [Threads.go, Function.update_of_ne mine]
    by_cases this : other = lock
    · subst this
      simp [others]
    · rw [Function.update_of_ne this]
      exact owned other taker

theorem owned_step {edge : T × Operation L × P} (disciplined : Disciplined program held)
    (owned : s.Owned held) (taken : step program edge s = some next) : next.Owned held := by
  obtain ⟨thread, operation, point⟩ := edge
  simp only [step] at taken
  split at taken
  · rename_i isEdge
    have makes := disciplined _ _ isEdge
    cases operation with
    | go =>
      cases taken
      exact owned_go owned makes
    | acquire lock =>
      simp only at taken
      split at taken <;> cases taken
      exact owned_acquire owned ‹_› makes.2
    | release lock =>
      cases taken
      exact owned_release owned makes.1 makes.2
  · cases taken

/-- A step takes one thread along an edge. -/
theorem point_of_step {edge : T × Operation L × P} (taken : step program edge s = some next) :
    ∃ thread, (edge.2.1, next.point thread) ∈ program (s.point thread) ∧
      ∀ other, other ≠ thread → next.point other = s.point other := by
  obtain ⟨thread, operation, point⟩ := edge
  have moved : (operation, point) ∈ program (s.point thread) ∧
      next.point = Function.update s.point thread point := by
    simp only [step] at taken
    split at taken
    · refine ⟨‹_›, ?_⟩
      cases operation with
      | acquire lock =>
        simp only at taken
        split at taken <;> cases taken
        rfl
      | _ =>
        cases taken
        rfl
    · cases taken
  refine ⟨thread, ?_, fun other differ => ?_⟩
  · rw [moved.2, Function.update_self]
    exact moved.1
  · rw [moved.2, Function.update_of_ne differ]

theorem owned_reaches (disciplined : Disciplined program held) (owned : s.Owned held)
    (reaches : Reaches (step program) s next) : next.Owned held :=
  reaches.invariant (fun _ _ _ owned taken => owned_step disciplined owned taken) owned

omit [DecidableEq T] [DecidableEq P] [DecidableEq L] in
/-- What holds a lock is one thread. -/
theorem exclusive {thread other : T} {lock : L} (owned : s.Owned held)
    (mine : held (s.point thread) lock = true) (yours : held (s.point other) lock = true) :
    thread = other :=
  Option.some.inj (((owned lock thread).mpr mine).symm.trans ((owned lock other).mpr yours))

/-! ## Races -/

/-- One thread is at a write of a variable, and another one at a write or a read of it. -/
def Threads.Races (reads writes : P → V → Bool) (s : Threads T P L) (thread other : T)
    (shared : V) : Prop :=
  thread ≠ other ∧ writes (s.point thread) shared = true ∧
    (writes (s.point other) shared = true ∨ reads (s.point other) shared = true)

omit [DecidableEq T] [DecidableEq P] [DecidableEq L] in
/-- There are no races where both sides hold one lock. -/
theorem not_races {reads writes : P → V → Bool} {thread other : T} {shared : V} {lock : L}
    (owned : s.Owned held)
    (guarded : ∀ point, writes point shared = true ∨ reads point shared = true →
      held point lock = true) : ¬ s.Races reads writes thread other shared := by
  intro races
  obtain ⟨differ, mine, yours⟩ := races
  exact differ (exclusive owned (guarded _ (Or.inl mine)) (guarded _ yours))

/-! ## Getting a lock -/

/-- From a point a thread can get rid of a lock without taking another one. -/
inductive Frees (program : Program P L) (held : P → L → Bool) (lock : L) : P → Prop where
  | free {point : P} : held point lock = false → Frees program held lock point
  | go {point next : P} : (.go, next) ∈ program point → Frees program held lock next →
      Frees program held lock point
  | release {point next : P} {other : L} : (.release other, next) ∈ program point →
      Frees program held lock next → Frees program held lock point

theorem frees_reaches {lock : L} {point : P} (frees : Frees program held lock point) :
    ∀ {s : Threads T P L} {thread : T}, s.point thread = point →
      ∃ t : Threads T P L, Reaches (step program) s t ∧ held (t.point thread) lock = false ∧
        ∀ other, other ≠ thread → t.point other = s.point other := by
  induction frees with
  | free free =>
    intro s thread there
    subst there
    exact ⟨s, Reaches.refl s, free, fun _ _ => rfl⟩
  | @go point next edge _ ih =>
    intro s thread there
    subst there
    have taken : step program (thread, .go, next) s = some (s.go thread next) := by
      simp only [step, if_pos edge]
    have there : (s.go thread next).point thread = next := by simp [Threads.go]
    obtain ⟨t, reaches, free, others⟩ := ih there
    refine ⟨t, reaches.head taken, free, fun other differ => ?_⟩
    rw [others other differ]
    simp [Threads.go, differ]
  | @release point next lock edge _ ih =>
    intro s thread there
    subst there
    have taken : step program (thread, .release lock, next) s = some { s.go thread next with
        owner := Function.update s.owner lock none } := by
      simp only [step, if_pos edge]
    have there : Threads.point { s.go thread next with
        owner := Function.update s.owner lock none } thread = next := by
      simp [Threads.go]
    obtain ⟨t, reaches, free, others⟩ := ih there
    refine ⟨t, reaches.head taken, free, fun other differ => ?_⟩
    rw [others other differ]
    simp [Threads.go, differ]

/-- Where every holder can get rid of a lock, every thread that asks for one can get it. -/
theorem gets_lock (disciplined : Disciplined program held)
    (frees : ∀ point lock, Frees program held lock point) (owned : s.Owned held) {thread : T}
    {lock : L} {point : P} (asks : (.acquire lock, point) ∈ program (s.point thread)) :
    ∃ t : Threads T P L, Reaches (step program) s t ∧ t.point thread = point ∧
      t.owner lock = some thread := by
  have unlocked : ∃ t : Threads T P L, Reaches (step program) s t ∧ t.owner lock = none ∧
      t.point thread = s.point thread := by
    cases holder : s.owner lock with
    | none => exact ⟨s, Reaches.refl s, holder, rfl⟩
    | some other =>
      obtain ⟨t, reaches, free, others⟩ := frees_reaches (frees (s.point other) lock) rfl
      have differ : thread ≠ other := by
        intro same
        subst same
        have mine := (owned lock thread).mp holder
        rw [(disciplined _ _ asks).1] at mine
        cases mine
      refine ⟨t, reaches, ?_, others thread differ⟩
      cases taken : t.owner lock with
      | none => rfl
      | some taker =>
        have takes := (owned_reaches disciplined owned reaches lock taker).mp taken
        by_cases same : taker = other
        · subst same
          cases free.symm.trans takes
        · rw [others taker same] at takes
          exact absurd (exclusive owned takes ((owned lock other).mp holder)) same
  obtain ⟨t, reaches, free, same⟩ := unlocked
  have taken : step program (thread, .acquire lock, point) t = some { t.go thread point with
      owner := Function.update t.owner lock (some thread) } := by
    rw [← same] at asks
    simp only [step, if_pos asks, free]
  refine ⟨_, reaches.trans (Reaches.head taken (Reaches.refl _)), ?_, ?_⟩
  · simp [Threads.go]
  · simp

end

end Locking
