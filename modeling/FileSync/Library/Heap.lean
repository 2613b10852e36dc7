import Mathlib.Data.List.Basic
import Mathlib.Data.List.Nodup
import Mathlib.Logic.Function.Basic

/-!
# Heaps with owners

Objects that are created with `new` and destroyed with `delete`. An address is not used twice, so
that a pointer to a destroyed object is never taken for one to another object. A program is safe
where each object that lives has exactly one owner.
-/

universe u

/-- The objects that live, by their addresses. -/
structure Heap (α : Type u) where
  /-- The address of the object that is created next. -/
  next : Nat
  objects : Nat → Option α

namespace Heap

variable {α : Type u}

/-- No object lives. -/
def empty : Heap α := ⟨0, fun _ => none⟩

/-- What a pointer points to, if the object lives. -/
def load (heap : Heap α) (pointer : Nat) : Option α := heap.objects pointer

/-- The pointer to a new object, and the heap with it. -/
def new (heap : Heap α) (object : α) : Nat × Heap α :=
  (heap.next, ⟨heap.next + 1, Function.update heap.objects heap.next (some object)⟩)

/-- A write to an object that lives. -/
def store (heap : Heap α) (pointer : Nat) (object : α) : Option (Heap α) :=
  (heap.load pointer).map fun _ =>
    { heap with objects := Function.update heap.objects pointer (some object) }

/-- The end of an object that lives. -/
def delete (heap : Heap α) (pointer : Nat) : Option (Heap α) :=
  (heap.load pointer).map fun _ =>
    { heap with objects := Function.update heap.objects pointer none }

/-- The pointers to all objects that live, each with one owner. -/
structure Owns (heap : Heap α) (owners : List Nat) : Prop where
  distinct : owners.Nodup
  lives : ∀ pointer, (heap.load pointer).isSome = true ↔ pointer ∈ owners
  below : ∀ pointer ∈ owners, pointer < heap.next

theorem owns_empty : (empty : Heap α).Owns [] :=
  ⟨List.nodup_nil, by simp [empty, load], by simp⟩

variable {heap : Heap α} {owners others : List Nat} {pointer : Nat} {object : α}

theorem Owns.perm (owns : heap.Owns owners) (moved : owners.Perm others) : heap.Owns others where
  distinct := moved.nodup_iff.mp owns.distinct
  lives := fun pointer => (owns.lives pointer).trans moved.mem_iff
  below := fun pointer member => owns.below pointer (moved.mem_iff.mpr member)

theorem Owns.load (owns : heap.Owns owners) (member : pointer ∈ owners) :
    ∃ object, heap.load pointer = some object :=
  Option.isSome_iff_exists.mp ((owns.lives pointer).mpr member)

/-! ## What the operations leave alone -/

@[simp] theorem load_new_self : (heap.new object).2.load (heap.new object).1 = some object := by
  simp [new, Heap.load]

theorem load_new_of_ne (differ : pointer ≠ heap.next) :
    (heap.new object).2.load pointer = heap.load pointer := by
  simp [new, Heap.load, differ]

theorem Owns.load_new (owns : heap.Owns owners) (member : pointer ∈ owners) :
    (heap.new object).2.load pointer = heap.load pointer :=
  load_new_of_ne (Nat.ne_of_lt (owns.below pointer member))

theorem load_store {next : Heap α} (stored : heap.store pointer object = some next) (other : Nat) :
    next.load other = if other = pointer then some object else heap.load other := by
  obtain ⟨_, _, rfl⟩ := Option.map_eq_some_iff.mp stored
  simp only [Heap.load, Function.update_apply]

theorem load_delete {next : Heap α} (deleted : heap.delete pointer = some next) (other : Nat) :
    next.load other = if other = pointer then none else heap.load other := by
  obtain ⟨_, _, rfl⟩ := Option.map_eq_some_iff.mp deleted
  simp only [Heap.load, Function.update_apply]

/-! ## The owners after an operation -/

/-- Who creates an object owns it. -/
theorem Owns.new (owns : heap.Owns owners) (object : α) :
    (heap.new object).2.Owns ((heap.new object).1 :: owners) where
  distinct := by
    apply List.nodup_cons.mpr ⟨fun member => ?_, owns.distinct⟩
    exact Nat.lt_irrefl _ (owns.below _ member)
  lives := by
    intro pointer
    by_cases same : pointer = heap.next
    · subst same
      simp [Heap.new, Heap.load]
    · rw [load_new_of_ne same, owns.lives, List.mem_cons]
      exact ⟨Or.inr, fun member => member.resolve_left same⟩
  below := by
    intro pointer member
    rcases List.mem_cons.mp member with rfl | old
    · exact Nat.lt_succ_self _
    · exact Nat.lt_succ_of_lt (owns.below pointer old)

theorem Owns.store (owns : heap.Owns owners) (member : pointer ∈ owners) (object : α) :
    ∃ next, heap.store pointer object = some next ∧ next.Owns owners := by
  obtain ⟨old, found⟩ := owns.load member
  have stored : heap.store pointer object = some
      { heap with objects := Function.update heap.objects pointer (some object) } := by
    rw [Heap.store, found, Option.map_some]
  refine ⟨_, stored, owns.distinct, fun other => ?_, owns.below⟩
  rw [load_store stored]
  split
  · rename_i same
    exact ⟨fun _ => same ▸ member, fun _ => rfl⟩
  · exact owns.lives other

/-- Who owns an object can delete it, and then nobody owns it. -/
theorem Owns.delete (owns : heap.Owns (pointer :: owners)) :
    ∃ next, heap.delete pointer = some next ∧ next.Owns owners := by
  obtain ⟨old, found⟩ := owns.load (List.mem_cons_self ..)
  obtain ⟨single, distinct⟩ := List.nodup_cons.mp owns.distinct
  have deleted : heap.delete pointer = some
      { heap with objects := Function.update heap.objects pointer none } := by
    rw [Heap.delete, found, Option.map_some]
  refine ⟨_, deleted, distinct, fun other => ?_, fun other member =>
    owns.below other (List.mem_cons_of_mem _ member)⟩
  rw [load_delete deleted]
  split
  · rename_i same
    exact ⟨fun lives => absurd lives Bool.false_ne_true,
      fun member => absurd (same ▸ member) single⟩
  · rename_i differ
    rw [owns.lives other, List.mem_cons, or_iff_right differ]

end Heap
