import Mathlib.Data.Fintype.Card

/-!
# Wait graphs

`waits a b` says that `a` needs `b` before it can go on. A finite graph without a cycle has,
from everything that waits, a way to something that can go on: induction over what a vertex
waits for.
-/

namespace WaitGraph

open Relation

universe u v

variable {α : Type u} {β : Type v}

/-- Nothing waits for itself, directly or through others. -/
def Acyclic (waits : α → α → Prop) : Prop := ∀ a, ¬ TransGen waits a a

/-- A graph whose edges map to edges of an acyclic graph is acyclic. -/
theorem Acyclic.of_map {waits : α → α → Prop} {earlier : β → β → Prop} (acyclic : Acyclic earlier)
    (map : α → β) (maps : ∀ a b, waits a b → earlier (map a) (map b)) : Acyclic waits := by
  intro a cycle
  exact acyclic (map a) (cycle.lift map maps)

/-- A rank that falls along the edges excludes cycles. -/
theorem acyclic_of_rank {waits : α → α → Prop} (rank : α → Nat)
    (falls : ∀ a b, waits a b → rank b < rank a) : Acyclic waits := by
  have further : ∀ a b, TransGen waits a b → rank b < rank a := by
    intro a b path
    induction path with
    | single edge => exact falls _ _ edge
    | tail _ edge ih => exact (falls _ _ edge).trans ih
  intro a cycle
  exact (further a a cycle).false

/-- What holds of a vertex as soon as it holds of all that the vertex waits for holds of
    every vertex. -/
theorem Acyclic.induction [Finite α] {waits : α → α → Prop} (acyclic : Acyclic waits)
    {motive : α → Prop} (step : ∀ a, (∀ b, waits a b → motive b) → motive a) (a : α) :
    motive a := by
  have : IsTrans α fun b a => TransGen waits a b := ⟨fun _ _ _ first second => second.trans first⟩
  have : Std.Irrefl fun b a => TransGen waits a b := ⟨acyclic⟩
  have wellFounded := Finite.wellFounded_of_trans_of_irrefl fun b a => TransGen waits a b
  exact wellFounded.induction a fun a ih => step a fun b edge => ih b (.single edge)

end WaitGraph
