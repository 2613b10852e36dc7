import Mathlib.Data.List.Infix
import Mathlib.Data.List.TakeDrop
import Mathlib.Tactic.Common

/-!
# Relative paths with steps up

A place in a tree is the list of the names that lead to it from the root. A relative path may step
down to a name, step up, or stay; the root, which has one name, is not left. Any such path first
climbs a number of steps and then descends: which steps these are can be told without the place.
-/

namespace Climb

universe u

variable {α : Type u}

/-- A step in a tree of names. -/
inductive Move (α : Type u) where
  | stay
  | up
  | down (name : α)

/-- One move from a place. -/
def Move.apply (place : List α) : Move α → List α
  | .stay => place
  | .up => if place.length ≤ 1 then place else place.dropLast
  | .down name => place ++ [name]

/-- The steps up, and the names to descend to after them. -/
structure Route (α : Type u) where
  ups : Nat
  downs : List α

/-- One move more: a step up takes back the last step down. -/
def Route.add (route : Route α) : Move α → Route α
  | .stay => route
  | .up =>
    if route.downs = [] then { route with ups := route.ups + 1 }
    else { route with downs := route.downs.dropLast }
  | .down name => { route with downs := route.downs ++ [name] }

/-- What a list of moves comes to. -/
def route (moves : List (Move α)) : Route α := moves.foldl Route.add { ups := 0, downs := [] }

/-- How many names of a place are left after the steps up. -/
def Route.kept (r : Route α) (place : List α) : Nat := max 1 (place.length - r.ups)

/-- The end of a route. -/
def Route.end (r : Route α) (place : List α) : List α := place.take (r.kept place) ++ r.downs

/-- The names of the place that a route gives up. -/
def Route.left (r : Route α) (place : List α) : List α := place.drop (r.kept place)

theorem end_add {place : List α} (nonempty : place ≠ []) (r : Route α) (move : Move α) :
    (r.add move).end place = move.apply (r.end place) := by
  have positive : 0 < place.length := List.length_pos_of_ne_nil nonempty
  cases move with
  | stay => rfl
  | down name => exact (List.append_assoc _ _ _).symm
  | up =>
    have length : (place.take (r.kept place)).length = r.kept place := by
      rw [List.length_take, Route.kept]
      omega
    by_cases descended : r.downs = []
    · have added : r.add .up = { r with ups := r.ups + 1 } := if_pos descended
      have kept : Route.kept { r with ups := r.ups + 1 } place = max 1 (r.kept place - 1) := by
        simp only [Route.kept]
        omega
      rw [added, Route.end, Route.end, kept, descended, List.append_nil, List.append_nil,
        Move.apply, length]
      split
      · rename_i root
        rw [Nat.max_eq_left (by omega), Nat.le_antisymm root (Nat.le_max_left _ _)]
      · rename_i deep
        rw [Nat.max_eq_right (by omega), List.dropLast_eq_take, length, List.take_take,
          Nat.min_eq_left (Nat.sub_le _ _)]
    · have added : r.add .up = { r with downs := r.downs.dropLast } := if_neg descended
      have deep : ¬ (place.take (r.kept place) ++ r.downs).length ≤ 1 := by
        have more := List.length_pos_of_ne_nil descended
        rw [List.length_append, length, Route.kept]
        omega
      rw [added, Route.end, Route.end, Move.apply, if_neg deep,
        List.dropLast_append_of_ne_nil descended]
      rfl

/-- Moves lead where their route leads. -/
theorem foldl_apply {place : List α} (nonempty : place ≠ []) (moves : List (Move α)) :
    moves.foldl Move.apply place = (route moves).end place := by
  induction moves using List.reverseRecOn with
  | nil =>
    have all : place.length ≤ Route.kept { ups := 0, downs := [] } place := Nat.le_max_right _ _
    rw [List.foldl_nil, route, List.foldl_nil, Route.end, List.take_of_length_le all,
      List.append_nil]
  | append_singleton moves move ih =>
    have added : route (moves ++ [move]) = (route moves).add move := by
      rw [route, List.foldl_concat]
      rfl
    rw [List.foldl_concat, ih, added, end_add nonempty]

/-- Without steps up a route descends to the names on it. -/
theorem route_down (names : List α) :
    route (names.map Move.down) = { ups := 0, downs := names } := by
  induction names using List.reverseRecOn with
  | nil => rfl
  | append_singleton names name ih =>
    rw [List.map_append, route, List.foldl_append, ← route, ih]
    rfl

theorem left_of_zero {r : Route α} (none : r.ups = 0) (place : List α) : r.left place = [] := by
  apply List.drop_eq_nil_of_le
  rw [Route.kept, none]
  exact Nat.le_max_right _ _

/-! ## Ends and the place they are looked for from -/

/-- Neither place is on the way to the other. -/
def Beside (place other : List α) : Prop := ¬ place <+: other ∧ ¬ other <+: place

instance [DecidableEq α] (place other : List α) : Decidable (Beside place other) :=
  inferInstanceAs (Decidable (¬ place <+: other ∧ ¬ other <+: place))

theorem place_eq (r : Route α) (place : List α) :
    place = place.take (r.kept place) ++ r.left place :=
  (List.take_append_drop _ _).symm

theorem prefix_end_iff (r : Route α) (place : List α) :
    place <+: r.end place ↔ r.left place <+: r.downs := by
  conv_lhs => lhs; rw [place_eq r place]
  exact List.prefix_append_right_inj _

theorem end_prefix_iff (r : Route α) (place : List α) :
    r.end place <+: place ↔ r.downs <+: r.left place := by
  conv_lhs => rhs; rw [place_eq r place]
  exact List.prefix_append_right_inj _

theorem end_eq_iff (r : Route α) (place : List α) :
    r.end place = place ↔ r.downs = r.left place := by
  conv_lhs => rhs; rw [place_eq r place]
  exact List.append_right_inj _

theorem beside_end_iff (r : Route α) (place : List α) :
    Beside place (r.end place) ↔ Beside (r.left place) r.downs := by
  rw [Beside, Beside, prefix_end_iff, end_prefix_iff]

end Climb
