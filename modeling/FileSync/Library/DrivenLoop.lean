import Mathlib.Tactic.Common

/-!
# Loops driven by their inputs

A round of the loop takes an input from outside and gives the state for the next round, or `none`
where it leaves the loop. Which inputs there will be is not in the hands of the loop, so that
whether it is left at all is a property of the sequence of inputs.
-/

namespace DrivenLoop

universe u v

variable {σ : Type u} {ι : Type v}

/-- The state before round `n`, if the loop has not been left by then. -/
def states (round : ι → σ → Option σ) (inputs : Nat → ι) (start : σ) : Nat → Option σ
  | 0 => some start
  | n + 1 => (states round inputs start n).bind (round (inputs n))

/-- The loop is left after finitely many rounds. -/
def Leaves (round : ι → σ → Option σ) (inputs : Nat → ι) (start : σ) : Prop :=
  ∃ n, states round inputs start n = none

variable {round : ι → σ → Option σ} {inputs : Nat → ι} {start : σ}

theorem states_succ_of_some {n : Nat} {s : σ} (state : states round inputs start n = some s) :
    states round inputs start (n + 1) = round (inputs n) s := by
  rw [states, state, Option.bind_some]

/-- A loop that is left is left in one of its rounds. -/
theorem leaves_iff : Leaves round inputs start ↔
    ∃ n s, states round inputs start n = some s ∧ round (inputs n) s = none := by
  constructor
  · rintro ⟨n, left⟩
    induction n with
    | zero => exact absurd left (by simp [states])
    | succ n ih =>
      cases state : states round inputs start n with
      | none => exact ih state
      | some s => exact ⟨n, s, state, by rw [← left, states_succ_of_some state]⟩
  · rintro ⟨n, s, state, left⟩
    exact ⟨n + 1, by rw [states_succ_of_some state, left]⟩

/-- A round that leaves from every state ends the loop, if it comes to it. -/
theorem leaves_of_round {n : Nat} (left : ∀ s, round (inputs n) s = none) :
    Leaves round inputs start := by
  cases state : states round inputs start n with
  | none => exact ⟨n, state⟩
  | some s => exact ⟨n + 1, by rw [states_succ_of_some state, left]⟩

/-- What each round keeps, and what keeps each round in the loop. -/
theorem not_leaves (inv : Nat → σ → Prop) (first : inv 0 start)
    (stays : ∀ n s, inv n s → ∃ next, round (inputs n) s = some next ∧ inv (n + 1) next) :
    ¬ Leaves round inputs start := by
  have inside (n : Nat) : ∃ s, states round inputs start n = some s ∧ inv n s := by
    induction n with
    | zero => exact ⟨start, rfl, first⟩
    | succ n ih =>
      obtain ⟨s, state, holds⟩ := ih
      obtain ⟨next, taken, kept⟩ := stays n s holds
      exact ⟨next, by rw [states_succ_of_some state, taken], kept⟩
  rintro ⟨n, left⟩
  obtain ⟨s, state, -⟩ := inside n
  rw [left] at state
  cases state

/-- Loops whose rounds do the same to the states of the one and to their images. -/
theorem states_map {τ κ : Type*} (image : σ → τ) {other : κ → τ → Option τ} {inputs' : Nat → κ}
    (same : ∀ n s, states round inputs start n = some s →
      states other inputs' (image start) n = some (image s) →
        (round (inputs n) s).map image = other (inputs' n) (image s)) (n : Nat) :
    (states round inputs start n).map image = states other inputs' (image start) n := by
  induction n with
  | zero => rfl
  | succ n ih =>
    rw [states, states, ← ih]
    cases state : states round inputs start n with
    | none => rfl
    | some s =>
      rw [state, Option.map_some] at ih
      exact same n s state ih.symm

end DrivenLoop
