import Mathlib.Tactic.Common
import Mathlib.Tactic.Linarith
import Mathlib.Algebra.Order.Ring.Int
import Mathlib.Algebra.BigOperators.Group.List.Basic
import Mathlib.Data.Int.ModEq
import Mathlib.Data.List.Induction
import Mathlib.Tactic.Ring

/-!
# Sums reduced below the machine word

A running sum is kept in a machine word of `word` values and reduced modulo `word - gap`
after each addition of a signed value. The addition wraps modulo `word` before the reduction,
so a step is off by `gap` from the exact sum modulo `word - gap` for each word that it borrows.
A fold therefore computes the exact sum up to as many gaps as it has steps.
-/

namespace ReducedSum

/-- One step on the values of the words. -/
def step (word gap sum value : Int) : Int := (sum + value) % word % (word - gap)

variable {word gap : Int}

/-- The words that an addition borrows: 1 if the sum falls below zero, -1 if it passes the word. -/
def borrow (word sum value : Int) : Int := -((sum + value) / word)

/-- The words that a fold borrows in all. -/
def borrows (word gap : Int) : Int → List Int → Int
  | _, [] => 0
  | sum, value :: values =>
    borrow word sum value + borrows word gap (step word gap sum value) values

/-- A step is exact up to a gap for each word it borrows. -/
theorem step_modEq (sum value : Int) :
    step word gap sum value ≡ sum + value + gap * borrow word sum value [ZMOD word - gap] := by
  have split := Int.emod_add_mul_ediv (sum + value) word
  have exact : (sum + value) % word =
      sum + value + gap * borrow word sum value +
        (word - gap) * -((sum + value) / word) := by
    unfold borrow
    linarith [sub_mul word gap ((sum + value) / word)]
  calc step word gap sum value ≡ (sum + value) % word [ZMOD word - gap] := Int.mod_modEq _ _
    _ = _ := exact
    _ ≡ sum + value + gap * borrow word sum value [ZMOD word - gap] := by
      exact Int.modEq_iff_dvd.mpr ⟨(sum + value) / word, by ring⟩

theorem foldl_modEq (values : List Int) : ∀ sum : Int,
    values.foldl (step word gap) sum ≡
      sum + values.sum + gap * borrows word gap sum values [ZMOD word - gap] := by
  induction values with
  | nil =>
    intro sum
    rw [List.foldl_nil, List.sum_nil, borrows, mul_zero, add_zero, add_zero]
  | cons value values ih =>
    intro sum
    rw [List.foldl_cons, List.sum_cons, borrows]
    calc values.foldl (step word gap) (step word gap sum value)
        ≡ step word gap sum value + values.sum +
            gap * borrows word gap (step word gap sum value) values [ZMOD word - gap] := ih _
      _ ≡ sum + value + gap * borrow word sum value + values.sum +
            gap * borrows word gap (step word gap sum value) values [ZMOD word - gap] :=
          ((step_modEq sum value).add_right _).add_right _
      _ = _ := by ring

theorem borrow_abs {sum value : Int} (low : 0 ≤ sum) (high : sum < word)
    (small : |value| ≤ word) : |borrow word sum value| ≤ 1 := by
  obtain ⟨below, above⟩ := abs_le.mp small
  have wordPos : 0 < word := by omega
  have atLeast : -1 ≤ (sum + value) / word := by
    rw [Int.le_ediv_iff_mul_le wordPos]
    omega
  have atMost : (sum + value) / word < 2 := by
    rw [Int.ediv_lt_iff_lt_mul wordPos]
    omega
  unfold borrow
  rw [abs_le]
  omega

theorem step_range (fits : gap < word) (sum value : Int) :
    0 ≤ step word gap sum value ∧ step word gap sum value < word - gap :=
  ⟨Int.emod_nonneg _ (by omega), Int.emod_lt_of_pos _ (by omega)⟩

/-- A fold borrows at most as many words as it has steps. -/
theorem borrows_abs (positive : 0 < gap) (fits : gap < word) (values : List Int) :
    (∀ value ∈ values, |value| ≤ word) → ∀ sum : Int, 0 ≤ sum → sum < word →
    |borrows word gap sum values| ≤ values.length := by
  induction values with
  | nil =>
    intro _ sum _ _
    rw [borrows, abs_zero]
    exact Int.natCast_nonneg _
  | cons value values ih =>
    intro small sum low high
    obtain ⟨low', high'⟩ := step_range fits sum value
    have first := borrow_abs low high (small value List.mem_cons_self)
    have rest := ih (fun other member => small other (List.mem_cons_of_mem _ member)) _ low'
      (by omega)
    have triangle := abs_add_le (borrow word sum value)
      (borrows word gap (step word gap sum value) values)
    rw [borrows, List.length_cons]
    push_cast
    omega

/-- A fold is exact up to as many gaps as it has steps. -/
theorem fold_drift (positive : 0 < gap) (fits : gap < word) (values : List Int)
    (small : ∀ value ∈ values, |value| ≤ word) (sum : Int) (low : 0 ≤ sum) (high : sum < word) :
    ∃ gaps laps : Int, |gaps| ≤ values.length ∧
      values.foldl (step word gap) sum =
        sum + values.sum + gap * gaps + (word - gap) * laps := by
  have drift : values.foldl (step word gap) sum ≡
      sum + values.sum + gap * borrows word gap sum values [ZMOD word - gap] :=
    foldl_modEq values sum
  obtain ⟨laps, exact⟩ := Int.modEq_iff_dvd.mp drift.symm
  exact ⟨borrows word gap sum values, laps, borrows_abs positive fits values small sum low high,
    by omega⟩

theorem foldl_range (fits : gap < word) {values : List Int} (nonempty : values ≠ []) (sum : Int) :
    0 ≤ values.foldl (step word gap) sum ∧ values.foldl (step word gap) sum < word - gap := by
  rw [← List.dropLast_concat_getLast nonempty, List.foldl_concat]
  exact step_range fits _ _

/-- Folds with a step agree exactly if their sums with the borrowed gaps do. -/
theorem foldl_eq_iff (fits : gap < word) {values others : List Int} (nonempty : values ≠ [])
    (nonempty' : others ≠ []) (sum sum' : Int) :
    values.foldl (step word gap) sum = others.foldl (step word gap) sum' ↔
      sum + values.sum + gap * borrows word gap sum values ≡
        sum' + others.sum + gap * borrows word gap sum' others [ZMOD word - gap] := by
  constructor
  · intro same
    exact (foldl_modEq values sum).symm.trans (same ▸ foldl_modEq others sum')
  · intro congruent
    have both : values.foldl (step word gap) sum ≡ others.foldl (step word gap) sum'
        [ZMOD word - gap] :=
      ((foldl_modEq values sum).trans congruent).trans (foldl_modEq others sum').symm
    obtain ⟨low, high⟩ := foldl_range fits nonempty sum
    obtain ⟨low', high'⟩ := foldl_range fits nonempty' sum'
    have residues : _ % _ = _ % _ := both
    rwa [Int.emod_eq_of_lt low high, Int.emod_eq_of_lt low' high'] at residues

/-! ## Folds that stay in the word -/

/-- No step of the fold leaves the machine word. -/
def Unwrapped (word gap sum : Int) (values : List Int) : Prop :=
  ∀ before value after, values = before ++ value :: after →
    0 ≤ before.foldl (step word gap) sum + value ∧
      before.foldl (step word gap) sum + value < word

/-- An exact fold: it starts with the sum as it is, and reduces after each value. -/
def reduced (word gap sum : Int) (values : List Int) : Int :=
  if values = [] then sum else (sum + values.sum) % (word - gap)

theorem reduced_concat (sum : Int) (before : List Int) (value : Int) :
    (reduced word gap sum before + value) % (word - gap) =
      reduced word gap sum (before ++ [value]) := by
  by_cases first : before = []
  · subst first
    simp [reduced]
  · simp [reduced, first, add_assoc]

/-- As long as the exact sums stay in the word, the fold computes them. -/
theorem foldl_eq_reduced {sum : Int} {values : List Int}
    (inside : ∀ before value after, values = before ++ value :: after →
      before.foldl (step word gap) sum = reduced word gap sum before →
      0 ≤ reduced word gap sum before + value ∧ reduced word gap sum before + value < word) :
    values.foldl (step word gap) sum = reduced word gap sum values := by
  induction values using List.reverseRecOn with
  | nil => rfl
  | append_singleton before value ih =>
    have earlier : before.foldl (step word gap) sum = reduced word gap sum before := by
      apply ih
      intro first next rest split exact
      apply inside first next (rest ++ [value]) _ exact
      rw [split, List.append_assoc, List.cons_append]
    obtain ⟨low, high⟩ := inside before value [] rfl earlier
    rw [List.foldl_concat, earlier, step, Int.emod_eq_of_lt low high, reduced_concat]

/-- Whether a fold wraps can be told from the exact sums. -/
theorem unwrapped_iff {sum : Int} {values : List Int} : Unwrapped word gap sum values ↔
    ∀ before value after, values = before ++ value :: after →
      0 ≤ reduced word gap sum before + value ∧ reduced word gap sum before + value < word := by
  constructor
  · intro unwrapped before value after split
    have exact : before.foldl (step word gap) sum = reduced word gap sum before := by
      apply foldl_eq_reduced
      intro first next rest inner same
      rw [← same]
      apply unwrapped first next (rest ++ value :: after)
      rw [split, inner, List.append_assoc, List.cons_append]
    rw [← exact]
    exact unwrapped before value after split
  · intro inside before value after split
    have exact : before.foldl (step word gap) sum = reduced word gap sum before := by
      apply foldl_eq_reduced
      intro first next rest inner _
      apply inside first next (rest ++ value :: after)
      rw [split, inner, List.append_assoc, List.cons_append]
    rw [exact]
    exact inside before value after split

theorem foldl_of_unwrapped {sum : Int} {values : List Int}
    (unwrapped : Unwrapped word gap sum values) :
    values.foldl (step word gap) sum = reduced word gap sum values := by
  apply foldl_eq_reduced
  intro before value after split _
  exact unwrapped_iff.mp unwrapped before value after split

/-- Sums that never reach the modulus wrap exactly where they fall below zero. -/
theorem unwrapped_iff_nonneg (positive : 0 < gap) {sum : Int} (start : 0 ≤ sum)
    {values : List Int}
    (below : ∀ before after, values = before ++ after → sum + before.sum < word - gap) :
    Unwrapped word gap sum values ↔
      ∀ before after, values = before ++ after → 0 ≤ sum + before.sum := by
  have exact {before after : List Int} (split : values = before ++ after)
      (low : 0 ≤ sum + before.sum) : reduced word gap sum before = sum + before.sum := by
    unfold reduced
    split_ifs with first
    · simp [first]
    · exact Int.emod_eq_of_lt low (below before after split)
  rw [unwrapped_iff]
  constructor
  · intro inside before
    induction before using List.reverseRecOn with
    | nil => simpa using start
    | append_singleton before value ih =>
      intro after split
      rw [List.append_assoc, List.singleton_append] at split
      have step := inside before value after split
      rw [exact split (ih _ split)] at step
      rw [List.sum_append, List.sum_singleton, ← add_assoc]
      exact step.1
  · intro nonneg before value after split
    have next : values = (before ++ [value]) ++ after := by
      rw [split, List.append_assoc, List.singleton_append]
    have low := nonneg _ after next
    have high := below _ after next
    rw [List.sum_append, List.sum_singleton, ← add_assoc] at low high
    rw [exact split (nonneg before _ split)]
    exact ⟨low, by omega⟩

end ReducedSum
