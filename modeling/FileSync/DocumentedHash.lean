import FileSync.HashAccumulation

/-!
# The documented hash

By the documentation, the characters of the path and the bytes of the contents are multiplied with
the primes of a list, one after the other. The code adds the characters as they are, and multiplies
the bytes with the index of a prime instead of the prime. The hashes agree only where the weighted
sums happen to.
-/

namespace FileSync

open ReducedSum

/-- The primes in ascending order, again and again. -/
def prime (i : Nat) : Nat := (multiplands.getD (i % multiplands.length) 0).toNat

/-- The values multiplied with the primes from the `i`-th on. -/
def primeWeighted : Nat → List Nat → List Nat
  | _, [] => []
  | i, value :: values => value * prime i :: primeWeighted (i + 1) values

/-- The values of the characters of a path and of the bytes of a file. -/
def documentedValues (relative : WString) (bytes : Bytes) : List Nat :=
  relative.map UInt16.toNat ++ bytes.map UInt8.toNat

/-- The sum of these values, each multiplied with its prime. -/
def primeSum (relative : WString) (bytes : Bytes) : Nat :=
  (primeWeighted 0 (documentedValues relative bytes)).sum

/-- The hash as it is documented. -/
def documentedHash (relative : WString) (bytes : Bytes) : Nat :=
  (bytes.length + primeSum relative bytes) % modBase.toNat

/-! ## Bounds -/

theorem prime_range (i : Nat) : 2 ≤ prime i ∧ prime i ≤ 97 := by
  have small : i % multiplands.length < 9 := Nat.mod_lt _ (by decide)
  unfold prime
  generalize i % multiplands.length = index at small
  interval_cases index <;> decide

theorem primeWeighted_append (first second : List Nat) : ∀ i,
    primeWeighted i (first ++ second) =
      primeWeighted i first ++ primeWeighted (i + first.length) second := by
  induction first with
  | nil => exact fun _ => rfl
  | cons value first ih =>
    intro i
    rw [List.cons_append, primeWeighted, primeWeighted, ih, List.cons_append, List.length_cons,
      Nat.add_right_comm, Nat.add_assoc]

theorem primeWeighted_sum_le {most : Nat} (values : List Nat) :
    (∀ value ∈ values, value ≤ most) → ∀ i,
      (primeWeighted i values).sum ≤ most * 97 * values.length := by
  induction values with
  | nil => exact fun _ _ => Nat.zero_le _
  | cons value values ih =>
    intro bounded i
    have rest := ih (fun other member => bounded other (List.mem_cons_of_mem _ member)) (i + 1)
    have first : value * prime i ≤ most * 97 :=
      Nat.mul_le_mul (bounded value List.mem_cons_self) (prime_range i).2
    rw [primeWeighted, List.sum_cons, List.length_cons, Nat.mul_succ]
    omega

theorem primeSum_le (relative : WString) (bytes : Bytes) :
    primeSum relative bytes ≤ 2 ^ 23 * (relative.length + bytes.length) := by
  have bounded : ∀ value ∈ documentedValues relative bytes, value ≤ 65535 := by
    intro value member
    rcases List.mem_append.mp member with character | byte
    · obtain ⟨c, -, rfl⟩ := List.mem_map.mp character
      exact Nat.le_of_lt_succ c.toNat_lt
    · obtain ⟨c, -, rfl⟩ := List.mem_map.mp byte
      exact (Nat.le_of_lt_succ c.toNat_lt).trans (by decide)
  have total := primeWeighted_sum_le _ bounded 0
  simp only [documentedValues, List.length_append, List.length_map] at total
  unfold primeSum
  unfold documentedValues
  omega

section

variable (platform : Platform) (username rest : WString) (bytes : Bytes)

/-- No sum that the hash reduces is negative. -/
def NeverFalls : Prop := ∀ before after, hashValues (backslash :: rest) bytes = before ++ after →
  0 ≤ (bytes.length : Int) + before.sum

/-- The hash is the documented one exactly if the two sums agree modulo the base. -/
theorem documented_iff_sums :
    (getFileHash platform username (documentsPath username rest) (some bytes)).toNat =
        documentedHash (backslash :: rest) bytes ↔
      valueSum platform rest bytes ≡ bytes.length + primeSum (backslash :: rest) bytes
        [ZMOD 2 ^ 64 - 1001] := by
  have fits : (1001 : Int) < 2 ^ 64 := by norm_num
  have base : ((modBase.toNat : Nat) : Int) = 2 ^ 64 - 1001 := by decide
  obtain ⟨low, high⟩ := foldl_range fits (hashValues_ne_nil rest bytes) (startValue platform bytes)
  have drift : (hashValues (backslash :: rest) bytes).foldl (step (2 ^ 64) 1001)
      (startValue platform bytes) ≡ valueSum platform rest bytes [ZMOD 2 ^ 64 - 1001] :=
    foldl_modEq _ _
  rw [← Int.natCast_inj, getFileHash_toNat, documentedHash, Int.natCast_emod, Int.natCast_add, base]
  constructor
  · intro same
    apply drift.symm.trans
    rw [same]
    exact Int.mod_modEq _ _
  · intro congruent
    rw [← Int.emod_eq_of_lt low high]
    exact drift.trans congruent

variable {rest bytes}

/-- Where no sum is negative, the hash is the sum of what the code adds. -/
theorem documented_iff_of_neverFalls (short : rest.length + bytes.length < 2 ^ 40)
    (fits : bytes.length < 256 ^ platform.sizeTBytes) (never : NeverFalls rest bytes) :
    (getFileHash platform username (documentsPath username rest) (some bytes)).toNat =
        documentedHash (backslash :: rest) bytes ↔
      (hashValues (backslash :: rest) bytes).sum = primeSum (backslash :: rest) bytes := by
  have exact := ((accumulatesExactly_iff_of_short platform username (by omega)).mpr
    ⟨fits, never⟩).value
  have few := sum_le_of_prefix rest bytes (List.append_nil _).symm
  have nonneg := never _ [] (List.append_nil _).symm
  have primes := primeSum_le (backslash :: rest) bytes
  have base : modBase.toNat = 2 ^ 64 - 1001 := by decide
  rw [List.length_cons] at primes
  rw [exactSum, Int.emod_eq_of_lt nonneg (by omega)] at exact
  rw [documentedHash, base, Nat.mod_eq_of_lt (by omega)]
  omega

/-! ## Small files -/

theorem charOfByte_le (c : UInt8) : charOfByte c ≤ c.toNat := by
  have value : charOfByte c = c.toBitVec.toInt := rfl
  rw [value, BitVec.toInt_eq_toNat_cond]
  show (if 2 * c.toNat < 2 ^ 8 then (c.toNat : Int) else (c.toNat : Int) - (2 ^ 8 : Nat)) ≤ c.toNat
  split <;> omega

theorem charOfWide_le (c : UInt16) : charOfWide c ≤ c.toNat := by
  have byte := charOfByte_le c.toUInt8
  have reduced : c.toUInt8.toNat ≤ c.toNat := by
    rw [UInt16.toNat_toUInt8]
    exact Nat.mod_le _ _
  exact byte.trans (by exact_mod_cast reduced)

/-- A path counts for less than it is documented to. -/
theorem sum_charOfWide_le (path : WString) : ∀ i,
    (path.map charOfWide).sum ≤ (primeWeighted i (path.map UInt16.toNat)).sum := by
  induction path with
  | nil => exact fun _ => Int.le_refl 0
  | cons c path ih =>
    intro i
    have one := charOfWide_le c
    have times : c.toNat ≤ c.toNat * prime i :=
      Nat.le_mul_of_pos_right _ (Nat.lt_of_lt_of_le (by decide) (prime_range i).1)
    have rest := ih (i + 1)
    rw [List.map_cons, List.map_cons, List.sum_cons, primeWeighted, List.sum_cons]
    push_cast at rest ⊢
    omega

/-- The first three bytes have the weights 0, 1 and 2, and no prime is lower. -/
theorem sum_contentValues_le (bytes : Bytes) : ∀ i k, i + bytes.length ≤ 3 →
    (contentValues i bytes).sum ≤ (primeWeighted k (bytes.map UInt8.toNat)).sum := by
  induction bytes with
  | nil => exact fun _ _ _ => Int.le_refl 0
  | cons c bytes ih =>
    intro i k few
    rw [List.length_cons] at few
    have next : nextIndex i = i + 1 := by
      rw [nextIndex_eq (by omega), Nat.mod_eq_of_lt (by omega)]
    have rest := ih (i + 1) (k + 1) (by omega)
    have weight : charOfByte c * i ≤ (c.toNat * prime k : Nat) := by
      push_cast
      calc charOfByte c * i ≤ c.toNat * i :=
            mul_le_mul_of_nonneg_right (charOfByte_le c) (Int.natCast_nonneg i)
        _ ≤ c.toNat * prime k := by
          have low := (prime_range k).1
          exact mul_le_mul_of_nonneg_left (by omega) (Int.natCast_nonneg _)
    rw [contentValues, next, List.sum_cons, List.map_cons, primeWeighted, List.sum_cons]
    push_cast at rest weight ⊢
    omega

theorem sum_lt_primeSum (plain : readText bytes = bytes) (few : bytes.length ≤ 3) :
    (hashValues (backslash :: rest) bytes).sum < primeSum (backslash :: rest) bytes := by
  have path := sum_charOfWide_le rest 1
  have contents := sum_contentValues_le bytes 0 (rest.length + 1) (by omega)
  have separator : charOfWide backslash = 92 := by decide
  have first : backslash.toNat * prime 0 = 184 := by decide
  have sum : primeSum (backslash :: rest) bytes =
      184 + (primeWeighted 1 (rest.map UInt16.toNat)).sum +
        (primeWeighted (rest.length + 1) (bytes.map UInt8.toNat)).sum := by
    rw [primeSum, documentedValues, primeWeighted_append, List.sum_append, List.map_cons,
      primeWeighted, List.sum_cons, first, List.length_cons, List.length_map, Nat.zero_add,
      Nat.zero_add]
  rw [hashValues, plain, List.map_cons, List.cons_append, List.sum_cons, List.sum_append, separator,
    sum]
  push_cast at path contents ⊢
  omega

variable (rest bytes)

/-- The hash is the documented one if and only if the sum of what the code adds (with 1001 for each
    time it falls below zero) and the documented sum agree modulo the base. Where no sum falls below
    zero the two have to be equal, which they never are for up to three bytes. -/
theorem documented_hash_iff :
    ((getFileHash platform username (documentsPath username rest) (some bytes)).toNat =
        documentedHash (backslash :: rest) bytes ↔
      valueSum platform rest bytes ≡ bytes.length + primeSum (backslash :: rest) bytes
        [ZMOD 2 ^ 64 - 1001]) ∧
    (rest.length + bytes.length < 2 ^ 40 → bytes.length < 256 ^ platform.sizeTBytes →
      NeverFalls rest bytes →
      ((getFileHash platform username (documentsPath username rest) (some bytes)).toNat =
          documentedHash (backslash :: rest) bytes ↔
        (hashValues (backslash :: rest) bytes).sum = primeSum (backslash :: rest) bytes) ∧
      (readText bytes = bytes → bytes.length ≤ 3 →
        (getFileHash platform username (documentsPath username rest) (some bytes)).toNat ≠
          documentedHash (backslash :: rest) bytes)) := by
  refine ⟨documented_iff_sums platform username rest bytes, fun short fits never => ?_⟩
  have sums := documented_iff_of_neverFalls platform username short fits never
  refine ⟨sums, fun plain few same => ?_⟩
  have less : (hashValues (backslash :: rest) bytes).sum < primeSum (backslash :: rest) bytes :=
    sum_lt_primeSum plain few
  rw [sums.mp same] at less
  exact absurd less (Int.lt_irrefl _)

end

/-- A file with two letters. -/
theorem documented_hash_iff_hi :
    (getFileHash .win32 (wide "ann") (documentsPath (wide "ann") (wide "a.txt"))
        (some [104, 105])).toNat ≠ documentedHash (backslash :: wide "a.txt") [104, 105] := by
  have values : ∀ value ∈ hashValues (backslash :: wide "a.txt") [104, 105], 0 ≤ value := by decide
  exact ((documented_hash_iff .win32 (wide "ann") (wide "a.txt") [104, 105]).2 (by decide)
    (by decide) fun before after split => nonneg_of_values values split).2 (by decide) (by decide)

/-- The path counts 587 instead of 16077, and the two bytes count 105 instead of 15263. -/
theorem hash_not_documented :
    getFileHash .win32 (wide "ann") (documentsPath (wide "ann") (wide "a.txt"))
      (some [104, 105]) = 694 ∧
    documentedHash (backslash :: wide "a.txt") [104, 105] = 31342 := by
  exact ⟨by decide +kernel, by decide +kernel⟩

end FileSync
