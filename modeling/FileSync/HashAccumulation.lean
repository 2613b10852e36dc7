import FileSync.EditDetection
import Mathlib.Algebra.Order.BigOperators.Group.List

/-!
# The arithmetic of the hash

The hash is meant to be a sum modulo `modBase`. The sum is kept in 64 bits and the additions wrap
modulo 2^64, so that it is exact as long as no addition falls below zero or passes the word. There
are 1001 values between the modulus and the word, and a step adds up to 1152; but what falls below
zero first are the negative `char`s.
-/

namespace FileSync

open ReducedSum

section

variable (platform : Platform) (username rest : WString) (bytes : Bytes)

/-- What the hash starts with. -/
def startValue : Int := (UInt64.ofNat (filesize platform (some bytes))).toNat

/-- The file size, the characters of the path, and the weighted bytes. -/
def exactSum : Int := bytes.length + (hashValues (backslash :: rest) bytes).sum

/-- The hash is the exact sum modulo the base, and no addition wraps before the reduction. -/
structure AccumulatesExactly : Prop where
  value : ((getFileHash platform username (documentsPath username rest) (some bytes)).toNat : Int) =
    exactSum rest bytes % (2 ^ 64 - 1001)
  unwrapped : ∀ before value after,
    hashValues (backslash :: rest) bytes = before ++ value :: after →
      0 ≤ ((before.foldl hashStep (UInt64.ofNat (filesize platform (some bytes)))).toNat : Int) +
          value ∧
        ((before.foldl hashStep (UInt64.ofNat (filesize platform (some bytes)))).toNat : Int) +
          value < 2 ^ 64

/-- Each exact sum so far, reduced modulo the base from the second one on, has room for the next
    value in 64 bits. -/
def SumsStayInWord : Prop := ∀ before value after,
  hashValues (backslash :: rest) bytes = before ++ value :: after →
    0 ≤ reduced (2 ^ 64) 1001 (startValue platform bytes) before + value ∧
      reduced (2 ^ 64) 1001 (startValue platform bytes) before + value < 2 ^ 64

/-- `filesize` gets the size of the file, up to multiples of the base. -/
def SizeKept : Prop := startValue platform bytes ≡ bytes.length [ZMOD 2 ^ 64 - 1001]

/-- The hash on the values of the words. -/
theorem getFileHash_toNat :
    ((getFileHash platform username (documentsPath username rest) (some bytes)).toNat : Int) =
      (hashValues (backslash :: rest) bytes).foldl (step (2 ^ 64) 1001)
        (startValue platform bytes) := by
  have relative : getRelativeToDocuments username (documentsPath username rest) =
      backslash :: rest := List.drop_left
  rw [getFileHash_some, relative, foldl_hashStep_toNat]
  rfl

theorem unwrapped_hash_iff : Unwrapped (2 ^ 64) 1001 (startValue platform bytes)
      (hashValues (backslash :: rest) bytes) ↔
    ∀ before value after, hashValues (backslash :: rest) bytes = before ++ value :: after →
      0 ≤ ((before.foldl hashStep (UInt64.ofNat (filesize platform (some bytes)))).toNat : Int) +
          value ∧
        ((before.foldl hashStep (UInt64.ofNat (filesize platform (some bytes)))).toNat : Int) +
          value < 2 ^ 64 := by
  simp only [foldl_hashStep_toNat]
  rfl

/-- Sums that agree modulo the base give the same hash. -/
theorem emod_eq_iff_sizeKept :
    (startValue platform bytes + (hashValues (backslash :: rest) bytes).sum) % (2 ^ 64 - 1001) =
      exactSum rest bytes % (2 ^ 64 - 1001) ↔ SizeKept platform bytes := by
  rw [SizeKept, exactSum]
  constructor
  · exact fun same => Int.ModEq.add_right_cancel' _ same
  · exact fun same => same.add_right _

theorem accumulatesExactly_iff : AccumulatesExactly platform username rest bytes ↔
    SizeKept platform bytes ∧ SumsStayInWord platform rest bytes := by
  have hash : Unwrapped (2 ^ 64) 1001 (startValue platform bytes)
        (hashValues (backslash :: rest) bytes) →
      ((getFileHash platform username (documentsPath username rest) (some bytes)).toNat : Int) =
        (startValue platform bytes + (hashValues (backslash :: rest) bytes).sum) %
          (2 ^ 64 - 1001) := by
    intro unwrapped
    rw [getFileHash_toNat, foldl_of_unwrapped unwrapped, reduced,
      if_neg (hashValues_ne_nil rest bytes)]
  constructor
  · intro exact
    have unwrapped := (unwrapped_hash_iff platform rest bytes).mpr exact.unwrapped
    refine ⟨?_, unwrapped_iff.mp unwrapped⟩
    rw [← emod_eq_iff_sizeKept platform rest, ← hash unwrapped]
    exact exact.value
  · intro kept
    have unwrapped := unwrapped_iff.mpr kept.2
    refine ⟨?_, (unwrapped_hash_iff platform rest bytes).mp unwrapped⟩
    rw [hash unwrapped]
    exact (emod_eq_iff_sizeKept platform rest bytes).mpr kept.1

/-- The value alone is the exact sum if and only if the falls below zero are made up for. -/
theorem value_exact_iff :
    ((getFileHash platform username (documentsPath username rest) (some bytes)).toNat : Int) =
        exactSum rest bytes % (2 ^ 64 - 1001) ↔
      startValue platform bytes + 1001 * falls platform rest bytes ≡ bytes.length
        [ZMOD 2 ^ 64 - 1001] := by
  have fits : (1001 : Int) < 2 ^ 64 := by norm_num
  obtain ⟨low, high⟩ := foldl_range fits (hashValues_ne_nil rest bytes) (startValue platform bytes)
  have drift : (hashValues (backslash :: rest) bytes).foldl (step (2 ^ 64) 1001)
        (startValue platform bytes) ≡
      startValue platform bytes + 1001 * falls platform rest bytes +
        (hashValues (backslash :: rest) bytes).sum [ZMOD 2 ^ 64 - 1001] := by
    rw [add_right_comm]
    exact foldl_modEq _ _
  rw [getFileHash_toNat]
  constructor
  · intro same
    have congruent : (hashValues (backslash :: rest) bytes).foldl (step (2 ^ 64) 1001)
        (startValue platform bytes) ≡ exactSum rest bytes [ZMOD 2 ^ 64 - 1001] := by
      rw [same]
      exact Int.mod_modEq _ _
    exact Int.ModEq.add_right_cancel' _ (drift.symm.trans congruent)
  · intro balanced
    have sums := drift.trans (balanced.add_right (hashValues (backslash :: rest) bytes).sum)
    rw [← Int.emod_eq_of_lt low high]
    exact sums

/-! ## Files of the usual sizes -/

theorem startValue_eq : startValue platform bytes = (platform.toSizeT bytes.length : Nat) := by
  have small : platform.toSizeT bytes.length < 2 ^ 64 := by
    cases platform with
    | win32 => exact (Nat.mod_lt _ (by decide)).trans (by decide)
    | x64 => exact Nat.mod_lt _ (by decide)
  rw [startValue, filesize, UInt64.toNat_ofNat', Nat.mod_eq_of_lt small]

/-- Each value adds at most 1152. -/
theorem sum_le_of_prefix {before after : List Int}
    (split : hashValues (backslash :: rest) bytes = before ++ after) :
    before.sum ≤ 1152 * (rest.length + bytes.length + 1) := by
  have bounded : ∀ value ∈ before, value ≤ 1152 := by
    intro value member
    have within : value ∈ hashValues (backslash :: rest) bytes := by
      rw [split]
      exact List.mem_append_left _ member
    exact (abs_le.mp (hashValues_abs _ _ value within)).2
  have length := hashValues_length_le (backslash :: rest) bytes
  rw [split, List.length_append, List.length_cons] at length
  have total := List.sum_le_card_nsmul before 1152 bounded
  rw [nsmul_eq_mul] at total
  omega

variable {rest bytes}

theorem sizeKept_iff_of_short (short : rest.length + bytes.length < 2 ^ 52) :
    SizeKept platform bytes ↔ bytes.length < 256 ^ platform.sizeTBytes := by
  have le : platform.toSizeT bytes.length ≤ bytes.length := Nat.mod_le _ _
  have kept : SizeKept platform bytes ↔ platform.toSizeT bytes.length = bytes.length := by
    rw [SizeKept, startValue_eq, Int.ModEq, Int.emod_eq_of_lt (by omega) (by omega),
      Int.emod_eq_of_lt (by omega) (by omega)]
    omega
  rw [kept]
  constructor
  · intro same
    rw [← same]
    exact Nat.mod_lt _ (by cases platform <;> decide)
  · exact Nat.mod_eq_of_lt

theorem accumulatesExactly_iff_of_short (short : rest.length + bytes.length < 2 ^ 52) :
    AccumulatesExactly platform username rest bytes ↔
      bytes.length < 256 ^ platform.sizeTBytes ∧
        ∀ before after, hashValues (backslash :: rest) bytes = before ++ after →
          0 ≤ bytes.length + before.sum := by
  have size := sizeKept_iff_of_short platform short
  rw [accumulatesExactly_iff, size]
  refine and_congr_right fun fits => ?_
  have start : startValue platform bytes = bytes.length := by
    rw [startValue_eq, Platform.toSizeT, Nat.mod_eq_of_lt fits]
  rw [SumsStayInWord, ← unwrapped_iff, start]
  apply unwrapped_iff_nonneg (by norm_num) (Int.natCast_nonneg _)
  intro before after split
  have few := sum_le_of_prefix rest bytes split
  omega

/-- Without negative values no sum falls below zero. -/
theorem nonneg_of_values (values : ∀ value ∈ hashValues (backslash :: rest) bytes, 0 ≤ value)
    {before after : List Int} (split : hashValues (backslash :: rest) bytes = before ++ after) :
    0 ≤ bytes.length + before.sum := by
  have sum : 0 ≤ before.sum := by
    apply List.sum_nonneg
    intro value member
    apply values
    rw [split]
    exact List.mem_append_left _ member
  omega

variable (rest bytes)

/-- The hash accumulates exactly if and only if the exact sums so far have room for the next value
    in 64 bits. For files of the usual sizes: if none of them is negative. -/
theorem hash_accumulates_iff :
    (AccumulatesExactly platform username rest bytes ↔
      SizeKept platform bytes ∧ SumsStayInWord platform rest bytes) ∧
    (rest.length + bytes.length < 2 ^ 52 →
      (AccumulatesExactly platform username rest bytes ↔
        bytes.length < 256 ^ platform.sizeTBytes ∧
          ∀ before after, hashValues (backslash :: rest) bytes = before ++ after →
            0 ≤ bytes.length + before.sum)) ∧
    (((getFileHash platform username (documentsPath username rest) (some bytes)).toNat : Int) =
        exactSum rest bytes % (2 ^ 64 - 1001) ↔
      startValue platform bytes + 1001 * falls platform rest bytes ≡ bytes.length
        [ZMOD 2 ^ 64 - 1001]) :=
  ⟨accumulatesExactly_iff platform username rest bytes,
    accumulatesExactly_iff_of_short platform username,
    value_exact_iff platform username rest bytes⟩

end

/-- A text of two letters. -/
theorem hash_accumulates_iff_hi :
    AccumulatesExactly .win32 (wide "ann") (wide "a.txt") [104, 105] := by
  have values : ∀ value ∈ hashValues (backslash :: wide "a.txt") [104, 105], 0 ≤ value := by decide
  apply ((hash_accumulates_iff .win32 (wide "ann") (wide "a.txt") [104, 105]).2.1 (by decide)).mpr
  exact ⟨by decide, fun before after split => nonneg_of_values values split⟩

/-- Seven bytes 0x80 take the sum below zero, and the hash is 1001 higher than the exact sum. -/
theorem hash_falls :
    getFileHash .win32 (wide "ann")
        (documentsPath (wide "ann") (wide "File Sync Shared Folder\\a"))
        (some (List.replicate 7 0x80)) = 697 ∧
    exactSum (wide "File Sync Shared Folder\\a") (List.replicate 7 0x80) = 697 - 1001 ∧
    ¬ AccumulatesExactly .win32 (wide "ann") (wide "File Sync Shared Folder\\a")
      (List.replicate 7 0x80) := by
  have hash : getFileHash .win32 (wide "ann")
      (documentsPath (wide "ann") (wide "File Sync Shared Folder\\a"))
      (some (List.replicate 7 0x80)) = 697 := by decide +kernel
  have sum : exactSum (wide "File Sync Shared Folder\\a") (List.replicate 7 0x80) = 697 - 1001 := by
    decide +kernel
  refine ⟨hash, sum, fun exact => ?_⟩
  have value := exact.value
  rw [hash, sum] at value
  revert value
  decide

end FileSync
