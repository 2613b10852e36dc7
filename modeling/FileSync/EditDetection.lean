import FileSync.HashAgreement
import Mathlib.Tactic.IntervalCases

/-!
# One-byte edits

The hash of a file is the only thing that tells an edit. The loop over the contents weights the
bytes with a counter that runs from 0 to 9, so that every tenth byte counts for nothing, and the
stream stops at 0x1A. All other one-byte edits are seen, except where the weighted difference is
the gap of the reduction and the sum falls below zero with one of the bytes only.
-/

namespace FileSync

open ReducedSum

/-! ## Text mode -/

theorem readText_cons {byte : UInt8} {rest : Bytes} (more : byte ≠ 0x1A)
    (apart : ¬ (byte = 0x0D ∧ rest.head? = some 0x0A)) :
    readText (byte :: rest) = byte :: readText rest := by
  rw [readText]
  · exact more
  · rintro next same lines
    exact apart ⟨same, by rw [lines]; rfl⟩

/-- A text that does not end in the first part, nor has a line end across the two. -/
theorem readText_append {first second : Bytes} (more : 0x1A ∉ first)
    (apart : ¬ (first.getLast? = some 0x0D ∧ second.head? = some 0x0A)) :
    readText (first ++ second) = readText first ++ readText second := by
  fun_induction readText first with
  | case1 => rfl
  | case2 => exact absurd List.mem_cons_self more
  | case3 rest ih =>
    have more' : 0x1A ∉ rest := fun member =>
      more (List.mem_cons_of_mem _ (List.mem_cons_of_mem _ member))
    have apart' : ¬ (rest.getLast? = some 0x0D ∧ second.head? = some 0x0A) := by
      rintro ⟨last, head⟩
      refine apart ⟨?_, head⟩
      rw [List.getLast?_cons, List.getLast?_cons, last]
      rfl
    rw [List.cons_append, List.cons_append, readText, ih more' apart', List.cons_append]
  | case4 byte rest other lines ih =>
    have more' : 0x1A ∉ rest := fun member => more (List.mem_cons_of_mem _ member)
    have apart' : ¬ (rest.getLast? = some 0x0D ∧ second.head? = some 0x0A) := by
      rintro ⟨last, head⟩
      refine apart ⟨?_, head⟩
      rw [List.getLast?_cons, last]
      rfl
    have open' : ¬ (byte = 0x0D ∧ (rest ++ second).head? = some 0x0A) := by
      rintro ⟨rfl, head⟩
      cases rest with
      | nil => exact apart ⟨rfl, head⟩
      | cons next rest =>
        cases head
        exact lines rest rfl rfl
    rw [List.cons_append, readText_cons (fun same => other same) open', ih more' apart',
      List.cons_append]

/-- Nothing counts behind the end of the text. -/
theorem readText_ended {first : Bytes} (ended : 0x1A ∈ first) (second : Bytes) :
    readText (first ++ second) = readText first := by
  fun_induction readText first with
  | case1 => cases ended
  | case2 => rfl
  | case3 rest ih =>
    have later : 0x1A ∈ rest := by simpa using ended
    rw [List.cons_append, List.cons_append, readText, ih later]
  | case4 byte rest other lines ih =>
    have later : 0x1A ∈ rest := by
      rcases List.mem_cons.mp ended with same | later
      · exact absurd same.symm other
      · exact later
    have open' : ¬ (byte = 0x0D ∧ (rest ++ second).head? = some 0x0A) := by
      rintro ⟨rfl, head⟩
      cases rest with
      | nil => cases later
      | cons next rest =>
        cases head
        exact lines rest rfl rfl
    rw [List.cons_append, readText_cons (fun same => other same) open', ih later]

/-- The byte at the given place is read as it is: no 0x1A before it, and no part of a line end. -/
structure ReadAsIs (before : Bytes) (byte : UInt8) (after : Bytes) : Prop where
  more : 0x1A ∉ before
  noEnd : byte ≠ 0x1A
  noFeed : ¬ (before.getLast? = some 0x0D ∧ byte = 0x0A)
  noReturn : ¬ (byte = 0x0D ∧ after.head? = some 0x0A)

theorem readText_of_readAsIs {before after : Bytes} {byte : UInt8}
    (asIs : ReadAsIs before byte after) :
    readText (before ++ byte :: after) = readText before ++ byte :: readText after := by
  have apart : ¬ (before.getLast? = some 0x0D ∧ (byte :: after).head? = some 0x0A) := by
    rintro ⟨last, head⟩
    exact asIs.noFeed ⟨last, Option.some.inj head⟩
  rw [readText_append asIs.more apart, readText_cons asIs.noEnd asIs.noReturn]

/-! ## Weights -/

theorem nextIndex_eq {i : Nat} (small : i < 10) : nextIndex i = (i + 1) % 10 := by
  have count : multiplands.length = 9 := rfl
  unfold nextIndex
  split <;> omega

/-- The counter goes round every ten bytes. -/
theorem contentValues_append (first second : Bytes) : ∀ i < 10,
    contentValues i (first ++ second) =
      contentValues i first ++ contentValues ((i + first.length) % 10) second := by
  induction first with
  | nil =>
    intro i small
    rw [List.nil_append, contentValues, List.nil_append, List.length_nil, Nat.add_zero,
      Nat.mod_eq_of_lt small]
  | cons byte first ih =>
    intro i small
    have count : (nextIndex i + first.length) % 10 = (i + (byte :: first).length) % 10 := by
      rw [nextIndex_eq small, List.length_cons]
      omega
    have next : nextIndex i < 10 := by
      rw [nextIndex_eq small]
      exact Nat.mod_lt _ (by omega)
    rw [List.cons_append, contentValues, contentValues, ih _ next, count, List.cons_append]

theorem charOfByte_injective {x y : UInt8} (same : charOfByte x = charOfByte y) : x = y := by
  have signed : x.toInt8 = y.toInt8 := Int8.toInt_inj.mp same
  rw [← UInt8.toUInt8_toInt8 x, signed, UInt8.toUInt8_toInt8]

theorem charOfByte_range (c : UInt8) : -128 ≤ charOfByte c ∧ charOfByte c < 128 :=
  ⟨Int8.le_toInt c.toInt8, Int8.toInt_lt c.toInt8⟩

/-! ## Detected edits -/

section

variable (platform : Platform) (username rest : WString)

/-- A path under the Documents directory. -/
def documentsPath : WString := getDocumentsPath username ++ backslash :: rest

/-- The two contents have different hashes, and a scan that finds the one after the other reports
    an Edit. -/
structure Detected (bytes bytes' : Bytes) : Prop where
  hashes : getFileHash platform username (documentsPath username rest) (some bytes) ≠
    getFileHash platform username (documentsPath username rest) (some bytes')
  reported : ∀ (prevDir newDir : FileTable) (filePath : WString),
    prevDir[filePath]? =
      some (getFileHash platform username (documentsPath username rest) (some bytes)) →
    newDir[filePath]? =
      some (getFileHash platform username (documentsPath username rest) (some bytes')) →
    ∃ fileChange ∈ (getDirectoryChangesScan newDir prevDir).1,
      fileChange.filePath = filePath ∧ fileChange.change = .edit

theorem detected_iff_hashes (bytes bytes' : Bytes) :
    Detected platform username rest bytes bytes' ↔
      getFileHash platform username (documentsPath username rest) (some bytes) ≠
        getFileHash platform username (documentsPath username rest) (some bytes') := by
  constructor
  · exact Detected.hashes
  · intro differ
    refine ⟨differ, fun prevDir newDir filePath before after => ?_⟩
    rw [getDirectoryChangesScan_eq]
    refine ⟨⟨filePath, getFileHash platform username (documentsPath username rest) (some bytes'),
      .edit⟩, ?_, rfl, rfl⟩
    exact List.mem_append_left _ (mem_updates.mpr ⟨after, Or.inr ⟨rfl, _, before, differ⟩⟩)

/-- How often the running sum falls below zero, less how often it passes the machine word. -/
def falls (bytes : Bytes) : Int :=
  borrows (2 ^ 64) 1001 (UInt64.ofNat (platform.toSizeT bytes.length)).toNat
    (hashValues (backslash :: rest) bytes)

/-- The sum that the hash reduces: the size, the characters of the path, the weighted bytes, and
    1001 for each fall below zero. -/
def valueSum (bytes : Bytes) : Int :=
  (UInt64.ofNat (platform.toSizeT bytes.length)).toNat +
    (hashValues (backslash :: rest) bytes).sum + 1001 * falls platform rest bytes

theorem hashValues_ne_nil (bytes : Bytes) : hashValues (backslash :: rest) bytes ≠ [] := by
  rw [hashValues, List.map_cons, List.cons_append]
  exact List.cons_ne_nil _ _

/-- Two hashes agree exactly if the sums do modulo the base of the reduction. -/
theorem getFileHash_eq_iff (bytes bytes' : Bytes) :
    getFileHash platform username (documentsPath username rest) (some bytes) =
        getFileHash platform username (documentsPath username rest) (some bytes') ↔
      valueSum platform rest bytes ≡ valueSum platform rest bytes' [ZMOD 2 ^ 64 - 1001] := by
  have fits : (1001 : Int) < 2 ^ 64 := by norm_num
  have sums := foldl_eq_iff fits (hashValues_ne_nil rest bytes) (hashValues_ne_nil rest bytes')
    (UInt64.ofNat (platform.toSizeT bytes.length)).toNat
    (UInt64.ofNat (platform.toSizeT bytes'.length)).toNat
  have relative : getRelativeToDocuments username (documentsPath username rest) =
      backslash :: rest := List.drop_left
  rw [getFileHash_some, getFileHash_some, relative, valueSum, valueSum, falls, falls, ← sums,
    ← foldl_hashStep_toNat, ← foldl_hashStep_toNat]
  constructor
  · exact fun same => by rw [same]
  · intro same
    exact UInt64.toNat_inj.mp (by exact_mod_cast same)

/-! ## The three kinds of edits -/

/-- The values of contents at a byte that is read as it is. -/
theorem hashValues_of_readAsIs {before after : Bytes} {byte : UInt8}
    (asIs : ReadAsIs before byte after) :
    hashValues (backslash :: rest) (before ++ byte :: after) =
      hashValues (backslash :: rest) before ++
        charOfByte byte * ((readText before).length % 10 : Nat) ::
          contentValues (nextIndex ((readText before).length % 10)) (readText after) := by
  rw [hashValues, readText_of_readAsIs asIs, contentValues_append _ _ 0 (by omega), Nat.zero_add,
    contentValues, hashValues, List.append_assoc]

theorem hashes_of_ended {before : Bytes} (ended : 0x1A ∈ before) (x y : UInt8) (after : Bytes) :
    getFileHash platform username (documentsPath username rest) (some (before ++ x :: after)) =
      getFileHash platform username (documentsPath username rest)
        (some (before ++ y :: after)) := by
  have length : (before ++ x :: after).length = (before ++ y :: after).length := by
    rw [List.length_append, List.length_append, List.length_cons, List.length_cons]
  rw [getFileHash_some, getFileHash_some, length, hashValues, hashValues, readText_ended ended,
    readText_ended ended]

/-- The weighted difference of two bytes is a multiple of the gap at one weight only. -/
theorem weight_of_gaps {difference gaps : Int} {weight : Nat} (small : weight < 10)
    (positive : weight ≠ 0) (differ : difference ≠ 0) (bound : |difference| ≤ 255)
    (gap : difference * weight + 1001 * gaps = 0) : weight = 7 := by
  obtain ⟨below, above⟩ := abs_le.mp bound
  interval_cases weight <;> omega

/-- The edit does not change the sum: its weight is 0, or the weighted difference is the gap and
    the sum falls below zero once more with the lower byte. -/
def Cancels (before : Bytes) (x y : UInt8) (after : Bytes) : Prop :=
  (readText before).length % 10 = 0 ∨
    ((readText before).length % 10 = 7 ∧ charOfByte x - charOfByte y =
      143 * (falls platform rest (before ++ y :: after) -
        falls platform rest (before ++ x :: after)))

/-- The sums of two contents that differ in a byte which is read as it is. -/
theorem valueSum_sub {before after : Bytes} {x y : UInt8} (asIs : ReadAsIs before x after)
    (asIs' : ReadAsIs before y after) :
    valueSum platform rest (before ++ x :: after) - valueSum platform rest (before ++ y :: after) =
      (charOfByte x - charOfByte y) * ((readText before).length % 10 : Nat) +
        1001 * (falls platform rest (before ++ x :: after) -
          falls platform rest (before ++ y :: after)) := by
  have length : (before ++ x :: after).length = (before ++ y :: after).length := by
    rw [List.length_append, List.length_append, List.length_cons, List.length_cons]
  rw [valueSum, valueSum, hashValues_of_readAsIs rest asIs, hashValues_of_readAsIs rest asIs',
    length, List.sum_append, List.sum_append, List.sum_cons, List.sum_cons]
  ring

variable {rest}

theorem falls_abs {bytes : Bytes} (short : rest.length + bytes.length < 2 ^ 52) :
    |falls platform rest bytes| ≤ 2 ^ 52 := by
  have bounded : ∀ value ∈ hashValues (backslash :: rest) bytes, |value| ≤ (2 ^ 64 : Int) :=
    fun value member => (hashValues_abs (backslash :: rest) bytes value member).trans (by norm_num)
  have length := hashValues_length_le (backslash :: rest) bytes
  have few := borrows_abs (show (0 : Int) < 1001 by norm_num)
    (show (1001 : Int) < 2 ^ 64 by norm_num) _ bounded
    (UInt64.ofNat (platform.toSizeT bytes.length)).toNat (Int.natCast_nonneg _)
    (by exact_mod_cast UInt64.toNat_lt _)
  rw [List.length_cons] at length
  unfold falls
  omega

theorem valueSum_congr_iff {before after : Bytes} {x y : UInt8} (differ : x ≠ y)
    (asIs : ReadAsIs before x after) (asIs' : ReadAsIs before y after)
    (short : rest.length + (before ++ x :: after).length < 2 ^ 52) :
    valueSum platform rest (before ++ x :: after) ≡ valueSum platform rest (before ++ y :: after)
        [ZMOD 2 ^ 64 - 1001] ↔
      Cancels platform rest before x y after := by
  have apart := valueSum_sub platform rest asIs asIs'
  have short' : rest.length + (before ++ y :: after).length < 2 ^ 52 := by
    rw [List.length_append, List.length_cons] at short ⊢
    exact short
  have few := abs_le.mp (falls_abs platform short)
  have few' := abs_le.mp (falls_abs platform short')
  have weight : (readText before).length % 10 < 10 := Nat.mod_lt _ (by omega)
  have distance : |charOfByte x - charOfByte y| ≤ 255 := by
    have left := charOfByte_range x
    have right := charOfByte_range y
    rw [abs_le]
    omega
  have weighted : |(charOfByte x - charOfByte y) * ((readText before).length % 10 : Nat)| ≤
      255 * 9 := by
    rw [abs_mul, Nat.abs_cast]
    exact mul_le_mul distance (by exact_mod_cast Nat.le_of_lt_succ weight)
      (Int.natCast_nonneg _) (by norm_num)
  obtain ⟨below, above⟩ := abs_le.mp weighted
  constructor
  · intro congruent
    obtain ⟨laps, multiple⟩ := Int.modEq_iff_dvd.mp congruent.symm
    rw [apart] at multiple
    have gap : (charOfByte x - charOfByte y) * ((readText before).length % 10 : Nat) +
        1001 * (falls platform rest (before ++ x :: after) -
          falls platform rest (before ++ y :: after)) = 0 := by omega
    by_cases positive : (readText before).length % 10 = 0
    · exact Or.inl positive
    · have nonzero : charOfByte x - charOfByte y ≠ 0 := fun same =>
        differ (charOfByte_injective (Int.sub_eq_zero.mp same))
      have seven := weight_of_gaps weight positive nonzero distance gap
      rw [seven] at gap
      exact Or.inr ⟨seven, by omega⟩
  · rintro (zero | ⟨seven, cancelled⟩)
    · rw [valueSum, valueSum, falls, falls, hashValues_of_readAsIs rest asIs,
        hashValues_of_readAsIs rest asIs', zero, Int.natCast_zero, mul_zero, mul_zero,
        List.length_append, List.length_append, List.length_cons, List.length_cons]
    · rw [seven] at apart
      have same : valueSum platform rest (before ++ x :: after) =
          valueSum platform rest (before ++ y :: after) := by omega
      rw [same]

variable (rest)

/-- An edit of one byte is detected if and only if it changes the sum of the values modulo the
    base of the reduction. That is never the case behind a 0x1A; and for a byte that is read as
    it is, the case unless its index in the text is a multiple of 10 or the gap cancels it. -/
theorem edit_detected_iff (before after : Bytes) {x y : UInt8} (differ : x ≠ y) :
    (Detected platform username rest (before ++ x :: after) (before ++ y :: after) ↔
      ¬ valueSum platform rest (before ++ x :: after) ≡
        valueSum platform rest (before ++ y :: after) [ZMOD 2 ^ 64 - 1001]) ∧
    (0x1A ∈ before →
      ¬ Detected platform username rest (before ++ x :: after) (before ++ y :: after)) ∧
    (ReadAsIs before x after → ReadAsIs before y after →
      rest.length + (before ++ x :: after).length < 2 ^ 52 →
      (Detected platform username rest (before ++ x :: after) (before ++ y :: after) ↔
        ¬ Cancels platform rest before x y after)) := by
  have exact : Detected platform username rest (before ++ x :: after) (before ++ y :: after) ↔
      ¬ valueSum platform rest (before ++ x :: after) ≡
        valueSum platform rest (before ++ y :: after) [ZMOD 2 ^ 64 - 1001] := by
    rw [detected_iff_hashes, Ne, getFileHash_eq_iff]
  refine ⟨exact, fun ended => ?_, fun asIs asIs' short => ?_⟩
  · intro detected
    exact detected.hashes (hashes_of_ended platform username rest ended x y after)
  · rw [exact, valueSum_congr_iff platform differ asIs asIs' short]

end

/-- The second byte is seen. -/
theorem edit_detected_iff_second :
    Detected .win32 (wide "ann") (wide "a.txt") [104, 105] [104, 106] := by
  have differ : (105 : UInt8) ≠ 106 := by decide
  have asIs : ReadAsIs [104] 105 [] := ⟨by decide, by decide, by decide, by decide⟩
  have asIs' : ReadAsIs [104] 106 [] := ⟨by decide, by decide, by decide, by decide⟩
  have counted : ¬ Cancels .win32 (wide "a.txt") [104] 105 106 [] := by
    rintro (zero | ⟨seven, -⟩)
    · cases zero
    · cases seven
  exact ((edit_detected_iff .win32 (wide "ann") (wide "a.txt") [104] [] differ).2.2 asIs asIs'
    (by decide)).mpr counted

/-- A change of the first byte is not. -/
theorem first_byte_unseen :
    ¬ Detected .win32 (wide "ann") (wide "a.txt") [104, 105] [72, 105] := by
  intro detected
  exact detected.hashes (by decide +kernel)

end FileSync
