import Mathlib.Tactic.Common

/-!
# Edit scripts of ordered maps

An edit gives one key a new value or removes it. A script is a list of edits applied from
left to right, so that the last edit of a key decides what the key ends up with.
-/

namespace EditScript

universe u v

/-- One edit: the key and its new value, `none` to remove it. -/
abbrev Edit (κ : Type u) (ν : Type v) := κ × Option ν

section Last

variable {κ : Type u} {ν : Type v} [DecidableEq κ]

/-- What the last edit of a key says, `none` when the script does not mention the key. -/
def last : List (Edit κ ν) → κ → Option (Option ν)
  | [], _ => none
  | edit :: script, key => (last script key).or (if edit.1 = key then some edit.2 else none)

theorem mem_of_last_eq_some {script : List (Edit κ ν)} {key : κ} {said : Option ν}
    (h : last script key = some said) : (key, said) ∈ script := by
  induction script with
  | nil => cases h
  | cons edit script ih =>
    cases found : last script key with
    | some other =>
      rw [last, found, Option.some_or] at h
      exact List.mem_cons_of_mem _ (ih (found.trans h))
    | none =>
      rw [last, found, Option.none_or] at h
      split at h
      · rename_i same
        cases h
        subst same
        exact List.mem_cons_self
      · cases h

theorem not_mem_of_last_eq_none {script : List (Edit κ ν)} {key : κ}
    (h : last script key = none) (said : Option ν) : (key, said) ∉ script := by
  induction script with
  | nil => exact List.not_mem_nil
  | cons edit script ih =>
    rw [last, Option.or_eq_none_iff] at h
    intro member
    rcases List.mem_cons.mp member with rfl | member
    · simp at h
    · exact ih h.1 member

end Last

section Patch

variable {κ : Type u} {ν : Type v} [Ord κ] [Std.TransOrd κ]

/-- One edit applied: an entry is set, or erased. -/
def applyEdit (map : Std.ExtTreeMap κ ν) (edit : Edit κ ν) : Std.ExtTreeMap κ ν :=
  match edit.2 with
  | some value => map.insert edit.1 value
  | none => map.erase edit.1

/-- All edits of a script applied in order. -/
def patch (map : Std.ExtTreeMap κ ν) (script : List (Edit κ ν)) : Std.ExtTreeMap κ ν :=
  script.foldl applyEdit map

variable [Std.LawfulEqOrd κ] [DecidableEq κ]

theorem getElem?_applyEdit (map : Std.ExtTreeMap κ ν) (edit : Edit κ ν) (key : κ) :
    (applyEdit map edit)[key]? = if edit.1 = key then edit.2 else map[key]? := by
  obtain ⟨edited, value⟩ := edit
  cases value with
  | none => simp [applyEdit, Std.ExtTreeMap.getElem?_erase]
  | some value => simp [applyEdit, Std.ExtTreeMap.getElem?_insert]

/-- Looking a key up after a script gives what its last edit says. -/
theorem getElem?_patch (script : List (Edit κ ν)) :
    ∀ (map : Std.ExtTreeMap κ ν) (key : κ),
      (patch map script)[key]? = (last script key).getD map[key]? := by
  induction script with
  | nil => intro map key; rfl
  | cons edit script ih =>
    intro map key
    change (patch (applyEdit map edit) script)[key]? = _
    rw [ih, getElem?_applyEdit]
    cases found : last script key with
    | some said => simp [last, found]
    | none => by_cases same : edit.1 = key <;> simp [last, found, same]

/-- A script all of whose edits say what the new map has, and which edits every key at
    which the two maps differ, leads from the old map to the new one. -/
theorem patch_eq_of_correct {old new : Std.ExtTreeMap κ ν} {script : List (Edit κ ν)}
    (correct : ∀ edit ∈ script, edit.2 = new[edit.1]?)
    (complete : ∀ key, (∀ said, (key, said) ∉ script) → old[key]? = new[key]?) :
    patch old script = new := by
  apply Std.ExtTreeMap.ext_getElem?
  intro key
  rw [getElem?_patch]
  cases found : last script key with
  | some said => exact correct _ (mem_of_last_eq_some found)
  | none => exact complete key (not_mem_of_last_eq_none found)

/-- A script that repeats all edits of an earlier one makes the earlier one superfluous. -/
theorem patch_patch_of_subset {earlier script : List (Edit κ ν)}
    (repeated : ∀ edit ∈ earlier, edit ∈ script) (map : Std.ExtTreeMap κ ν) :
    patch (patch map earlier) script = patch map script := by
  apply Std.ExtTreeMap.ext_getElem?
  intro key
  rw [getElem?_patch, getElem?_patch, getElem?_patch]
  cases found : last script key with
  | some said => rfl
  | none =>
    cases before : last earlier key with
    | some said =>
      exact absurd (repeated _ (mem_of_last_eq_some before)) (not_mem_of_last_eq_none found said)
    | none => rfl

end Patch

end EditScript
