import FileSync.DirectoryMonitor
import FileSync.Library.EraseWalk
import FileSync.Library.Runs

/-!
# dealWithHashTable and the agreement of a join

A joining node announces its table; an existing node answers with its own. Each compares the
other's table with its own, filters the changes and requests the files of what is left. The
existing node ignores Edits, so that its own version of a path is kept.
-/

namespace FileSync

open TransitionSystem EraseWalk

/-- The filter loop of `dealWithHashTable` from the index `i` on. It erases from the vector
    that it walks, and advances `i` all the same. -/
def filterChanges (ignoreEdits : Bool) (i : Nat) (dirChanges : List FileChangeData) :
    List FileChangeData :=
  if h : i < dirChanges.length then
    match dirChanges[i].change with
    | .addition => filterChanges ignoreEdits (i + 1) dirChanges
    | .edit =>
      if ignoreEdits then filterChanges ignoreEdits (i + 1) (dirChanges.eraseIdx i)
      else filterChanges ignoreEdits (i + 1) dirChanges
    | .deletion => filterChanges ignoreEdits (i + 1) (dirChanges.eraseIdx i)
  else dirChanges
termination_by dirChanges.length - i
decreasing_by
  · omega
  · rw [List.length_eraseIdx_of_lt h]
    omega
  · omega
  · rw [List.length_eraseIdx_of_lt h]
    omega

/-- The list that `dealWithHashTable` hands to `requestFiles` (Node.cpp 429-452). -/
def dealWithHashTable (fileHashes table : FileTable) (ignoreEdits : Bool) :
    List FileChangeData :=
  filterChanges ignoreEdits 0 (getDirectoryChanges fileHashes table).1

/-- The changes that the loop means to erase. -/
def erasesChange (ignoreEdits : Bool) (fileChange : FileChangeData) : Bool :=
  match fileChange.change with
  | .addition => false
  | .edit => ignoreEdits
  | .deletion => true

theorem filterChanges_eq_walk (ignoreEdits : Bool) (i : Nat) (dirChanges : List FileChangeData) :
    filterChanges ignoreEdits i dirChanges = walk (erasesChange ignoreEdits) i dirChanges := by
  fun_induction filterChanges ignoreEdits i dirChanges with
  | case1 i dirChanges h kind ih =>
    rw [walk, dif_pos h, ih]
    simp [erasesChange, kind]
  | case2 i dirChanges h kind ignored ih =>
    rw [walk, dif_pos h, ih]
    simp [erasesChange, kind, ignored]
  | case3 i dirChanges h kind regarded ih =>
    rw [walk, dif_pos h, ih]
    simp [erasesChange, kind, regarded]
  | case4 i dirChanges h kind ih =>
    rw [walk, dif_pos h, ih]
    simp [erasesChange, kind]
  | case5 i dirChanges h => rw [walk, dif_neg h]

theorem dealWithHashTable_eq (fileHashes table : FileTable) (ignoreEdits : Bool) :
    dealWithHashTable fileHashes table ignoreEdits =
      survivors (erasesChange ignoreEdits) (updates fileHashes table) := by
  rw [dealWithHashTable, getDirectoryChanges_eq, filterChanges_eq_walk, walk_zero]

/-! ## What the two nodes should request -/

/-- The entries of a table whose path the other table lacks, as Additions in key order. -/
def absentEntries (own foreign : FileTable) : List FileChangeData :=
  foreign.toList.filterMap fun entry =>
    if own.contains entry.1 then none else some ⟨entry.1, entry.2, .addition⟩

/-- A path that both tables have, with different hashes. -/
def Conflict (own foreign : FileTable) (path : WString) : Prop :=
  ∃ ownHash foreignHash, own[path]? = some ownHash ∧ foreign[path]? = some foreignHash ∧
    ownHash ≠ foreignHash

/-- Two paths in conflict such that every path of the foreign table in between is in the own
    table with the same hash. -/
def AdjacentConflicts (own foreign : FileTable) : Prop :=
  ∃ first second, compare first second = .lt ∧ Conflict own foreign first ∧
    Conflict own foreign second ∧ ∀ path, compare first path = .lt → compare path second = .lt →
      foreign[path]? = none ∨ foreign[path]? = own[path]?

/-- The tables of an existing and a joining node with the requests that each still has to
    make. -/
structure Join where
  existing : FileTable
  joining : FileTable
  existingRequests : List FileChangeData
  joiningRequests : List FileChangeData

/-- Both nodes have compared the tables. -/
def Join.start (existing joining : FileTable) : Join :=
  { existing, joining
    existingRequests := dealWithHashTable existing joining true
    joiningRequests := dealWithHashTable joining existing false }

theorem erasesChange_updates {old new : FileTable} {fileChange : FileChangeData}
    (member : fileChange ∈ updates old new) : erasesChange false fileChange = false := by
  obtain ⟨_, ⟨kind, _⟩ | ⟨kind, _⟩⟩ := mem_updates.mp member <;> simp [erasesChange, kind]

theorem dealWithHashTable_edits (own foreign : FileTable) :
    dealWithHashTable own foreign false = updates own foreign := by
  rw [dealWithHashTable_eq, survivors_of_none]
  intro fileChange member
  rw [erasesChange_updates member]
  exact Bool.false_ne_true

/-! ## The existing node's list -/

theorem updates_pairwise (own foreign : FileTable) :
    (updates own foreign).Pairwise fun first second =>
      compare first.filePath second.filePath = .lt := by
  have path {entry : WString × UInt64} {fileChange : FileChangeData}
      (changed : changeOf own entry = some fileChange) : fileChange.filePath = entry.1 := by
    unfold changeOf at changed
    split at changed
    · split at changed <;> cases changed
      rfl
    · cases changed
      rfl
  apply List.Pairwise.filterMap _ _ Std.ExtTreeMap.ordered_keys_toList
  intro first second less a changedFirst b changedSecond
  rw [path changedFirst, path changedSecond]
  exact less

theorem filter_updates (own foreign : FileTable) :
    ((updates own foreign).filter fun fileChange => !erasesChange true fileChange) =
      absentEntries own foreign := by
  rw [updates, List.filter_filterMap, absentEntries]
  congr 1
  funext entry
  rw [contains_eq_isSome]
  cases before : own[entry.1]? with
  | none => simp [changeOf, before, erasesChange]
  | some hash =>
    by_cases same : hash = entry.2 <;> simp [changeOf, before, same, erasesChange]

theorem erasesChange_iff {own foreign : FileTable} {fileChange : FileChangeData}
    (member : fileChange ∈ updates own foreign) :
    erasesChange true fileChange = true ↔ Conflict own foreign fileChange.filePath := by
  obtain ⟨found, ⟨kind, before⟩ | ⟨kind, hash, before, differ⟩⟩ := mem_updates.mp member
  · simp only [erasesChange, kind, Bool.false_eq_true, false_iff]
    rintro ⟨ownHash, _, has, _⟩
    cases has.symm.trans before
  · simp only [erasesChange, kind, true_iff]
    exact ⟨hash, fileChange.fileHash, before, found, differ⟩

theorem mem_updates_of_conflict {own foreign : FileTable} {path : WString}
    (conflict : Conflict own foreign path) :
    ∃ fileChange ∈ updates own foreign, fileChange.filePath = path := by
  obtain ⟨ownHash, foreignHash, before, found, differ⟩ := conflict
  exact ⟨⟨path, foreignHash, .edit⟩,
    mem_updates.mpr ⟨found, Or.inr ⟨rfl, ownHash, before, differ⟩⟩, rfl⟩

/-- A path without an update is not in the new table or has the same hash in both. -/
theorem not_updated_iff {own foreign : FileTable} {path : WString} :
    (∀ fileChange ∈ updates own foreign, fileChange.filePath ≠ path) ↔
      foreign[path]? = none ∨ foreign[path]? = own[path]? := by
  constructor
  · intro unmentioned
    cases found : foreign[path]? with
    | none => exact Or.inl rfl
    | some hash =>
      right
      cases before : own[path]? with
      | none =>
        exact absurd rfl (unmentioned ⟨path, hash, .addition⟩
          (mem_updates.mpr ⟨found, Or.inl ⟨rfl, before⟩⟩))
      | some ownHash =>
        by_contra differ
        refine unmentioned ⟨path, hash, .edit⟩
          (mem_updates.mpr ⟨found, Or.inr ⟨rfl, ownHash, before, ?_⟩⟩) rfl
        rintro rfl
        exact differ rfl
  · rintro same fileChange member rfl
    obtain ⟨found, ⟨_, before⟩ | ⟨_, hash, before, differ⟩⟩ := mem_updates.mp member
    · rcases same with same | same
      · cases found.symm.trans same
      · cases found.symm.trans (same.trans before)
    · rcases same with same | same
      · cases found.symm.trans same
      · cases found.symm.trans (same.trans before)
        exact differ rfl

/-- The filter loop meets two neighbouring Edits exactly when the tables have two conflicts
    with nothing to do in between. -/
theorem isChain_updates_iff (own foreign : FileTable) :
    (updates own foreign).IsChain (NoPair (erasesChange true)) ↔
      ¬ AdjacentConflicts own foreign := by
  have asymmetric (a b : FileChangeData) (less : compare a.filePath b.filePath = .lt) :
      ¬ compare b.filePath a.filePath = .lt := by
    rw [Std.OrientedCmp.gt_of_lt less]
    exact Ordering.noConfusion
  rw [isChain_iff_of_pairwise asymmetric (updates_pairwise own foreign)]
  constructor
  · rintro chain ⟨first, second, less, conflictFirst, conflictSecond, between⟩
    obtain ⟨a, memberA, rfl⟩ := mem_updates_of_conflict conflictFirst
    obtain ⟨b, memberB, rfl⟩ := mem_updates_of_conflict conflictSecond
    refine chain a memberA b memberB less ?_
      ⟨(erasesChange_iff memberA).mpr conflictFirst, (erasesChange_iff memberB).mpr conflictSecond⟩
    rintro c memberC ⟨above, below⟩
    exact not_updated_iff.mpr (between c.filePath above below) c memberC rfl
  · intro apart a memberA b memberB less between both
    refine apart ⟨a.filePath, b.filePath, less, (erasesChange_iff memberA).mp both.1,
      (erasesChange_iff memberB).mp both.2, fun path above below => ?_⟩
    rw [← not_updated_iff]
    rintro c memberC rfl
    exact between c memberC ⟨above, below⟩

theorem dealWithHashTable_ignoreEdits_iff (own foreign : FileTable) :
    dealWithHashTable own foreign true = absentEntries own foreign ↔
      ¬ AdjacentConflicts own foreign := by
  rw [dealWithHashTable_eq, ← filter_updates, survivors_eq_filter_iff, isChain_updates_iff]

/-! ## Runs of the requests -/

theorem mem_absentEntries {own foreign : FileTable} {fileChange : FileChangeData} :
    fileChange ∈ absentEntries own foreign ↔
      fileChange.change = .addition ∧ own[fileChange.filePath]? = none ∧
        foreign[fileChange.filePath]? = some fileChange.fileHash := by
  rw [← filter_updates, List.mem_filter, mem_updates]
  constructor
  · rintro ⟨⟨found, ⟨kind, before⟩ | ⟨kind, _⟩⟩, kept⟩
    · exact ⟨kind, before, found⟩
    · simp [erasesChange, kind] at kept
  · rintro ⟨kind, before, found⟩
    exact ⟨⟨found, Or.inl ⟨kind, before⟩⟩, by simp [erasesChange, kind]⟩

end FileSync
