import FileSync.DealWithHashTable

/-!
# The two directory diffs

The watcher compares its new scan with the previous one, and a node compares a foreign table with
its own. Both overloads run the same loop, so on the same tables they find the same Additions and
Edits; the watcher's goes on to the Deletions. Neither loop inserts into the tables that it reads
through `operator[]`.
-/

namespace FileSync

theorem change_ne_deletion_of_updates {old new : FileTable} {fileChange : FileChangeData}
    (member : fileChange ∈ updates old new) : fileChange.change ≠ .deletion := by
  obtain ⟨-, ⟨kind, -⟩ | ⟨kind, -⟩⟩ := mem_updates.mp member
  · rw [kind]
    decide
  · rw [kind]
    decide

/-- The Additions and Edits of a scan are its updates. -/
theorem filter_scan (newDir prevDir : FileTable) :
    (getDirectoryChangesScan newDir prevDir).1.filter (fun fileChange =>
      fileChange.change != .deletion) = updates prevDir newDir := by
  have kept : ∀ fileChange ∈ updates prevDir newDir, (fileChange.change != .deletion) = true :=
    fun fileChange member => by simpa using change_ne_deletion_of_updates member
  have dropped : ∀ fileChange ∈ deletions prevDir newDir,
      ¬ (fileChange.change != .deletion) = true := by
    intro fileChange member
    simp [(mem_deletions.mp member).1]
  rw [getDirectoryChangesScan_eq, List.filter_append, List.filter_eq_self.mpr kept,
    List.filter_eq_nil_iff.mpr dropped, List.append_nil]

/-- No path has two updates. -/
theorem nodup_updates (old new : FileTable) :
    ((updates old new).map FileChangeData.filePath).Nodup := by
  rw [List.Nodup, List.pairwise_map]
  apply (updates_pairwise old new).imp
  intro first second less same
  have equal : compare first.filePath second.filePath = .eq :=
    same ▸ Std.ReflCmp.compare_self
  rw [equal] at less
  cases less

/-- A path is updated if and only if the new table has it and the old one does not have it with
    the same hash. -/
theorem updated_path_iff {old new : FileTable} {path : WString} :
    path ∈ (updates old new).map FileChangeData.filePath ↔
      ∃ hash, new[path]? = some hash ∧ old[path]? ≠ some hash := by
  rw [List.mem_map]
  constructor
  · rintro ⟨fileChange, member, rfl⟩
    obtain ⟨found, ⟨-, absent⟩ | ⟨-, hash, other, differ⟩⟩ := mem_updates.mp member
    · exact ⟨_, found, by simp [absent]⟩
    · exact ⟨_, found, by simpa [other] using differ⟩
  · rintro ⟨hash, found, differ⟩
    cases before : old[path]? with
    | none => exact ⟨⟨path, hash, .addition⟩, mem_updates.mpr ⟨found, Or.inl ⟨rfl, before⟩⟩, rfl⟩
    | some other =>
      rw [before] at differ
      exact ⟨⟨path, hash, .edit⟩, mem_updates.mpr
        ⟨found, Or.inr ⟨rfl, other, before, fun same => differ (congrArg some same)⟩⟩, rfl⟩

/-- What a node finds out about a foreign table. -/
structure DiffsAgree (hostDir foreignDir : FileTable) : Prop where
  /-- In the same order and with the same hashes as in a scan that yields the foreign table. -/
  scan : (getDirectoryChanges hostDir foreignDir).1 =
    (getDirectoryChangesScan foreignDir hostDir).1.filter (fun fileChange =>
      fileChange.change != .deletion)
  once : ((getDirectoryChanges hostDir foreignDir).1.map FileChangeData.filePath).Nodup
  paths : ∀ path, path ∈ (getDirectoryChanges hostDir foreignDir).1.map FileChangeData.filePath ↔
    ∃ hash, foreignDir[path]? = some hash ∧ hostDir[path]? ≠ some hash
  entries : ∀ fileChange, fileChange ∈ (getDirectoryChanges hostDir foreignDir).1 ↔
    foreignDir[fileChange.filePath]? = some fileChange.fileHash ∧
      ((fileChange.change = .addition ∧ hostDir[fileChange.filePath]? = none) ∨
        (fileChange.change = .edit ∧
          ∃ hash, hostDir[fileChange.filePath]? = some hash ∧ hash ≠ fileChange.fileHash))
  empty : (getDirectoryChanges hostDir foreignDir).1 = [] ↔
    ∀ (path : WString) (hash : UInt64), foreignDir[path]? = some hash → hostDir[path]? = some hash
  host : (getDirectoryChanges hostDir foreignDir).2.1 = hostDir
  foreign : (getDirectoryChanges hostDir foreignDir).2.2 = foreignDir

/-- The two copies of the comparison agree on all tables and leave them as they were. -/
theorem diffs_agree (hostDir foreignDir : FileTable) : DiffsAgree hostDir foreignDir where
  scan := by rw [getDirectoryChanges_eq, filter_scan]
  once := by
    rw [getDirectoryChanges_eq]
    exact nodup_updates hostDir foreignDir
  paths path := by
    rw [getDirectoryChanges_eq]
    exact updated_path_iff
  entries fileChange := by
    rw [getDirectoryChanges_eq]
    exact mem_updates
  empty := by
    rw [getDirectoryChanges_eq, ← List.map_eq_nil_iff (f := FileChangeData.filePath),
      List.eq_nil_iff_forall_not_mem]
    refine forall_congr' fun path => ?_
    rw [updated_path_iff]
    simp
  host := by rw [getDirectoryChanges_eq]
  foreign := by rw [getDirectoryChanges_eq]

example : (getDirectoryChanges ((∅ : FileTable).insert (wide "\\a") 1)
    (((∅ : FileTable).insert (wide "\\a") 2).insert (wide "\\b") 3)).1 =
    [⟨wide "\\a", 2, .edit⟩, ⟨wide "\\b", 3, .addition⟩] := by decide

end FileSync
