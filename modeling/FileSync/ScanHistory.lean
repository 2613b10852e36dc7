import FileSync.ChangeBuffer
import FileSync.DealWithHashTable
import FileSync.SharedDisk

/-!
# The scans behind a change list

The change list of a chain of folders is the concatenation of what the scans find. Each of its
changes belongs to a scan, and what the list says up to a change, applied to the first table, is
what that scan has got to.
-/

namespace FileSync

open TreeReplay

variable {server : Host}

/-- The lists that `getDirectoryChanges` emits for a chain of folders, one after the other. -/
def changeList (first : SharedDisk server) (later : List (SharedDisk server)) :
    List FileChangeData :=
  (scanChain first.table (later.map SharedDisk.table)).1

/-- The last folder of a chain. -/
def lastDisk (first : SharedDisk server) (later : List (SharedDisk server)) : SharedDisk server :=
  later.getLast?.getD first

/-- The changes that one scan finds. -/
def scanned (old new : SharedDisk server) : List FileChangeData :=
  updates old.table new.table ++ deletions old.table new.table

theorem changeList_cons (first second : SharedDisk server) (later : List (SharedDisk server)) :
    changeList first (second :: later) = scanned first second ++ changeList second later := by
  simp only [changeList, List.map_cons, scanChain, getDirectoryChangesScan_eq]
  rfl

/-! ## Where a change comes from -/

/-- An element of an appended list is in one of its parts. -/
theorem append_eq_around {α : Type} {left right before after : List α} {a : α}
    (split : left ++ right = before ++ a :: after) :
    (∃ more, left = before ++ a :: more) ∨
      ∃ more, before = left ++ more ∧ right = more ++ a :: after := by
  rcases List.append_eq_append_iff.mp split with ⟨more, long, short⟩ | ⟨more, long, short⟩
  · exact Or.inr ⟨more, long, short⟩
  · cases more with
    | nil => exact Or.inr ⟨[], by simpa using long.symm, by simpa using short.symm⟩
    | cons b more =>
      simp only [List.cons_append, List.cons.injEq] at short
      obtain ⟨rfl, -⟩ := short
      exact Or.inl ⟨more, long⟩

/-- A change of the list belongs to a scan, and the changes of the scans before lead to the
    folder that this scan starts from. -/
theorem changeList_around {later : List (SharedDisk server)} : ∀ {first : SharedDisk server}
    {before after : List FileChangeData} {fileChange : FileChangeData},
    changeList first later = before ++ fileChange :: after →
    ∃ earlier part rest old new, before = earlier ++ part ∧
      scanned old new = part ++ fileChange :: rest ∧
      applyChanges first.table earlier = old.table ∧ [old, new] <:+: first :: later := by
  induction later with
  | nil =>
    intro first before after fileChange split
    have empty := congrArg List.length split
    simp [changeList, scanChain] at empty
  | cons second later ih =>
    intro first before after fileChange split
    rw [changeList_cons] at split
    rcases append_eq_around split with ⟨rest, here⟩ | ⟨more, rfl, there⟩
    · exact ⟨[], before, rest, first, second, rfl, here, rfl, [], later, rfl⟩
    · obtain ⟨earlier, part, rest, old, new, rfl, found, reached, inside⟩ := ih there
      refine ⟨scanned first second ++ earlier, part, rest, old, new, by simp, found, ?_,
        inside.trans (List.infix_cons List.infix_rfl)⟩
      rw [applyChanges_append, scanned, applyChanges_scan, reached]

/-- The changes of a scan are in the list, behind changes that lead to where it starts from. -/
theorem changeList_of_scan {later : List (SharedDisk server)} :
    ∀ {first old new : SharedDisk server}, [old, new] <:+: first :: later →
    ∃ earlier rest, changeList first later = earlier ++ (scanned old new ++ rest) ∧
      applyChanges first.table earlier = old.table := by
  induction later with
  | nil =>
    intro first old new inside
    have short := inside.length_le
    simp at short
  | cons second later ih =>
    intro first old new inside
    rw [changeList_cons]
    rcases List.infix_cons_iff.mp inside with here | there
    · simp only [List.cons_prefix_cons] at here
      obtain ⟨rfl, rfl, -⟩ := here
      exact ⟨[], changeList new later, rfl, rfl⟩
    · obtain ⟨earlier, rest, found, reached⟩ := ih there
      refine ⟨scanned first second ++ earlier, rest, by rw [found, List.append_assoc], ?_⟩
      rw [applyChanges_append, scanned, applyChanges_scan, reached]

theorem table_lastDisk (first : SharedDisk server) (later : List (SharedDisk server)) :
    applyChanges first.table (changeList first later) = (lastDisk first later).table := by
  rw [changeList, applyChanges_scanChain, scanChain_snd, lastDisk, List.getLast?_map]
  cases later.getLast? <;> rfl

/-! ## Updates and deletions -/

/-- An Addition or Edit of the path is among the changes. -/
def Updates (changes : List FileChangeData) (filePath : WString) : Prop :=
  ∃ fileChange ∈ changes, fileChange.change ≠ .deletion ∧ fileChange.filePath = filePath

/-- A Deletion of the path is among the changes. -/
def Deletes (changes : List FileChangeData) (filePath : WString) : Prop :=
  ∃ fileChange ∈ changes, fileChange.change = .deletion ∧ fileChange.filePath = filePath

theorem Deletes.append_left {changes : List FileChangeData} {filePath : WString}
    (deletes : Deletes changes filePath) (more : List FileChangeData) :
    Deletes (changes ++ more) filePath := by
  obtain ⟨fileChange, member, deletion, same⟩ := deletes
  exact ⟨fileChange, List.mem_append_left _ member, deletion, same⟩

theorem getElem?_applyChanges_concat (table : FileTable) (changes : List FileChangeData)
    (fileChange : FileChangeData) (filePath : WString) :
    (applyChanges table (changes ++ [fileChange]))[filePath]? =
      if fileChange.filePath = filePath then
        if fileChange.change = .deletion then none else some fileChange.fileHash
      else (applyChanges table changes)[filePath]? := by
  rw [applyChanges_append]
  show (updateFileHashes (applyChanges table changes) fileChange)[filePath]? = _
  rw [updateFileHashes_eq, EditScript.getElem?_applyEdit]
  rfl

/-- A path that is not deleted stays in the table. -/
theorem isSome_applyChanges {table : FileTable} {changes : List FileChangeData}
    {filePath : WString} (present : table[filePath]?.isSome) (kept : ¬ Deletes changes filePath) :
    (applyChanges table changes)[filePath]?.isSome := by
  induction changes using List.reverseRecOn with
  | nil => exact present
  | append_singleton changes fileChange ih =>
    rw [getElem?_applyChanges_concat]
    by_cases same : fileChange.filePath = filePath
    · have update : fileChange.change ≠ .deletion := fun deletion =>
        kept ⟨fileChange, by simp, deletion, same⟩
      simp [same, update]
    · simp only [same, if_false]
      exact ih fun deletes => kept (deletes.append_left _)

/-- A path that is not mentioned has its old entry. -/
theorem getElem?_applyChanges_of_unmentioned {table : FileTable} {changes : List FileChangeData}
    {filePath : WString} (notUpdated : ¬ Updates changes filePath)
    (notDeleted : ¬ Deletes changes filePath) :
    (applyChanges table changes)[filePath]? = table[filePath]? := by
  induction changes using List.reverseRecOn with
  | nil => rfl
  | append_singleton changes fileChange ih =>
    have other : fileChange.filePath ≠ filePath := by
      intro same
      by_cases deletion : fileChange.change = .deletion
      · exact notDeleted ⟨fileChange, by simp, deletion, same⟩
      · exact notUpdated ⟨fileChange, by simp, deletion, same⟩
    rw [getElem?_applyChanges_concat, if_neg other]
    apply ih
    · rintro ⟨change, member, update, same⟩
      exact notUpdated ⟨change, List.mem_append_left _ member, update, same⟩
    · exact fun deletes => notDeleted (deletes.append_left _)

/-! ## Changes of the tree below the folder -/

/-- A change of a path of names. -/
def FileChangeData.Names (fileChange : FileChangeData) (path : Components) : Prop :=
  fileChange.filePath = relativePath path ∧ path ≠ [] ∧ ∀ part ∈ path, ValidName part

/-- A change as one of the tree below the shared folder. -/
def FileChangeData.toChange (fileChange : FileChangeData) : Change WString UInt64 :=
  match fileChange.change with
  | .deletion => .delete (components fileChange.filePath)
  | .addition | .edit => .put (components fileChange.filePath) fileChange.fileHash

theorem toChange_of_names {fileChange : FileChangeData} {path : Components}
    (names : fileChange.Names path) :
    fileChange.toChange =
      if fileChange.change = .deletion then .delete path else .put path fileChange.fileHash := by
  have parts : components fileChange.filePath = path := by
    rw [names.1, components_relativePath names.2.2]
  unfold FileChangeData.toChange
  cases fileChange.change <;> simp [parts]

theorem toChange_eq_put {fileChange : FileChangeData} {path : Components} {label : UInt64}
    (named : ∃ path, fileChange.Names path) (put : fileChange.toChange = .put path label) :
    fileChange.change ≠ .deletion ∧ fileChange.Names path ∧ fileChange.fileHash = label := by
  obtain ⟨place, names⟩ := named
  rw [toChange_of_names names] at put
  split at put
  · cases put
  · rename_i update
    cases put
    exact ⟨update, names, rfl⟩

theorem toChange_eq_delete {fileChange : FileChangeData} {path : Components}
    (named : ∃ path, fileChange.Names path) (delete : fileChange.toChange = .delete path) :
    fileChange.change = .deletion ∧ fileChange.Names path := by
  obtain ⟨place, names⟩ := named
  rw [toChange_of_names names] at delete
  split at delete
  · rename_i deletion
    cases delete
    exact ⟨deletion, names⟩
  · cases delete

theorem names_of_scanned {old new : SharedDisk server} {fileChange : FileChangeData}
    (member : fileChange ∈ scanned old new) : ∃ path, fileChange.Names path := by
  rcases List.mem_append.mp member with update | deletion
  · obtain ⟨path, same, nonempty, valid, -⟩ := file_of_table (mem_updates.mp update).1
    exact ⟨path, same, nonempty, valid⟩
  · obtain ⟨-, -, ⟨hash, before⟩, -⟩ := mem_deletions.mp deletion
    obtain ⟨path, same, nonempty, valid, -⟩ := file_of_table before
    exact ⟨path, same, nonempty, valid⟩

theorem names_of_mem {first : SharedDisk server} {later : List (SharedDisk server)}
    {fileChange : FileChangeData} (member : fileChange ∈ changeList first later) :
    ∃ path, fileChange.Names path := by
  obtain ⟨before, after, split⟩ := List.append_of_mem member
  obtain ⟨earlier, part, rest, old, new, -, found, -⟩ := changeList_around split
  exact names_of_scanned (by rw [found]; simp)

section Named

variable {changes : List FileChangeData}

theorem updated_iff (named : ∀ fileChange ∈ changes, ∃ path, fileChange.Names path)
    {path : Components} (valid : ∀ part ∈ path, ValidName part) :
    Updated (changes.map FileChangeData.toChange) path ↔ Updates changes (relativePath path) := by
  constructor
  · rintro ⟨label, member⟩
    obtain ⟨fileChange, member, put⟩ := List.mem_map.mp member
    obtain ⟨update, names, -⟩ := toChange_eq_put (named fileChange member) put
    exact ⟨fileChange, member, update, names.1⟩
  · rintro ⟨fileChange, member, update, same⟩
    obtain ⟨place, names⟩ := named fileChange member
    obtain rfl : place = path := relativePath_injective names.2.2 valid (names.1.symm.trans same)
    refine ⟨fileChange.fileHash, List.mem_map.mpr ⟨fileChange, member, ?_⟩⟩
    rw [toChange_of_names names, if_neg update]

theorem deleted_iff (named : ∀ fileChange ∈ changes, ∃ path, fileChange.Names path)
    {path : Components} (valid : ∀ part ∈ path, ValidName part) :
    .delete path ∈ changes.map FileChangeData.toChange ↔ Deletes changes (relativePath path) := by
  constructor
  · intro member
    obtain ⟨fileChange, member, delete⟩ := List.mem_map.mp member
    obtain ⟨deletion, names⟩ := toChange_eq_delete (named fileChange member) delete
    exact ⟨fileChange, member, deletion, names.1⟩
  · rintro ⟨fileChange, member, deletion, same⟩
    obtain ⟨place, names⟩ := named fileChange member
    obtain rfl : place = path := relativePath_injective names.2.2 valid (names.1.symm.trans same)
    refine List.mem_map.mpr ⟨fileChange, member, ?_⟩
    rw [toChange_of_names names, if_pos deletion]

/-- The paths that the list takes for files are those of the table that it leads to. -/
theorem mem_listing_iff {first : SharedDisk server}
    (named : ∀ fileChange ∈ changes, ∃ path, fileChange.Names path) {path : Components}
    (valid : ∀ part ∈ path, ValidName part) :
    path ∈ listing (files (server.view first.disk)) (changes.map FileChangeData.toChange) ↔
      (applyChanges first.table changes)[relativePath path]?.isSome := by
  induction changes using List.reverseRecOn with
  | nil => exact mem_files_iff valid
  | append_singleton changes fileChange ih =>
    have earlier := ih fun change member => named change (List.mem_append_left _ member)
    obtain ⟨place, names⟩ := named fileChange (by simp)
    have same : fileChange.filePath = relativePath path ↔ path = place := by
      constructor
      · intro same
        exact relativePath_injective valid names.2.2 (same.symm.trans names.1)
      · rintro rfl
        exact names.1
    rw [getElem?_applyChanges_concat, List.map_append, List.map_singleton,
      toChange_of_names names]
    by_cases deletion : fileChange.change = .deletion
    · rw [if_pos deletion, listing_append_delete, Set.mem_sdiff, earlier]
      by_cases here : path = place
      · simp [here, deletion, names.1]
      · simp [here, same]
    · rw [if_neg deletion, listing_append_put, Set.mem_insert_iff, earlier]
      by_cases here : path = place
      · simp [here, deletion, names.1]
      · simp [here, same]

end Named

/-! ## The script of a change list -/

theorem deletions_pairwise (old new : FileTable) :
    (deletions old new).Pairwise fun earlier later =>
      compare earlier.filePath later.filePath = .lt := by
  have ordered : old.keys.Pairwise fun earlier later => compare earlier later = .lt :=
    Std.ExtTreeMap.ordered_keys
  exact List.pairwise_map.mpr (ordered.filter _)

/-- A scan deletes a path at most once. -/
theorem not_deletes_of_scanned {old new : SharedDisk server}
    {part rest : List FileChangeData} {fileChange : FileChangeData}
    (split : scanned old new = part ++ fileChange :: rest)
    (deletion : fileChange.change = .deletion) : ¬ Deletes part fileChange.filePath := by
  rintro ⟨other, member, otherDeletion, same⟩
  rcases append_eq_around split with ⟨more, here⟩ | ⟨more, rfl, there⟩
  · have update := mem_updates.mp (here ▸ (by simp : fileChange ∈ part ++ fileChange :: more))
    simp [deletion] at update
  · rcases List.mem_append.mp member with update | earlier
    · have update := mem_updates.mp update
      simp [otherDeletion] at update
    · have ordered := deletions_pairwise old.table new.table
      rw [there, List.pairwise_append] at ordered
      have less := ordered.2.2 other earlier fileChange List.mem_cons_self
      have equal : compare fileChange.filePath fileChange.filePath = .eq :=
        Std.ReflCmp.compare_self
      rw [same, equal] at less
      cases less

theorem split_of_put {first : SharedDisk server} {later : List (SharedDisk server)}
    {before after : List (Change WString UInt64)} {path : Components} {label : UInt64}
    (split : (changeList first later).map FileChangeData.toChange =
      before ++ .put path label :: after) :
    ∃ earlier fileChange rest, changeList first later = earlier ++ fileChange :: rest ∧
      before = earlier.map FileChangeData.toChange ∧ fileChange.change ≠ .deletion ∧
      fileChange.Names path ∧ fileChange.fileHash = label := by
  obtain ⟨earlier, tail, whole, rfl, mapped⟩ := List.map_eq_append_iff.mp split
  obtain ⟨fileChange, rest, rfl, put, -⟩ := List.map_eq_cons_iff.mp mapped
  have named : ∃ path, fileChange.Names path := names_of_mem (by rw [whole]; simp)
  exact ⟨earlier, fileChange, rest, whole, rfl, toChange_eq_put named put⟩

theorem split_of_delete {first : SharedDisk server} {later : List (SharedDisk server)}
    {before after : List (Change WString UInt64)} {path : Components}
    (split : (changeList first later).map FileChangeData.toChange =
      before ++ .delete path :: after) :
    ∃ earlier fileChange rest, changeList first later = earlier ++ fileChange :: rest ∧
      before = earlier.map FileChangeData.toChange ∧ fileChange.change = .deletion ∧
      fileChange.Names path := by
  obtain ⟨earlier, tail, whole, rfl, mapped⟩ := List.map_eq_append_iff.mp split
  obtain ⟨fileChange, rest, rfl, delete, -⟩ := List.map_eq_cons_iff.mp mapped
  have named : ∃ path, fileChange.Names path := names_of_mem (by rw [whole]; simp)
  exact ⟨earlier, fileChange, rest, whole, rfl, toChange_eq_delete named delete⟩

theorem named_of_split {first : SharedDisk server} {later : List (SharedDisk server)}
    {earlier rest : List FileChangeData} (split : changeList first later = earlier ++ rest) :
    ∀ fileChange ∈ earlier, ∃ path, fileChange.Names path :=
  fun _ member => names_of_mem (by rw [split]; exact List.mem_append_left _ member)

/-- A deleted file is one of the folder that its scan starts from. -/
theorem old_of_deletion {old new : SharedDisk server} {part rest : List FileChangeData}
    {fileChange : FileChangeData} (found : scanned old new = part ++ fileChange :: rest)
    (deletion : fileChange.change = .deletion) :
    old.table[fileChange.filePath]?.isSome := by
  have member : fileChange ∈ scanned old new := by simp [found]
  rcases List.mem_append.mp member with update | gone
  · have update := mem_updates.mp update
    simp [deletion] at update
  · obtain ⟨-, -, ⟨hash, before⟩, -⟩ := mem_deletions.mp gone
    simp [before]

/-- An update announces a file of the folder that its scan leads to, with another hash than the
    one that the folder before had. -/
theorem new_of_update {old new : SharedDisk server} {part rest : List FileChangeData}
    {fileChange : FileChangeData} (found : scanned old new = part ++ fileChange :: rest)
    (update : fileChange.change ≠ .deletion) :
    new.table[fileChange.filePath]? = some fileChange.fileHash ∧
      old.table[fileChange.filePath]? ≠ some fileChange.fileHash := by
  have member : fileChange ∈ scanned old new := by simp [found]
  rcases List.mem_append.mp member with updated | gone
  · obtain ⟨after, ⟨-, before⟩ | ⟨-, hash, before, differ⟩⟩ := mem_updates.mp updated
    · simp [after, before]
    · simp [after, before, differ]
  · exact absurd (mem_deletions.mp gone).1 update

/-- The changes of a chain of folders are a script from the first to the last. -/
theorem script_of_changeList (first : SharedDisk server) (later : List (SharedDisk server)) :
    Script (server.view first.disk) (server.view (lastDisk first later).disk)
      (fun path hash bytes => sharedHash server.platform (relativePath path) bytes = hash)
      ((changeList first later).map FileChangeData.toChange) := by
  have named : ∀ fileChange ∈ changeList first later, ∃ path, fileChange.Names path :=
    fun _ => names_of_mem
  constructor
  · intro before path label after content split notUpdated notDeleted original announced
    obtain ⟨earlier, fileChange, rest, whole, rfl, update, names, rfl⟩ := split_of_put split
    have valid := names.2.2
    rw [updated_iff (named_of_split whole) valid] at notUpdated
    rw [deleted_iff (named_of_split whole) valid] at notDeleted
    obtain ⟨past, part, more, old, new, rfl, found, reached, -⟩ := changeList_around whole
    -- nothing has been said about the path, so that it has its first hash
    have unchanged : old.table[relativePath path]? = first.table[relativePath path]? := by
      rw [← reached]
      apply getElem?_applyChanges_of_unmentioned
      · rintro ⟨change, member, mentioned⟩
        exact notUpdated ⟨change, List.mem_append_left _ member, mentioned⟩
      · exact fun deletes => notDeleted (deletes.append_left part)
    have differs := (new_of_update found update).2
    rw [names.1, unchanged, table_of_file original, announced] at differs
    exact differs rfl
  · intro before path after split
    obtain ⟨earlier, fileChange, rest, whole, rfl, deletion, names⟩ := split_of_delete split
    rw [mem_listing_iff (named_of_split whole) names.2.2]
    obtain ⟨past, part, more, old, new, rfl, found, reached, -⟩ := changeList_around whole
    rw [applyChanges_append, reached, ← names.1]
    exact isSome_applyChanges (old_of_deletion found deletion)
      (not_deletes_of_scanned found deletion)
  · intro before path after lower split above original
    obtain ⟨earlier, fileChange, rest, whole, rfl, deletion, names⟩ := split_of_delete split
    have valid := valid_of_file original
    rw [deleted_iff (named_of_split whole) valid]
    by_contra kept
    obtain ⟨past, part, more, old, new, rfl, found, reached, -⟩ := changeList_around whole
    -- otherwise the folder before the scan would have a file below a file
    have below : lower ∈ files (server.view old.disk) := by
      rw [mem_files_iff valid, ← reached]
      exact isSome_applyChanges ((mem_files_iff valid).mp original)
        fun deletes => kept (deletes.append_left part)
    have file : path ∈ files (server.view old.disk) := by
      rw [mem_files_iff names.2.2, ← names.1]
      exact old_of_deletion found deletion
    obtain ⟨bytes, held⟩ := file
    obtain ⟨content, there⟩ := below
    rw [(isTree_view old).closed above (by simp [there])] at held
    cases held
  · ext path
    by_cases valid : ∀ part ∈ path, ValidName part
    · rw [mem_listing_iff named valid, table_lastDisk, mem_files_iff valid]
    · -- only paths of names are listed
      constructor
      · intro listed
        by_cases updated : Updated ((changeList first later).map FileChangeData.toChange) path
        · obtain ⟨label, member⟩ := updated
          obtain ⟨fileChange, member, put⟩ := List.mem_map.mp member
          exact absurd (toChange_eq_put (named fileChange member) put).2.1.2.2 valid
        · exact absurd (valid_of_file (listed_of_not_updated listed updated).1) valid
      · exact fun file => absurd (valid_of_file file) valid

end FileSync
