import FileSync.Folder
import FileSync.Library.TreeReplay
import Mathlib.Data.List.Infix

/-!
# The shared folder on a disk

The paths of a change list are relative to the shared folder and start with a separator. For paths
whose parts are names that a file can have, the calls of `std::filesystem` on a disk are the
operations on the tree below the folder.
-/

namespace FileSync

open TreeReplay

/-! ## Paths of names -/

/-- A name that a file or a directory can have. -/
def ValidName (part : WString) : Prop :=
  part ≠ [] ∧ (∀ c ∈ part, isSeparator c = false) ∧ part ≠ wide "." ∧ part ≠ wide ".."

/-- The path of a change for a path of names. -/
def relativePath (path : Components) : WString := path.flatMap fun part => backslash :: part

theorem isSeparator_backslash : isSeparator backslash = true := by decide

theorem components_nil : components [] = [] := by decide

theorem components_of_valid {part : WString} (valid : ValidName part) :
    components part = [part] := by
  obtain ⟨nonempty, plain, -⟩ := valid
  rw [components, List.splitOnP_eq_singleton plain]
  simp [nonempty]

theorem relativePath_append (path : Components) (part : WString) :
    relativePath (path ++ [part]) = relativePath path ++ backslash :: part := by
  simp [relativePath]

theorem components_append_relativePath {path : Components}
    (valid : ∀ part ∈ path, ValidName part) (before : WString) :
    components (before ++ relativePath path) = components before ++ path := by
  induction path using List.reverseRecOn with
  | nil => simp [relativePath]
  | append_singleton path part ih =>
    have earlier := ih fun other member => valid other (List.mem_append_left _ member)
    rw [relativePath_append, ← List.append_assoc, components_separator isSeparator_backslash,
      earlier, components_of_valid (valid part (by simp)), List.append_assoc]

theorem components_relativePath {path : Components} (valid : ∀ part ∈ path, ValidName part) :
    components (relativePath path) = path := by
  simpa [components_nil] using components_append_relativePath valid []

theorem relativePath_injective {path other : Components} (valid : ∀ part ∈ path, ValidName part)
    (validOther : ∀ part ∈ other, ValidName part) (same : relativePath path = relativePath other) :
    path = other := by
  rw [← components_relativePath valid, same, components_relativePath validOther]

theorem resolveStep_of_valid {part : WString} (valid : ValidName part) (resolved : Components) :
    resolveStep resolved part = resolved ++ [part] := by
  obtain ⟨-, -, notDot, notDots⟩ := valid
  simp [resolveStep, notDot, notDots]

theorem foldl_resolveStep {path : Components} (valid : ∀ part ∈ path, ValidName part) :
    ∀ resolved, path.foldl resolveStep resolved = resolved ++ path := by
  induction path with
  | nil => simp
  | cons part path ih =>
    intro resolved
    rw [List.foldl_cons, ih fun other member => valid other (List.mem_cons_of_mem _ member),
      resolveStep_of_valid (valid part List.mem_cons_self), List.append_assoc,
      List.singleton_append]

/-- The shared folder as the file system sees it. -/
def Host.base (host : Host) : Components := resolve host.directory

theorem resolve_separator (before after : WString) :
    resolve (before ++ backslash :: after) =
      (components after).foldl resolveStep (resolve before) := by
  rw [resolve, components_separator isSeparator_backslash, List.foldl_append]
  rfl

theorem foldl_resolveStep_ne_nil (parts : Components) : ∀ {resolved : Components}, resolved ≠ [] →
    parts.foldl resolveStep resolved ≠ [] := by
  induction parts with
  | nil => exact fun nonempty => nonempty
  | cons part parts ih =>
    intro resolved nonempty
    apply ih
    unfold resolveStep
    split
    · exact nonempty
    · split
      · split
        · exact nonempty
        · rename_i long
          intro empty
          have short := congrArg List.length empty
          simp at short
          omega
      · simp

/-- The shared folder is not the root of the file system. -/
theorem base_ne_nil (host : Host) : host.base ≠ [] := by
  have drive : host.directory = wide "C:" ++ backslash ::
      (wide "Users\\" ++ host.username ++ wide "\\Documents" ++ sharedFolder) := rfl
  rw [Host.base, drive, resolve_separator]
  apply foldl_resolveStep_ne_nil
  decide

theorem resolve_localPath (host : Host) {path : Components}
    (valid : ∀ part ∈ path, ValidName part) :
    resolve (host.localPath (relativePath path)) = host.base ++ path := by
  rw [Host.localPath, resolve_separator, components_relativePath valid, foldl_resolveStep valid]
  rfl

/-- The directory of a file is what its path names without the last part. -/
theorem resolve_parentPath (host : Host) {path : Components} {part : WString}
    (valid : ∀ part ∈ path, ValidName part) (validPart : ValidName part) :
    resolve (parentPath (host.localPath (relativePath (path ++ [part])))) =
      host.base ++ path := by
  have last : ∀ c ∈ part.reverse, (!isSeparator c) = true := by
    intro c member
    simp [validPart.2.1 c (List.mem_reverse.mp member)]
  have split : host.localPath (relativePath (path ++ [part])) =
      (host.localPath (relativePath path) ++ [backslash]) ++ part := by
    simp [Host.localPath, relativePath_append]
  have parent : parentPath (host.localPath (relativePath (path ++ [part]))) =
      host.localPath (relativePath path) ++ [backslash] := by
    rw [parentPath, split, List.reverse_append, List.dropWhile_append_of_pos last,
      List.reverse_append]
    simp [isSeparator_backslash]
  rw [parent, resolve_separator, components_nil, resolve_localPath host valid]
  rfl

/-! ## Directories -/

theorem insert_directory {disk : Disk} {path : Components} (found : disk[path]? = some .directory) :
    disk.insert path .directory = disk := by
  apply Std.ExtTreeMap.ext_getElem?
  intro other
  by_cases same : path = other
  · subst same
    simp [found]
  · simp [Std.ExtTreeMap.getElem?_insert, same]

/-- A directory is created where nothing is, and left alone where it is. -/
theorem createDirectories_cons {disk : Disk} {above : Components} {part : WString}
    {parts : Components} (free : ∀ bytes, disk[above ++ [part]]? ≠ some (.file bytes)) :
    createDirectories disk above (part :: parts) =
      createDirectories (disk.insert (above ++ [part]) .directory) (above ++ [part]) parts := by
  rw [createDirectories]
  cases found : disk[above ++ [part]]? with
  | none => rfl
  | some entry =>
    cases entry with
    | file bytes => exact absurd found (free bytes)
    | directory => simp only [insert_directory found]

/-- No file stands where a directory was created or found. -/
theorem createDirectories_free {parts : Components} : ∀ {disk next : Disk} {above : Components},
    createDirectories disk above parts = .ok next → ∀ more bytes,
      more <+: parts → more ≠ [] → disk[above ++ more]? ≠ some (.file bytes) := by
  induction parts with
  | nil =>
    intro disk next above _ more bytes upper nonempty
    exact absurd (List.prefix_nil.mp upper) nonempty
  | cons part parts ih =>
    intro disk next above created more bytes upper nonempty
    have free : ∀ bytes, disk[above ++ [part]]? ≠ some (.file bytes) := by
      intro bytes found
      simp [createDirectories, found] at created
    rw [createDirectories_cons free] at created
    obtain rfl | ⟨rest, rfl, inside⟩ := List.prefix_cons_iff.mp upper
    · exact absurd rfl nonempty
    · by_cases first : rest = []
      · subst first
        exact free bytes
      · have later := ih created rest bytes inside first
        simpa [Std.ExtTreeMap.getElem?_insert, first] using later

theorem createDirectories_ok {parts : Components} : ∀ {disk : Disk} {above : Components},
    (∀ more bytes, more <+: parts → more ≠ [] → disk[above ++ more]? ≠ some (.file bytes)) →
    ∃ next, createDirectories disk above parts = .ok next := by
  induction parts with
  | nil => exact fun _ => ⟨_, rfl⟩
  | cons part parts ih =>
    intro disk above free
    have first (bytes : Bytes) : disk[above ++ [part]]? ≠ some (.file bytes) :=
      free [part] bytes (by simp) (by simp)
    rw [createDirectories_cons first]
    apply ih
    intro more bytes upper nonempty
    have later := free (part :: more) bytes (by simpa using upper) (by simp)
    simpa [Std.ExtTreeMap.getElem?_insert, nonempty] using later

/-- Afterwards the directories are there, and everything else is as before. -/
theorem getElem?_createDirectories {parts : Components} : ∀ {disk next : Disk}
    {above : Components}, createDirectories disk above parts = .ok next →
    (∀ more, more <+: parts → more ≠ [] → next[above ++ more]? = some .directory) ∧
    ∀ path, (∀ more, more <+: parts → more ≠ [] → path ≠ above ++ more) →
      next[path]? = disk[path]? := by
  induction parts with
  | nil =>
    intro disk next above created
    cases created
    refine ⟨fun more upper nonempty => ?_, fun _ _ => rfl⟩
    exact absurd (List.prefix_nil.mp upper) nonempty
  | cons part parts ih =>
    intro disk next above created
    have free (bytes : Bytes) : disk[above ++ [part]]? ≠ some (.file bytes) :=
      createDirectories_free created [part] bytes (by simp) (by simp)
    rw [createDirectories_cons free] at created
    obtain ⟨made, others⟩ := ih created
    constructor
    · intro more upper nonempty
      obtain rfl | ⟨rest, rfl, inside⟩ := List.prefix_cons_iff.mp upper
      · exact absurd rfl nonempty
      · by_cases first : rest = []
        · subst first
          rw [others (above ++ [part]) (by simp)]
          simp
        · simpa using made rest inside first
    · intro path outside
      have differ : above ++ [part] ≠ path := (outside [part] (by simp) (by simp)).symm
      rw [others path fun more upper _ => by
        simpa using outside (part :: more) (by simpa using upper) (by simp)]
      simp [Std.ExtTreeMap.getElem?_insert, differ]

/-! ## The tree below the shared folder -/

/-- An entry as one of a tree. -/
def Entry.item : Entry → Item Bytes
  | .file bytes => .file bytes
  | .directory => .directory

/-- What is below the shared folder. -/
def Host.view (host : Host) (disk : Disk) : Tree WString Bytes :=
  fun path => disk[host.base ++ path]?.map Entry.item

/-- The shared folder and the directories above it exist. -/
def Host.Rooted (host : Host) (disk : Disk) : Prop :=
  ∀ upper, upper <+: host.base → upper ≠ [] → disk[upper]? = some .directory

/-- A disk with a shared folder, in which everything has a name and lies in a directory. -/
structure SharedDisk (host : Host) where
  disk : Disk
  rooted : host.Rooted disk
  closed : ∀ path part, disk[host.base ++ (path ++ [part])]?.isSome →
    disk[host.base ++ path]? = some .directory
  named : ∀ path, disk[host.base ++ path]?.isSome → ∀ part ∈ path, ValidName part

theorem above_concat_iff {upper path : Components} {part : WString} :
    Above upper (path ++ [part]) ↔ upper <+: path := by
  constructor
  · rintro ⟨isPrefix, differ⟩
    exact (List.prefix_concat_iff.mp isPrefix).resolve_left differ
  · intro isPrefix
    refine ⟨List.prefix_concat_iff.mpr (Or.inr isPrefix), ?_⟩
    rintro rfl
    have short := isPrefix.length_le
    simp at short

@[simp] theorem view_eq_file {host : Host} {disk : Disk} {path : Components} {bytes : Bytes} :
    host.view disk path = some (.file bytes) ↔
      disk[host.base ++ path]? = some (.file bytes) := by
  unfold Host.view
  cases disk[host.base ++ path]? with
  | none => simp
  | some entry => cases entry <;> simp [Entry.item]

@[simp] theorem view_eq_directory {host : Host} {disk : Disk} {path : Components} :
    host.view disk path = some .directory ↔ disk[host.base ++ path]? = some .directory := by
  unfold Host.view
  cases disk[host.base ++ path]? with
  | none => simp
  | some entry => cases entry <;> simp [Entry.item]

/-- Where a file can be put, the directories above it can be created. -/
theorem free_of_view {host : Host} {disk : Disk} (rooted : host.Rooted disk) {path : Components}
    {part : WString} (free : ∀ upper, Above upper (path ++ [part]) → upper ∉ files (host.view disk))
    (more : Components) (bytes : Bytes) (upper : more <+: host.base ++ path)
    (nonempty : more ≠ []) : disk[more]? ≠ some (.file bytes) := by
  rcases List.prefix_or_prefix_of_prefix upper (List.prefix_append host.base path) with
    outside | ⟨rest, rfl⟩
  · rw [rooted more outside nonempty]
    simp
  · intro file
    have inside := (List.prefix_append_right_inj host.base).mp upper
    exact free rest (above_concat_iff.mpr inside) ⟨bytes, view_eq_file.mpr file⟩

/-- What opening a file for writing makes of a disk that has its directory. -/
theorem getElem?_writeFile {host : Host} {disk : Disk} {path : Components} {part : WString}
    (valid : ∀ other ∈ path ++ [part], ValidName other) (bytes : Bytes)
    (directory : disk[host.base ++ path]? = some .directory) (other : Components) :
    (writeFile disk (host.localPath (relativePath (path ++ [part]))) bytes)[host.base ++ other]? =
      if other = path ++ [part] ∧ disk[host.base ++ (path ++ [part])]? ≠ some .directory then
        some (.file bytes)
      else disk[host.base ++ other]? := by
  have parent : (host.base ++ (path ++ [part])).dropLast = host.base ++ path := by
    rw [← List.append_assoc, List.dropLast_concat]
  have writable : canWrite disk (host.base ++ (path ++ [part])) =
      (disk[host.base ++ (path ++ [part])]? != some .directory) := by
    simp [canWrite, parent, directory]
  rw [writeFile, resolve_localPath host valid, writable]
  by_cases found : disk[host.base ++ (path ++ [part])]? = some .directory
  · simp [found]
  · have differs : (disk[host.base ++ (path ++ [part])]? != some .directory) = true := by
      simpa using found
    rw [if_pos differs, Std.ExtTreeMap.getElem?_insert]
    by_cases same : other = path ++ [part]
    · simp [same, found]
    · simp [same, Ne.symm same]

/-- Opening a file for writing after its directories were created. -/
theorem view_write (host : Host) {disk : Disk} (rooted : host.Rooted disk) {path : Components}
    {part : WString} (valid : ∀ other ∈ path ++ [part], ValidName other) (bytes : Bytes) :
    ((acquireDirectories disk
        (host.localPath (relativePath (path ++ [part])))).toOption.map fun next =>
      host.view (writeFile next (host.localPath (relativePath (path ++ [part]))) bytes)) =
    put (host.view disk) (path ++ [part]) bytes := by
  have acquire : acquireDirectories disk (host.localPath (relativePath (path ++ [part]))) =
      createDirectories disk [] (host.base ++ path) := by
    rw [acquireDirectories, resolve_parentPath host
      (fun other member => valid other (List.mem_append_left _ member)) (valid part (by simp))]
  rw [acquire]
  by_cases free : ∀ upper, Above upper (path ++ [part]) → upper ∉ files (host.view disk)
  · have possible : ∃ next, createDirectories disk [] (host.base ++ path) = .ok next :=
      createDirectories_ok (free_of_view rooted free)
    obtain ⟨next, created⟩ := possible
    obtain ⟨made, others⟩ := getElem?_createDirectories created
    have notEmpty (path : Components) : host.base ++ path ≠ [] := by simp [base_ne_nil]
    have directory : next[host.base ++ path]? = some .directory :=
      made (host.base ++ path) List.prefix_rfl (notEmpty path)
    have before {other : Components} (notAbove : ¬ Above other (path ++ [part])) :
        next[host.base ++ other]? = disk[host.base ++ other]? := by
      apply others
      intro more upper _ same
      subst same
      exact notAbove (above_concat_iff.mpr ((List.prefix_append_right_inj host.base).mp upper))
    have unchanged : ¬ Above (path ++ [part]) (path ++ [part]) := fun above => above.2 rfl
    rw [created, put, if_neg (by rintro ⟨upper, above, file⟩; exact free upper above file)]
    simp only [Except.toOption, Option.map_some, Option.some.injEq]
    funext other
    show Option.map Entry.item _ = _
    rw [getElem?_writeFile valid bytes directory, before unchanged]
    by_cases same : other = path ++ [part]
    · subst same
      by_cases found : disk[host.base ++ (path ++ [part])]? = some .directory
      · simp [found, before unchanged, Entry.item]
      · simp [found, Entry.item]
    · by_cases above : Above other (path ++ [part])
      · have inside := (List.prefix_append_right_inj host.base).mpr (above_concat_iff.mp above)
        have found : next[host.base ++ other]? = some .directory :=
          made (host.base ++ other) inside (notEmpty other)
        simp [same, above, found, Entry.item]
      · simp [same, above, before above, Host.view]
  · have thrown : (createDirectories disk [] (host.base ++ path)).toOption = none := by
      cases created : createDirectories disk [] (host.base ++ path) with
      | error error => rfl
      | ok next =>
        exfalso
        apply free
        rintro upper above ⟨bytes, file⟩
        exact createDirectories_free created (host.base ++ upper) bytes
          ((List.prefix_append_right_inj host.base).mpr (above_concat_iff.mp above))
          (by simp [base_ne_nil]) (view_eq_file.mp file)
    rw [thrown, put, if_pos (by simpa using free)]
    rfl

theorem keys_any_iff {host : Host} {disk : Disk} {path : Components} :
    (disk.keys.any fun other =>
      (host.base ++ path).isPrefixOf other && other != host.base ++ path) = true ↔
    ∃ lower, Above path lower ∧ host.view disk lower ≠ none := by
  simp only [List.any_eq_true, Bool.and_eq_true, List.isPrefixOf_iff_prefix, bne_iff_ne,
    Std.ExtTreeMap.mem_keys, Std.ExtTreeMap.mem_iff_isSome_getElem?]
  constructor
  · rintro ⟨other, present, ⟨rest, rfl⟩, differ⟩
    refine ⟨path ++ rest, ⟨List.prefix_append path rest, ?_⟩, ?_⟩
    · intro same
      exact differ (by rw [List.append_assoc, ← same])
    · rw [List.append_assoc] at present
      simpa [Host.view, Option.isSome_iff_ne_none] using present
  · rintro ⟨lower, ⟨upper, differ⟩, present⟩
    refine ⟨host.base ++ lower, ?_, (List.prefix_append_right_inj host.base).mpr upper, ?_⟩
    · simpa [Host.view, Option.isSome_iff_ne_none] using present
    · simpa using differ.symm

theorem view_delete (host : Host) {disk : Disk} {path : Components}
    (valid : ∀ part ∈ path, ValidName part) :
    ((deleteFile disk (host.localPath (relativePath path))).toOption.map
      fun removed => host.view removed.2) = remove (host.view disk) path := by
  have removed (free : ¬ (host.view disk path = some .directory ∧
      ∃ lower, Above path lower ∧ host.view disk lower ≠ none)) :
      remove (host.view disk) path = some (host.view (disk.erase (host.base ++ path))) := by
    rw [remove, if_neg free, Option.some.injEq]
    funext other
    by_cases same : other = path
    · simp [Host.view, same]
    · simp [Host.view, Std.ExtTreeMap.getElem?_erase, same, Ne.symm same]
  simp only [deleteFile, resolve_localPath host valid]
  cases found : disk[host.base ++ path]? with
  | none =>
    have missing : host.view disk path = none := by simp [Host.view, found]
    rw [removed (by simp [missing])]
    simp only [Except.toOption, Option.map_some, Option.some.injEq]
    funext other
    by_cases same : other = path
    · simp [Host.view, same, found]
    · simp [Host.view, Std.ExtTreeMap.getElem?_erase, Ne.symm same]
  | some entry =>
    cases entry with
    | file bytes =>
      rw [removed (by simp [found])]
      simp [Except.toOption]
    | directory =>
      by_cases nonempty : ∃ lower, Above path lower ∧ host.view disk lower ≠ none
      · have full : remove (host.view disk) path = none :=
          if_pos ⟨view_eq_directory.mpr found, nonempty⟩
        rw [if_pos (keys_any_iff.mpr nonempty), full]
        rfl
      · rw [if_neg (mt keys_any_iff.mp nonempty), removed fun full => nonempty full.2]
        simp [Except.toOption]

theorem not_prefix_base {host : Host} {path : Components} (nonempty : path ≠ []) :
    ¬ host.base ++ path <+: host.base := by
  intro upper
  have short := upper.length_le
  have long := List.length_pos_iff.mpr nonempty
  rw [List.length_append] at short
  omega

theorem rooted_delete {host : Host} {disk : Disk} (rooted : host.Rooted disk) {path : Components}
    (valid : ∀ part ∈ path, ValidName part) (nonempty : path ≠ []) {removed : Bool × Disk}
    (done : deleteFile disk (host.localPath (relativePath path)) = .ok removed) :
    host.Rooted removed.2 := by
  intro upper inside notRoot
  have differ : host.base ++ path ≠ upper := by
    rintro rfl
    exact not_prefix_base nonempty inside
  simp only [deleteFile, resolve_localPath host valid] at done
  split at done
  · cases done
    exact rooted upper inside notRoot
  · cases done
    simp [Std.ExtTreeMap.getElem?_erase, differ, rooted upper inside notRoot]
  · split at done
    · cases done
    · cases done
      simp [Std.ExtTreeMap.getElem?_erase, differ, rooted upper inside notRoot]

theorem rooted_write {host : Host} {disk next : Disk}
    {path : Components} {part : WString} (valid : ∀ other ∈ path ++ [part], ValidName other)
    (bytes : Bytes)
    (acquired : acquireDirectories disk (host.localPath (relativePath (path ++ [part]))) =
      .ok next) :
    host.Rooted (writeFile next (host.localPath (relativePath (path ++ [part]))) bytes) := by
  intro upper inside notRoot
  have differ : host.base ++ (path ++ [part]) ≠ upper := by
    rintro rfl
    exact not_prefix_base (by simp) inside
  rw [acquireDirectories, resolve_parentPath host
    (fun other member => valid other (List.mem_append_left _ member)) (valid part (by simp))]
    at acquired
  obtain ⟨made, -⟩ := getElem?_createDirectories acquired
  have found : next[upper]? = some .directory :=
    made upper (inside.trans (List.prefix_append host.base path)) notRoot
  rw [writeFile, resolve_localPath host valid]
  split
  · rw [Std.ExtTreeMap.getElem?_insert]
    simp only [Std.LawfulEqCmp.compare_eq_iff_eq, differ, if_false, found]
  · exact found

/-! ## Shared disks -/

/-- The files below the shared folder by the paths of their changes. -/
def Host.sharedFiles (host : Host) (disk : Disk) : List (WString × Bytes) :=
  disk.toList.filterMap fun entry =>
    match entry.2 with
    | .file bytes =>
      if host.base.isPrefixOf entry.1 then
        some (relativePath (entry.1.drop host.base.length), bytes)
      else none
    | .directory => none

/-- The shared folder, as the table of `CreateFileHashes` is made of it. -/
def SharedDisk.folder {host : Host} (shared : SharedDisk host) : Folder :=
  (host.sharedFiles shared.disk).foldl (fun folder file => folder.insertIfNew file.1 file.2) ∅

/-- The hash table of the shared folder. -/
def SharedDisk.table {host : Host} (shared : SharedDisk host) : FileTable :=
  shared.folder.table host.platform

theorem mem_sharedFiles {host : Host} {disk : Disk} {filePath : WString} {bytes : Bytes} :
    (filePath, bytes) ∈ host.sharedFiles disk ↔
      ∃ path, filePath = relativePath path ∧ disk[host.base ++ path]? = some (.file bytes) := by
  simp only [Host.sharedFiles, List.mem_filterMap, Prod.exists,
    Std.ExtTreeMap.mem_toList_iff_getElem?_eq_some]
  constructor
  · rintro ⟨whole, entry, found, listed⟩
    cases entry with
    | directory => cases listed
    | file content =>
      simp only at listed
      split at listed
      · rename_i inside
        obtain ⟨path, rfl⟩ := List.isPrefixOf_iff_prefix.mp inside
        simp only [List.drop_left, Option.some.injEq, Prod.mk.injEq] at listed
        obtain ⟨rfl, rfl⟩ := listed
        exact ⟨path, rfl, found⟩
      · cases listed
  · rintro ⟨path, rfl, found⟩
    exact ⟨host.base ++ path, .file bytes, found, by simp⟩

theorem folder_getElem? {host : Host} {shared : SharedDisk host} {filePath : WString}
    {bytes : Bytes} : shared.folder[filePath]? = some bytes ↔
      ∃ path, filePath = relativePath path ∧
        shared.disk[host.base ++ path]? = some (.file bytes) := by
  rw [SharedDisk.folder, foldl_insertIfNew, Std.ExtTreeMap.getElem?_empty, Option.none_or]
  constructor
  · intro found
    obtain ⟨⟨other, content⟩, listed, rfl⟩ := Option.map_eq_some_iff.mp found
    have same : other = filePath := by simpa using List.find?_some listed
    subst same
    exact mem_sharedFiles.mp (List.mem_of_find?_eq_some listed)
  · rintro ⟨path, rfl, found⟩
    have member := mem_sharedFiles.mpr ⟨path, rfl, found⟩
    cases first : (host.sharedFiles shared.disk).find? fun file => file.1 == relativePath path with
    | none =>
      have missed := List.find?_eq_none.mp first _ member
      simp at missed
    | some file =>
      obtain ⟨other, content⟩ := file
      have same : other = relativePath path := by simpa using List.find?_some first
      obtain ⟨place, named, held⟩ := mem_sharedFiles.mp (List.mem_of_find?_eq_some first)
      obtain rfl : path = place := relativePath_injective (shared.named path (by simp [found]))
        (shared.named place (by simp [held])) (by rw [← same, named])
      rw [found] at held
      cases held
      rfl

/-- A name that a file can have, as a test. -/
def isValidName (part : WString) : Bool :=
  !part.isEmpty && part.all (fun c => !isSeparator c) && part != wide "." && part != wide ".."

theorem validName_of_check {part : WString} (checked : isValidName part = true) :
    ValidName part := by
  simpa [isValidName, ValidName, and_assoc] using checked

/-- What makes a disk a shared disk, checked on its entries. -/
def Host.wellFormed (host : Host) (disk : Disk) : Bool :=
  (host.base.inits.all fun upper => upper.isEmpty || disk[upper]? == some .directory) &&
  disk.keys.all fun place =>
    !host.base.isPrefixOf place || place == host.base ||
      (disk[place.dropLast]? == some .directory &&
        (place.drop host.base.length).all isValidName)

theorem root_of_wellFormed {host : Host} {disk : Disk} (wellFormed : host.wellFormed disk = true) :
    host.Rooted disk := by
  intro upper inside notRoot
  simp only [Host.wellFormed, Bool.and_eq_true, List.all_eq_true] at wellFormed
  have found := wellFormed.1 upper ((List.mem_inits upper _).mpr inside)
  simpa [notRoot] using found

theorem place_of_isSome {host : Host} {disk : Disk} (wellFormed : host.wellFormed disk = true)
    {path : Components} {part : WString}
    (present : disk[host.base ++ (path ++ [part])]?.isSome) :
    disk[host.base ++ path]? = some .directory ∧ ∀ other ∈ path ++ [part], ValidName other := by
  have key : host.base ++ (path ++ [part]) ∈ disk.keys := by
    rw [Std.ExtTreeMap.mem_keys, Std.ExtTreeMap.mem_iff_isSome_getElem?]
    exact present
  simp only [Host.wellFormed, Bool.and_eq_true, List.all_eq_true] at wellFormed
  have place := wellFormed.2 _ key
  have inside : host.base.isPrefixOf (host.base ++ (path ++ [part])) = true := by simp
  have notBase : (host.base ++ (path ++ [part]) == host.base) = false := by simp
  have parent : (host.base ++ (path ++ [part])).dropLast = host.base ++ path := by
    rw [← List.append_assoc, List.dropLast_concat]
  rw [inside, notBase, parent, List.drop_left] at place
  simp only [Bool.not_true, Bool.false_or, Bool.and_eq_true, beq_iff_eq,
    List.all_eq_true] at place
  exact ⟨place.1, fun other member => validName_of_check (place.2 other member)⟩

/-- A disk whose entries have been checked. -/
def SharedDisk.ofWellFormed (host : Host) (disk : Disk)
    (wellFormed : host.wellFormed disk = true) : SharedDisk host where
  disk := disk
  rooted := root_of_wellFormed wellFormed
  closed _ _ present := (place_of_isSome wellFormed present).1
  named path present := by
    obtain rfl | ⟨path, part, rfl⟩ := List.eq_nil_or_concat' path
    · exact fun _ member => (List.not_mem_nil member).elim
    · exact (place_of_isSome wellFormed present).2

theorem isTree_view {host : Host} (shared : SharedDisk host) : IsTree (host.view shared.disk) := by
  have folder : shared.disk[host.base]? = some .directory :=
    shared.rooted host.base List.prefix_rfl (base_ne_nil host)
  constructor
  · simpa using folder
  · intro upper lower above
    induction lower using List.reverseRecOn with
    | nil => exact absurd (List.prefix_nil.mp above.1) above.2
    | append_singleton path part ih =>
      intro present
      have directory : shared.disk[host.base ++ path]? = some .directory := by
        apply shared.closed path part
        simpa [Host.view, Option.isSome_iff_ne_none] using present
      by_cases same : upper = path
      · subst same
        exact view_eq_directory.mpr directory
      · exact ih ⟨above_concat_iff.mp above, same⟩ (by simp [Host.view, directory])

theorem ne_nil_of_file {host : Host} {shared : SharedDisk host} {path : Components} {bytes : Bytes}
    (found : shared.disk[host.base ++ path]? = some (.file bytes)) : path ≠ [] := by
  rintro rfl
  have folder := (isTree_view shared).root
  rw [view_eq_directory, found] at folder
  cases folder

/-- An entry of the table is a file of the folder. -/
theorem file_of_table {host : Host} {shared : SharedDisk host} {filePath : WString} {hash : UInt64}
    (found : shared.table[filePath]? = some hash) :
    ∃ path, filePath = relativePath path ∧ path ≠ [] ∧ (∀ part ∈ path, ValidName part) ∧
      path ∈ files (host.view shared.disk) := by
  rw [SharedDisk.table, table_getElem?] at found
  obtain ⟨bytes, held, -⟩ := Option.map_eq_some_iff.mp found
  obtain ⟨path, rfl, there⟩ := folder_getElem?.mp held
  exact ⟨path, rfl, ne_nil_of_file there, shared.named path (by simp [there]), bytes,
    view_eq_file.mpr there⟩

theorem valid_of_file {host : Host} {shared : SharedDisk host} {path : Components}
    (file : path ∈ files (host.view shared.disk)) : ∀ part ∈ path, ValidName part := by
  obtain ⟨bytes, found⟩ := file
  exact shared.named path (by simp [view_eq_file.mp found])

/-- A file of the folder has the hash of its content. -/
theorem table_of_file {host : Host} {shared : SharedDisk host} {path : Components} {bytes : Bytes}
    (found : host.view shared.disk path = some (.file bytes)) :
    shared.table[relativePath path]? =
      some (sharedHash host.platform (relativePath path) bytes) := by
  rw [SharedDisk.table, table_getElem?, folder_getElem?.mpr ⟨path, rfl, view_eq_file.mp found⟩]
  rfl

theorem mem_files_iff {host : Host} {shared : SharedDisk host} {path : Components}
    (valid : ∀ part ∈ path, ValidName part) :
    path ∈ files (host.view shared.disk) ↔ shared.table[relativePath path]?.isSome := by
  constructor
  · rintro ⟨bytes, found⟩
    simp [table_of_file found]
  · intro present
    obtain ⟨hash, found⟩ := Option.isSome_iff_exists.mp present
    obtain ⟨other, same, -, validOther, file⟩ := file_of_table found
    rwa [relativePath_injective valid validOther same]

/-- The two shared folders have the same files. -/
def SameFiles (host : Host) (disk : Disk) (server : Host) (served : Disk) : Prop :=
  ∀ path bytes, disk[host.base ++ path]? = some (.file bytes) ↔
    served[server.base ++ path]? = some (.file bytes)

theorem sameFiles_of_eq {host server : Host} {shared : SharedDisk host}
    {other : SharedDisk server}
    (same : host.sharedFiles shared.disk = server.sharedFiles other.disk) :
    SameFiles host shared.disk server other.disk := by
  intro path bytes
  constructor
  · intro found
    obtain ⟨place, named, held⟩ :=
      mem_sharedFiles.mp (same ▸ mem_sharedFiles.mpr ⟨path, rfl, found⟩)
    rwa [relativePath_injective (shared.named path (by simp [found]))
      (other.named place (by simp [held])) named]
  · intro found
    obtain ⟨place, named, held⟩ :=
      mem_sharedFiles.mp (same ▸ mem_sharedFiles.mpr ⟨path, rfl, found⟩)
    rwa [relativePath_injective (other.named path (by simp [found]))
      (shared.named place (by simp [held])) named]

end FileSync
