import FileSync.Library.Runs
import Mathlib.Data.List.Induction
import Mathlib.Data.Set.Insert

/-!
# Replaying a change list on a tree

A tree maps paths to files and directories. A change list puts and deletes files one after the
other; what is put at a path is the file that a target tree has there. Putting a file creates the
directories above it, deleting a file leaves them, and neither gets past an entry of the wrong
kind. The replay on a tree other than the one that the list starts from ends in the files of the
target under a condition on the list, the target and the directories of that tree.
-/

namespace TreeReplay

open TransitionSystem

universe u v w

/-- What a path of a tree is. -/
inductive Item (ν : Type v) where
  | file (content : ν)
  | directory

/-- What is at each path; the root is `[]`. -/
abbrev Tree (κ : Type u) (ν : Type v) := List κ → Option (Item ν)

/-- One change of a list, where a put has a label for the content. -/
inductive Change (κ : Type u) (α : Type w) where
  | put (path : List κ) (label : α)
  | delete (path : List κ)

variable {κ : Type u} {ν : Type v} {α : Type w}

/-- A path strictly above another one. -/
def Above (upper lower : List κ) : Prop := upper <+: lower ∧ upper ≠ lower

theorem Above.trans {top middle bottom : List κ} (upper : Above top middle)
    (lower : Above middle bottom) : Above top bottom := by
  refine ⟨upper.1.trans lower.1, ?_⟩
  rintro rfl
  exact upper.2 (upper.1.eq_of_length_le lower.1.length_le)

/-- All that is in the tree is below directories. -/
structure IsTree (t : Tree κ ν) : Prop where
  root : t [] = some .directory
  closed : ∀ {upper lower : List κ}, Above upper lower → t lower ≠ none →
    t upper = some .directory

/-- The paths of the files. -/
def files (t : Tree κ ν) : Set (List κ) := { path | ∃ content, t path = some (.file content) }

section Operations

open Classical in
/-- The file at a path replaced, with the directories above it, unless the path is one. -/
noncomputable def put (t : Tree κ ν) (path : List κ) (content : ν) : Option (Tree κ ν) :=
  if ∃ upper, Above upper path ∧ upper ∈ files t then none
  else some fun other =>
    if other = path then
      if t path = some .directory then some .directory else some (.file content)
    else if Above other path then some .directory
    else t other

open Classical in
/-- A file or an empty directory removed. -/
noncomputable def remove (t : Tree κ ν) (path : List κ) : Option (Tree κ ν) :=
  if t path = some .directory ∧ ∃ lower, Above path lower ∧ t lower ≠ none then none
  else some fun other => if other = path then none else t other

open Classical in
/-- One change of the list. A put is left out if `passes` says that the path is up to date, or if
    the target has nothing there; it never ends if the target has a directory there. -/
noncomputable def step (target : Tree κ ν) (passes : List κ → α → Option (Item ν) → Prop) :
    Change κ α → Tree κ ν → Option (Tree κ ν)
  | .put path label, t =>
    if passes path label (t path) then some t
    else
      match target path with
      | none => some t
      | some .directory => none
      | some (.file content) => put t path content
  | .delete path, t => remove t path

end Operations

/-- What putting a file does, if it is possible. -/
structure Puts (t : Tree κ ν) (path : List κ) (content : ν) (next : Tree κ ν) : Prop where
  noFile : ∀ {upper}, Above upper path → upper ∉ files t
  directory : t path = some .directory → next path = some .directory
  file : t path ≠ some .directory → next path = some (.file content)
  above : ∀ {upper}, Above upper path → next upper = some .directory
  others : ∀ {other}, other ≠ path → ¬ Above other path → next other = t other

theorem puts_of_put {t next : Tree κ ν} {path : List κ} {content : ν}
    (done : put t path content = some next) : Puts t path content next := by
  unfold put at done
  split at done <;> cases done
  rename_i free
  refine ⟨fun upper file => free ⟨_, upper, file⟩, fun found => ?_, fun found => ?_,
    fun upper => ?_, fun differ notAbove => ?_⟩
  · simp [found]
  · simp [found]
  · simp [upper.2, upper]
  · simp [differ, notAbove]

theorem exists_put {t : Tree κ ν} {path : List κ} (content : ν)
    (free : ∀ upper, Above upper path → upper ∉ files t) :
    ∃ next, put t path content = some next := by
  refine ⟨_, if_neg ?_⟩
  rintro ⟨upper, above, file⟩
  exact free upper above file

/-- What removing a path does, if it is possible. -/
structure Removes (t : Tree κ ν) (path : List κ) (next : Tree κ ν) : Prop where
  empty : t path = some .directory → ∀ {lower}, Above path lower → t lower = none
  gone : next path = none
  others : ∀ {other}, other ≠ path → next other = t other

theorem removes_of_remove {t next : Tree κ ν} {path : List κ} (done : remove t path = some next) :
    Removes t path next := by
  unfold remove at done
  split at done <;> cases done
  rename_i free
  refine ⟨fun found lower below => ?_, if_pos rfl, fun differ => if_neg differ⟩
  by_contra present
  exact free ⟨found, lower, below, present⟩

theorem exists_remove {t : Tree κ ν} {path : List κ}
    (empty : t path = some .directory → ∀ lower, Above path lower → t lower = none) :
    ∃ next, remove t path = some next := by
  refine ⟨_, if_neg ?_⟩
  rintro ⟨found, lower, below, present⟩
  exact present (empty found lower below)

theorem Puts.isTree {t next : Tree κ ν} {path : List κ} {content : ν}
    (puts : Puts t path content next) (tree : IsTree t) : IsTree next := by
  have keeps {other : List κ} (found : t other = some .directory) :
      next other = some .directory := by
    by_cases same : other = path
    · subst same
      exact puts.directory found
    · by_cases above : Above other path
      · exact puts.above above
      · rw [puts.others same above, found]
  refine ⟨keeps tree.root, fun {upper lower} above present => ?_⟩
  by_cases same : lower = path
  · subst same
    exact puts.above above
  · by_cases below : Above lower path
    · exact puts.above (above.trans below)
    · rw [puts.others same below] at present
      exact keeps (tree.closed above present)

theorem Removes.isTree {t next : Tree κ ν} {path : List κ} (removes : Removes t path next)
    (tree : IsTree t) (notRoot : path ≠ []) : IsTree next := by
  refine ⟨?_, fun {upper lower} above present => ?_⟩
  · rw [removes.others notRoot.symm, tree.root]
  · have other : lower ≠ path := by
      rintro rfl
      exact present removes.gone
    rw [removes.others other] at present
    have directory := tree.closed above present
    have kept : upper ≠ path := by
      rintro rfl
      exact present (removes.empty directory above)
    rw [removes.others kept, directory]

/-! ## Change lists -/

/-- Some change of the list puts a file at the path. -/
def Updated (changes : List (Change κ α)) (path : List κ) : Prop :=
  ∃ label, .put path label ∈ changes

/-- The paths that a change list takes for files. -/
def relist (listed : Set (List κ)) : Change κ α → Set (List κ)
  | .put path _ => insert path listed
  | .delete path => listed \ {path}

/-- The paths that are taken for files after a change list. -/
def listing (listed : Set (List κ)) (changes : List (Change κ α)) : Set (List κ) :=
  changes.foldl relist listed

@[simp] theorem listing_append_put (listed : Set (List κ)) (changes : List (Change κ α))
    (path : List κ) (label : α) :
    listing listed (changes ++ [.put path label]) = insert path (listing listed changes) := by
  simp [listing, relist]

@[simp] theorem listing_append_delete (listed : Set (List κ)) (changes : List (Change κ α))
    (path : List κ) :
    listing listed (changes ++ [.delete path]) = listing listed changes \ {path} := by
  simp [listing, relist]

@[simp] theorem updated_append_put {changes : List (Change κ α)} {path other : List κ}
    {label : α} :
    Updated (changes ++ [.put path label]) other ↔ Updated changes other ∨ other = path := by
  simp only [Updated, List.mem_append, List.mem_singleton, Change.put.injEq]
  constructor
  · rintro ⟨_, member | ⟨same, _⟩⟩
    · exact Or.inl ⟨_, member⟩
    · exact Or.inr same
  · rintro (⟨label, member⟩ | same)
    · exact ⟨label, Or.inl member⟩
    · exact ⟨label, Or.inr ⟨same, rfl⟩⟩

@[simp] theorem updated_append_delete {changes : List (Change κ α)} {path other : List κ} :
    Updated (changes ++ [.delete path]) other ↔ Updated changes other := by
  simp [Updated]

/-- A listed path that was never put was listed from the start and never deleted. -/
theorem listed_of_not_updated {listed : Set (List κ)} {changes : List (Change κ α)}
    {path : List κ} (member : path ∈ listing listed changes) (untouched : ¬ Updated changes path) :
    path ∈ listed ∧ .delete path ∉ changes := by
  induction changes using List.reverseRecOn with
  | nil => exact ⟨member, List.not_mem_nil⟩
  | append_singleton changes change ih =>
    cases change with
    | put other label =>
      simp only [updated_append_put, not_or] at untouched
      simp only [listing_append_put, Set.mem_insert_iff, untouched.2, false_or] at member
      obtain ⟨listed, kept⟩ := ih member untouched.1
      exact ⟨listed, by simpa using kept⟩
    | delete other =>
      simp only [updated_append_delete] at untouched
      simp only [listing_append_delete, Set.mem_sdiff, Set.mem_singleton_iff] at member
      obtain ⟨listed, kept⟩ := ih member.1 untouched
      exact ⟨listed, by simp [kept, member.2]⟩

/-- What a change list knows about the files that it starts from and leads to. -/
structure Script (first last : Tree κ ν) (announces : List κ → α → ν → Prop)
    (changes : List (Change κ α)) : Prop where
  /-- The first put at a path announces another content than the one that is there. -/
  differs : ∀ {before path label after content}, changes = before ++ .put path label :: after →
    ¬ Updated before path → .delete path ∉ before → first path = some (.file content) →
    ¬ announces path label content
  listed : ∀ {before path after}, changes = before ++ .delete path :: after →
    path ∈ listing (files first) before
  /-- Before a path is deleted as a file, what was below it has been deleted. -/
  cleared : ∀ {before path after lower}, changes = before ++ .delete path :: after →
    Above path lower → lower ∈ files first → .delete lower ∈ before
  complete : listing (files first) changes = files last

/-- The condition under which a replay that starts from `initial` gets through. -/
structure Replayable (first last initial : Tree κ ν) (changes : List (Change κ α)) : Prop where
  /-- A file that is never mentioned stays as it is. -/
  unmentioned : ∀ {path content}, first path = some (.file content) → ¬ Updated changes path →
    .delete path ∉ changes → last path = some (.file content)
  /-- No file that is put has become a directory. -/
  noDirectory : ∀ {path}, Updated changes path → last path ≠ some .directory
  /-- A file is deleted before another one is put below its path. -/
  noneAbove : ∀ {before path label after upper}, changes = before ++ .put path label :: after →
    path ∈ files last → Above upper path → upper ∉ listing (files first) before
  /-- A directory of `initial` is deleted after the ones below it. -/
  emptied : ∀ {before path after lower}, changes = before ++ .delete path :: after →
    initial path = some .directory → .delete path ∉ before → Above path lower →
    initial lower = some .directory → .delete lower ∈ before
  /-- No directory of `initial` stays where a file has to go. -/
  freed : ∀ {path}, path ∈ files last → initial path = some .directory → .delete path ∈ changes

/-! ## The invariant -/

/-- A change whose path is found up to date is one whose content is there. -/
def Sound (passes : List κ → α → Option (Item ν) → Prop) (announces : List κ → α → ν → Prop)
    (t : Tree κ ν) : Change κ α → Prop
  | .put path label => passes path label (t path) →
    ∃ content, t path = some (.file content) ∧ announces path label content
  | .delete _ => True

/-- What a replay has made of the tree `initial` after the changes `before`. -/
structure Inv (first last initial : Tree κ ν) (before : List (Change κ α)) (t : Tree κ ν) :
    Prop where
  isTree : IsTree t
  /-- A file is the one of the target or has been there from the start. -/
  file : ∀ {path content}, t path = some (.file content) →
    path ∈ listing (files first) before ∧
      (last path = some (.file content) ∨
        (first path = some (.file content) ∧ .delete path ∉ before ∧
          (¬ Updated before path ∨ path ∉ files last)))
  /-- So is a directory. -/
  directory : ∀ {path}, t path = some .directory → last path = some .directory ∨
    (initial path = some .directory ∧ .delete path ∉ before)
  kept : ∀ {path}, initial path = some .directory → .delete path ∉ before →
    t path = some .directory
  untouched : ∀ {path content}, first path = some (.file content) → ¬ Updated before path →
    .delete path ∉ before → t path = some (.file content)
  written : ∀ {path}, path ∈ files last → Updated before path →
    path ∈ listing (files first) before →
    (∃ content, last path = some (.file content) ∧ t path = some (.file content)) ∨
      t path = some .directory
  noDirectory : ∀ {path}, Updated before path → last path ≠ some .directory

theorem inv_start {first last initial : Tree κ ν} (tree : IsTree initial)
    (same : ∀ path content,
      initial path = some (.file content) ↔ first path = some (.file content)) :
    Inv (α := α) first last initial [] initial where
  isTree := tree
  file := by
    intro path content found
    have listed := (same path content).mp found
    refine ⟨⟨content, listed⟩, Or.inr ⟨listed, List.not_mem_nil, Or.inl ?_⟩⟩
    simp [Updated]
  directory found := Or.inr ⟨found, List.not_mem_nil⟩
  kept found _ := found
  untouched found _ _ := (same _ _).mpr found
  written := by simp [Updated]
  noDirectory := by simp [Updated]

section Steps

variable {first last initial t next : Tree κ ν} {announces : List κ → α → ν → Prop}
  {before : List (Change κ α)} {path : List κ} {label : α}

/-- A file that is found up to date is the one of the target, or one that it lacks. -/
theorem Inv.of_announced (inv : Inv first last initial before t)
    (differs : ∀ content, ¬ Updated before path → .delete path ∉ before →
      first path = some (.file content) → ¬ announces path label content)
    {content : ν} (found : t path = some (.file content))
    (announced : announces path label content) :
    last path = some (.file content) ∨
      (first path = some (.file content) ∧ .delete path ∉ before ∧ Updated before path ∧
        path ∉ files last) := by
  obtain ⟨-, same | ⟨original, stays, since⟩⟩ := inv.file found
  · exact Or.inl same
  · by_cases updated : Updated before path
    · exact Or.inr ⟨original, stays, updated, since.resolve_left fun never => never updated⟩
    · exact absurd announced (differs content updated stays original)

/-- A put that leaves the tree alone, because its path is up to date or gone. -/
theorem inv_put_left (inv : Inv first last initial before t)
    (current : ∀ {content}, t path = some (.file content) →
      last path = some (.file content) ∨
        (first path = some (.file content) ∧ .delete path ∉ before ∧ path ∉ files last))
    (present : path ∈ files last → ∃ content, t path = some (.file content))
    (noDirectory : last path ≠ some .directory) :
    Inv first last initial (before ++ [.put path label]) t where
  isTree := inv.isTree
  file := by
    intro other content found
    rw [listing_append_put]
    by_cases same : other = path
    · subst same
      refine ⟨Set.mem_insert _ _, (current found).imp_right ?_⟩
      rintro ⟨original, stays, gone⟩
      exact ⟨original, by simpa using stays, Or.inr gone⟩
    · obtain ⟨listed, since⟩ := inv.file found
      refine ⟨Set.mem_insert_of_mem _ listed, since.imp_right ?_⟩
      rintro ⟨original, stays, since⟩
      exact ⟨original, by simpa using stays, by simpa [same] using since⟩
  directory found := by simpa using inv.directory found
  kept found stays := inv.kept found (by simpa using stays)
  untouched found never stays := inv.untouched found
    (fun updated => never (updated_append_put.mpr (Or.inl updated))) (by simpa using stays)
  written := by
    intro other target updated listed
    by_cases same : other = path
    · subst same
      obtain ⟨content, found⟩ := present target
      refine Or.inl ⟨content, (current found).resolve_right ?_, found⟩
      exact fun old => old.2.2 target
    · simp only [updated_append_put, same, or_false] at updated
      simp only [listing_append_put, Set.mem_insert_iff, same, false_or] at listed
      exact inv.written target updated listed
  noDirectory := by
    intro other updated
    rcases updated_append_put.mp updated with updated | rfl
    · exact inv.noDirectory updated
    · exact noDirectory

theorem inv_put {content : ν} (inv : Inv first last initial before t) (tree : IsTree last)
    (target : last path = some (.file content)) (puts : Puts t path content next) :
    Inv first last initial (before ++ [.put path label]) next where
  isTree := puts.isTree inv.isTree
  file := by
    intro other content found
    rw [listing_append_put]
    by_cases same : other = path
    · subst same
      refine ⟨Set.mem_insert _ _, Or.inl ?_⟩
      by_cases directory : t other = some .directory
      · rw [puts.directory directory] at found
        cases found
      · rw [puts.file directory] at found
        rw [target, found]
    · have notAbove : ¬ Above other path := by
        intro above
        rw [puts.above above] at found
        cases found
      rw [puts.others same notAbove] at found
      obtain ⟨listed, since⟩ := inv.file found
      refine ⟨Set.mem_insert_of_mem _ listed, since.imp_right fun old => ?_⟩
      exact ⟨old.1, by simpa using old.2.1, by simpa [same] using old.2.2⟩
  directory := by
    intro other found
    by_cases above : Above other path
    · exact Or.inl (tree.closed above (by simp [target]))
    · have before : t other = some .directory := by
        by_cases same : other = path
        · subst same
          by_contra file
          rw [puts.file file] at found
          cases found
        · rw [← puts.others same above, found]
      simpa using inv.directory before
  kept := by
    intro other found stays
    have directory := inv.kept found (by simpa using stays)
    by_cases same : other = path
    · subst same
      exact puts.directory directory
    · by_cases above : Above other path
      · exact puts.above above
      · rw [puts.others same above, directory]
  untouched := by
    intro other content found never stays
    rw [updated_append_put, not_or] at never
    have file := inv.untouched found never.1 (by simpa using stays)
    have notAbove : ¬ Above other path := fun above => puts.noFile above ⟨content, file⟩
    rw [puts.others never.2 notAbove, file]
  written := by
    intro other goal updated listed
    by_cases same : other = path
    · subst same
      by_cases directory : t other = some .directory
      · exact Or.inr (puts.directory directory)
      · exact Or.inl ⟨content, target, puts.file directory⟩
    · by_cases above : Above other path
      · exact Or.inr (puts.above above)
      · rw [puts.others same above]
        simp only [updated_append_put, same, or_false] at updated
        simp only [listing_append_put, Set.mem_insert_iff, same, false_or] at listed
        exact inv.written goal updated listed
  noDirectory := by
    intro other updated
    rcases updated_append_put.mp updated with updated | rfl
    · exact inv.noDirectory updated
    · rw [target]
      rintro ⟨⟩

theorem inv_remove (inv : Inv first last initial before t) (notRoot : path ≠ [])
    (removes : Removes t path next) :
    Inv first last initial (before ++ [.delete path]) next where
  isTree := removes.isTree inv.isTree notRoot
  file := by
    intro other content found
    have kept : other ≠ path := by
      rintro rfl
      rw [removes.gone] at found
      cases found
    rw [removes.others kept] at found
    obtain ⟨listed, since⟩ := inv.file found
    exact ⟨by simp [listed, kept], by simpa [kept] using since⟩
  directory := by
    intro other found
    have kept : other ≠ path := by
      rintro rfl
      rw [removes.gone] at found
      cases found
    rw [removes.others kept] at found
    simpa [kept] using inv.directory found
  kept := by
    intro other found stays
    simp only [List.mem_append, List.mem_singleton, Change.delete.injEq, not_or] at stays
    rw [removes.others stays.2, inv.kept found stays.1]
  untouched := by
    intro other content found never stays
    simp only [List.mem_append, List.mem_singleton, Change.delete.injEq, not_or] at stays
    rw [removes.others stays.2]
    exact inv.untouched found (by simpa using never) stays.1
  written := by
    intro other target updated listed
    rw [listing_append_delete] at listed
    rw [removes.others listed.2]
    exact inv.written target (by simpa using updated) listed.1
  noDirectory updated := inv.noDirectory (updated_append_delete.mp updated)

end Steps

/-! ## Runs -/

section Runs

variable {first last initial : Tree κ ν} {announces : List κ → α → ν → Prop}
  {passes : List κ → α → Option (Item ν) → Prop} {changes : List (Change κ α)}

/-- What a replay starts from, and what it assumes of the tests in its rounds. -/
structure Setting (first last initial : Tree κ ν) (announces : List κ → α → ν → Prop)
    (passes : List κ → α → Option (Item ν) → Prop) (changes : List (Change κ α)) : Prop where
  script : Script first last announces changes
  firstTree : IsTree first
  lastTree : IsTree last
  initialTree : IsTree initial
  same : ∀ path content, initial path = some (.file content) ↔ first path = some (.file content)
  sound : ∀ {before change after t}, changes = before ++ change :: after →
    Run (step last passes) anyStep initial before t → Sound passes announces t change

theorem ne_root_of_delete (setting : Setting first last initial announces passes changes)
    {before after : List (Change κ α)} {path : List κ} {t : Tree κ ν}
    (split : changes = before ++ .delete path :: after) (inv : Inv first last initial before t) :
    path ≠ [] := by
  rintro rfl
  by_cases updated : Updated before []
  · exact inv.noDirectory updated setting.lastTree.root
  · obtain ⟨⟨content, file⟩, -⟩ :=
      listed_of_not_updated (setting.script.listed split) updated
    rw [setting.firstTree.root] at file
    cases file

theorem inv_step (setting : Setting first last initial announces passes changes)
    {before after : List (Change κ α)} {change : Change κ α} {t next : Tree κ ν}
    (split : changes = before ++ change :: after) (inv : Inv first last initial before t)
    (sound : Sound passes announces t change) (taken : step last passes change t = some next) :
    Inv first last initial (before ++ [change]) next := by
  cases change with
  | put path label =>
    simp only [step] at taken
    split at taken
    · rename_i passed
      cases taken
      obtain ⟨content, found, announced⟩ := sound passed
      have current := inv.of_announced
        (fun content never stays => setting.script.differs split never stays) found announced
      apply inv_put_left inv
      · intro other same
        obtain rfl : content = other := by simpa [found] using same
        exact current.imp_right fun old => ⟨old.1, old.2.1, old.2.2.2⟩
      · exact fun _ => ⟨content, found⟩
      · rcases current with file | ⟨-, -, updated, -⟩
        · simp [file]
        · exact inv.noDirectory updated
    · split at taken
      · rename_i gone
        cases taken
        have missing : path ∉ files last := by simp [files, gone]
        apply inv_put_left inv
        · intro content found
          obtain ⟨-, same | ⟨original, stays, -⟩⟩ := inv.file found
          · exact Or.inl same
          · exact Or.inr ⟨original, stays, missing⟩
        · exact fun target => absurd target missing
        · simp [gone]
      · cases taken
      · rename_i content target
        exact inv_put inv setting.lastTree target (puts_of_put taken)
  | delete path =>
    exact inv_remove inv (ne_root_of_delete setting split inv) (removes_of_remove taken)

theorem inv_run (setting : Setting first last initial announces passes changes)
    {before : List (Change κ α)} : ∀ {after : List (Change κ α)} {t : Tree κ ν},
    changes = before ++ after → Run (step last passes) anyStep initial before t →
    Inv first last initial before t := by
  induction before using List.reverseRecOn with
  | nil =>
    intro after t _ run
    cases run
    exact inv_start setting.initialTree setting.same
  | append_singleton before change ih =>
    intro after t split run
    rw [List.append_assoc] at split
    obtain ⟨middle, next, earlier, -, taken, rest⟩ := run.around
    cases rest
    exact inv_step setting split (ih split earlier) (setting.sound split earlier) taken

/-- A path above a file of the target that is still listed is a file of the tree. -/
theorem file_of_listed (setting : Setting first last initial announces passes changes)
    {before : List (Change κ α)} {path upper : List κ} {t : Tree κ ν}
    (inv : Inv first last initial before t) (target : path ∈ files last)
    (above : Above upper path) (listed : upper ∈ listing (files first) before) :
    upper ∈ files t := by
  obtain ⟨content, file⟩ := target
  have never : ¬ Updated before upper := by
    intro updated
    exact inv.noDirectory updated (setting.lastTree.closed above (by simp [file]))
  obtain ⟨⟨content, original⟩, stays⟩ := listed_of_not_updated listed never
  exact ⟨content, inv.untouched original never stays⟩

/-- A replay that gets through to the files of the target meets the condition. -/
theorem replayable_of_run (setting : Setting first last initial announces passes changes)
    {t : Tree κ ν} (run : Run (step last passes) anyStep initial changes t)
    (reached : ∀ path content,
      t path = some (.file content) ↔ last path = some (.file content)) :
    Replayable first last initial changes := by
  have whole : changes = changes ++ [] := (List.append_nil _).symm
  have inv := inv_run setting whole run
  constructor
  · intro path content original never stays
    exact (reached path content).mp (inv.untouched original never stays)
  · intro path updated
    exact inv.noDirectory updated
  · intro before path label after upper split target above listed
    rw [split] at run
    obtain ⟨middle, next, earlier, -, taken, -⟩ := run.around
    have between := inv_run setting split earlier
    have file := file_of_listed setting between target above listed
    obtain ⟨content, goal⟩ := target
    simp only [step] at taken
    split at taken
    · rename_i passed
      obtain ⟨other, found, -⟩ := setting.sound split earlier passed
      obtain ⟨content, file⟩ := file
      rw [between.isTree.closed above (by simp [found])] at file
      cases file
    · rw [goal] at taken
      exact (puts_of_put taken).noFile above file
  · intro before path after lower split directory stays above below
    rw [split] at run
    obtain ⟨middle, next, earlier, -, taken, -⟩ := run.around
    have between := inv_run setting split earlier
    by_contra kept
    have none := (removes_of_remove taken).empty (between.kept directory stays) above
    rw [between.kept below kept] at none
    cases none
  · rintro path ⟨content, target⟩ directory
    by_contra stays
    have file := (reached path content).mpr target
    rw [inv.kept directory stays] at file
    cases file

/-- Each change of a list that meets the condition can be made. -/
theorem exists_step (setting : Setting first last initial announces passes changes)
    (replayable : Replayable first last initial changes)
    {before after : List (Change κ α)} {change : Change κ α} {t : Tree κ ν}
    (split : changes = before ++ change :: after) (inv : Inv first last initial before t) :
    ∃ next, step last passes change t = some next := by
  cases change with
  | put path label =>
    simp only [step]
    split
    · exact ⟨t, rfl⟩
    · split
      · exact ⟨t, rfl⟩
      · rename_i directory
        exact absurd directory (replayable.noDirectory ⟨label, by simp [split]⟩)
      · rename_i content target
        refine exists_put content fun upper above => ?_
        rintro ⟨other, file⟩
        exact replayable.noneAbove split ⟨content, target⟩ above (inv.file file).1
  | delete path =>
    have notDirectory (found : t path = some .directory) : last path ≠ some .directory := by
      intro directory
      have never : ¬ Updated before path := fun updated => inv.noDirectory updated directory
      obtain ⟨⟨content, original⟩, stays⟩ :=
        listed_of_not_updated (setting.script.listed split) never
      rw [inv.untouched original never stays] at found
      cases found
    refine exists_remove fun found lower above => ?_
    obtain directory | ⟨directory, stays⟩ := inv.directory found
    · exact absurd directory (notDirectory found)
    -- a directory of the initial tree: what was below it is gone
    cases below : t lower with
    | none => rfl
    | some item =>
      cases item with
      | file content =>
        obtain ⟨-, target | ⟨original, kept, -⟩⟩ := inv.file below
        · exact absurd (setting.lastTree.closed above (by simp [target])) (notDirectory found)
        · exact absurd (setting.script.cleared split above ⟨content, original⟩) kept
      | directory =>
        rcases inv.directory below with target | ⟨original, kept⟩
        · exact absurd (setting.lastTree.closed above (by simp [target])) (notDirectory found)
        · exact absurd (replayable.emptied split directory stays above original) kept

theorem exists_run (setting : Setting first last initial announces passes changes)
    (replayable : Replayable first last initial changes) {before : List (Change κ α)} :
    ∀ {after : List (Change κ α)}, changes = before ++ after →
    ∃ t, Run (step last passes) anyStep initial before t := by
  induction before using List.reverseRecOn with
  | nil => exact fun _ => ⟨initial, .nil _⟩
  | append_singleton before change ih =>
    intro after split
    rw [List.append_assoc] at split
    obtain ⟨t, run⟩ := ih split
    obtain ⟨next, taken⟩ := exists_step setting replayable split (inv_run setting split run)
    exact ⟨next, run.append (.one trivial taken)⟩

/-- The files after a replay that meets the condition. -/
theorem files_of_replayable (setting : Setting first last initial announces passes changes)
    (replayable : Replayable first last initial changes) {t : Tree κ ν}
    (inv : Inv first last initial changes t) (path : List κ) (content : ν) :
    t path = some (.file content) ↔ last path = some (.file content) := by
  have complete := setting.script.complete
  constructor
  · intro found
    obtain ⟨listed, target | ⟨original, stays, since⟩⟩ := inv.file found
    · exact target
    · rw [complete] at listed
      exact replayable.unmentioned original (since.resolve_right (not_not_intro listed)) stays
  · intro target
    have listed : path ∈ listing (files first) changes := by
      rw [complete]
      exact ⟨content, target⟩
    by_cases updated : Updated changes path
    · rcases inv.written ⟨content, target⟩ updated listed with ⟨other, same, file⟩ | found
      · rw [file, ← same, target]
      · rcases inv.directory found with directory | ⟨directory, stays⟩
        · rw [target] at directory
          cases directory
        · exact absurd (replayable.freed ⟨content, target⟩ directory) stays
    · obtain ⟨⟨other, original⟩, stays⟩ := listed_of_not_updated listed updated
      have same := replayable.unmentioned original updated stays
      rw [inv.untouched original updated stays, ← same, target]

/-- A replay gets through and ends in the files of the target if and only if the condition is
    met. -/
theorem replay_iff (setting : Setting first last initial announces passes changes) :
    (∃ t, Run (step last passes) anyStep initial changes t ∧ ∀ path content,
      t path = some (.file content) ↔ last path = some (.file content)) ↔
    Replayable first last initial changes := by
  constructor
  · rintro ⟨t, run, reached⟩
    exact replayable_of_run setting run reached
  · intro replayable
    have whole : changes = changes ++ [] := (List.append_nil _).symm
    obtain ⟨t, run⟩ := exists_run setting replayable whole
    exact ⟨t, run, files_of_replayable setting replayable (inv_run setting whole run)⟩

end Runs

end TreeReplay
