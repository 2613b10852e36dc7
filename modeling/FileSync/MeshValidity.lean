import FileSync.MeshConvergence
import FileSync.PathTraversal

/-!
# What a mesh does to the files of its users

Whatever the users write and whenever, and however the datagrams come: a file holds what some user
has written there, and it stays until a user deletes it.
-/

namespace FileSync

open TransitionSystem

variable {N : Type} {platform : Platform} {path : WString} {fileChange : FileChangeData}

/-! ## The changes under way -/

/-- A change in one of the lists that a node has still to process. -/
inductive Inbox.Carries (box : Inbox N) (fileChange : FileChangeData) : Prop where
  | requesting (thread : RequestingThread) {server : N} :
      (server, fileChange) ∈ box.requesting thread → Carries box fileChange
  | queued {sender : N} {fileChanges : List FileChangeData} :
      (sender, .changes fileChanges) ∈ box.todoUdp → fileChange ∈ fileChanges →
      Carries box fileChange
  | flying {sender : N} {fileChanges : List FileChangeData} :
      (sender, .changes fileChanges) ∈ box.inFlight → fileChange ∈ fileChanges →
      Carries box fileChange

/-- A change that a node has still to process or to broadcast. -/
def MeshNode.Carries (node : MeshNode N) (fileChange : FileChangeData) : Prop :=
  node.toInbox.Carries fileChange ∨ fileChange ∈ node.fileChangeBuf

/-- A change that some node has still to process or to broadcast. -/
def Mesh.Carries (s : Mesh N) (fileChange : FileChangeData) : Prop :=
  ∃ name, (s.nodes name).Carries fileChange

/-- A datagram more. -/
theorem Inbox.Carries.fly {box : Inbox N} {sender : N} {message : MeshMessage}
    (carries : Inbox.Carries { box with inFlight := box.inFlight ++ [(sender, message)] }
      fileChange) :
    box.Carries fileChange ∨ ∃ fileChanges, message = .changes fileChanges ∧
      fileChange ∈ fileChanges := by
  cases carries with
  | requesting thread member => exact Or.inl (.requesting thread member)
  | queued member inside => exact Or.inl (.queued member inside)
  | flying member inside =>
    rcases List.mem_append.mp member with old | new
    · exact Or.inl (.flying old inside)
    · cases List.mem_singleton.mp new
      exact Or.inr ⟨_, rfl, inside⟩

theorem carries_broadcast {s : Mesh N} {sender : N} {message : MeshMessage}
    (carries : (s.broadcast sender message).Carries fileChange) :
    s.Carries fileChange ∨ ∃ fileChanges, message = .changes fileChanges ∧
      fileChange ∈ fileChanges := by
  obtain ⟨other, carries⟩ := carries
  simp only [Mesh.broadcast] at carries
  split at carries
  · rcases carries with inbox | buffer
    · exact inbox.fly.imp_left fun old => ⟨other, Or.inl old⟩
    · exact Or.inl ⟨other, Or.inr buffer⟩
  · exact Or.inl ⟨other, carries⟩

variable [DecidableEq N] {s : Mesh N} {name : N}

omit [DecidableEq N] in
/-- A call of `requestFiles`. -/
theorem Inbox.Carries.call {box : Inbox N} {thread : RequestingThread} {server : N}
    {fileChanges : List FileChangeData}
    (carries : (box.call thread server fileChanges).Carries fileChange) :
    box.Carries fileChange ∨ fileChange ∈ fileChanges := by
  cases carries with
  | requesting other member =>
    simp only [Inbox.call, Function.update_apply] at member
    split at member
    · obtain ⟨listed, inside, same⟩ := List.mem_map.mp member
      cases same
      exact Or.inr inside
    · exact Or.inl (.requesting other member)
  | queued member inside => exact Or.inl (.queued member inside)
  | flying member inside => exact Or.inl (.flying member inside)

theorem carries_set {node : MeshNode N} (carries : (s.set name node).Carries fileChange) :
    s.Carries fileChange ∨ node.Carries fileChange := by
  obtain ⟨other, carries⟩ := carries
  rw [Mesh.set_nodes] at carries
  split at carries
  · exact Or.inr carries
  · exact Or.inl ⟨other, carries⟩

/-- An inbox of which the changes are old ones. -/
theorem carries_withInbox {box : Inbox N}
    (carries : (s.set name ((s.nodes name).withInbox box)).Carries fileChange)
    (old : box.Carries fileChange → (s.nodes name).toInbox.Carries fileChange) :
    s.Carries fileChange := by
  rcases carries_set carries with same | inbox | buffer
  · exact same
  · exact ⟨name, Or.inl (old inbox)⟩
  · exact ⟨name, Or.inr buffer⟩

/-- An inbox with fewer messages. -/
theorem carries_fewer {box : Inbox N}
    (carries : (s.set name ((s.nodes name).withInbox box)).Carries fileChange)
    (requesting : ∀ thread, box.requesting thread ⊆ (s.nodes name).requesting thread)
    (todoUdp : box.todoUdp ⊆ (s.nodes name).todoUdp)
    (inFlight : box.inFlight ⊆ (s.nodes name).inFlight) : s.Carries fileChange := by
  refine carries_withInbox carries fun inbox => ?_
  cases inbox with
  | requesting thread member => exact .requesting thread (requesting thread member)
  | queued member inside => exact .queued (todoUdp member) inside
  | flying member inside => exact .flying (inFlight member) inside

/-- A call of `requestFiles` with changes that are no deletions. -/
theorem carries_called {box : Inbox N} {thread : RequestingThread} {server : N}
    {fileChanges : List FileChangeData} (carries : (s.set name ((s.nodes name).withInbox
      (box.call thread server fileChanges))).Carries fileChange)
    (others : ∀ fileChange ∈ fileChanges, fileChange.change ≠ .deletion)
    (deletion : fileChange.change = .deletion)
    (old : box.Carries fileChange → (s.nodes name).toInbox.Carries fileChange) :
    s.Carries fileChange := by
  refine carries_withInbox carries fun inbox => ?_
  rcases inbox.call with kept | asked
  · exact old kept
  · exact absurd deletion (others fileChange asked)

theorem carries_send {sender receiver : N} {message : MeshMessage}
    (carries : (s.send sender receiver message).Carries fileChange) :
    s.Carries fileChange ∨ ∃ fileChanges, message = .changes fileChanges ∧
      fileChange ∈ fileChanges := by
  rcases carries_set carries with same | inbox | buffer
  · exact Or.inl same
  · exact inbox.fly.imp_left fun old => ⟨receiver, Or.inl old⟩
  · exact Or.inl ⟨receiver, Or.inr buffer⟩

/-- Deletions come from the watchers. -/
theorem carries_effect {action : ThreadAction} {next : Mesh N}
    (effect : ThreadEffect platform name s action next) (carries : next.Carries fileChange)
    (deletion : fileChange.change = .deletion) :
    s.Carries fileChange ∨ fileChange ∈
      deletions (s.nodes name).prevDir ((s.nodes name).folder.table platform) := by
  cases effect with
  | scan =>
    rcases carries_set carries with old | inbox | buffer
    · exact Or.inl old
    · exact Or.inl ⟨name, Or.inl inbox⟩
    · simp only [MeshNode.scanned, List.mem_append] at buffer
      rcases buffer with old | update | new
      · exact Or.inl ⟨name, Or.inr old⟩
      · exact absurd deletion (change_ne_deletion_of_updates update)
      · exact Or.inr new
  | drain =>
    refine Or.inl ?_
    rcases carries_broadcast carries with kept | ⟨fileChanges, same, inside⟩
    · rcases carries_set kept with old | inbox | buffer
      · exact old
      · exact ⟨name, Or.inl inbox⟩
      · cases buffer
    · cases same
      exact ⟨name, Or.inr inside⟩
  | ignore =>
    exact Or.inl (carries_fewer carries (fun _ => List.Subset.refl _) (List.Subset.refl _)
      List.eraseIdx_subset)
  | answer =>
    rcases carries_send carries with kept | ⟨fileChanges, same, inside⟩
    · exact Or.inl (carries_fewer kept (fun _ => List.Subset.refl _) (List.Subset.refl _)
        List.eraseIdx_subset)
    · cases same
  | queue _ _ found =>
    refine Or.inl (carries_withInbox carries fun inbox => ?_)
    cases inbox with
    | requesting thread member => exact .requesting thread member
    | queued member inside =>
      rcases List.mem_append.mp member with old | new
      · exact .queued old inside
      · cases List.mem_singleton.mp new
        exact .flying (List.mem_of_getElem? found) inside
    | flying member inside => exact .flying (List.eraseIdx_subset member) inside
  | compareArrival | compareResponse =>
    refine Or.inl (carries_called carries (fun _ => dealWithHashTable_ne_deletion) deletion
      fun inbox => ?_)
    cases inbox with
    | requesting thread member => exact .requesting thread member
    | queued member inside => exact .queued member inside
    | flying member inside => exact .flying member inside
  | store queue | discard queue =>
    refine Or.inl (carries_fewer carries (fun _ => List.Subset.refl _) ?_ (List.Subset.refl _))
    rw [queue]
    exact List.subset_cons_self ..
  | call _ queue =>
    refine Or.inl (carries_withInbox carries fun inbox => ?_)
    rcases inbox.call with old | asked
    · cases old with
      | requesting thread member => exact .requesting thread member
      | queued member inside => exact .queued (queue ▸ List.mem_cons_of_mem _ member) inside
      | flying member inside => exact .flying member inside
    · exact .queued (queue ▸ List.mem_cons_self ..) asked
  | take =>
    exact Or.inl (carries_fewer carries (fun _ => List.Subset.refl _) (List.Subset.refl _)
      (List.Subset.refl _))
  | @request thread server asked rest asking =>
    rcases carries_set carries with old | inbox | buffer
    · exact Or.inl old
    · refine Or.inl ⟨name, Or.inl ?_⟩
      cases inbox with
      | requesting other member =>
        simp only [MeshNode.requested, Function.update_apply] at member
        split at member
        · rename_i same
          subst same
          exact .requesting other (asking ▸ List.mem_cons_of_mem _ member)
        · exact .requesting other member
      | queued member inside => exact .queued member inside
      | flying member inside => exact .flying member inside
    · exact Or.inl ⟨name, Or.inr buffer⟩

/-! ## The files -/

/-- A request brings the file of the server, or deletes one. -/
theorem request_getElem? (folder theirs : Folder) (fileChange : FileChangeData) (path : WString) :
    (Folder.request platform folder theirs fileChange)[path]? = folder[path]? ∨
      (∃ bytes, theirs[path]? = some bytes ∧
        (Folder.request platform folder theirs fileChange)[path]? = some bytes) ∨
      (Folder.request platform folder theirs fileChange)[path]? = none ∧
        fileChange.filePath = path ∧ fileChange.change = .deletion := by
  by_cases here : fileChange.filePath = path
  · subst here
    cases kind : fileChange.change with
    | deletion =>
      simp only [Folder.request, kind]
      exact Or.inr (Or.inr ⟨set_self .., trivial, trivial⟩)
    | _ =>
      simp only [Folder.request, kind]
      split
      · exact Or.inl rfl
      · cases found : theirs[fileChange.filePath]? with
        | none => exact Or.inl rfl
        | some bytes => exact Or.inr (Or.inl ⟨bytes, rfl, set_self ..⟩)
  · refine Or.inl ?_
    rw [Folder.request]
    split
    · exact set_of_ne here _
    · split
      · rfl
      · split
        · exact set_of_ne here _
        · rfl

/-- What a step of a thread does to the files. -/
theorem folder_effect {action : ThreadAction} {next : Mesh N}
    (effect : ThreadEffect platform name s action next) (other : N) (path : WString) :
    (next.nodes other).folder[path]? = (s.nodes other).folder[path]? ∨
      (∃ server bytes, (s.nodes server).folder[path]? = some bytes ∧
        (next.nodes other).folder[path]? = some bytes) ∨
      (next.nodes other).folder[path]? = none ∧ ∃ fileChange, s.Carries fileChange ∧
        fileChange.filePath = path ∧ fileChange.change = .deletion := by
  have stays {s next : Mesh N} (same : (fun other => (next.nodes other).folder) =
      fun other => (s.nodes other).folder) :
      (next.nodes other).folder[path]? = (s.nodes other).folder[path]? := by
    rw [show (next.nodes other).folder = (s.nodes other).folder from congrFun same other]
  have set {s : Mesh N} {node : MeshNode N} (same : node.folder = (s.nodes name).folder) :
      ((s.set name node).nodes other).folder[path]? = (s.nodes other).folder[path]? :=
    stays (Mesh.field_set_same MeshNode.folder s name node same)
  cases effect with
  | drain =>
    refine Or.inl ((stays (Mesh.field_broadcast MeshNode.folder (fun _ _ => rfl) _ _ _)).trans ?_)
    exact set rfl
  | answer =>
    have sent (t : Mesh N) (receiver : N) (message : MeshMessage) :
        (fun other => ((t.send name receiver message).nodes other).folder) =
          fun other => (t.nodes other).folder :=
      Mesh.field_set_same MeshNode.folder t receiver _ rfl
    exact Or.inl ((stays (sent _ _ _)).trans (set rfl))
  | @request thread server fileChange rest asking =>
    by_cases mine : other = name
    · subst mine
      rw [Mesh.set_nodes_self]
      rcases @request_getElem? platform (s.nodes other).folder (s.nodes server).folder fileChange
        path with same | ⟨bytes, found, brought⟩ | ⟨gone, deletion⟩
      · exact Or.inl same
      · exact Or.inr (Or.inl ⟨server, bytes, found, brought⟩)
      · have listed : (server, fileChange) ∈ (s.nodes other).requesting thread :=
          asking ▸ List.mem_cons_self ..
        have carries : s.Carries fileChange := ⟨other, Or.inl (.requesting thread listed)⟩
        exact Or.inr (Or.inr ⟨gone, fileChange, carries, deletion⟩)
    · rw [Mesh.set_nodes_of_ne _ mine]
      exact Or.inl rfl
  | _ => exact Or.inl (set rfl)

/-- No watcher will announce that the file is deleted, and no such announcement is under way. -/
structure Mesh.Spared (path : WString) (s : Mesh N) : Prop where
  watched : ∀ name, (s.nodes name).online = true → (s.nodes name).prevDir[path]? ≠ none →
    (s.nodes name).folder[path]? ≠ none
  undeleted : ∀ fileChange, s.Carries fileChange → fileChange.filePath = path →
    fileChange.change ≠ .deletion

/-- The watcher's tables of the nodes after a step of a thread. -/
theorem prevDir_effect {action : ThreadAction} {next : Mesh N}
    (effect : ThreadEffect platform name s action next) (other : N) :
    ((next.nodes other).online = true → (s.nodes other).online = true) ∧
      ((next.nodes other).prevDir = (s.nodes other).prevDir ∨
        (next.nodes other).prevDir = (next.nodes other).folder.table platform) := by
  have kept {next : Mesh N} (same : (fun other =>
        ((next.nodes other).online, (next.nodes other).prevDir)) =
        fun other => ((s.nodes other).online, (s.nodes other).prevDir)) :
      ((next.nodes other).online = true → (s.nodes other).online = true) ∧
        ((next.nodes other).prevDir = (s.nodes other).prevDir ∨
          (next.nodes other).prevDir = (next.nodes other).folder.table platform) := by
    obtain ⟨online, prevDir⟩ := Prod.mk.inj (congrFun same other)
    exact ⟨fun running => online ▸ running, Or.inl prevDir⟩
  have set (s : Mesh N) {name : N} {node : MeshNode N}
      (online : node.online = (s.nodes name).online)
      (prevDir : node.prevDir = (s.nodes name).prevDir) :
      (fun other => (((s.set name node).nodes other).online,
        ((s.set name node).nodes other).prevDir)) =
        fun other => ((s.nodes other).online, (s.nodes other).prevDir) :=
    Mesh.field_set_same (fun node => (node.online, node.prevDir)) s name node
      (by rw [online, prevDir])
  cases effect with
  | scan =>
    by_cases mine : other = name
    · subst mine
      rw [Mesh.set_nodes_self]
      exact ⟨id, Or.inr rfl⟩
    · rw [Mesh.set_nodes_of_ne _ mine]
      exact ⟨id, Or.inl rfl⟩
  | drain =>
    refine kept (Eq.trans (Mesh.field_broadcast (fun node => (node.online, node.prevDir))
      (fun _ _ => rfl) _ _ _) (set s rfl rfl))
  | answer => exact kept (Eq.trans (set _ rfl rfl) (set s rfl rfl))
  | _ => exact kept (set s rfl rfl)

theorem spared_effect {action : ThreadAction} {next : Mesh N}
    (effect : ThreadEffect platform name s action next)
    (online : (s.nodes name).online = true) (spared : s.Spared path) : next.Spared path where
  watched := by
    intro other running seen
    obtain ⟨ran, same | scanned⟩ := prevDir_effect effect other
    · rw [same] at seen
      have held := spared.watched other (ran running) seen
      rcases folder_effect effect other path with
        same | ⟨server, bytes, -, brought⟩ | ⟨-, fileChange, carries, here, deletion⟩
      · rwa [same]
      · simp [brought]
      · exact absurd deletion (spared.undeleted fileChange carries here)
    · rw [scanned, table_getElem?] at seen
      exact fun absent => seen (by rw [absent]; rfl)
  undeleted := by
    intro fileChange carries here deletion
    rcases carries_effect effect carries deletion with old | deleted
    · exact spared.undeleted fileChange old here deletion
    · obtain ⟨-, -, ⟨hash, before⟩, gone⟩ := mem_deletions.mp deleted
      rw [here] at before gone
      apply spared.watched name online (by rw [before]; exact Option.some_ne_none _)
      rw [table_getElem?] at gone
      exact Option.map_eq_none_iff.mp gone

/-! ## All steps -/

/-- No user deletes the file at a node that runs. -/
def sparesFile (path : WString) (s : Mesh N) : MeshAction N → Prop
  | .change name filePath none => filePath = path → (s.nodes name).online = false
  | _ => True

omit [DecidableEq N] in
theorem not_carries_stopped {folder : Folder} :
    ¬ (MeshNode.stopped folder : MeshNode N).Carries fileChange := by
  intro carries
  rcases carries with inbox | buffer
  · cases inbox with
    | requesting thread member => cases member
    | queued member => cases member
    | flying member => cases member
  · cases buffer

theorem spared_change {filePath : WString} {content : Option Bytes} (spared : s.Spared path)
    (allowed : sparesFile path s (.change name filePath content)) (user : Folder) :
    Mesh.Spared path { s.set name ((s.nodes name).edited filePath content) with user } where
  watched := by
    intro other
    simp only [Mesh.set_nodes]
    split
    · rename_i mine
      subst mine
      intro running seen
      by_cases here : filePath = path
      · subst here
        cases content with
        | none => exact absurd ((allowed rfl).symm.trans running) Bool.false_ne_true
        | some bytes => simp [MeshNode.edited]
      · rw [MeshNode.edited, set_of_ne here]
        exact spared.watched other running seen
    · exact spared.watched other
  undeleted := by
    intro fileChange carries
    have old : s.Carries fileChange := by
      obtain ⟨other, carries⟩ := carries
      simp only [Mesh.set_nodes] at carries
      split at carries
      · exact ⟨name, carries⟩
      · exact ⟨other, carries⟩
    exact spared.undeleted fileChange old

/-- A node that starts with the files that it has. -/
theorem spared_arrive [Fintype N] (spared : s.Spared path) (user : Folder) :
    Mesh.Spared path { (s.startNode platform name).broadcast name
      (.arrival ((s.nodes name).folder.table platform)) with user } where
  watched := by
    intro other
    simp only [Mesh.broadcast, Mesh.startNode, Mesh.set_nodes]
    by_cases mine : other = name
    · subst mine
      intro _ seen
      simp only [if_pos, MeshNode.started, MeshNode.stopped, table_getElem?] at seen ⊢
      exact fun absent => seen (by rw [absent]; rfl)
    · simp only [if_neg mine]
      split
      · exact spared.watched other
      · exact spared.watched other
  undeleted := by
    intro fileChange carries
    have broadcast : ((s.startNode platform name).broadcast name
        (.arrival ((s.nodes name).folder.table platform))).Carries fileChange := carries
    rcases carries_broadcast broadcast with kept | ⟨fileChanges, same, -⟩
    · rcases carries_set kept with old | new
      · exact spared.undeleted fileChange old
      · have stopped : (MeshNode.stopped (s.nodes name).folder : MeshNode N).Carries fileChange :=
          new
        exact absurd stopped not_carries_stopped
    · cases same

theorem spared_leave (spared : s.Spared path) :
    (s.set name (.stopped (s.nodes name).folder)).Spared path where
  watched := by
    intro other
    rw [Mesh.set_nodes]
    split
    · intro running
      cases running
    · exact spared.watched other
  undeleted := by
    intro fileChange carries
    rcases carries_set carries with old | new
    · exact spared.undeleted fileChange old
    · exact absurd new not_carries_stopped

theorem spared_duplicate {index : Nat} {sender : N} {message : MeshMessage}
    (spared : s.Spared path) (found : (s.nodes name).inFlight[index]? = some (sender, message)) :
    (s.send sender name message).Spared path where
  watched := by
    intro other
    rw [Mesh.send, Mesh.set_nodes]
    split
    · rename_i mine
      exact mine ▸ spared.watched name
    · exact spared.watched other
  undeleted := by
    intro fileChange carries
    rcases carries_send carries with old | ⟨fileChanges, same, inside⟩
    · exact spared.undeleted fileChange old
    · subst same
      have flying := Inbox.Carries.flying (List.mem_of_getElem? found) inside
      exact spared.undeleted fileChange ⟨name, Or.inl flying⟩

theorem spared_step [Fintype N] {action : MeshAction N} {next : Mesh N} (spared : s.Spared path)
    (allowed : sparesFile path s action) (taken : meshStep platform action s = some next) :
    next.Spared path := by
  cases action with
  | change name filePath content =>
    cases taken
    exact spared_change spared allowed _
  | arrive name =>
    simp only [meshStep] at taken
    split at taken <;> cases taken
    exact spared_arrive spared _
  | leave name =>
    simp only [meshStep] at taken
    split at taken <;> cases taken
    exact spared_leave spared
  | duplicate name index =>
    simp only [meshStep] at taken
    split at taken <;> cases taken
    exact spared_duplicate spared ‹_›
  | run name action =>
    simp only [meshStep] at taken
    split at taken
    · exact spared_effect (threadEffect_of_act taken) ‹_› spared
    · cases taken

omit [DecidableEq N] in
theorem spared_start (folders : N → Folder) : (Mesh.start folders).Spared path where
  watched := fun name running => by cases running
  undeleted := by
    intro fileChange carries
    obtain ⟨name, carries⟩ := carries
    exact absurd carries not_carries_stopped

/-- A file is what it was, or what it was at some node, or what its user makes of it, unless an
    announced deletion takes it away. -/
theorem folder_step [Fintype N] {action : MeshAction N} {next : Mesh N}
    (taken : meshStep platform action s = some next) (other : N) (path : WString) :
    (next.nodes other).folder[path]? = (s.nodes other).folder[path]? ∨
      (∃ server bytes, (s.nodes server).folder[path]? = some bytes ∧
        (next.nodes other).folder[path]? = some bytes) ∨
      (∃ content, action = .change other path content ∧
        (next.nodes other).folder[path]? = content) ∨
      (next.nodes other).folder[path]? = none ∧ ∃ fileChange, s.Carries fileChange ∧
        fileChange.filePath = path ∧ fileChange.change = .deletion := by
  cases action with
  | change name filePath content =>
    cases taken
    simp only [Mesh.set_nodes]
    split
    · rename_i mine
      subst mine
      by_cases here : filePath = path
      · subst here
        exact Or.inr (Or.inr (Or.inl ⟨content, rfl, set_self ..⟩))
      · exact Or.inl (set_of_ne here content)
    · exact Or.inl rfl
  | arrive name =>
    simp only [meshStep] at taken
    split at taken <;> cases taken
    refine Or.inl ?_
    simp only [Mesh.broadcast, Mesh.set_nodes]
    by_cases mine : other = name
    · subst mine
      simp [MeshNode.started, MeshNode.stopped]
    · simp only [if_neg mine]
      split <;> rfl
  | leave name =>
    simp only [meshStep] at taken
    split at taken <;> cases taken
    refine Or.inl ?_
    rw [Mesh.set_nodes]
    split
    · rename_i mine
      subst mine
      rfl
    · rfl
  | duplicate name index =>
    simp only [meshStep] at taken
    split at taken <;> cases taken
    refine Or.inl ?_
    rw [Mesh.send, Mesh.set_nodes]
    split
    · rename_i mine
      subst mine
      rfl
    · rfl
  | run name action =>
    simp only [meshStep] at taken
    split at taken
    · rcases folder_effect (threadEffect_of_act taken) other path with same | brought | deleted
      · exact Or.inl same
      · exact Or.inr (Or.inl brought)
      · exact Or.inr (Or.inr (Or.inr deleted))
    · cases taken

/-! ## All runs -/

/-- Some user has had the file with that content. -/
def Written (folders : N → Folder) (actions : List (MeshAction N)) (path : WString)
    (bytes : Bytes) : Prop :=
  (∃ name, (folders name)[path]? = some bytes) ∨
    ∃ name, MeshAction.change name path (some bytes) ∈ actions

/-- Contents that are known stay known, if those that users write are. -/
theorem known_run [Fintype N] {known : Bytes → Prop} {ok : Mesh N → MeshAction N → Prop}
    {actions : List (MeshAction N)} {t : Mesh N} (run : Run (meshStep platform) ok s actions t)
    (wrote : ∀ name bytes, MeshAction.change name path (some bytes) ∈ actions → known bytes)
    (held : ∀ name bytes, (s.nodes name).folder[path]? = some bytes → known bytes) :
    ∀ name bytes, (t.nodes name).folder[path]? = some bytes → known bytes := by
  induction run with
  | nil => exact held
  | @cons s next t action actions _ taken _ ih =>
    apply ih fun name bytes member => wrote name bytes (List.mem_cons_of_mem _ member)
    intro name bytes found
    rcases folder_step taken name path with
      same | ⟨server, source, had, brought⟩ | ⟨content, change, made⟩ | ⟨gone, -⟩
    · exact held name bytes (same ▸ found)
    · cases brought.symm.trans found
      exact held server bytes had
    · cases made.symm.trans found
      exact wrote name bytes (change ▸ List.mem_cons_self ..)
    · cases gone.symm.trans found

theorem stays_run [Fintype N] {actions : List (MeshAction N)} {t : Mesh N}
    (run : Run (meshStep platform) (sparesFile path) s actions t) (spared : s.Spared path)
    (kept : MeshAction.change name path none ∉ actions)
    (held : (s.nodes name).folder[path]? ≠ none) : (t.nodes name).folder[path]? ≠ none := by
  induction run with
  | nil => exact held
  | @cons s next t action actions allowed taken _ ih =>
    have stays := spared_step spared allowed taken
    apply ih stays fun member => kept (List.mem_cons_of_mem _ member)
    rcases folder_step taken name path with same | ⟨server, source, -, brought⟩ |
      ⟨content, change, made⟩ | ⟨-, fileChange, carries, here, deletion⟩
    · rwa [same]
    · simp [brought]
    · cases content with
      | none => exact absurd (change ▸ List.mem_cons_self ..) kept
      | some bytes => simp [made]
    · exact absurd deletion (spared.undeleted fileChange carries here)

/-- Where transfers are single complete steps, each file has a content that some user gave it at its
    path. And a file that a node has stays there, if its user does not delete it, as long as no user
    deletes it at a node that runs. Nodes start and stop at any time, and what is on its way to a
    node that stops is lost. -/
theorem mesh_keeps_files [Fintype N] {folders : N → Folder} {actions : List (MeshAction N)}
    {t : Mesh N} (run : Run (meshStep platform) anyStep (Mesh.start folders) actions t) :
    (∀ name path bytes, (t.nodes name).folder[path]? = some bytes →
      Written folders actions path bytes) ∧
    ∀ name path before later s, actions = before ++ later →
      Run (meshStep platform) (sparesFile path) (Mesh.start folders) before s →
      Run (meshStep platform) (sparesFile path) s later t →
      (s.nodes name).folder[path]? ≠ none → MeshAction.change name path none ∉ later →
      (t.nodes name).folder[path]? ≠ none := by
  refine ⟨fun name path => ?_, fun name path before later s _ first second held kept => ?_⟩
  · have known : ∀ name bytes, (t.nodes name).folder[path]? = some bytes →
        Written folders actions path bytes :=
      known_run run (fun name bytes member => Or.inr ⟨name, member⟩)
        fun name bytes found => Or.inl ⟨name, found⟩
    exact known name
  · have spared : s.Spared path := first.invariant
      (fun _ _ _ spared allowed taken => spared_step spared allowed taken) (spared_start folders)
    exact stays_run second spared kept held

/-- One node has a file. -/
def pairFolders (name : Bool) : Folder := if name then ∅ else onlyFolder

theorem mesh_keeps_files_pair : ∃ t : Mesh Bool,
    Run (meshStep .win32) anyStep (Mesh.start pairFolders) [.arrive false, .arrive true] t ∧
      (t.nodes false).folder[wide "\\a"]? ≠ none := by
  have steps : ∃ s t, meshStep .win32 (.arrive false) (Mesh.start pairFolders) = some s ∧
      meshStep .win32 (.arrive true) s = some t ∧ (s.nodes false).folder = onlyFolder :=
    ⟨_, _, rfl, rfl, rfl⟩
  obtain ⟨s, t, first, second, folder⟩ := steps
  have run : Run (meshStep .win32) anyStep (Mesh.start pairFolders)
      [.arrive false, .arrive true] t := .cons trivial first (.one trivial second)
  refine ⟨t, run, (mesh_keeps_files run).2 false (wide "\\a") [.arrive false] [.arrive true] s rfl
    (.one trivial first) (.one trivial second) ?_ (by simp)⟩
  rw [folder, onlyFolder, set_self]
  exact Option.some_ne_none _

end FileSync
