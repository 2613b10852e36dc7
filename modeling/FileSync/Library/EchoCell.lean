import Mathlib.Tactic.Common

/-!
# A value with an echoing copy

An owner writes a value, and a follower keeps a copy of it. Each of the two has a watcher that
remembers the digest of what it saw last, and sends a notice with the new digest when the value
has another one. A notice does not carry the value: whoever processes it fetches what the other
one holds by then. Since the follower's watcher sees the fetched value too, every change comes
back to the owner as an echo.

`Cell.Clear` says when a write is safe from echoes, and from being missed by the watchers.
-/

namespace EchoCell

universe u v

/-- What two sides hold of one value, where `none` is its absence. -/
structure Cell (α : Type u) (η : Type v) where
  own : Option α
  copy : Option α
  ownSeen : Option η
  copySeen : Option η
  /-- The notices that the follower has not processed, oldest first. -/
  toCopy : List (Option η)
  toOwn : List (Option η)

variable {α : Type u} {η : Type v}

/-- What a watcher sends: the digest, if it is not the one seen before. -/
def Announces (seen digest : Option η) (notices : List (Option η)) : Prop :=
  ∀ notice, notice ∈ notices ↔ seen ≠ digest ∧ notice = digest

/-- A value after a notice: removed, kept because it passes the test against the digest, or
    fetched, unless the other side has none. -/
def receive (passes : α → η → Bool) (mine theirs : Option α) : Option η → Option α
  | none => none
  | some digest => if mine.any fun value => passes value digest then mine else theirs.or mine

/-- The steps of a cell other than writes. -/
inductive Step (hash : α → η) (passes : α → η → Bool) : Cell α η → Cell α η → Prop where
  | scanOwn {cell : Cell α η} {notices : List (Option η)} :
      Announces cell.ownSeen (cell.own.map hash) notices → Step hash passes cell { cell with
        ownSeen := cell.own.map hash
        toCopy := cell.toCopy ++ notices }
  | scanCopy {cell : Cell α η} {notices : List (Option η)} :
      Announces cell.copySeen (cell.copy.map hash) notices → Step hash passes cell { cell with
        copySeen := cell.copy.map hash
        toOwn := cell.toOwn ++ notices }
  | followerReceives {cell : Cell α η} {notice : Option η} {rest : List (Option η)} :
      cell.toCopy = notice :: rest → Step hash passes cell { cell with
        copy := receive passes cell.copy cell.own notice
        toCopy := rest }
  | ownerReceives {cell : Cell α η} {notice : Option η} {rest : List (Option η)} :
      cell.toOwn = notice :: rest → Step hash passes cell { cell with
        own := receive passes cell.own cell.copy notice
        toOwn := rest }

/-- A removal on its way to the follower finds no value that it would remove. -/
def Cell.Removable (cell : Cell α η) : Prop :=
  cell.copy = none ∧ cell.toCopy.Pairwise fun earlier later => later = none → earlier = none

/-- The owner may hold the value: no echo undoes it, and the follower will get it. -/
structure Cell.Clear (hash : α → η) (passes : α → η → Bool) (cell : Cell α η)
    (value : Option α) : Prop where
  echo : cell.toOwn ≠ [] ∨ cell.copySeen ≠ cell.copy.map hash → value = cell.copy
  removalEcho : none ∈ cell.toOwn → value = none
  removal : none ∈ cell.toCopy → value = none ∨ cell.Removable
  /-- The owner's watcher will see the value, or the follower has it, or a notice on its way
      will make the follower get it. -/
  seen : cell.ownSeen ≠ value.map hash ∨ value = cell.copy ∨
    (value ≠ none ∧ ∃ digest, some digest ∈ cell.toCopy ∧
      (cell.copy.any fun held => passes held digest) = false) ∨
    (value = none ∧ none ∈ cell.toCopy)

/-- The value that the owner holds is clear. -/
def Cell.Settled (hash : α → η) (passes : α → η → Bool) (cell : Cell α η) : Prop :=
  cell.Clear hash passes cell.own

variable {hash : α → η} {passes : α → η → Bool}

/-- The owner's watcher announces the value. -/
theorem settled_scanOwn {cell : Cell α η} {notices : List (Option η)}
    (settled : cell.Settled hash passes)
    (announces : Announces cell.ownSeen (cell.own.map hash) notices)
    (apart : ∀ value held, cell.own = some value → cell.copy = some held →
      passes held (hash value) = true → held = value) :
    Cell.Settled hash passes { cell with
      ownSeen := cell.own.map hash
      toCopy := cell.toCopy ++ notices } := by
  refine ⟨settled.echo, settled.removalEcho, fun removal => ?_, Or.inr ?_⟩
  · by_cases gone : cell.own = none
    · exact Or.inl gone
    · have present : ∀ notice ∈ notices, notice ≠ none := by
        intro notice listed
        rw [((announces notice).mp listed).2]
        simpa using gone
      have queued : none ∈ cell.toCopy :=
        (List.mem_append.mp removal).resolve_right fun fresh => present none fresh rfl
      obtain ⟨missing, ordered⟩ := (settled.removal queued).resolve_left gone
      refine Or.inr ⟨missing, List.pairwise_append.mpr ⟨ordered, ?_, ?_⟩⟩
      · exact List.Pairwise.imp_of_mem (fun _ listed _ isRemoval =>
          absurd isRemoval (present _ listed)) (List.pairwise_of_forall fun _ _ => trivial)
      · exact fun _ _ later listed isRemoval => absurd isRemoval (present later listed)
  · dsimp only
    rcases settled.seen with differ | same | ⟨present, digest, queued, unlike⟩ | ⟨gone, queued⟩
    · have fresh : cell.own.map hash ∈ cell.toCopy ++ notices :=
        List.mem_append_right _ ((announces _).mpr ⟨differ, rfl⟩)
      rcases Option.eq_none_or_eq_some cell.own with own | ⟨value, own⟩
      · rw [own] at fresh
        exact Or.inr (Or.inr ⟨own, fresh⟩)
      · rw [own] at fresh
        cases held : cell.copy.any fun held => passes held (hash value) with
        | false => exact Or.inr (Or.inl ⟨by simp [own], hash value, fresh, held⟩)
        | true =>
          obtain ⟨other, copied, passed⟩ := (Option.any_eq_true _ _).mp held
          rw [own, copied, apart value other own copied passed]
          exact Or.inl rfl
    · exact Or.inl same
    · exact Or.inr (Or.inl ⟨present, digest, List.mem_append_left _ queued, unlike⟩)
    · exact Or.inr (Or.inr ⟨gone, List.mem_append_left _ queued⟩)

/-- The follower's watcher makes an echo only of what the owner has. -/
theorem settled_scanCopy {cell : Cell α η} {notices : List (Option η)}
    (settled : cell.Settled hash passes)
    (announces : Announces cell.copySeen (cell.copy.map hash) notices) :
    Cell.Settled hash passes { cell with
      copySeen := cell.copy.map hash
      toOwn := cell.toOwn ++ notices } := by
  refine ⟨fun echo => ?_, fun removal => ?_, settled.removal, settled.seen⟩
  · rcases echo with nonempty | differ
    · obtain ⟨notice, listed⟩ := List.exists_mem_of_ne_nil _ nonempty
      rcases List.mem_append.mp listed with queued | fresh
      · exact settled.echo (Or.inl (List.ne_nil_of_mem queued))
      · exact settled.echo (Or.inr ((announces notice).mp fresh).1)
    · exact absurd rfl differ
  · rcases List.mem_append.mp removal with queued | fresh
    · exact settled.removalEcho queued
    · obtain ⟨differ, gone⟩ := (announces none).mp fresh
      exact (settled.echo (Or.inr differ)).trans (Option.map_eq_none_iff.mp gone.symm)

/-- A removal reaches the follower: it has no value, or the owner has none either. -/
theorem settled_removal {cell : Cell α η} {rest : List (Option η)}
    (settled : cell.Settled hash passes) (next : cell.toCopy = none :: rest) :
    Cell.Settled hash passes { cell with copy := none, toCopy := rest } := by
  have queued : none ∈ cell.toCopy := by simp [next]
  by_cases gone : cell.own = none
  · exact ⟨fun _ => gone, fun _ => gone, fun _ => Or.inl gone, Or.inr (Or.inl gone)⟩
  · obtain ⟨missing, ordered⟩ := (settled.removal queued).resolve_left gone
    rw [next] at ordered
    refine ⟨fun echo => ?_, settled.removalEcho, fun _ => Or.inr ⟨rfl, ordered.of_cons⟩, ?_⟩
    · rw [← missing] at echo ⊢
      exact settled.echo echo
    · rcases settled.seen with differ | same | ⟨present, digest, listed, _⟩ | ⟨none, _⟩
      · exact Or.inl differ
      · exact Or.inr (Or.inl (same.trans missing))
      · refine Or.inr (Or.inr (Or.inl ⟨present, digest, ?_, rfl⟩))
        simpa [next] using listed
      · exact absurd none gone

/-- A digest reaches the follower: it keeps its value, or has the owner's. -/
theorem settled_update {cell : Cell α η} {digest : η} {rest : List (Option η)}
    (settled : cell.Settled hash passes) (next : cell.toCopy = some digest :: rest) :
    Cell.Settled hash passes { cell with
      copy := receive passes cell.copy cell.own (some digest)
      toCopy := rest } := by
  have later : none ∈ rest → none ∈ cell.toCopy := fun listed => by simp [next, listed]
  cases passed : cell.copy.any fun value => passes value digest with
  | true =>
    have kept : receive passes cell.copy cell.own (some digest) = cell.copy := by
      simp [receive, passed]
    rw [kept]
    refine ⟨settled.echo, settled.removalEcho, fun removal => ?_, ?_⟩
    · rcases settled.removal (later removal) with gone | ⟨missing, _⟩
      · exact Or.inl gone
      · simp [missing] at passed
    · rcases settled.seen with differ | same | ⟨present, other, listed, unlike⟩ | ⟨gone, listed⟩
      · exact Or.inl differ
      · exact Or.inr (Or.inl same)
      · refine Or.inr (Or.inr (Or.inl ⟨present, other, ?_, unlike⟩))
        rw [next] at listed
        refine (List.mem_cons.mp listed).resolve_left fun same => ?_
        cases same
        rw [passed] at unlike
        cases unlike
      · refine Or.inr (Or.inr (Or.inr ⟨gone, ?_⟩))
        simpa [next] using listed
  | false =>
    rcases Option.eq_none_or_eq_some cell.own with own | ⟨value, own⟩
    · have kept : receive passes cell.copy cell.own (some digest) = cell.copy := by
        simp [receive, passed, own]
      rw [kept]
      refine ⟨settled.echo, settled.removalEcho, fun _ => Or.inl own, ?_⟩
      rcases settled.seen with differ | same | ⟨present, _⟩ | ⟨_, listed⟩
      · exact Or.inl differ
      · exact Or.inr (Or.inl same)
      · exact absurd own present
      · refine Or.inr (Or.inr (Or.inr ⟨own, ?_⟩))
        simpa [next] using listed
    · have fetched : receive passes cell.copy cell.own (some digest) = some value := by
        simp [receive, passed, own]
      rw [fetched]
      refine ⟨fun _ => own, settled.removalEcho, fun removal => ?_, Or.inr (Or.inl own)⟩
      -- A removal behind the digest would have made the value unclear.
      rcases settled.removal (later removal) with gone | ⟨_, ordered⟩
      · exact Or.inl gone
      · rw [next] at ordered
        cases List.rel_of_pairwise_cons ordered removal rfl

/-- An echo finds what the owner has. -/
theorem receive_echo {cell : Cell α η} {notice : Option η} {rest : List (Option η)}
    (settled : cell.Settled hash passes) (next : cell.toOwn = notice :: rest) :
    receive passes cell.own cell.copy notice = cell.own := by
  have same : cell.own = cell.copy := settled.echo (Or.inl (by simp [next]))
  cases notice with
  | none => exact (settled.removalEcho (by simp [next])).symm
  | some digest =>
    rw [receive, ← same]
    split
    · rfl
    · cases cell.own <;> rfl

theorem settled_ownerReceives {cell : Cell α η} {notice : Option η} {rest : List (Option η)}
    (settled : cell.Settled hash passes) (next : cell.toOwn = notice :: rest) :
    Cell.Settled hash passes { cell with
      own := receive passes cell.own cell.copy notice
      toOwn := rest } := by
  rw [receive_echo settled next]
  refine ⟨fun _ => settled.echo (Or.inl (by simp [next])), fun removal => ?_, settled.removal,
    settled.seen⟩
  exact settled.removalEcho (by simp [next, removal])

/-- Values come from the two sides only. -/
theorem receive_cases (mine theirs : Option α) (notice : Option η) :
    receive passes mine theirs notice = none ∨ receive passes mine theirs notice = mine ∨
      receive passes mine theirs notice = theirs := by
  cases notice with
  | none => exact Or.inl rfl
  | some digest =>
    rw [receive]
    split
    · exact Or.inr (Or.inl rfl)
    · cases theirs with
      | none => exact Or.inr (Or.inl rfl)
      | some value => exact Or.inr (Or.inr rfl)

/-- What holds of the values of both sides holds of what they have after a step. -/
theorem Step.values {cell next : Cell α η} (step : Step hash passes cell next) {good : α → Prop}
    (own : ∀ value, cell.own = some value → good value)
    (copy : ∀ value, cell.copy = some value → good value) :
    (∀ value, next.own = some value → good value) ∧
      ∀ value, next.copy = some value → good value := by
  have received : ∀ mine theirs notice, (∀ value, mine = some value → good value) →
      (∀ value, theirs = some value → good value) →
      ∀ value, receive passes mine theirs notice = some value → good value := by
    intro mine theirs notice mineGood theirsGood value found
    rcases receive_cases mine theirs notice with gone | kept | fetched
    · rw [gone] at found
      cases found
    · exact mineGood value (kept ▸ found)
    · exact theirsGood value (fetched ▸ found)
  cases step with
  | scanOwn => exact ⟨own, copy⟩
  | scanCopy => exact ⟨own, copy⟩
  | followerReceives => exact ⟨own, received _ _ _ copy own⟩
  | ownerReceives => exact ⟨received _ _ _ own copy, copy⟩

/-- A clear value may be written. -/
theorem Cell.Clear.written {cell : Cell α η} {value : Option α}
    (clear : cell.Clear hash passes value) : Cell.Settled hash passes { cell with own := value } :=
  ⟨clear.echo, clear.removalEcho, clear.removal, clear.seen⟩

/-- No step other than a write changes what a settled owner holds, and it stays settled. -/
theorem Step.settled {cell next : Cell α η} (step : Step hash passes cell next)
    (settled : cell.Settled hash passes)
    (apart : ∀ value held, cell.own = some value → cell.copy = some held →
      passes held (hash value) = true → held = value) :
    next.Settled hash passes ∧ next.own = cell.own := by
  cases step with
  | scanOwn announces => exact ⟨settled_scanOwn settled announces apart, rfl⟩
  | scanCopy announces => exact ⟨settled_scanCopy settled announces, rfl⟩
  | @followerReceives notice rest queue =>
    cases notice with
    | none => exact ⟨settled_removal settled queue, rfl⟩
    | some digest => exact ⟨settled_update settled queue, rfl⟩
  | ownerReceives queue =>
    exact ⟨settled_ownerReceives settled queue, receive_echo settled queue⟩

end EchoCell
