import FileSync.Library.EchoCell
import Mathlib.Logic.Function.Basic

/-!
# A value that many nodes keep equal

Every node holds a copy of a value, a digest of the copy that its watcher saw last, and a digest
that it shows to others. A watcher that sees another digest than before sends a notice of it to all
other nodes, and whoever processes the notice fetches the sender's copy. A node that comes online
sends its digest to the others, which answer with theirs: a node without a digest of its own asks
the newcomer for its copy, and the newcomer asks those whose digest is another one.

`Cell.Sound` is what all this keeps: each node has the intended value, or something waits that will
bring it. The order in which the waiting items are processed does not matter.
-/

namespace Gossip

open EchoCell (receive)

universe u v w

/-- What a node has still to process of another one. -/
inductive Item (η : Type w) where
  /-- The sender's watcher has seen this digest. -/
  | notice (digest : Option η)
  /-- The digest of a newcomer, to be compared with the node's own. -/
  | announced (digest : Option η)
  /-- The newcomer is still to be answered. -/
  | unanswered
  /-- The answer to a newcomer. -/
  | response (digest : Option η)

/-- What the nodes hold of one key, what they know of each other's and what they have still to
    process. -/
@[ext]
structure Cell (N : Type u) (α : Type v) (η : Type w) where
  online : N → Prop
  held : N → Option α
  /-- What the watchers saw last. -/
  seen : N → Option η
  /-- What the nodes show to others. -/
  shown : N → Option η
  /-- The second node has still to process the item that it got from the first one. -/
  waits : N → N → Item η → Prop

variable {N : Type u} {α : Type v} {η : Type w}

/-- All that the other nodes have still to be told by a node is on its way: it shows what its
    watcher saw, or notices of it wait everywhere. -/
def Cell.Shows (c : Cell N α η) (node : N) : Prop :=
  c.shown node = c.seen node ∨
    ∀ other, c.online other → other ≠ node → c.waits node other (.notice (c.seen node))

/-- Something waits that will make the node fetch the value. -/
inductive Cell.Served (hash : α → η) (target : Option α) (c : Cell N α η) (node : N) : Prop where
  | notified {sender : N} {digest : Option η} :
      c.waits sender node (.notice digest) → Served hash target c node
  | unnoticed {other : N} : c.online other → other ≠ node → c.held other = target →
      c.seen other ≠ target.map hash → Served hash target c node
  | announced {newcomer : N} {digest : η} : c.waits newcomer node (.announced (some digest)) →
      c.shown node = none → Served hash target c node
  | unanswered {other : N} : c.waits node other .unanswered → Served hash target c node
  | answered {sender : N} {digest : Option η} :
      c.waits sender node (.response digest) → Served hash target c node

/-- The nodes have the intended value or will get it. `good` holds of all values around. -/
structure Cell.Sound (hash : α → η) (good : α → Prop) (target : Option α) (c : Cell N α η) :
    Prop where
  values : ∀ node value, c.held node = some value → good value
  apart : ∀ {sender node : N} {item : Item η}, c.waits sender node item →
    c.online sender ∧ c.online node ∧ sender ≠ node
  fresh : ∀ {node}, c.online node → c.seen node ≠ (c.held node).map hash → c.held node = target
  told : ∀ {sender node : N} {digest : Option η}, c.waits sender node (.notice digest) →
    c.held sender = target ∧ digest = target.map hash
  announced : ∀ {newcomer node : N} {digest : η}, c.waits newcomer node (.announced (some digest)) →
    target ≠ none ∧
      ((c.held newcomer = target ∧ some digest = target.map hash) ∨ c.shown node ≠ none)
  unanswered : ∀ {newcomer node : N}, c.waits newcomer node .unanswered →
    (c.shown node ≠ none → c.held node = target ∧ c.shown node = target.map hash) ∧
      (c.held newcomer ≠ target → target ≠ none ∧ c.shown node = target.map hash)
  response : ∀ {sender newcomer : N} {digest : Option η},
    c.waits sender newcomer (.response digest) →
    (digest ≠ none → c.held sender = target ∧ digest = target.map hash) ∧
      (c.held newcomer ≠ target → target ≠ none ∧ digest = target.map hash)
  served : ∀ {node}, c.online node → c.held node = target ∨ c.Served hash target node

/-- The steps of the nodes' threads. Items are processed in any order, and may come twice: what
    has been processed is only known to be no longer needed. -/
inductive Step [DecidableEq N] (hash : α → η) (passes : α → η → Bool) (c : Cell N α η) :
    Cell N α η → Prop where
  /-- A watcher looks, and notices go to all other nodes if it sees another digest. -/
  | scan {node : N} {waits : N → N → Item η → Prop} : c.online node →
      (∀ sender other item, waits sender other item ↔ c.waits sender other item ∨
        (sender = node ∧ c.online other ∧ other ≠ node ∧
          c.seen node ≠ (c.held node).map hash ∧ item = .notice ((c.held node).map hash))) →
      Step hash passes c { c with
        seen := Function.update c.seen node ((c.held node).map hash)
        waits }
  /-- The node shows what its watcher saw. -/
  | drain {node : N} : c.Shows node →
      Step hash passes c { c with shown := Function.update c.shown node (c.seen node) }
  | receive {sender node : N} {digest : Option η} {waits : N → N → Item η → Prop} :
      c.waits sender node (.notice digest) →
      (∀ first second item, waits first second item → c.waits first second item) →
      (∀ first second item, c.waits first second item → waits first second item ∨
        (first = sender ∧ second = node ∧ item = .notice digest)) →
      Step hash passes c { c with
        held := Function.update c.held node
          (EchoCell.receive passes (c.held node) (c.held sender) digest)
        waits }
  | answer {newcomer node : N} {waits : N → N → Item η → Prop} :
      c.waits newcomer node .unanswered →
      waits node newcomer (.response (c.shown node)) →
      (∀ first second item, waits first second item → c.waits first second item ∨
        (first = node ∧ second = newcomer ∧ item = .response (c.shown node))) →
      (∀ first second item, c.waits first second item → waits first second item ∨
        (first = newcomer ∧ second = node ∧ item = .unanswered)) →
      Step hash passes c { c with waits }
  /-- A node compares the digest of a newcomer with its own. -/
  | compare {newcomer node : N} {digest : Option η} {waits : N → N → Item η → Prop} :
      c.waits newcomer node (.announced digest) →
      (c.shown node = none → digest ≠ none → waits newcomer node (.notice digest)) →
      (∀ first second item, waits first second item → c.waits first second item ∨
        (first = newcomer ∧ second = node ∧ item = .notice digest ∧ c.shown node = none ∧
          digest ≠ none)) →
      (∀ first second item, c.waits first second item → waits first second item ∨
        (first = newcomer ∧ second = node ∧ item = .announced digest)) →
      Step hash passes c { c with waits }
  /-- A newcomer compares the digest of an answer with its own. -/
  | compareResponse {sender newcomer : N} {digest : Option η} {waits : N → N → Item η → Prop} :
      c.waits sender newcomer (.response digest) → c.Shows newcomer →
      (digest ≠ none → c.shown newcomer ≠ digest → waits sender newcomer (.notice digest)) →
      (∀ first second item, waits first second item → c.waits first second item ∨
        (first = sender ∧ second = newcomer ∧ item = .notice digest ∧ digest ≠ none)) →
      (∀ first second item, c.waits first second item → waits first second item ∨
        (first = sender ∧ second = newcomer ∧ item = .response digest)) →
      Step hash passes c { c with waits }
  /-- An answer is lost, and another one is there. -/
  | overwrite {sender newcomer : N} {digest : Option η} {waits : N → N → Item η → Prop} :
      waits sender newcomer (.response digest) →
      (∀ first second item, waits first second item → c.waits first second item) →
      (∀ first second item, c.waits first second item → waits first second item ∨
        (second = newcomer ∧ ∃ lost, item = .response lost)) →
      Step hash passes c { c with waits }

/-- A node may write: nothing waits, all watchers have seen the same, and the other nodes still
    hold what was seen. -/
structure Cell.Calm (hash : α → η) (c : Cell N α η) (node : N) : Prop where
  idle : ∀ sender other item, ¬ c.waits sender other item
  seen : ∀ other, c.online other → c.seen other = c.seen node
  held : ∀ other, c.online other → other ≠ node → (c.held other).map hash = c.seen other

/-- Nothing waits, and all watchers have seen what their nodes hold and show it. -/
structure Cell.Quiet (hash : α → η) (c : Cell N α η) : Prop where
  idle : ∀ sender other item, ¬ c.waits sender other item
  seen : ∀ node, c.online node → c.seen node = (c.held node).map hash
  shown : ∀ node, c.online node → c.shown node = (c.held node).map hash

section

variable {hash : α → η} {passes : α → η → Bool} {good : α → Prop} {target : Option α}
  {c : Cell N α η}

/-- When nothing waits and the watchers have seen everything, all nodes have the value. -/
theorem Cell.Sound.held_of_quiet (sound : c.Sound hash good target) (quiet : c.Quiet hash) {node : N}
    (online : c.online node) : c.held node = target := by
  rcases sound.served online with held | served
  · exact held
  · cases served with
    | notified waits => exact (quiet.idle _ _ _ waits).elim
    | unnoticed other _ held unseen =>
      refine absurd ?_ unseen
      rw [quiet.seen _ other, held]
    | announced waits => exact (quiet.idle _ _ _ waits).elim
    | unanswered waits => exact (quiet.idle _ _ _ waits).elim
    | answered waits => exact (quiet.idle _ _ _ waits).elim

/-- What a node's table lacks of what its watcher saw is the intended value. -/
theorem Cell.Sound.of_shows (sound : c.Sound hash good target) {node other : N}
    (shows : c.Shows node) (online : c.online other) (differ : other ≠ node)
    (stale : c.shown node ≠ c.seen node) :
    c.held node = target ∧ c.seen node = target.map hash :=
  sound.told (shows.resolve_left stale other online differ)

/-! ## What the steps keep -/

/-- A notice makes the node hold the value. -/
theorem Cell.Sound.receive_eq (sound : c.Sound hash good target)
    (tells : ∀ value held, good value → good held → passes held (hash value) = true → held = value)
    {sender node : N} {digest : Option η} (waits : c.waits sender node (.notice digest)) :
    EchoCell.receive passes (c.held node) (c.held sender) digest = target := by
  obtain ⟨holds, rfl⟩ := sound.told waits
  cases target with
  | none => rfl
  | some value =>
    rw [Option.map_some, EchoCell.receive, holds]
    split
    · rename_i passed
      obtain ⟨held, mine, passed⟩ := (Option.any_eq_true _ _).mp passed
      rw [mine, tells value held (sound.values sender value holds) (sound.values node held mine)
        passed]
    · rfl

theorem Cell.Sound.answer (sound : c.Sound hash good target) {newcomer node : N}
    {waits : N → N → Item η → Prop} (unanswered : c.waits newcomer node .unanswered)
    (response : waits node newcomer (.response (c.shown node)))
    (came : ∀ first second item, waits first second item → c.waits first second item ∨
      (first = node ∧ second = newcomer ∧ item = .response (c.shown node)))
    (kept : ∀ first second item, c.waits first second item → waits first second item ∨
      (first = newcomer ∧ second = node ∧ item = .unanswered)) :
    Cell.Sound hash good target { c with waits } := by
  have old {first second : N} {item : Item η} (after : waits first second item)
      (other_kind : ∀ digest, item ≠ .response digest) : c.waits first second item :=
    (came _ _ _ after).resolve_right fun new => other_kind _ new.2.2
  refine ⟨sound.values, fun after => ?_, sound.fresh, fun after => sound.told (old after (by simp)),
    fun after => sound.announced (old after (by simp)),
    fun after => sound.unanswered (old after (by simp)),
    fun after => ?_, fun on => (sound.served on).imp_right fun served => ?_⟩
  · rcases came _ _ _ after with before | ⟨rfl, rfl, _⟩
    · exact sound.apart before
    · obtain ⟨here, there, differ⟩ := sound.apart unanswered
      exact ⟨there, here, differ.symm⟩
  · rcases came _ _ _ after with before | ⟨rfl, rfl, item⟩
    · exact sound.response before
    · cases item
      exact sound.unanswered unanswered
  · cases served with
    | notified before =>
      exact .notified ((kept _ _ _ before).resolve_right (by simp))
    | unnoticed other differ held unseen => exact .unnoticed other differ held unseen
    | announced before visible =>
      exact .announced ((kept _ _ _ before).resolve_right (by simp)) visible
    | unanswered before =>
      rcases kept _ _ _ before with after | ⟨rfl, rfl, _⟩
      · exact .unanswered after
      · exact .answered response
    | answered before => exact .answered ((kept _ _ _ before).resolve_right (by simp))

theorem Cell.Sound.compare (sound : c.Sound hash good target) {newcomer node : N}
    {digest : Option η} {waits : N → N → Item η → Prop}
    (announced : c.waits newcomer node (.announced digest))
    (asked : c.shown node = none → digest ≠ none → waits newcomer node (.notice digest))
    (came : ∀ first second item, waits first second item → c.waits first second item ∨
      (first = newcomer ∧ second = node ∧ item = .notice digest ∧ c.shown node = none ∧
        digest ≠ none))
    (kept : ∀ first second item, c.waits first second item → waits first second item ∨
      (first = newcomer ∧ second = node ∧ item = .announced digest)) :
    Cell.Sound hash good target { c with waits } := by
  have old {first second : N} {item : Item η} (after : waits first second item)
      (other_kind : ∀ digest, item ≠ .notice digest) : c.waits first second item :=
    (came _ _ _ after).resolve_right fun new => other_kind _ new.2.2.1
  refine ⟨sound.values, fun after => ?_, sound.fresh, fun after => ?_,
    fun after => sound.announced (old after (by simp)),
    fun after => sound.unanswered (old after (by simp)),
    fun after => sound.response (old after (by simp)),
    fun on => (sound.served on).imp_right fun served => ?_⟩
  · rcases came _ _ _ after with before | ⟨rfl, rfl, _⟩
    · exact sound.apart before
    · exact sound.apart announced
  · rcases came _ _ _ after with before | ⟨rfl, rfl, item, shown, present⟩
    · exact sound.told before
    · cases item
      obtain ⟨hash, rfl⟩ := Option.ne_none_iff_exists'.mp present
      exact (sound.announced announced).2.resolve_right fun visible => visible shown
  · cases served with
    | notified before => exact .notified ((kept _ _ _ before).resolve_right (by simp))
    | unnoticed other differ held unseen => exact .unnoticed other differ held unseen
    | announced before visible =>
      rcases kept _ _ _ before with after | ⟨rfl, rfl, item⟩
      · exact .announced after visible
      · cases item
        exact .notified (asked visible (Option.some_ne_none _))
    | unanswered before => exact .unanswered ((kept _ _ _ before).resolve_right (by simp))
    | answered before => exact .answered ((kept _ _ _ before).resolve_right (by simp))

theorem Cell.Sound.compareResponse (sound : c.Sound hash good target)
    (injective : ∀ value other, good value → good other → hash value = hash other → value = other)
    {sender newcomer : N} {digest : Option η} {waits : N → N → Item η → Prop}
    (response : c.waits sender newcomer (.response digest)) (shows : c.Shows newcomer)
    (asked : digest ≠ none → c.shown newcomer ≠ digest → waits sender newcomer (.notice digest))
    (came : ∀ first second item, waits first second item → c.waits first second item ∨
      (first = sender ∧ second = newcomer ∧ item = .notice digest ∧ digest ≠ none))
    (kept : ∀ first second item, c.waits first second item → waits first second item ∨
      (first = sender ∧ second = newcomer ∧ item = .response digest)) :
    Cell.Sound hash good target { c with waits } := by
  have old {first second : N} {item : Item η} (after : waits first second item)
      (other_kind : ∀ digest, item ≠ .notice digest) : c.waits first second item :=
    (came _ _ _ after).resolve_right fun new => other_kind _ new.2.2.1
  obtain ⟨online, here, differ⟩ := sound.apart response
  -- A newcomer without the value shows the digest of another one, and asks for it.
  have asks (stale : c.held newcomer ≠ target) : waits sender newcomer (.notice digest) := by
    obtain ⟨present, rfl⟩ := (sound.response response).2 stale
    obtain ⟨value, rfl⟩ := Option.ne_none_iff_exists'.mp present
    refine asked (by simp) fun same => stale ?_
    have shown : c.shown newcomer = c.seen newcomer := by
      by_contra missing
      exact stale (sound.of_shows shows online differ missing).1
    have seen : c.seen newcomer = (c.held newcomer).map hash := by
      by_contra unseen
      exact stale (sound.fresh here unseen)
    rw [shown, seen, Option.map_some, Option.map_eq_some_iff] at same
    obtain ⟨held, holds, equal⟩ := same
    have theirs := ((sound.response response).1 (by simp)).1
    rw [holds, injective held value (sound.values newcomer held holds)
      (sound.values sender value theirs) equal]
  refine ⟨sound.values, fun after => ?_, sound.fresh, fun after => ?_,
    fun after => sound.announced (old after (by simp)),
    fun after => sound.unanswered (old after (by simp)),
    fun after => sound.response (old after (by simp)), fun {node} on => ?_⟩
  · rcases came _ _ _ after with before | ⟨rfl, rfl, _⟩
    · exact sound.apart before
    · exact sound.apart response
  · rcases came _ _ _ after with before | ⟨rfl, rfl, item, present⟩
    · exact sound.told before
    · cases item
      exact (sound.response response).1 present
  · by_cases stale : c.held node = target
    · exact Or.inl stale
    · refine Or.inr ?_
      cases (sound.served on).resolve_left stale with
      | notified before => exact .notified ((kept _ _ _ before).resolve_right (by simp))
      | unnoticed other differ held unseen => exact .unnoticed other differ held unseen
      | announced before visible =>
        exact .announced ((kept _ _ _ before).resolve_right (by simp)) visible
      | unanswered before => exact .unanswered ((kept _ _ _ before).resolve_right (by simp))
      | answered before =>
        rcases kept _ _ _ before with after | ⟨rfl, rfl, _⟩
        · exact .answered after
        · exact .notified (asks stale)

theorem Cell.Sound.overwrite (sound : c.Sound hash good target) {sender newcomer : N}
    {digest : Option η} {waits : N → N → Item η → Prop}
    (there : waits sender newcomer (.response digest))
    (came : ∀ first second item, waits first second item → c.waits first second item)
    (kept : ∀ first second item, c.waits first second item → waits first second item ∨
      (second = newcomer ∧ ∃ lost, item = .response lost)) :
    Cell.Sound hash good target { c with waits } := by
  have still {first second : N} {item : Item η} (before : c.waits first second item)
      (other_kind : ∀ digest, item ≠ .response digest) : waits first second item :=
    (kept _ _ _ before).resolve_right fun lost => other_kind _ lost.2.choose_spec
  refine ⟨sound.values, fun after => sound.apart (came _ _ _ after), sound.fresh,
    fun after => sound.told (came _ _ _ after), fun after => sound.announced (came _ _ _ after),
    fun after => sound.unanswered (came _ _ _ after),
    fun after => sound.response (came _ _ _ after),
    fun on => (sound.served on).imp_right fun served => ?_⟩
  cases served with
  | notified before => exact .notified (still before (by simp))
  | unnoticed other differ held unseen => exact .unnoticed other differ held unseen
  | announced before visible => exact .announced (still before (by simp)) visible
  | unanswered before => exact .unanswered (still before (by simp))
  | answered before =>
    rcases kept _ _ _ before with after | ⟨rfl, _⟩
    · exact .answered after
    · exact .answered there

/-- Nodes go offline while all are quiet. -/
theorem Cell.Sound.leave (sound : c.Sound hash good target) (quiet : c.Quiet hash)
    {next : Cell N α η} (online : ∀ node, next.online node → c.online node)
    (held : next.held = c.held)
    (seen : ∀ node, next.online node → next.seen node = c.seen node)
    (waits : ∀ sender node item, ¬ next.waits sender node item) :
    next.Sound hash good target := by
  have never {sender other : N} {item : Item η} {p : Prop} (there : next.waits sender other item) :
      p := (waits _ _ _ there).elim
  refine ⟨fun node value => held ▸ sound.values node value, never, fun {node} on unseen => ?_, never,
    never, never, never, fun {node} on => Or.inl ?_⟩
  · rw [seen node on, held] at unseen
    exact absurd (quiet.seen node (online node on)) unseen
  · rw [held, sound.held_of_quiet quiet (online node on)]

variable [DecidableEq N]

theorem Cell.Sound.scan (sound : c.Sound hash good target) {node : N}
    {waits : N → N → Item η → Prop} (online : c.online node)
    (sent : ∀ sender other item, waits sender other item ↔ c.waits sender other item ∨
      (sender = node ∧ c.online other ∧ other ≠ node ∧
        c.seen node ≠ (c.held node).map hash ∧ item = .notice ((c.held node).map hash))) :
    Cell.Sound hash good target { c with
      seen := Function.update c.seen node ((c.held node).map hash)
      waits } := by
  have kept {sender other : N} {item : Item η} (before : c.waits sender other item) :
      waits sender other item := (sent ..).mpr (Or.inl before)
  have old {sender other : N} {item : Item η} (after : waits sender other item)
      (other_kind : ∀ digest, item ≠ .notice digest) : c.waits sender other item :=
    ((sent ..).mp after).resolve_right fun new => other_kind _ new.2.2.2.2
  refine ⟨sound.values, fun after => ?_, fun {other} on unseen => ?_, fun after => ?_,
    fun after => sound.announced (old after (by simp)),
    fun after => sound.unanswered (old after (by simp)),
    fun after => sound.response (old after (by simp)), fun {other} on => ?_⟩
  · rcases (sent ..).mp after with before | ⟨rfl, on, differ, _⟩
    · exact sound.apart before
    · exact ⟨online, on, differ.symm⟩
  · by_cases same : other = node
    · subst same
      exact absurd (Function.update_self ..) unseen
    · refine sound.fresh on ?_
      rwa [← Function.update_of_ne same ((c.held node).map hash) c.seen]
  · rcases (sent ..).mp after with before | ⟨rfl, _, _, unseen, item⟩
    · exact sound.told before
    · cases item
      have held := sound.fresh online unseen
      exact ⟨held, by rw [held]⟩
  · refine (sound.served on).imp_right fun served => ?_
    cases served with
    | notified before => exact .notified (kept before)
    | @unnoticed sender on' differ held unseen =>
      by_cases same : sender = node
      · subst same
        rw [← held] at unseen
        exact .notified ((sent ..).mpr (Or.inr ⟨rfl, on, differ.symm, unseen, rfl⟩))
      · refine .unnoticed on' differ held ?_
        simp only [Function.update_of_ne same]
        exact unseen
    | announced before shown => exact .announced (kept before) shown
    | unanswered before => exact .unanswered (kept before)
    | answered before => exact .answered (kept before)

theorem Cell.Sound.drain (sound : c.Sound hash good target) {node : N} (shows : c.Shows node) :
    Cell.Sound hash good target { c with
      shown := Function.update c.shown node (c.seen node) } := by
  -- What a node shows changes only to the digest of the value, which it then holds.
  have shown {first second : N} {item : Item η} (waits : c.waits first second item) :
      Function.update c.shown node (c.seen node) second = c.shown second ∨
        (c.held second = target ∧
          Function.update c.shown node (c.seen node) second = target.map hash) := by
    by_cases same : second = node
    · subst same
      rw [Function.update_self]
      obtain ⟨online, _, differ⟩ := sound.apart waits
      by_cases stale : c.shown second = c.seen second
      · exact Or.inl stale.symm
      · exact Or.inr (sound.of_shows shows online differ stale)
    · exact Or.inl (Function.update_of_ne same ..)
  refine ⟨sound.values, sound.apart, sound.fresh, sound.told, fun waits => ?_, fun waits => ?_,
    sound.response, fun online => ?_⟩
  · obtain ⟨present, announced⟩ := sound.announced waits
    refine ⟨present, announced.imp_right fun visible => ?_⟩
    rcases shown waits with same | ⟨_, new⟩
    · dsimp only
      rwa [same]
    · dsimp only
      simpa [new] using present
  · obtain ⟨visible, stale⟩ := sound.unanswered waits
    rcases shown waits with same | ⟨holds, new⟩
    · simp only [same]
      exact ⟨visible, stale⟩
    · exact ⟨fun _ => ⟨holds, new⟩, fun newcomer => ⟨(stale newcomer).1, new⟩⟩
  · rcases sound.served online with held | served
    · exact Or.inl held
    · cases served with
      | notified waits => exact Or.inr (.notified waits)
      | unnoticed other differ held unseen => exact Or.inr (.unnoticed other differ held unseen)
      | announced waits visible =>
        rcases shown waits with same | ⟨holds, _⟩
        · exact Or.inr (.announced waits (same.trans visible))
        · exact Or.inl holds
      | unanswered waits => exact Or.inr (.unanswered waits)
      | answered waits => exact Or.inr (.answered waits)

theorem Cell.Sound.receive (sound : c.Sound hash good target)
    (tells : ∀ value held, good value → good held → passes held (hash value) = true → held = value)
    {sender node : N} {digest : Option η} {waits : N → N → Item η → Prop}
    (notice : c.waits sender node (.notice digest))
    (came : ∀ first second item, waits first second item → c.waits first second item)
    (kept : ∀ first second item, c.waits first second item → waits first second item ∨
      (first = sender ∧ second = node ∧ item = .notice digest)) :
    Cell.Sound hash good target { c with
      held := Function.update c.held node
        (EchoCell.receive passes (c.held node) (c.held sender) digest)
      waits } := by
  have received := sound.receive_eq tells notice
  have self : Function.update c.held node target node = target := Function.update_self ..
  have holds {other : N} (before : c.held other = target) :
      Function.update c.held node target other = target := by
    by_cases same : other = node
    · rw [same, self]
    · rw [Function.update_of_ne same, before]
  have stale {other : N} (after : Function.update c.held node target other ≠ target) :
      c.held other ≠ target := fun before => after (holds before)
  rw [received]
  refine ⟨fun other value held => ?_, fun after => sound.apart (came _ _ _ after),
    fun {other} on unseen => ?_,
    fun after => (sound.told (came _ _ _ after)).imp_left holds,
    fun after => (sound.announced (came _ _ _ after)).imp_right
      (Or.imp_left (And.imp_left holds)),
    fun after => (sound.unanswered (came _ _ _ after)).imp
      (fun visible shown => (visible shown).imp_left holds) (fun missing away => missing (stale away)),
    fun after => (sound.response (came _ _ _ after)).imp
      (fun present digest => (present digest).imp_left holds)
      (fun missing away => missing (stale away)), fun {other} on => ?_⟩
  · dsimp only at held
    by_cases same : other = node
    · subst same
      rw [self, ← (sound.told notice).1] at held
      exact sound.values sender value held
    · rw [Function.update_of_ne same] at held
      exact sound.values other value held
  · by_cases same : other = node
    · rw [same]
      exact self
    · simp only [Function.update_of_ne same] at unseen ⊢
      exact sound.fresh on unseen
  · rcases sound.served on with held | served
    · exact Or.inl (holds held)
    · cases served with
      | notified before =>
        rcases kept _ _ _ before with after | ⟨_, rfl, _⟩
        · exact Or.inr (.notified after)
        · exact Or.inl self
      | unnoticed on' differ held unseen => exact Or.inr (.unnoticed on' differ (holds held) unseen)
      | announced before visible =>
        rcases kept _ _ _ before with after | ⟨_, rfl, _⟩
        · exact Or.inr (.announced after visible)
        · exact Or.inl self
      | unanswered before =>
        rcases kept _ _ _ before with after | ⟨_, _, item⟩
        · exact Or.inr (.unanswered after)
        · cases item
      | answered before =>
        rcases kept _ _ _ before with after | ⟨_, rfl, _⟩
        · exact Or.inr (.answered after)
        · exact Or.inl self

theorem Step.sound {next : Cell N α η} (step : Step hash passes c next)
    (sound : c.Sound hash good target)
    (injective : ∀ value other, good value → good other → hash value = hash other → value = other)
    (tells : ∀ value held, good value → good held → passes held (hash value) = true →
      held = value) : next.Sound hash good target := by
  cases step with
  | scan online sent => exact sound.scan online sent
  | drain shows => exact sound.drain shows
  | receive notice came kept => exact sound.receive tells notice came kept
  | answer unanswered response came kept => exact sound.answer unanswered response came kept
  | compare announced asked came kept => exact sound.compare announced asked came kept
  | compareResponse response shows asked came kept =>
    exact sound.compareResponse injective response shows asked came kept
  | overwrite there came kept => exact sound.overwrite there came kept

/-! ## Writes, arrivals and departures -/

/-- A node writes a value where it is calm. -/
theorem Cell.Sound.write (sound : c.Sound hash good target)
    (injective : ∀ value other, good value → good other → hash value = hash other → value = other)
    {node : N} {value : Option α} (online : c.online node) (calm : c.Calm hash node)
    (new : ∀ bytes, value = some bytes → good bytes) :
    Cell.Sound hash good value { c with held := Function.update c.held node value } := by
  have never {sender other : N} {item : Item η} {p : Prop} (waits : c.waits sender other item) :
      p := (calm.idle _ _ _ waits).elim
  refine ⟨fun other bytes held => ?_, never, fun {other} on unseen => ?_, never, never, never, never,
    fun {other} on => ?_⟩
  · dsimp only at held
    by_cases same : other = node
    · subst same
      rw [Function.update_self] at held
      exact new bytes held
    · rw [Function.update_of_ne same] at held
      exact sound.values other bytes held
  · by_cases same : other = node
    · rw [same]
      exact Function.update_self ..
    · simp only [Function.update_of_ne same] at unseen
      exact absurd (calm.held other on same).symm unseen
  · by_cases same : other = node
    · exact Or.inl (same ▸ Function.update_self ..)
    · by_cases changes : c.seen node = value.map hash
      · -- The others hold what was seen, which is the value again.
        left
        have equal : (c.held other).map hash = value.map hash := by
          rw [calm.held other on same, calm.seen other on, changes]
        simp only [Function.update_of_ne same]
        cases mine : c.held other with
        | none =>
          rw [mine] at equal
          exact (Option.map_eq_none_iff.mp equal.symm).symm
        | some bytes =>
          rw [mine, Option.map_some] at equal
          obtain ⟨written, rfl, digests⟩ := Option.map_eq_some_iff.mp equal.symm
          rw [injective bytes written (sound.values other bytes mine) (new written rfl)
            digests.symm]
      · refine Or.inr (.unnoticed online (Ne.symm same) (Function.update_self ..) changes)

/-- What a node holds while it is offline does not matter. -/
theorem Cell.Sound.edit (sound : c.Sound hash good target) {node : N} {value : Option α}
    (offline : ¬ c.online node) (new : ∀ bytes, value = some bytes → good bytes) :
    Cell.Sound hash good target { c with held := Function.update c.held node value } := by
  have same {other : N} (online : c.online other) :
      Function.update c.held node value other = c.held other := by
    refine Function.update_of_ne ?_ ..
    rintro rfl
    exact offline online
  refine ⟨fun other bytes held => ?_, sound.apart, fun {other} on => ?_, fun {sender _ _} waits => ?_,
    fun {sender _ _} waits => ?_, fun {sender other} waits => ?_, fun {sender other _} waits => ?_,
    fun {other} on => ?_⟩
  · dsimp only at held
    by_cases edited : other = node
    · subst edited
      rw [Function.update_self] at held
      exact new bytes held
    · rw [Function.update_of_ne edited] at held
      exact sound.values other bytes held
  · simp only [same on]
    exact sound.fresh on
  · simp only [same (sound.apart waits).1]
    exact sound.told waits
  · simp only [same (sound.apart waits).1]
    exact sound.announced waits
  · simp only [same (sound.apart waits).1, same (sound.apart waits).2.1]
    exact sound.unanswered waits
  · simp only [same (sound.apart waits).1, same (sound.apart waits).2.1]
    exact sound.response waits
  · simp only [same on]
    refine (sound.served on).imp_right fun served => ?_
    cases served with
    | notified waits => exact .notified waits
    | unnoticed online differ held unseen =>
      exact .unnoticed online differ ((same online).trans held) unseen
    | announced waits shown => exact .announced waits shown
    | unanswered waits => exact .unanswered waits
    | answered waits => exact .answered waits

/-- A node comes online while the others are quiet, and tells them its digest. What they hold
    counts, or else what it holds. -/
theorem Cell.Sound.arrive (sound : c.Sound hash good target) (quiet : c.Quiet hash) {node : N}
    {next : Cell N α η} (offline : ¬ c.online node) (merged : Option α)
    (first : (∀ other, ¬ c.online other) → merged = c.held node)
    (joins : ∀ other, c.online other → merged = target.or (c.held node))
    (online : ∀ other, next.online other ↔ other = node ∨ c.online other)
    (held : next.held = c.held)
    (seen : next.seen = Function.update c.seen node ((c.held node).map hash))
    (shown : next.shown = Function.update c.shown node ((c.held node).map hash))
    (waits : ∀ sender other item, next.waits sender other item ↔
      sender = node ∧ c.online other ∧
        (item = .announced ((c.held node).map hash) ∨ item = .unanswered)) :
    next.Sound hash good merged := by
  have others {other : N} (on : c.online other) : other ≠ node := by
    rintro rfl
    exact offline on
  have holds {other : N} (on : c.online other) : c.held other = target :=
    sound.held_of_quiet quiet on
  have shows {other : N} (on : c.online other) : next.shown other = target.map hash := by
    rw [shown, Function.update_of_ne (others on), quiet.shown other on, holds on]
  refine ⟨fun other value => held ▸ sound.values other value, fun after => ?_, fun {other} on unseen => ?_,
    fun after => ?_, fun after => ?_, fun after => ?_, fun after => ?_, fun {other} on => ?_⟩
  · obtain ⟨rfl, on, _⟩ := (waits ..).mp after
    exact ⟨(online _).mpr (Or.inl rfl), (online _).mpr (Or.inr on), (others on).symm⟩
  · refine absurd ?_ unseen
    rw [seen, held]
    rcases (online _).mp on with rfl | on
    · exact Function.update_self ..
    · rw [Function.update_of_ne (others on), quiet.seen other on]
  · obtain ⟨_, _, item | item⟩ := (waits ..).mp after <;> cases item
  · obtain ⟨rfl, on, item | item⟩ := (waits ..).mp after
    · injection item with digest
      obtain ⟨value, mine, rfl⟩ := Option.map_eq_some_iff.mp digest.symm
      rw [joins _ on, shows on, held]
      cases target with
      | none => exact ⟨by simp [mine], Or.inl ⟨rfl, by simp [mine]⟩⟩
      | some other => exact ⟨by simp, Or.inr (by simp)⟩
    · cases item
  · obtain ⟨rfl, on, item | item⟩ := (waits ..).mp after
    · cases item
    · rw [joins _ on, shows on, held, holds on]
      cases target with
      | none => exact ⟨fun present => absurd rfl present, fun stale => absurd rfl stale⟩
      | some value => exact ⟨fun _ => ⟨rfl, rfl⟩, fun _ => ⟨by simp, rfl⟩⟩
  · obtain ⟨_, _, item | item⟩ := (waits ..).mp after <;> cases item
  · rw [held]
    rcases (online _).mp on with rfl | on
    · by_cases alone : ∀ other, ¬ c.online other
      · exact Or.inl (first alone).symm
      · obtain ⟨there, on⟩ := not_forall_not.mp alone
        exact Or.inr (.unanswered ((waits _ there _).mpr ⟨rfl, on, Or.inr rfl⟩))
    · rw [joins _ on, holds on]
      cases target with
      | some value => exact Or.inl rfl
      | none =>
        cases mine : c.held node with
        | none => exact Or.inl rfl
        | some value =>
          have told : next.waits node other (.announced (some (hash value))) :=
            (waits ..).mpr ⟨rfl, on, Or.inl (by rw [mine, Option.map_some])⟩
          refine Or.inr (.announced told ?_)
          rw [shows on, Option.map_none]

end

end Gossip
