import Mathlib.Tactic.Common

/-!
# Erasing from a vector while walking it by index

A loop that erases the element at its index and then advances the index steps over the
element that moved into the gap. What is left is not the filtered list in general: of a run of
neighbouring elements to erase, every other one stays.
-/

namespace EraseWalk

universe u

variable {α : Type u}

/-- The walk from an index on. -/
def walk (erases : α → Bool) (i : Nat) (items : List α) : List α :=
  if h : i < items.length then
    if erases items[i] then walk erases (i + 1) (items.eraseIdx i)
    else walk erases (i + 1) items
  else items
termination_by items.length - i
decreasing_by
  · rw [List.length_eraseIdx_of_lt h]
    omega
  · omega

/-- What the walk leaves: after an erased element the next one stays unseen. -/
def survivors (erases : α → Bool) : List α → List α
  | [] => []
  | [item] => if erases item then [] else [item]
  | item :: next :: rest =>
    if erases item then next :: survivors erases rest
    else item :: survivors erases (next :: rest)

theorem eraseIdx_length (before : List α) (item : α) (after : List α) :
    (before ++ item :: after).eraseIdx before.length = before ++ after := by
  rw [List.eraseIdx_append_of_length_le (Nat.le_refl _), Nat.sub_self, List.eraseIdx_cons_zero]

theorem walk_append (erases : α → Bool) (after : List α) : ∀ before : List α,
    walk erases before.length (before ++ after) = before ++ survivors erases after := by
  induction after using survivors.induct erases with
  | case1 =>
    intro before
    rw [walk]
    simp [survivors]
  | case2 item erased =>
    intro before
    rw [walk, dif_pos (by simp)]
    simp only [List.getElem_append_right (Nat.le_refl _), Nat.sub_self, List.getElem_cons_zero,
      erased, if_true, eraseIdx_length, survivors]
    rw [walk, dif_neg (by simp)]
  | case3 item kept =>
    intro before
    rw [walk, dif_pos (by simp)]
    simp only [List.getElem_append_right (Nat.le_refl _), Nat.sub_self, List.getElem_cons_zero,
      kept, Bool.false_eq_true, if_false, survivors]
    rw [walk, dif_neg (by simp)]
  | case4 item next rest erased ih =>
    intro before
    rw [walk, dif_pos (by simp)]
    simp only [List.getElem_append_right (Nat.le_refl _), Nat.sub_self, List.getElem_cons_zero,
      erased, if_true, eraseIdx_length, survivors]
    have skipped := ih (before ++ [next])
    simpa only [List.length_append, List.length_singleton, List.append_assoc,
      List.singleton_append] using skipped
  | case5 item next rest kept ih =>
    intro before
    rw [walk, dif_pos (by simp)]
    simp only [List.getElem_append_right (Nat.le_refl _), Nat.sub_self, List.getElem_cons_zero,
      kept, Bool.false_eq_true, if_false, survivors]
    have advanced := ih (before ++ [item])
    simpa only [List.length_append, List.length_singleton, List.append_assoc,
      List.singleton_append] using advanced

/-- The whole walk. -/
theorem walk_zero (erases : α → Bool) (items : List α) :
    walk erases 0 items = survivors erases items :=
  walk_append erases items []

/-- The walk adds nothing and keeps the order. -/
theorem survivors_sublist (erases : α → Bool) (items : List α) :
    (survivors erases items).Sublist items := by
  induction items using survivors.induct erases with
  | case1 => exact .slnil
  | case2 item erased =>
    rw [survivors, if_pos erased]
    exact List.nil_sublist _
  | case3 item kept =>
    simp only [survivors, if_neg kept, List.Sublist.refl]
  | case4 item next rest erased ih =>
    rw [survivors, if_pos erased]
    exact .cons _ (.cons_cons _ ih)
  | case5 item next rest kept ih =>
    rw [survivors, if_neg kept]
    exact .cons_cons _ ih

theorem survivors_of_none {erases : α → Bool} {items : List α}
    (none : ∀ item ∈ items, ¬ erases item = true) : survivors erases items = items := by
  induction items using survivors.induct erases with
  | case1 => rfl
  | case2 item erased => exact absurd erased (none item (by simp))
  | case3 item kept => rw [survivors, if_neg kept]
  | case4 item next rest erased ih => exact absurd erased (none item (by simp))
  | case5 item next rest kept ih =>
    rw [survivors, if_neg kept, ih fun other member => none other (List.mem_cons_of_mem _ member)]

/-- Neighbours of which at most one is to be erased. -/
def NoPair (erases : α → Bool) (first second : α) : Prop :=
  ¬ (erases first = true ∧ erases second = true)

theorem isChain_tail_iff {erases : α → Bool} {item : α} (kept : ¬ erases item = true)
    (items : List α) :
    (item :: items).IsChain (NoPair erases) ↔ items.IsChain (NoPair erases) := by
  cases items with
  | nil => simp
  | cons next rest =>
    rw [List.isChain_cons_cons]
    exact and_iff_right fun both => kept both.1

/-- Nothing to be erased is left exactly when no two neighbours are to be erased. -/
theorem survivors_clean_iff (erases : α → Bool) (items : List α) :
    (∀ item ∈ survivors erases items, ¬ erases item = true) ↔
      items.IsChain (NoPair erases) := by
  induction items using survivors.induct erases with
  | case1 => simp [survivors]
  | case2 item erased => simp [survivors, erased]
  | case3 item kept => simp [survivors, kept]
  | case4 item next rest erased ih =>
    rw [survivors, if_pos erased, List.forall_mem_cons, ih, List.isChain_cons_cons]
    constructor
    · rintro ⟨kept, chain⟩
      exact ⟨fun both => kept both.2, (isChain_tail_iff kept rest).mpr chain⟩
    · rintro ⟨pair, chain⟩
      have kept : ¬ erases next = true := fun also => pair ⟨erased, also⟩
      exact ⟨kept, (isChain_tail_iff kept rest).mp chain⟩
  | case5 item next rest kept ih =>
    rw [survivors, if_neg kept, List.forall_mem_cons, ih, isChain_tail_iff kept]
    exact and_iff_right kept

theorem survivors_eq_filter {erases : α → Bool} {items : List α}
    (chain : items.IsChain (NoPair erases)) :
    survivors erases items = items.filter fun item => !erases item := by
  induction items using survivors.induct erases with
  | case1 => rfl
  | case2 item erased => simp [survivors, erased]
  | case3 item kept => simp [survivors, kept]
  | case4 item next rest erased ih =>
    obtain ⟨pair, chain⟩ := List.isChain_cons_cons.mp chain
    have kept : ¬ erases next = true := fun also => pair ⟨erased, also⟩
    have keeps : erases next = false := Bool.eq_false_iff.mpr kept
    rw [survivors, if_pos erased, ih ((isChain_tail_iff kept rest).mp chain)]
    simp [erased, keeps]
  | case5 item next rest kept ih =>
    have keeps : erases item = false := Bool.eq_false_iff.mpr kept
    rw [survivors, if_neg kept, ih ((isChain_tail_iff kept _).mp chain)]
    simp [List.filter_cons, keeps]

/-- The walk filters exactly the lists without two neighbours to be erased. -/
theorem survivors_eq_filter_iff (erases : α → Bool) (items : List α) :
    (survivors erases items = items.filter fun item => !erases item) ↔
      items.IsChain (NoPair erases) := by
  refine ⟨fun same => ?_, survivors_eq_filter⟩
  rw [← survivors_clean_iff, same]
  intro item member
  simpa using (List.mem_filter.mp member).2

/-- In a list in ascending order, neighbours are elements with nothing in between. -/
theorem isChain_iff_of_pairwise {lt rel : α → α → Prop} (asymm : ∀ a b, lt a b → ¬ lt b a)
    {items : List α} (sorted : items.Pairwise lt) :
    items.IsChain rel ↔ ∀ a ∈ items, ∀ b ∈ items, lt a b →
      (∀ c ∈ items, ¬ (lt a c ∧ lt c b)) → rel a b := by
  induction items with
  | nil => simp
  | cons first rest ih =>
    obtain ⟨least, sorted⟩ := List.pairwise_cons.mp sorted
    cases rest with
    | nil =>
      refine ⟨fun _ a ha b hb below => ?_, fun _ => by simp⟩
      rw [List.mem_singleton.mp ha, List.mem_singleton.mp hb] at below
      exact absurd below (asymm _ _ below)
    | cons second rest =>
      rw [List.isChain_cons_cons, ih sorted]
      constructor
      · rintro ⟨head, tail⟩ a ha b hb below between
        -- nothing is below the first element
        have hb' : b ∈ second :: rest := by
          refine (List.mem_cons.mp hb).resolve_left fun same => ?_
          rw [same] at below
          rcases List.mem_cons.mp ha with same | ha
          · rw [same] at below
            exact asymm _ _ below below
          · exact asymm _ _ below (least a ha)
        rcases List.mem_cons.mp ha with same | ha
        · rw [same] at between ⊢
          rcases List.mem_cons.mp hb' with same | later
          · rw [same]
            exact head
          · exact absurd ⟨least second (by simp), (List.pairwise_cons.mp sorted).1 b later⟩
              (between second (by simp))
        · exact tail a ha b hb' below fun c hc => between c (List.mem_cons_of_mem _ hc)
      · intro all
        constructor
        · apply all first (by simp) second (by simp) (least second (by simp))
          rintro c hc ⟨above, under⟩
          rcases List.mem_cons.mp hc with rfl | hc
          · exact asymm _ _ above above
          · rcases List.mem_cons.mp hc with rfl | hc
            · exact asymm _ _ under under
            · exact asymm _ _ under ((List.pairwise_cons.mp sorted).1 c hc)
        · intro a ha b hb below between
          apply all a (List.mem_cons_of_mem _ ha) b (List.mem_cons_of_mem _ hb) below
          intro c hc both
          rcases List.mem_cons.mp hc with rfl | hc
          · exact asymm _ _ both.1 (least a ha)
          · exact between c hc both

end EraseWalk
