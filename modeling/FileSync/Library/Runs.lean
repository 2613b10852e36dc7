import Mathlib.Tactic.Common

/-!
# Runs of a transition system

A system is a partial step function: `step action s` is the state after `action`, or `none`
where the action is not enabled in `s`. A run is a list of actions taken one after the
other. A guard on the state before each action singles out the runs that meet a condition;
an unguarded run has the guard `anyStep`.
-/

namespace TransitionSystem

universe u v w

variable {σ : Type u} {α : Type v}

/-- The guard that every step meets. -/
def anyStep : σ → α → Prop := fun _ _ => True

/-- `Run step ok s actions t`: the actions lead from `s` to `t`, each of them enabled and
    taken in a state in which `ok` allows it. -/
inductive Run (step : α → σ → Option σ) (ok : σ → α → Prop) : σ → List α → σ → Prop where
  | nil (s : σ) : Run step ok s [] s
  | cons {s next t : σ} {action : α} {actions : List α} :
      ok s action → step action s = some next → Run step ok next actions t →
      Run step ok s (action :: actions) t

/-- `t` can be reached from `s` by some run. -/
def Reaches (step : α → σ → Option σ) (s t : σ) : Prop :=
  ∃ actions, Run step anyStep s actions t

/-- The actions of a list taken in order. -/
def exec (step : α → σ → Option σ) : List α → σ → Option σ
  | [], s => some s
  | action :: actions, s => (step action s).bind (exec step actions)

variable {step : α → σ → Option σ} {ok : σ → α → Prop}

/-- What holds at the start of a run and is preserved by each allowed step holds at its
    end. -/
theorem Run.invariant {inv : σ → Prop}
    (preserved : ∀ s action next, inv s → ok s action → step action s = some next → inv next)
    {s t : σ} {actions : List α} (run : Run step ok s actions t) (start : inv s) : inv t := by
  induction run with
  | nil => exact start
  | cons allowed taken _ ih => exact ih (preserved _ _ _ start allowed taken)

theorem Run.mono {ok' : σ → α → Prop} (weaker : ∀ s action, ok s action → ok' s action)
    {s t : σ} {actions : List α} (run : Run step ok s actions t) :
    Run step ok' s actions t := by
  induction run with
  | nil => exact .nil _
  | cons allowed taken _ ih => exact .cons (weaker _ _ allowed) taken ih

/-- A run of actions that the guard always allows meets the guard. -/
theorem Run.allow {s t : σ} {actions : List α} (run : Run step anyStep s actions t)
    (free : ∀ s, ∀ action ∈ actions, ok s action) : Run step ok s actions t := by
  induction run with
  | nil => exact .nil _
  | cons _ taken _ ih =>
    apply Run.cons (free _ _ (List.mem_cons_self ..)) taken
    exact ih fun s action member => free s action (List.mem_cons_of_mem _ member)

theorem Run.append {s t u : σ} {first second : List α} (run : Run step ok s first t)
    (rest : Run step ok t second u) : Run step ok s (first ++ second) u := by
  induction run with
  | nil => exact rest
  | cons allowed taken _ ih => exact .cons allowed taken (ih rest)

/-- A run of an appended list passes through the state between the two parts. -/
theorem Run.split {u : σ} {second : List α} :
    ∀ {first : List α} {s : σ}, Run step ok s (first ++ second) u →
      ∃ t, Run step ok s first t ∧ Run step ok t second u
  | [], s, run => ⟨s, .nil s, run⟩
  | _ :: _, _, .cons allowed taken rest =>
    let ⟨t, before, after⟩ := rest.split
    ⟨t, .cons allowed taken before, after⟩

/-- A run takes each of its actions in a state that it gets to by the ones before. -/
theorem Run.around {s u : σ} {before after : List α} {action : α}
    (run : Run step ok s (before ++ action :: after) u) :
    ∃ t next, Run step ok s before t ∧ ok t action ∧ step action t = some next ∧
      Run step ok next after u := by
  obtain ⟨t, earlier, later⟩ := run.split
  cases later with
  | cons allowed taken rest => exact ⟨t, _, earlier, allowed, taken, rest⟩

/-- The actions of a run determine where it ends. -/
theorem Run.unique {ok' : σ → α → Prop} {s t t' : σ} {actions : List α}
    (run : Run step ok s actions t) : Run step ok' s actions t' → t' = t := by
  induction run with
  | nil =>
    intro other
    cases other
    rfl
  | cons _ taken _ ih =>
    intro other
    cases other with
    | cons _ same rest =>
      cases same.symm.trans taken
      exact ih rest

theorem Run.one {s t : σ} {action : α} (allowed : ok s action)
    (taken : step action s = some t) : Run step ok s [action] t :=
  .cons allowed taken (.nil t)

theorem Run.of_exec : ∀ {actions : List α} {s t : σ}, exec step actions s = some t →
    Run step anyStep s actions t
  | [], s, t, h => by
    cases h
    exact .nil s
  | action :: actions, s, t, h => by
    obtain ⟨next, taken, rest⟩ := Option.bind_eq_some_iff.mp h
    exact .cons trivial taken (Run.of_exec rest)

/-- Where the second system does on images what the first one does, their runs are the images of
    the runs of the first one. -/
theorem Run.image_iff {τ : Type w} {image : σ → τ} {imageStep : α → τ → Option τ}
    {allows : τ → α → Prop} {inv : σ → Prop}
    (commutes : ∀ s action, inv s → allows (image s) action →
      imageStep action (image s) = (step action s).map image)
    (preserved : ∀ s action next, inv s → allows (image s) action → step action s = some next →
      inv next) {s : σ} (start : inv s) {actions : List α} {t : τ} :
    Run imageStep allows (image s) actions t ↔
      ∃ u, Run step (fun s => allows (image s)) s actions u ∧ image u = t := by
  constructor
  · intro run
    induction actions generalizing s with
    | nil =>
      cases run
      exact ⟨s, .nil s, rfl⟩
    | cons action actions ih =>
      cases run with
      | cons allowed taken rest =>
        rw [commutes s action start allowed] at taken
        obtain ⟨next, moved, rfl⟩ := Option.map_eq_some_iff.mp taken
        obtain ⟨u, later, same⟩ := ih (preserved s action next start allowed moved) rest
        exact ⟨u, .cons allowed moved later, same⟩
  · intro found
    obtain ⟨u, run, rfl⟩ := found
    induction run with
    | nil => exact .nil _
    | cons allowed taken _ ih =>
      apply Run.cons allowed
      · rw [commutes _ _ start allowed, taken]
        rfl
      · exact ih (preserved _ _ _ start allowed taken)

theorem Reaches.refl (s : σ) : Reaches step s s := ⟨[], .nil s⟩

theorem Reaches.trans {s t u : σ} (first : Reaches step s t) (second : Reaches step t u) :
    Reaches step s u := by
  obtain ⟨as, before⟩ := first
  obtain ⟨bs, after⟩ := second
  exact ⟨as ++ bs, before.append after⟩

theorem Reaches.head {s next t : σ} {action : α} (taken : step action s = some next)
    (rest : Reaches step next t) : Reaches step s t := by
  obtain ⟨actions, run⟩ := rest
  exact ⟨action :: actions, .cons trivial taken run⟩

theorem Run.reaches {s t : σ} {actions : List α} (run : Run step ok s actions t) :
    Reaches step s t :=
  ⟨actions, run.mono fun _ _ _ => trivial⟩

theorem Reaches.of_exec {actions : List α} {s t : σ} (h : exec step actions s = some t) :
    Reaches step s t :=
  ⟨actions, .of_exec h⟩

theorem Reaches.invariant {inv : σ → Prop}
    (preserved : ∀ s action next, inv s → step action s = some next → inv next) {s t : σ}
    (reaches : Reaches step s t) (start : inv s) : inv t := by
  obtain ⟨actions, run⟩ := reaches
  exact run.invariant (fun s action next h _ taken => preserved s action next h taken) start

/-- If every state of `inv` short of the goal has an allowed step that stays in `inv` and
    lowers the measure, an allowed run leads to the goal. -/
theorem run_to_goal (measure : σ → Nat) {inv goal : σ → Prop}
    (progress : ∀ s, inv s → ¬ goal s →
      ∃ action next, ok s action ∧ step action s = some next ∧ inv next ∧
        measure next < measure s) :
    ∀ s, inv s → ∃ actions t, Run step ok s actions t ∧ goal t := by
  intro s
  induction hm : measure s using Nat.strongRecOn generalizing s with
  | _ m ih =>
    intro start
    by_cases done : goal s
    · exact ⟨[], s, .nil s, done⟩
    · obtain ⟨action, next, allowed, taken, stays, less⟩ := progress s start done
      obtain ⟨actions, t, rest, reached⟩ := ih (measure next) (hm ▸ less) next rfl stays
      exact ⟨action :: actions, t, .cons allowed taken rest, reached⟩

theorem reaches_goal (measure : σ → Nat) {inv goal : σ → Prop}
    (progress : ∀ s, inv s → ¬ goal s →
      ∃ action next, step action s = some next ∧ inv next ∧ measure next < measure s)
    (s : σ) (start : inv s) : ∃ t, Reaches step s t ∧ goal t := by
  obtain ⟨actions, t, run, reached⟩ :=
    run_to_goal measure (fun s inside short => by
      obtain ⟨action, next, taken, stays, less⟩ := progress s inside short
      exact ⟨action, next, trivial, taken, stays, less⟩) s start
  exact ⟨t, ⟨actions, run⟩, reached⟩

end TransitionSystem
