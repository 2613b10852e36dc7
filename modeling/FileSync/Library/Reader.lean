import Mathlib.Tactic.Common

/-!
# Readers that consume a prefix

A reader is a state computation over some input buffer. `left` tells what a buffer still
has to offer, or `none` for a buffer that has become unreadable. `Yields` says that a reader
takes exactly the given symbols off the front of any readable buffer and what it returns;
its rules follow the way readers are put together, so that the correctness of a decoder
is assembled from that of its fields.
-/

namespace Reader

universe u

variable {σ β : Type u} {α γ : Type u} {left : σ → Option (List β)}

/-- The reader takes exactly `symbols` off the front of what is left and returns `value`. -/
def Yields (left : σ → Option (List β)) (reader : StateM σ α) (symbols : List β)
    (value : α) : Prop :=
  ∀ s rest, left s = some (symbols ++ rest) →
    ∃ s', reader s = (value, s') ∧ left s' = some rest

theorem Yields.pure (value : α) : Yields left (Pure.pure value) [] value :=
  fun s _ h => ⟨s, rfl, h⟩

theorem Yields.bind {reader : StateM σ α} {next : α → StateM σ γ} {first second : List β}
    {a : α} {c : γ} (before : Yields left reader first a)
    (after : Yields left (next a) second c) :
    Yields left (reader >>= next) (first ++ second) c := by
  intro s rest h
  obtain ⟨s₁, read₁, left₁⟩ := before s (second ++ rest) (by rw [h, List.append_assoc])
  obtain ⟨s₂, read₂, left₂⟩ := after s₁ rest left₁
  refine ⟨s₂, ?_, left₂⟩
  change next (reader s).1 (reader s).2 = (c, s₂)
  rw [read₁]
  exact read₂

theorem Yields.map {reader : StateM σ α} {symbols : List β} {a : α} (f : α → γ)
    (h : Yields left reader symbols a) : Yields left (f <$> reader) symbols (f a) := by
  intro s rest hleft
  obtain ⟨s', read, left'⟩ := h s rest hleft
  refine ⟨s', ?_, left'⟩
  change (f (reader s).1, (reader s).2) = (f a, s')
  rw [read]

/-- A value that is the last thing a reader returns after consuming everything. -/
theorem Yields.bind_pure {reader : StateM σ α} {symbols : List β} {a : α} {c : γ}
    {next : α → StateM σ γ} (before : Yields left reader symbols a)
    (after : Yields left (next a) [] c) : Yields left (reader >>= next) symbols c := by
  simpa only [List.append_nil] using before.bind after

/-- `reader` run `count` times, each time on what the round before returned. -/
def loop (reader : α → StateM σ α) : Nat → α → StateM σ α
  | 0, acc => Pure.pure acc
  | count + 1, acc => do
    let acc ← reader acc
    loop reader count acc

/-- The rule for loops: a round that reads the encoding of an item and adds it to the
    accumulator makes a loop that reads the encodings of a list and adds all of it. -/
theorem Yields.loop {ι : Type u} {reader : α → StateM σ α} {encode : ι → List β}
    {add : α → ι → α} {items : List ι}
    (round : ∀ acc, ∀ item ∈ items, Yields left (reader acc) (encode item) (add acc item)) :
    ∀ acc, Yields left (Reader.loop reader items.length acc) (items.flatMap encode)
      (items.foldl add acc) := by
  induction items with
  | nil => exact fun acc => Yields.pure acc
  | cons item items ih =>
    intro acc
    rw [List.flatMap_cons, List.foldl_cons]
    exact (round acc item (by simp)).bind
      (ih (fun acc other member => round acc other (List.mem_cons_of_mem _ member)) _)

/-! ## Parsers of complete inputs -/

/-- What a reader should find: a value and the rest, or nothing if the input ends too early. -/
abbrev Parser (β : Type u) := StateT (List β) Option

theorem parser_map_eq_some {parser : Parser β α} {f : α → γ} {input rest : List β} {value : γ} :
    (f <$> parser) input = some (value, rest) ↔
      ∃ a, parser input = some (a, rest) ∧ f a = value := by
  change ((parser input).bind fun result => some (f result.1, result.2)) = _ ↔ _
  cases parser input with
  | none => simp
  | some result =>
    obtain ⟨a, left⟩ := result
    constructor
    · intro same
      cases same
      exact ⟨a, rfl, rfl⟩
    · rintro ⟨b, same, rfl⟩
      cases same
      rfl

theorem parser_bind_eq_some {parser : Parser β α} {next : α → Parser β γ} {input rest : List β}
    {value : γ} : (parser >>= next) input = some (value, rest) ↔
      ∃ a middle, parser input = some (a, middle) ∧ next a middle = some (value, rest) := by
  change ((parser input).bind fun result => next result.1 result.2) = _ ↔ _
  cases parser input with
  | none => simp
  | some result =>
    obtain ⟨a, left⟩ := result
    constructor
    · exact fun found => ⟨a, left, rfl, found⟩
    · rintro ⟨b, middle, same, found⟩
      cases same
      exact found

/-- Where the parser finds a value, the reader returns it and consumes the same input. -/
def Follows (left : σ → Option (List β)) (reader : StateM σ α) (parser : Parser β α) : Prop :=
  ∀ s input value rest, left s = some input → parser input = some (value, rest) →
    ∃ s', reader s = (value, s') ∧ left s' = some rest

theorem Follows.pure (value : α) : Follows left (Pure.pure value) (Pure.pure value) := by
  intro s input found rest h parsed
  cases parsed
  exact ⟨s, rfl, h⟩

theorem Follows.bind {reader : StateM σ α} {parser : Parser β α} {next : α → StateM σ γ}
    {nextParser : α → Parser β γ} (before : Follows left reader parser)
    (after : ∀ value, Follows left (next value) (nextParser value)) :
    Follows left (reader >>= next) (parser >>= nextParser) := by
  intro s input value rest h parsed
  obtain ⟨a, middle, first, second⟩ := parser_bind_eq_some.mp parsed
  obtain ⟨s₁, read₁, left₁⟩ := before s input a middle h first
  obtain ⟨s₂, read₂, left₂⟩ := after a s₁ middle value rest left₁ second
  refine ⟨s₂, ?_, left₂⟩
  change next (reader s).1 (reader s).2 = (value, s₂)
  rw [read₁]
  exact read₂

theorem Follows.map {reader : StateM σ α} {parser : Parser β α} (f : α → γ)
    (h : Follows left reader parser) : Follows left (f <$> reader) (f <$> parser) := by
  intro s input value rest hleft parsed
  obtain ⟨a, found, rfl⟩ := parser_map_eq_some.mp parsed
  obtain ⟨s', read, left'⟩ := h s input a rest hleft found
  refine ⟨s', ?_, left'⟩
  change (f (reader s).1, (reader s).2) = (f a, s')
  rw [read]

/-- `parser` applied `count` times in a row. -/
def many (parser : Parser β α) : Nat → Parser β (List α)
  | 0 => Pure.pure []
  | count + 1 => do
    let item ← parser
    let items ← many parser count
    return item :: items

/-- The items that are complete, up to `count` of them and up to the first one that is not. -/
def completeItems (parser : Parser β α) : Nat → List β → List α
  | 0, _ => []
  | count + 1, input =>
    match parser input with
    | some (item, rest) => item :: completeItems parser count rest
    | none => []

/-- Where all items are complete, they are what the repeated parser finds. -/
theorem many_of_complete (parser : Parser β α) (count : Nat) : ∀ input,
    (completeItems parser count input).length = count →
    ∃ rest, many parser count input = some (completeItems parser count input, rest) := by
  induction count with
  | zero => exact fun input _ => ⟨input, rfl⟩
  | succ count ih =>
    intro input complete
    unfold completeItems at complete ⊢
    cases found : parser input with
    | none => simp [found] at complete
    | some result =>
      obtain ⟨item, middle⟩ := result
      simp only [found, List.length_cons, Nat.add_right_cancel_iff] at complete ⊢
      obtain ⟨rest, later⟩ := ih middle complete
      exact ⟨rest, parser_bind_eq_some.mpr ⟨item, middle, found,
        parser_bind_eq_some.mpr ⟨_, rest, later, rfl⟩⟩⟩

/-- The rule for loops whose rounds follow a parser. -/
theorem Follows.loop {ι : Type u} {round : α → StateM σ α} {parser : Parser β ι}
    {add : α → ι → α} (step : ∀ acc, Follows left (round acc) (add acc <$> parser))
    (count : Nat) : ∀ acc,
      Follows left (Reader.loop round count acc) (List.foldl add acc <$> many parser count) := by
  induction count with
  | zero =>
    intro acc s input value rest h parsed
    cases parsed
    exact ⟨s, rfl, h⟩
  | succ count ih =>
    intro acc s input value rest h parsed
    obtain ⟨items, found, rfl⟩ := parser_map_eq_some.mp parsed
    obtain ⟨item, middle, first, others⟩ := parser_bind_eq_some.mp found
    obtain ⟨later, last, second, both⟩ := parser_bind_eq_some.mp others
    cases both
    obtain ⟨s₁, read₁, left₁⟩ := step acc s input (add acc item) middle h
      (parser_map_eq_some.mpr ⟨item, first, rfl⟩)
    obtain ⟨s₂, read₂, left₂⟩ := ih (add acc item) s₁ middle (later.foldl add (add acc item))
      rest left₁ (parser_map_eq_some.mpr ⟨later, second, rfl⟩)
    refine ⟨s₂, ?_, left₂⟩
    change Reader.loop round count (round acc s).1 (round acc s).2 = _
    rw [read₁]
    exact read₂

/-- A loop runs its rounds whatever they read. -/
theorem loop_count {round : α → StateM σ α} (measure : α → Nat)
    (adds : ∀ acc s, measure (round acc s).1 = measure acc + 1) (count : Nat) :
    ∀ acc s, measure (Reader.loop round count acc s).1 = measure acc + count := by
  induction count with
  | zero => exact fun _ _ => rfl
  | succ count ih =>
    intro acc s
    change measure (Reader.loop round count (round acc s).1 (round acc s).2).1 = _
    rw [ih, adds]
    omega

/-- A loop on the images of its accumulators. -/
theorem loop_map (f : α → γ) {round : α → StateM σ α} {other : γ → StateM σ γ}
    (same : ∀ acc, other (f acc) = f <$> round acc) (count : Nat) :
    ∀ acc, Reader.loop other count (f acc) = f <$> Reader.loop round count acc := by
  induction count with
  | zero => exact fun _ => rfl
  | succ count ih =>
    intro acc
    funext s
    change Reader.loop other count (other (f acc) s).1 (other (f acc) s).2 = _
    rw [same]
    change Reader.loop other count (f (round acc s).1) (round acc s).2 = _
    rw [ih]
    rfl

/-! ## Readers that see only what is left -/

/-- The value that a parser finds, or an old one. Where it finds none, the input becomes
    unreadable. -/
def orKeep (old : α) (parser : Parser β α) : StateM (Option (List β)) α := fun input =>
  match input.bind parser with
  | some (value, rest) => (value, some rest)
  | none => (old, none)

theorem orKeep_bind_of_some {old value : α} {parser : Parser β α} {input rest : List β}
    (found : parser input = some (value, rest)) (next : α → StateM (Option (List β)) γ) :
    (orKeep old parser >>= next) (some input) = next value (some rest) := by
  have kept : orKeep old parser (some input) = (value, some rest) := by
    rw [orKeep, Option.bind_some, found]
  show next (orKeep old parser (some input)).1 (orKeep old parser (some input)).2 = _
  rw [kept]

theorem orKeep_bind_of_none {old : α} {parser : Parser β α} {input : List β}
    (missing : parser input = none) (next : α → StateM (Option (List β)) γ) :
    (orKeep old parser >>= next) (some input) = next old none := by
  have kept : orKeep old parser (some input) = (old, none) := by
    rw [orKeep, Option.bind_some, missing]
  show next (orKeep old parser (some input)).1 (orKeep old parser (some input)).2 = _
  rw [kept]

/-- The reader does to a buffer what the other one does to what the buffer has left. -/
def Sees (left : σ → Option (List β)) (reader : StateM σ α)
    (shadow : StateM (Option (List β)) α) : Prop :=
  ∀ s, (reader s).1 = (shadow (left s)).1 ∧ left (reader s).2 = (shadow (left s)).2

theorem Sees.pure (value : α) : Sees left (Pure.pure value) (Pure.pure value) :=
  fun _ => ⟨rfl, rfl⟩

theorem Sees.bind {reader : StateM σ α} {shadow : StateM (Option (List β)) α}
    {next : α → StateM σ γ} {nextShadow : α → StateM (Option (List β)) γ}
    (before : Sees left reader shadow)
    (after : ∀ value, Sees left (next value) (nextShadow value)) :
    Sees left (reader >>= next) (shadow >>= nextShadow) := by
  intro s
  obtain ⟨value, input⟩ := before s
  have rest := after (reader s).1 (reader s).2
  rw [value, input] at rest
  have ran : (reader >>= next) s = next (shadow (left s)).1 (reader s).2 := by
    rw [← value]
    rfl
  rw [ran]
  exact rest

/-! ## Conditions on the state that readers keep -/

/-- The reader leads from states with the property to such states. -/
def Keeps (property : σ → Prop) (reader : StateM σ α) : Prop :=
  ∀ s, property s → property (reader s).2

variable {property : σ → Prop}

theorem Keeps.pure (value : α) : Keeps property (Pure.pure value : StateM σ α) := fun _ h => h

theorem Keeps.bind {reader : StateM σ α} {next : α → StateM σ γ} (before : Keeps property reader)
    (after : ∀ value, Keeps property (next value)) : Keeps property (reader >>= next) :=
  fun s h => after _ _ (before s h)

theorem Keeps.map {reader : StateM σ α} (f : α → γ) (h : Keeps property reader) :
    Keeps property (f <$> reader) :=
  fun s held => h s held

theorem Keeps.loop {round : α → StateM σ α} (step : ∀ acc, Keeps property (round acc))
    (count : Nat) : ∀ acc, Keeps property (Reader.loop round count acc) := by
  induction count with
  | zero => exact fun acc => Keeps.pure acc
  | succ count ih => exact fun acc => (step acc).bind ih

end Reader
