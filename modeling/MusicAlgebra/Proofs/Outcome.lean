import Mathlib.Data.List.Forall2

/-!
# Outcomes

Interpretation ends with a result or with the first failure.  This module takes such outcomes apart:
what a composed outcome says about its stages, and what a traversal that succeeded says about each
of its steps.  Two interpretations are compared outcome by outcome: both fail, or both have results
that stand in a relation.
-/

namespace MusicAlgebra.Outcome

variable {ε α β σ : Type}

@[simp] theorem ok_bind (a : α) (next : α → Except ε β) :
    (Except.ok a >>= next) = next a := rfl

@[simp] theorem error_bind (failure : ε) (next : α → Except ε β) :
    (Except.error failure >>= next) = .error failure := rfl

@[simp] theorem map_ok (f : α → β) (a : α) :
    f <$> (.ok a : Except ε α) = .ok (f a) := rfl

@[simp] theorem map_error (f : α → β) (failure : ε) :
    f <$> (.error failure : Except ε α) = .error failure := rfl

/-- A composed outcome is a result only if both stages are. -/
theorem bind_eq_ok {outcome : Except ε α} {next : α → Except ε β} {result : β} :
    outcome >>= next = .ok result ↔ ∃ a, outcome = .ok a ∧ next a = .ok result := by
  cases outcome with
  | error failure => simp
  | ok a => simp

/-- A composed outcome is a failure if one of its stages is. -/
theorem bind_eq_error {outcome : Except ε α} {next : α → Except ε β} {failure : ε} :
    outcome >>= next = .error failure ↔
      outcome = .error failure ∨ ∃ a, outcome = .ok a ∧ next a = .error failure := by
  cases outcome with
  | error other => simp
  | ok a => simp

/-- Two outcomes are combined to a failure only if one of them is one. -/
theorem error_of_pair {first : Except ε α} {second : Except ε β} {combine : α → β → σ} {failure : ε}
    (failed : (do
      let a ← first
      let b ← second
      return combine a b) = .error failure) :
    first = .error failure ∨ second = .error failure := by
  obtain firstFailed | ⟨a, -, failed⟩ := bind_eq_error.1 failed
  · exact .inl firstFailed
  · obtain secondFailed | ⟨b, -, returned⟩ := bind_eq_error.1 failed
    · exact .inr secondFailed
    · cases returned

theorem map_eq_ok {outcome : Except ε α} {f : α → β} {result : β} :
    f <$> outcome = .ok result ↔ ∃ a, outcome = .ok a ∧ f a = result := by
  cases outcome with
  | error failure => simp
  | ok a => simp

theorem map_eq_error {outcome : Except ε α} {f : α → β} {failure : ε} :
    f <$> outcome = .error failure ↔ outcome = .error failure := by
  cases outcome with
  | error other => simp
  | ok a => simp

theorem mapError_eq_ok {ε' : Type} {outcome : Except ε α} {rename : ε → ε'} {result : α} :
    outcome.mapError rename = .ok result ↔ outcome = .ok result := by
  cases outcome with
  | error failure => simp [Except.mapError]
  | ok a => simp [Except.mapError]

theorem mapError_eq_error {ε' : Type} {outcome : Except ε α} {rename : ε → ε'} {failure : ε'} :
    outcome.mapError rename = .error failure ↔
      ∃ cause, outcome = .error cause ∧ rename cause = failure := by
  cases outcome with
  | error cause => simp [Except.mapError]
  | ok a => simp [Except.mapError]

theorem exists_of_isOk {outcome : Except ε α} (succeeded : outcome.isOk = true) :
    ∃ result, outcome = .ok result := by
  cases outcome with
  | error failure => cases succeeded
  | ok a => exact ⟨a, rfl⟩

theorem eq_ok_of_toOption {outcome : Except ε α} {result : α}
    (found : outcome.toOption = some result) : outcome = .ok result := by
  cases outcome with
  | error failure => cases found
  | ok a => rw [Option.some.inj found]

/-- Where every step commutes with a change of items and results, so does a traversal. -/
theorem mapM_map_of_step {f : α → Except ε β} {f' : α → Except ε β} {change : β → β}
    (step : ∀ item, f' item = change <$> f item) (items : List α) :
    items.mapM f' = List.map change <$> items.mapM f := by
  induction items with
  | nil => rfl
  | cons item items ih =>
      rw [List.mapM_cons, List.mapM_cons, ih, step]
      cases f item with
      | error failure => rfl
      | ok result => cases items.mapM f <;> rfl

/-- Where every step commutes with a change of states, so does a run. -/
theorem foldlM_map_of_step {step step' : σ → α → Except ε σ} {change : σ → σ} {items : List α}
    (commutes : ∀ before, ∀ item ∈ items,
      step' (change before) item = change <$> step before item) (start : σ) :
    items.foldlM step' (change start) = change <$> items.foldlM step start := by
  induction items generalizing start with
  | nil => rfl
  | cons item items ih =>
      have others := ih fun before other member =>
        commutes before other (List.mem_cons_of_mem item member)
      rw [List.foldlM_cons, List.foldlM_cons, commutes start item List.mem_cons_self]
      cases step start item with
      | error failure => rfl
      | ok next => exact others next

/-- Every result of a traversal is the result of one of its steps. -/
theorem exists_of_mem_mapM {f : α → Except ε β} {items : List α} {results : List β}
    (traversed : items.mapM f = .ok results) {result : β} (member : result ∈ results) :
    ∃ item ∈ items, f item = .ok result := by
  induction items generalizing results with
  | nil =>
      cases traversed
      cases member
  | cons item items ih =>
      rw [List.mapM_cons] at traversed
      obtain ⟨first, firstOk, traversed⟩ := bind_eq_ok.1 traversed
      obtain ⟨others, othersOk, traversed⟩ := bind_eq_ok.1 traversed
      cases traversed
      rcases List.mem_cons.1 member with rfl | member
      · exact ⟨item, List.mem_cons_self, firstOk⟩
      · obtain ⟨source, sourceMem, sourceOk⟩ := ih othersOk member
        exact ⟨source, List.mem_cons_of_mem item sourceMem, sourceOk⟩

/-- A traversal that fails has a step that fails. -/
theorem exists_of_mapM_error {f : α → Except ε β} {items : List α} {failure : ε}
    (failed : items.mapM f = .error failure) : ∃ item ∈ items, f item = .error failure := by
  induction items with
  | nil => cases failed
  | cons item items ih =>
      rw [List.mapM_cons] at failed
      rcases error_of_pair failed with here | later
      · exact ⟨item, List.mem_cons_self, here⟩
      · obtain ⟨source, sourceMem, sourceFailed⟩ := ih later
        exact ⟨source, List.mem_cons_of_mem item sourceMem, sourceFailed⟩

/-- A run that fails has a step that fails. -/
theorem exists_of_foldlM_error {step : σ → α → Except ε σ} {items : List α} {start : σ}
    {failure : ε} (failed : items.foldlM step start = .error failure) :
    ∃ before, ∃ item ∈ items, step before item = .error failure := by
  induction items generalizing start with
  | nil => cases failed
  | cons item items ih =>
      rw [List.foldlM_cons] at failed
      rcases bind_eq_error.1 failed with here | ⟨next, -, failed⟩
      · exact ⟨start, item, List.mem_cons_self, here⟩
      · obtain ⟨before, source, sourceMem, sourceFailed⟩ := ih failed
        exact ⟨before, source, List.mem_cons_of_mem item sourceMem, sourceFailed⟩

/-- A traversal fails if one of its steps does, and only then. -/
theorem exists_mapM_error_iff {f : α → Except ε β} {items : List α} :
    (∃ failure, items.mapM f = .error failure) ↔
      ∃ item ∈ items, ∃ failure, f item = .error failure := by
  induction items with
  | nil =>
      rw [List.mapM_nil]
      simp [pure, Except.pure]
  | cons item items ih =>
      rw [List.mapM_cons, List.exists_mem_cons_iff, ← ih]
      cases f item with
      | error failure => simp
      | ok result => cases items.mapM f <;> simp [pure, Except.pure]

/-- The results of a traversal are those of its steps, one by one. -/
theorem mapM_eq_ok_iff_forall₂ {f : α → Except ε β} {items : List α} {results : List β} :
    items.mapM f = .ok results ↔
      List.Forall₂ (fun item result => f item = .ok result) items results := by
  constructor
  · intro traversed
    induction items generalizing results with
    | nil =>
        cases traversed
        exact .nil
    | cons item items ih =>
        rw [List.mapM_cons] at traversed
        obtain ⟨first, firstOk, traversed⟩ := bind_eq_ok.1 traversed
        obtain ⟨others, othersOk, traversed⟩ := bind_eq_ok.1 traversed
        cases traversed
        exact .cons firstOk (ih othersOk)
  · intro each
    induction each with
    | nil => rfl
    | cons firstOk _ ih =>
        rw [List.mapM_cons, firstOk, ih]
        rfl

/-- A traversal succeeds if every step does, and only then. -/
theorem mapM_eq_ok_iff {f : α → Except ε β} {items : List α} {g : α → β}
    (only : ∀ item result, f item = .ok result → result = g item) {results : List β} :
    items.mapM f = .ok results ↔
      (∀ item ∈ items, f item = .ok (g item)) ∧ results = items.map g := by
  induction items generalizing results with
  | nil =>
      rw [List.mapM_nil, List.map_nil]
      constructor
      · intro traversed
        cases traversed
        exact ⟨by simp, rfl⟩
      · rintro ⟨-, rfl⟩
        rfl
  | cons item items ih =>
      rw [List.mapM_cons, List.forall_mem_cons, List.map_cons]
      constructor
      · intro traversed
        obtain ⟨first, firstOk, traversed⟩ := bind_eq_ok.1 traversed
        obtain ⟨others, othersOk, traversed⟩ := bind_eq_ok.1 traversed
        cases traversed
        obtain ⟨each, rfl⟩ := ih.1 othersOk
        cases only item first firstOk
        exact ⟨⟨firstOk, each⟩, rfl⟩
      · rintro ⟨⟨firstOk, each⟩, rfl⟩
        rw [firstOk, ih.2 ⟨each, rfl⟩]
        rfl

/-- What every step keeps, a whole run keeps. -/
theorem foldlM_invariant_of_mem {invariant : σ → Prop} {step : σ → α → Except ε σ}
    {items : List α}
    (keeps : ∀ before, ∀ item ∈ items, ∀ after, invariant before → step before item = .ok after →
      invariant after)
    {start finish : σ} (started : invariant start) (run : items.foldlM step start = .ok finish) :
    invariant finish := by
  induction items generalizing start with
  | nil =>
      cases run
      exact started
  | cons item items ih =>
      rw [List.foldlM_cons] at run
      obtain ⟨next, stepped, run⟩ := bind_eq_ok.1 run
      apply ih _ (keeps start item List.mem_cons_self next started stepped) run
      intro before other member
      exact keeps before other (List.mem_cons_of_mem item member)

theorem foldlM_invariant {invariant : σ → Prop} {step : σ → α → Except ε σ} {items : List α}
    (keeps : ∀ before item after, invariant before → step before item = .ok after →
      invariant after)
    {start finish : σ} (started : invariant start) (run : items.foldlM step start = .ok finish) :
    invariant finish :=
  foldlM_invariant_of_mem (fun before item _ => keeps before item) started run

/-! ## Two outcomes -/

/-- Two outcomes of the same kind: failures or results, in the relation for their kind. -/
inductive Agree (failures : ε → ε → Prop) (results : α → β → Prop) :
    Except ε α → Except ε β → Prop where
  | failed {first second : ε} (alike : failures first second) :
      Agree failures results (.error first) (.error second)
  | succeeded {a : α} {b : β} (alike : results a b) : Agree failures results (.ok a) (.ok b)

namespace Agree

variable {failures : ε → ε → Prop} {results : α → β → Prop} {first : Except ε α}
  {second : Except ε β}

theorem exists_ok (agree : Agree failures results first second) {a : α}
    (performed : first = .ok a) : ∃ b, second = .ok b ∧ results a b := by
  cases agree with
  | failed => cases performed
  | succeeded alike =>
      cases performed
      exact ⟨_, rfl, alike⟩

theorem refl {outcome : Except ε α} {results : α → α → Prop}
    (failed : ∀ failure, failures failure failure) (alike : ∀ a, results a a) :
    Agree failures results outcome outcome := by
  cases outcome with
  | error failure => exact .failed (failed failure)
  | ok a => exact .succeeded (alike a)

theorem symm {others : β → α → Prop} (failed : ∀ {e e'}, failures e e' → failures e' e)
    (alike : ∀ {a b}, results a b → others b a) (agree : Agree failures results first second) :
    Agree failures others second first := by
  cases agree with
  | failed both => exact .failed (failed both)
  | succeeded both => exact .succeeded (alike both)

theorem trans {third : Except ε σ} {others : β → σ → Prop} {overall : α → σ → Prop}
    (failed : ∀ {e e' e''}, failures e e' → failures e' e'' → failures e e'')
    (alike : ∀ {a b s}, results a b → others b s → overall a s)
    (agree : Agree failures results first second) (next : Agree failures others second third) :
    Agree failures overall first third := by
  cases agree with
  | failed both =>
      cases next with
      | failed more => exact .failed (failed both more)
  | succeeded both =>
      cases next with
      | succeeded more => exact .succeeded (alike both more)

/-- Outcomes agree whose first stages agree, and whose second stages do after alike results. -/
theorem bind {α' β' : Type} {followed : α' → β' → Prop} {next : α → Except ε α'}
    {other : β → Except ε β'} (agree : Agree failures results first second)
    (stage : ∀ a b, results a b → Agree failures followed (next a) (other b)) :
    Agree failures followed (first >>= next) (second >>= other) := by
  cases agree with
  | failed both => exact .failed both
  | succeeded both => exact stage _ _ both

theorem imp {others : α → β → Prop} (agree : Agree failures results first second)
    (weaker : ∀ a b, results a b → others a b) : Agree failures others first second := by
  cases agree with
  | failed both => exact .failed both
  | succeeded both => exact .succeeded (weaker _ _ both)

theorem map {α' β' : Type} {followed : α' → β' → Prop} {f : α → α'} {g : β → β'}
    (agree : Agree failures results first second)
    (each : ∀ a b, results a b → followed (f a) (g b)) :
    Agree failures followed (f <$> first) (g <$> second) := by
  cases agree with
  | failed both => exact .failed both
  | succeeded both => exact .succeeded (each _ _ both)

theorem mapError {ε' : Type} {failures' : ε' → ε' → Prop} {rename : ε → ε'}
    (agree : Agree failures results first second)
    (each : ∀ e e', failures e e' → failures' (rename e) (rename e')) :
    Agree failures' results (first.mapError rename) (second.mapError rename) := by
  cases agree with
  | failed both => exact .failed (each _ _ both)
  | succeeded both => exact .succeeded both

/-- Runs agree whose steps do. -/
theorem foldlM {τ : Type} {states : σ → τ → Prop} {step : σ → α → Except ε σ}
    {other : τ → α → Except ε τ} {items : List α}
    (steps : ∀ item ∈ items, ∀ s t, states s t → Agree failures states (step s item) (other t item))
    {s : σ} {t : τ} (started : states s t) :
    Agree failures states (items.foldlM step s) (items.foldlM other t) := by
  induction items generalizing s t with
  | nil => exact .succeeded started
  | cons item items ih =>
      rw [List.foldlM_cons, List.foldlM_cons]
      apply (steps item List.mem_cons_self s t started).bind
      intro s' t' alike
      exact ih (fun later member => steps later (List.mem_cons_of_mem item member)) alike

end Agree

/-! ## Results alone -/

/-- The second outcome is a result whenever the first one is, and then the results are in a
relation.  Of failures nothing is said. -/
def Follows (results : α → β → Prop) (first : Except ε α) (second : Except ε β) : Prop :=
  ∀ a, first = .ok a → ∃ b, second = .ok b ∧ results a b

namespace Follows

variable {results : α → β → Prop} {first : Except ε α} {second : Except ε β}

theorem succeeded {a : α} {b : β} (alike : results a b) :
    Follows (ε := ε) results (.ok a) (.ok b) := by
  intro a' succeeded
  cases succeeded
  exact ⟨b, rfl, alike⟩

theorem failed (failure : ε) : Follows results (.error failure) second := by
  intro a succeeded
  cases succeeded

theorem refl {results : α → α → Prop} (alike : ∀ a, results a a) (outcome : Except ε α) :
    Follows results outcome outcome :=
  fun a succeeded => ⟨a, succeeded, alike a⟩

theorem trans {others : β → σ → Prop} {overall : α → σ → Prop} {third : Except ε σ}
    (alike : ∀ {a b s}, results a b → others b s → overall a s)
    (follows : Follows results first second) (next : Follows others second third) :
    Follows overall first third := by
  intro a succeeded
  obtain ⟨b, secondOk, both⟩ := follows a succeeded
  obtain ⟨s, thirdOk, more⟩ := next b secondOk
  exact ⟨s, thirdOk, alike both more⟩

theorem bind {α' β' : Type} {followed : α' → β' → Prop} {next : α → Except ε α'}
    {other : β → Except ε β'} (follows : Follows results first second)
    (stage : ∀ a b, results a b → Follows followed (next a) (other b)) :
    Follows followed (first >>= next) (second >>= other) := by
  intro a' succeeded
  obtain ⟨a, firstOk, nextOk⟩ := bind_eq_ok.1 succeeded
  obtain ⟨b, secondOk, both⟩ := follows a firstOk
  rw [secondOk]
  exact stage a b both a' nextOk

theorem map {α' β' : Type} {followed : α' → β' → Prop} {f : α → α'} {g : β → β'}
    (follows : Follows results first second) (each : ∀ a b, results a b → followed (f a) (g b)) :
    Follows followed (f <$> first) (g <$> second) := by
  intro a' succeeded
  obtain ⟨a, firstOk, rfl⟩ := map_eq_ok.1 succeeded
  obtain ⟨b, secondOk, both⟩ := follows a firstOk
  exact ⟨g b, map_eq_ok.2 ⟨b, secondOk, rfl⟩, each a b both⟩

theorem map_right {β' : Type} {followed : α → β' → Prop} {g : β → β'}
    (follows : Follows results first second) (each : ∀ a b, results a b → followed a (g b)) :
    Follows followed first (g <$> second) := by
  intro a succeeded
  obtain ⟨b, secondOk, both⟩ := follows a succeeded
  exact ⟨g b, map_eq_ok.2 ⟨b, secondOk, rfl⟩, each a b both⟩

/-- Two outcomes follow two others, and so do the results that are made of both. -/
theorem pair {α' β' τ : Type} {others : α' → β' → Prop} {overall : σ → τ → Prop}
    {third : Except ε α'} {fourth : Except ε β'} {combine : α → α' → σ} {combine' : β → β' → τ}
    (follows : Follows results first second) (next : Follows others third fourth)
    (each : ∀ {a b a' b'}, results a b → others a' b' → overall (combine a a') (combine' b b')) :
    Follows overall
      (do
        let a ← first
        let a' ← third
        return combine a a')
      (do
        let b ← second
        let b' ← fourth
        return combine' b b') := by
  apply follows.bind
  intro a b both
  apply next.bind
  intro a' b' more
  exact succeeded (each both more)

/-- Of failures nothing is said, so the outcomes may come in another order. -/
theorem pair_swapped {α' β' τ : Type} {others : α' → β' → Prop} {overall : σ → τ → Prop}
    {third : Except ε α'} {fourth : Except ε β'} {combine : α → α' → σ} {combine' : β' → β → τ}
    (follows : Follows results first second) (next : Follows others third fourth)
    (each : ∀ {a b a' b'}, results a b → others a' b' → overall (combine a a') (combine' b' b)) :
    Follows overall
      (do
        let a ← first
        let a' ← third
        return combine a a')
      (do
        let b' ← fourth
        let b ← second
        return combine' b' b) := by
  intro result succeeded
  obtain ⟨a, firstOk, succeeded⟩ := bind_eq_ok.1 succeeded
  obtain ⟨a', thirdOk, succeeded⟩ := bind_eq_ok.1 succeeded
  cases succeeded
  obtain ⟨b, secondOk, both⟩ := follows a firstOk
  obtain ⟨b', fourthOk, more⟩ := next a' thirdOk
  rw [secondOk, fourthOk]
  exact ⟨combine' b' b, rfl, each both more⟩

theorem mapError {ε' : Type} {rename : ε → ε'} (follows : Follows results first second) :
    Follows results (first.mapError rename) (second.mapError rename) := by
  intro a succeeded
  cases first with
  | error failure => cases succeeded
  | ok a' =>
      cases succeeded
      obtain ⟨b, rfl, both⟩ := follows a rfl
      exact ⟨b, rfl, both⟩

/-- A run follows another one if its steps do. -/
theorem foldlM {τ : Type} {states : σ → τ → Prop} {step : σ → α → Except ε σ}
    {other : τ → α → Except ε τ} {items : List α}
    (steps : ∀ item ∈ items, ∀ s t, states s t → Follows states (step s item) (other t item))
    {s : σ} {t : τ} (started : states s t) :
    Follows states (items.foldlM step s) (items.foldlM other t) := by
  induction items generalizing s t with
  | nil => exact succeeded started
  | cons item items ih =>
      rw [List.foldlM_cons, List.foldlM_cons]
      apply (steps item List.mem_cons_self s t started).bind
      intro s' t' alike
      exact ih (fun later member => steps later (List.mem_cons_of_mem item member)) alike

end Follows

end MusicAlgebra.Outcome
