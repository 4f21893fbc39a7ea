import Mathlib.Tactic.Common

/-!
# Computations that can fail

Rules for programs in `Except`: what the parts of a program that succeeds have returned,
what is known of a program of which only the success is known, and a relation between two
runs.
-/

namespace NetDefender.Fallible

variable {ε α β : Type}

@[simp]
theorem ok_bind (value : α) (next : α → Except ε β) :
    (Except.ok value >>= next) = next value := rfl

/-- Both parts of a sequence that succeeds have succeeded. -/
theorem bind_ok {first : Except ε α} {next : α → Except ε β} {result : β}
    (bound : (first >>= next) = .ok result) :
    ∃ value, first = .ok value ∧ next value = .ok result := by
  cases first with
  | error fault => cases bound
  | ok value => exact ⟨value, rfl, bound⟩

theorem map_ok {change : α → β} {first : Except ε α} {result : β}
    (mapped : first.map change = .ok result) :
    ∃ value, first = .ok value ∧ change value = result := by
  cases first with
  | error fault => cases mapped
  | ok value =>
      cases mapped
      exact ⟨value, rfl, rfl⟩

/-- A sequence succeeds if its first part does and the next part from there. -/
theorem exists_bind_ok_iff {first : Except ε α} {next : α → Except ε β} :
    (∃ result, first.bind next = .ok result) ↔
      ∃ value, first = .ok value ∧ ∃ result, next value = .ok result := by
  cases first with
  | error fault => simp [Except.bind]
  | ok value => simp [Except.bind]

theorem exists_map_ok_iff {change : α → β} {first : Except ε α} :
    (∃ result, first.map change = .ok result) ↔ ∃ value, first = .ok value := by
  cases first with
  | error fault => simp [Except.map]
  | ok value => simp [Except.map]

/-- A computation that succeeds, whatever its value is. -/
theorem ok_of_map_ok {result : Except ε α} (succeeds : (result.map fun _ => ()) = .ok ()) :
    ∃ value, result = .ok value := by
  cases result with
  | error fault => cases succeeds
  | ok value => exact ⟨value, rfl⟩

theorem error_of_map_error {result : Except ε α} {fault : ε}
    (fails : (result.map fun _ => ()) = .error fault) : result = .error fault := by
  cases result with
  | error fault' =>
      cases fails
      rfl
  | ok value => cases fails

/-- A loop succeeds if every turn does. -/
theorem forM_ok {visit : α → Except ε Unit} {entries : List α}
    (each : ∀ entry ∈ entries, visit entry = .ok ()) : entries.forM visit = .ok () := by
  induction entries with
  | nil => rfl
  | cons entry rest inductionHypothesis =>
      have first := each entry List.mem_cons_self
      rw [List.forM, first]
      exact inductionHypothesis fun other member => each other (List.mem_cons_of_mem _ member)

theorem forM_ok_iff {visit : α → Except ε Unit} {entries : List α} :
    entries.forM visit = .ok () ↔ ∀ entry ∈ entries, visit entry = .ok () := by
  refine ⟨fun visited => ?_, forM_ok⟩
  induction entries with
  | nil => simp
  | cons entry rest inductionHypothesis =>
      rw [List.forM] at visited
      obtain ⟨_, first, later⟩ := bind_ok visited
      exact List.forall_mem_cons.mpr ⟨first, inductionHypothesis later⟩

/-- A list is mapped if every entry is. -/
theorem exists_mapM_ok {visit : α → Except ε β} {entries : List α}
    (each : ∀ entry ∈ entries, ∃ result, visit entry = .ok result) :
    ∃ results, entries.mapM visit = .ok results := by
  induction entries with
  | nil => exact ⟨[], rfl⟩
  | cons entry rest inductionHypothesis =>
      obtain ⟨first, visited⟩ := each entry List.mem_cons_self
      obtain ⟨later, mapped⟩ := inductionHypothesis fun other member =>
        each other (List.mem_cons_of_mem _ member)
      refine ⟨first :: later, ?_⟩
      rw [List.mapM_cons, visited, mapped]
      rfl

/-- A list of which every entry is mapped to a known value. -/
theorem mapM_ok {visit : α → Except ε β} {image : α → β} {entries : List α}
    (each : ∀ entry ∈ entries, visit entry = .ok (image entry)) :
    entries.mapM visit = .ok (entries.map image) := by
  induction entries with
  | nil => rfl
  | cons entry rest inductionHypothesis =>
      have later := inductionHypothesis fun other member =>
        each other (List.mem_cons_of_mem _ member)
      rw [List.mapM_cons, each entry List.mem_cons_self, later]
      rfl

section Loop

variable {step : β → α → Except ε β} (holds : List α → β → Prop)

theorem foldlM_ok_from
    (each : ∀ past state entry next, holds past state → step state entry = .ok next →
      holds (past ++ [entry]) next)
    {past entries : List α} {state final : β} (start : holds past state)
    (ran : entries.foldlM step state = .ok final) : holds (past ++ entries) final := by
  induction entries generalizing past state with
  | nil =>
      cases ran
      rw [List.append_nil]
      exact start
  | cons entry rest inductionHypothesis =>
      rw [List.foldlM_cons] at ran
      obtain ⟨next, stepped, ran⟩ := bind_ok ran
      have held := inductionHypothesis (each past state entry next start stepped) ran
      rwa [List.append_assoc, List.singleton_append] at held

/-- What each turn of a loop keeps, of the entries so far and of the state, holds at its
end. -/
theorem foldlM_ok
    (each : ∀ past state entry next, holds past state → step state entry = .ok next →
      holds (past ++ [entry]) next)
    {entries : List α} {state final : β} (start : holds [] state)
    (ran : entries.foldlM step state = .ok final) : holds entries final :=
  foldlM_ok_from holds each start ran

/-- A loop succeeds if every turn does.  A turn may count on what holds of the entries so
far, of the state and of the entries to come. -/
theorem exists_foldlM_ok {holds : List α → β → List α → Prop}
    (each : ∀ past state entry rest, holds past state (entry :: rest) →
      ∃ next, step state entry = .ok next ∧ holds (past ++ [entry]) next rest)
    {past entries : List α} {state : β} (start : holds past state entries) :
    ∃ final, entries.foldlM step state = .ok final ∧ holds (past ++ entries) final [] := by
  induction entries generalizing past state with
  | nil =>
      rw [List.append_nil]
      exact ⟨state, rfl, start⟩
  | cons entry rest inductionHypothesis =>
      obtain ⟨next, stepped, held⟩ := each past state entry rest start
      obtain ⟨final, ran, result⟩ := inductionHypothesis held
      rw [List.append_assoc, List.singleton_append] at result
      refine ⟨final, ?_, result⟩
      rw [List.foldlM_cons, stepped]
      exact ran

/-- An invariant of the state that every turn on an entry of some kind keeps. -/
theorem exists_foldlM_invariant {invariant : β → Prop} {admits : α → Prop}
    (each : ∀ state entry, invariant state → admits entry →
      ∃ next, step state entry = .ok next ∧ invariant next)
    {entries : List α} {state : β} (start : invariant state)
    (every : ∀ entry ∈ entries, admits entry) :
    ∃ final, entries.foldlM step state = .ok final ∧ invariant final := by
  obtain ⟨final, ran, held, _⟩ := @exists_foldlM_ok ε α β step
    (fun _ state rest => invariant state ∧ ∀ entry ∈ rest, admits entry) (by
      rintro _ state entry rest ⟨held, admitted⟩
      obtain ⟨next, stepped, kept⟩ := each state entry held (admitted entry List.mem_cons_self)
      exact ⟨next, stepped, kept, fun other member =>
        admitted other (List.mem_cons_of_mem _ member)⟩) [] entries state ⟨start, every⟩
  exact ⟨final, ran, held⟩

end Loop

/-! ## Two runs -/

section Alike

variable {γ δ : Type}

/-- Two runs that fail alike, or succeed with related values. -/
inductive Alike (related : α → β → Prop) : Except ε α → Except ε β → Prop where
  | error (fault : ε) : Alike related (.error fault) (.error fault)
  | ok {left : α} {right : β} (values : related left right) :
      Alike related (.ok left) (.ok right)

variable {related : α → β → Prop} {left : Except ε α} {right : Except ε β}

/-- The values of two runs that succeed are related. -/
theorem Alike.of_ok {a : α} {b : β} (alike : Alike related left right) (first : left = .ok a)
    (second : right = .ok b) : related a b := by
  subst first
  subst second
  cases alike with
  | ok values => exact values

theorem Alike.refl {related : α → α → Prop} (self : ∀ a, related a a) (run : Except ε α) :
    Alike related run run := by
  cases run with
  | error fault => exact .error fault
  | ok value => exact .ok (self value)

/-- The values of two runs are changed in related ways. -/
theorem Alike.map {related' : γ → δ → Prop} {change : α → γ} {change' : β → δ}
    (alike : Alike related left right)
    (changes : ∀ a b, related a b → related' (change a) (change' b)) :
    Alike related' (left.map change) (right.map change') := by
  cases alike with
  | error fault => exact .error fault
  | ok values => exact .ok (changes _ _ values)

end Alike

end NetDefender.Fallible
