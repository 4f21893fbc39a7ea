import NetDefender.Lib.Reading

/-!
# Searching a memory

The naive search of a memory for a needle, place after place, where cells are compared by a
key.  How far a comparison reads depends on the first difference, so a search over a range of
places can read less than the range, and a search that finds nothing reads all of it that the
differences ask for.
-/

namespace NetDefender.Searching

open Logged Reading

variable {α β : Type} (memory : Nat → α) (key : α → β)

/-! ## Needles at a place -/

/-- The needle stands at a place. -/
def Stands (needle : List α) (p : Nat) : Prop :=
  (stretch memory p needle.length).map key = needle.map key

/-- What there is of a place below a bound does not differ from the needle. -/
def Agrees (needle : List α) (bound p : Nat) : Prop :=
  (stretch memory p (min needle.length (bound - p))).map key <+: needle.map key

instance [DecidableEq β] (needle : List α) (p : Nat) : Decidable (Stands memory key needle p) :=
  inferInstanceAs (Decidable (_ = _))

instance [DecidableEq β] (needle : List α) (bound p : Nat) :
    Decidable (Agrees memory key needle bound p) :=
  inferInstanceAs (Decidable (_ <+: _))

section Places

variable {memory key} {first : α} {needle rest : List α} {bound p : Nat}

theorem stands_iff :
    Stands memory key needle p ↔
      ∀ index (inside : index < needle.length), key (memory (p + index)) = key needle[index] := by
  rw [Stands]
  constructor
  · intro same index inside
    have at_index := congrArg (fun cells : List β => cells[index]?) same
    have cell : (stretch memory p needle.length)[index]? = some (memory (p + index)) := by
      rw [stretch, List.getElem?_map, List.getElem?_range' inside, Nat.one_mul]
      rfl
    rw [List.getElem?_map, List.getElem?_map, cell, List.getElem?_eq_getElem inside,
      Option.map_some, Option.map_some, Option.some_inj] at at_index
    exact at_index
  · intro each
    refine List.ext_getElem (by simp) fun index _ inside => ?_
    rw [List.length_map] at inside
    simpa [stretch] using each index inside

theorem stands_cons :
    Stands memory key (first :: rest) p ↔
      key (memory p) = key first ∧ Stands memory key rest (p + 1) := by
  rw [Stands, List.length_cons, stretch_succ, List.map_cons, List.map_cons, List.cons_eq_cons,
    Stands]

theorem agrees_cons (inside : p < bound) :
    Agrees memory key (first :: rest) bound p ↔
      key (memory p) = key first ∧ Agrees memory key rest bound (p + 1) := by
  have size : min (first :: rest).length (bound - p) = min rest.length (bound - (p + 1)) + 1 := by
    rw [List.length_cons]
    omega
  rw [Agrees, size, stretch_succ, List.map_cons, List.map_cons, List.cons_prefix_cons, Agrees]

/-- At the bound nothing differs. -/
theorem agrees_outside (outside : bound ≤ p) : Agrees memory key needle bound p := by
  rw [Agrees, Nat.sub_eq_zero_of_le outside, Nat.min_zero]
  exact List.nil_prefix

theorem agrees_iff_stands (inside : p + needle.length ≤ bound) :
    Agrees memory key needle bound p ↔ Stands memory key needle p := by
  rw [Agrees, Nat.min_eq_left (by omega), Stands]
  constructor
  · intro agrees
    exact agrees.eq_of_length (by simp)
  · intro stands
    exact ⟨[], (List.append_nil _).trans stands⟩

/-- A needle that stands at a place agrees with what there is of it below any bound. -/
theorem Stands.agrees (stands : Stands memory key needle p) :
    Agrees memory key needle bound p := by
  rw [Agrees, ← stands, ← take_stretch (Nat.min_le_left _ (bound - p)), List.map_take]
  exact List.take_prefix _ _

end Places

/-! ## Comparisons -/

section Comparisons

variable [DecidableEq β]

/-- The cells from a place on, compared with a needle up to the first difference. -/
def matchAt : List α → Nat → Recording Nat Bool
  | [], _ => pure true
  | first :: rest, p => do
      let cell ← readAt memory p
      if key cell = key first then matchAt rest (p + 1) else pure false

variable {memory key} {needle : List α} {bound p : Nat}

theorem value_matchAt :
    value (matchAt memory key needle p) = true ↔ Stands memory key needle p := by
  induction needle generalizing p with
  | nil => exact iff_of_true rfl rfl
  | cons first rest ih =>
      rw [matchAt, value_bind, value_readAt, value_ite, stands_cons]
      split
      next same => rw [ih, and_iff_right same]
      next differs => simp [differs]

theorem matchAt_below (inside : p + needle.length ≤ bound) :
    Below bound (matchAt memory key needle p) := by
  induction needle generalizing p with
  | nil => exact .pure _
  | cons first rest ih =>
      rw [List.length_cons] at inside
      refine .bind (readAt_below_iff.mpr (by omega)) ?_
      exact .ite (fun _ => ih (by omega)) fun _ => .pure _

/-- A comparison stays below a bound if the needle does, or if there is a difference below
it. -/
theorem matchAt_below_iff (nonempty : needle ≠ []) :
    Below bound (matchAt memory key needle p) ↔
      p + needle.length ≤ bound ∨ ¬ Agrees memory key needle bound p := by
  constructor
  · intro below
    by_cases inside : p + needle.length ≤ bound
    · exact Or.inl inside
    · refine Or.inr fun agrees => ?_
      induction needle generalizing p with
      | nil => exact nonempty rfl
      | cons first rest ih =>
          rw [List.length_cons] at inside
          have here : p < bound := readAt_below_iff.mp (Below.first below)
          obtain ⟨same, later⟩ := (agrees_cons here).mp agrees
          have next := Below.next below
          rw [value_readAt, if_pos same] at next
          have more : rest ≠ [] := by
            rintro rfl
            rw [List.length_nil] at inside
            omega
          exact ih more next (by omega) later
  · rintro (inside | differs)
    · exact matchAt_below inside
    · induction needle generalizing p with
      | nil => exact .pure _
      | cons first rest ih =>
          have here : p < bound := by
            by_contra outside
            exact differs (agrees_outside (Nat.not_lt.mp outside))
          refine .bind (readAt_below_iff.mpr here) (.ite (fun same => ?_) fun _ => .pure _)
          have later : ¬ Agrees memory key rest bound (p + 1) := fun agrees =>
            differs ((agrees_cons here).mpr ⟨same, agrees⟩)
          cases rest with
          | nil => exact .pure _
          | cons second rest => exact ih (List.cons_ne_nil _ _) later

end Comparisons

/-! ## Places one after the other -/

section Search

variable [DecidableEq β]

/-- The places of a range, up to the first one at which the needle stands. -/
def search (needle : List α) : Nat → Nat → Recording Nat Bool
  | 0, _ => pure false
  | count + 1, p => do
      let found ← matchAt memory key needle p
      if found then pure true else search needle count (p + 1)

variable {memory key} {needle : List α} {bound count p : Nat}

/-- A range of places, and the ones behind the first of them. -/
theorem exists_lt_succ {P : Nat → Prop} :
    (∃ i < count + 1, P (p + i)) ↔ P p ∨ ∃ i < count, P (p + 1 + i) := by
  constructor
  · rintro ⟨i, small, holds⟩
    cases i with
    | zero => exact Or.inl holds
    | succ i =>
        refine Or.inr ⟨i, Nat.lt_of_succ_lt_succ small, ?_⟩
        rwa [Nat.add_right_comm]
  · rintro (here | ⟨i, small, holds⟩)
    · exact ⟨0, Nat.zero_lt_succ count, here⟩
    · refine ⟨i + 1, Nat.succ_lt_succ small, ?_⟩
      rwa [Nat.add_right_comm] at holds

/-- The search tells whether the needle stands somewhere, by induction on the number of
places. -/
theorem value_search :
    value (search memory key needle count p) = true ↔
      ∃ i < count, Stands memory key needle (p + i) := by
  induction count generalizing p with
  | zero => simp [search]
  | succ count ih =>
      rw [search, value_bind, value_ite, exists_lt_succ, ← value_matchAt, ← ih]
      cases value (matchAt memory key needle p) with
      | false => simp
      | true => simp

/-- If the needle stands nowhere, the search stays below a bound exactly if every comparison
does. -/
theorem search_below_iff (absent : ∀ i < count, ¬ Stands memory key needle (p + i)) :
    Below bound (search memory key needle count p) ↔
      ∀ i < count, Below bound (matchAt memory key needle (p + i)) := by
  induction count generalizing p with
  | zero => exact iff_of_true (.pure _) fun i small => absurd small (Nat.not_lt_zero i)
  | succ count ih =>
      have missed : value (matchAt memory key needle p) = false :=
        Bool.eq_false_iff.mpr fun found =>
          absent 0 (Nat.zero_lt_succ count) (value_matchAt.mp found)
      have later : ∀ i < count, ¬ Stands memory key needle (p + 1 + i) := fun i small => by
        rw [Nat.add_right_comm]
        exact absent (i + 1) (Nat.succ_lt_succ small)
      constructor
      · intro below i small
        cases i with
        | zero => exact Below.first below
        | succ i =>
            have next := Below.next below
            rw [missed, if_neg Bool.false_ne_true] at next
            have there := (ih later).mp next i (Nat.lt_of_succ_lt_succ small)
            rwa [Nat.add_right_comm] at there
      · intro each
        refine .bind (each 0 (Nat.zero_lt_succ count)) ?_
        rw [missed, if_neg Bool.false_ne_true]
        refine (ih later).mpr fun i small => ?_
        rw [Nat.add_right_comm]
        exact each (i + 1) (Nat.succ_lt_succ small)

/-- A search of places at which the needle ends below a bound stays below it. -/
theorem search_below (inside : p + count + needle.length ≤ bound + 1) :
    Below bound (search memory key needle count p) := by
  induction count generalizing p with
  | zero => exact .pure _
  | succ count ih =>
      refine .bind (matchAt_below (by omega)) (.ite (fun _ => .pure _) fun _ => ?_)
      exact ih (by omega)

end Search

end NetDefender.Searching
