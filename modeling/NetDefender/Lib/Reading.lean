import NetDefender.Lib.Logged

/-!
# Reading a memory

Programs that read a memory at places that they compute, with a log of the places.
-/

namespace NetDefender.Reading

open Logged

variable {α β : Type} {memory : Nat → α}

/-! ## Stretches -/

/-- What a memory holds from a place on. -/
def stretch (memory : Nat → α) (start count : Nat) : List α :=
  (List.range' start count).map memory

section Stretch

variable {start count skip : Nat}

@[simp]
theorem length_stretch : (stretch memory start count).length = count := by
  rw [stretch, List.length_map, List.length_range']

theorem getD_stretch {index : Nat} (inside : index < count) (default : α) :
    (stretch memory start count).getD index default = memory (start + index) := by
  rw [stretch, List.getD_eq_getElem?_getD, List.getElem?_map,
    List.getElem?_range' inside, Nat.one_mul]
  rfl

theorem drop_stretch : (stretch memory start count).drop skip =
    stretch memory (start + skip) (count - skip) := by
  rw [stretch, stretch, ← List.map_drop, List.drop_range', Nat.mul_one]

theorem take_stretch (inside : skip ≤ count) :
    (stretch memory start count).take skip = stretch memory start skip := by
  rw [stretch, stretch, ← List.map_take, List.take_range'_of_length_ge inside]

/-- A piece of the memory from its start. -/
theorem take_drop_stretch {size : Nat} (inside : skip + size ≤ count) :
    ((stretch memory 0 count).drop skip).take size = stretch memory skip size := by
  rw [drop_stretch, take_stretch (Nat.le_sub_of_add_le' inside), Nat.zero_add]

theorem stretch_succ : stretch memory start (count + 1) =
    memory start :: stretch memory (start + 1) count := by
  rw [stretch, List.range'_succ, List.map_cons, stretch]

end Stretch

/-! ## Reads -/

/-- One cell. -/
def readAt (memory : Nat → α) (p : Nat) : Recording Nat α := do
  record p
  pure (memory p)

/-- A number of cells, one after the other. -/
def readMany (memory : Nat → α) : Nat → Nat → Recording Nat (List α)
  | _, 0 => pure []
  | p, count + 1 => do
      let first ← readAt memory p
      let rest ← readMany memory (p + 1) count
      pure (first :: rest)

@[simp]
theorem value_readAt (p : Nat) : value (readAt memory p) = memory p := rfl

@[simp]
theorem log_readAt (p : Nat) : log (readAt memory p) = [p] := rfl

@[simp]
theorem value_readMany (p count : Nat) :
    value (readMany memory p count) = stretch memory p count := by
  induction count generalizing p with
  | zero => rfl
  | succ count ih =>
      rw [readMany, value_bind, value_bind, ih, stretch_succ]
      rfl

@[simp]
theorem log_readMany (p count : Nat) :
    log (readMany memory p count) = List.range' p count := by
  induction count generalizing p with
  | zero => rfl
  | succ count ih =>
      rw [readMany, log_bind, log_bind, ih, List.range'_succ]
      simp

/-- Only places below a bound are read. -/
def Below (bound : Nat) (program : Recording Nat β) : Prop := Always (· < bound) program

section Below

variable {bound : Nat} {p count : Nat}

theorem Below.pure (result : β) : Below bound (pure result : Recording Nat β) :=
  Always.pure result

theorem Below.bind {γ : Type} {first : Recording Nat β} {next : β → Recording Nat γ}
    (before : Below bound first) (after : Below bound (next (value first))) :
    Below bound (first >>= next) :=
  Always.bind before after

theorem Below.ite {condition : Prop} [Decidable condition] {yes no : Recording Nat β}
    (holds : condition → Below bound yes) (fails : ¬ condition → Below bound no) :
    Below bound (if condition then yes else no) :=
  Always.ite holds fails

theorem readAt_below_iff : Below bound (readAt memory p) ↔ p < bound := by
  rw [Below, Always, log_readAt]
  exact List.forall_mem_singleton

/-- A stretch is read below a bound if it ends there. -/
theorem readMany_below (inside : p + count ≤ bound) : Below bound (readMany memory p count) := by
  intro place member
  rw [log_readMany, List.mem_range'_1] at member
  omega

/-- Every cell of the stretch is read. -/
theorem readMany_below_iff (some : 0 < count) :
    Below bound (readMany memory p count) ↔ p + count ≤ bound := by
  refine ⟨fun below => ?_, readMany_below⟩
  have last : p + count - 1 ∈ log (readMany memory p count) := by
    rw [log_readMany, List.mem_range'_1]
    omega
  have under : p + count - 1 < bound := below _ last
  omega

/-- The first part of a sequence reads below the bound if the whole does. -/
theorem Below.first {γ : Type} {first : Recording Nat β} {next : β → Recording Nat γ}
    (below : Below bound (first >>= next)) : Below bound first :=
  fun place member => below place (List.mem_append_left _ member)

theorem Below.next {γ : Type} {first : Recording Nat β} {next : β → Recording Nat γ}
    (below : Below bound (first >>= next)) : Below bound (next (value first)) :=
  fun place member => below place (List.mem_append_right _ member)

end Below

/-- A program reads below a bound, and its value has a property. -/
structure Yields (bound : Nat) (P : β → Prop) (program : Recording Nat β) : Prop where
  below : Below bound program
  yields : P (value program)

namespace Yields

variable {bound : Nat} {P : β → Prop}

theorem pure {result : β} (holds : P result) : Yields bound P (pure result) :=
  ⟨.pure _, holds⟩

theorem bind {γ : Type} {first : Recording Nat γ} {next : γ → Recording Nat β}
    (before : Below bound first) (after : Yields bound P (next (value first))) :
    Yields bound P (first >>= next) :=
  ⟨.bind before after.below, after.yields⟩

theorem ite {condition : Prop} [Decidable condition] {yes no : Recording Nat β}
    (holds : condition → Yields bound P yes) (fails : ¬ condition → Yields bound P no) :
    Yields bound P (if condition then yes else no) := by
  split
  next yes => exact holds yes
  next no => exact fails no

end Yields

/-- A stretch, given by its place and its length, ends below a bound if there is one. -/
def Within (bound : Nat) : Option (Nat × Nat) → Prop
  | none => True
  | some (place, count) => place + count ≤ bound

end NetDefender.Reading
