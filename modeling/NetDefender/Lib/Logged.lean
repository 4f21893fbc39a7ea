import Mathlib.Control.Monad.Writer

/-!
# Computations with a log

Computations that record events on the way to their value.  A property of all recorded
events is proved along the structure of the computation.
-/

namespace NetDefender.Logged

/-- A computation with a log of events, earliest first. -/
abbrev Recording (ε : Type) := Writer (List ε)

variable {ε α β : Type} {P Q : ε → Prop}

/-- The value of a computation. -/
def value (program : Recording ε α) : α := program.run.1

/-- The events that a computation records. -/
def log (program : Recording ε α) : List ε := program.run.2

/-- Record an event. -/
def record (event : ε) : Recording ε Unit := WriterT.mk (pure ((), [event]))

@[simp]
theorem value_pure (result : α) : value (pure result : Recording ε α) = result := rfl

@[simp]
theorem log_pure (result : α) : log (pure result : Recording ε α) = [] := rfl

@[simp]
theorem value_record (event : ε) : value (record event) = () := rfl

@[simp]
theorem log_record (event : ε) : log (record event) = [event] := rfl

@[simp]
theorem value_bind (first : Recording ε α) (next : α → Recording ε β) :
    value (first >>= next) = value (next (value first)) := rfl

@[simp]
theorem log_bind (first : Recording ε α) (next : α → Recording ε β) :
    log (first >>= next) = log first ++ log (next (value first)) := rfl

theorem value_ite (condition : Prop) [Decidable condition] (yes no : Recording ε α) :
    value (if condition then yes else no) = if condition then value yes else value no := by
  split <;> rfl

@[simp]
theorem value_map (change : α → β) (program : Recording ε α) :
    value (change <$> program) = change (value program) := rfl

@[simp]
theorem log_map (change : α → β) (program : Recording ε α) :
    log (change <$> program) = log program := rfl

/-- A loop records what its turns record, one after the other. -/
theorem log_forM (visit : α → Recording ε Unit) (entries : List α) :
    log (entries.forM visit) = entries.flatMap fun entry => log (visit entry) := by
  induction entries with
  | nil => rfl
  | cons entry rest ih => rw [List.forM, log_bind, ih, List.flatMap_cons]

/-- Every recorded event has the property. -/
def Always (P : ε → Prop) (program : Recording ε α) : Prop := ∀ event ∈ log program, P event

namespace Always

theorem mono {program : Recording ε α} (always : Always P program)
    (weaker : ∀ event, P event → Q event) : Always Q program :=
  fun event member => weaker event (always event member)

@[simp]
theorem pure (result : α) : Always P (pure result : Recording ε α) :=
  fun _ member => absurd member List.not_mem_nil

@[simp]
theorem record_iff (event : ε) : Always P (record event) ↔ P event := by
  simp [Always]

/-- The events of two computations in a row; the second one may rely on the value of the
first. -/
theorem bind {first : Recording ε α} {next : α → Recording ε β} (before : Always P first)
    (after : Always P (next (value first))) : Always P (first >>= next) := by
  intro event member
  rcases List.mem_append.mp member with early | late
  · exact before event early
  · exact after event late

theorem ite {condition : Prop} [Decidable condition] {yes no : Recording ε α}
    (holds : condition → Always P yes) (fails : ¬ condition → Always P no) :
    Always P (if condition then yes else no) := by
  split
  next yes => exact holds yes
  next no => exact fails no

end Always

end NetDefender.Logged
