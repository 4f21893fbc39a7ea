import Mathlib.Data.List.Basic
import Mathlib.Logic.Function.Basic

/-!
# Buckets

A hash table whose chains keep the order of insertion, against the list of all entries that
were ever put in.  The hash function is arbitrary.
-/

namespace NetDefender.Buckets

variable {τ β : Type*} [DecidableEq β]

/-- Each chain holds the entries of a log that belong to its bucket, in the order of the
log. -/
def Holds (bucket : τ → β) (table : β → List τ) (log : List τ) : Prop :=
  ∀ index, table index = log.filter fun entry => decide (bucket entry = index)

/-- An entry is put at the tail of a chain. -/
def push (table : β → List τ) (index : β) (entry : τ) : β → List τ :=
  Function.update table index (table index ++ [entry])

variable {bucket : τ → β} {table : β → List τ} {log : List τ}

theorem holds_empty : Holds bucket (fun _ => []) [] := fun _ => rfl

theorem Holds.push (held : Holds bucket table log) (entry : τ) :
    Holds bucket (push table (bucket entry) entry) (log ++ [entry]) := by
  intro index
  rw [Buckets.push, List.filter_append]
  by_cases same : bucket entry = index
  · subst same
    rw [Function.update_self, held]
    simp
  · rw [Function.update_of_ne (Ne.symm same), held]
    simp [same]

theorem Holds.mem (held : Holds bucket table log) {index : β} {entry : τ} :
    entry ∈ table index ↔ entry ∈ log ∧ bucket entry = index := by
  rw [held, List.mem_filter, decide_eq_true_eq]

/-- A search that only an entry of the bucket can satisfy is a search of the log. -/
theorem Holds.find? (held : Holds bucket table log) {wanted : τ → Bool} {index : β}
    (within : ∀ entry, wanted entry = true → bucket entry = index) :
    (table index).find? wanted = log.find? wanted := by
  rw [held, List.find?_filter]
  congr 1
  funext entry
  by_cases found : wanted entry = true
  · simp [found, within entry found]
  · simp [found]

end NetDefender.Buckets
