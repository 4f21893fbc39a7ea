import Mathlib.Tactic.Common

/-!
# Loops

A loop is given by its body: a turn either returns a result or goes on with another state.
A measure that every turn makes smaller bounds the number of turns, and a definition by
recursion on a number of turns that is large enough returns what the loop does.
-/

namespace NetDefender.Loops

variable {σ α : Type}

/-- The loop returns a result from a state, after a number of turns. -/
inductive Returns (turn : σ → α ⊕ σ) : σ → Nat → α → Prop where
  | now {state : σ} {result : α} (returns : turn state = .inl result) :
      Returns turn state 1 result
  | later {state next : σ} {turns : Nat} {result : α} (continues : turn state = .inr next)
      (rest : Returns turn next turns result) : Returns turn state (turns + 1) result

/-- At most a number of turns. -/
def run (turn : σ → α ⊕ σ) (missing : α) : Nat → σ → α
  | 0, _ => missing
  | turns + 1, state => (turn state).elim id (run turn missing turns)

section Turns

variable {turn : σ → α ⊕ σ} {state : σ} {turns : Nat} {result : α}

theorem Returns.run_eq (returns : Returns turn state turns result) {missing : α} {limit : Nat}
    (enough : turns ≤ limit) : run turn missing limit state = result := by
  induction returns generalizing limit with
  | now returns =>
      obtain ⟨limit, rfl⟩ : ∃ fewer, limit = fewer + 1 :=
        Nat.exists_eq_add_one_of_ne_zero (by omega)
      rw [run, returns, Sum.elim_inl, id]
  | later continues rest ih =>
      obtain ⟨limit, rfl⟩ : ∃ fewer, limit = fewer + 1 :=
        Nat.exists_eq_add_one_of_ne_zero (by omega)
      rw [run, continues, Sum.elim_inr]
      exact ih (Nat.le_of_succ_le_succ enough)

/-- A loop comes to an end if every turn that goes on keeps an invariant and makes a measure
smaller, by induction on the measure. -/
theorem exists_returns {invariant : σ → Prop} {measure : σ → Nat}
    (decreases : ∀ state next, invariant state → turn state = .inr next →
      invariant next ∧ measure next < measure state)
    (start : invariant state) :
    ∃ turns ≤ measure state + 1, ∃ result, Returns turn state turns result := by
  induction size : measure state using Nat.strongRecOn generalizing state with
  | ind size ih =>
      subst size
      cases body : turn state with
      | inl result => exact ⟨1, Nat.le_add_left 1 _, result, .now body⟩
      | inr next =>
          obtain ⟨kept, smaller⟩ := decreases state next start body
          obtain ⟨turns, few, result, rest⟩ := ih _ smaller kept rfl
          exact ⟨turns + 1, by omega, result, .later body rest⟩

/-- A number of turns above the measure is enough. -/
theorem returns_run {invariant : σ → Prop} {measure : σ → Nat}
    (decreases : ∀ state next, invariant state → turn state = .inr next →
      invariant next ∧ measure next < measure state)
    (start : invariant state) {missing : α} {limit : Nat} (enough : measure state < limit) :
    ∃ turns ≤ limit, Returns turn state turns (run turn missing limit state) := by
  obtain ⟨turns, few, result, returns⟩ := exists_returns decreases start
  have within : turns ≤ limit := Nat.le_trans few enough
  rw [returns.run_eq within]
  exact ⟨turns, within, returns⟩

end Turns

end NetDefender.Loops
