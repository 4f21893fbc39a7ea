import Mathlib.Data.List.Forall2
import Mathlib.Logic.Function.Basic

/-!
# Singly linked chains

Cells in memory that are linked by a `next` pointer and found from a `head` pointer,
and the walk that unlinks cells in place with a trailing pointer.  Addresses are
natural numbers, `none` is the null pointer.  The walk hands every cell that it
unlinks to a function that disposes of it.
-/

namespace NetDefender.Chain

/-- The head pointer of a chain, and the `next` pointer of every cell. -/
structure Links where
  head : Option Nat
  next : Nat → Option Nat

/-- The cells from a pointer on are these, in this order. -/
def Linked (next : Nat → Option Nat) : Option Nat → List Nat → Prop
  | start, [] => start = none
  | start, cell :: rest => start = some cell ∧ Linked next (next cell) rest

/-- Let the cell before, or the head pointer if there is none, point to a cell. -/
def Links.relink (links : Links) (prev target : Option Nat) : Links :=
  match prev with
  | none => { links with head := target }
  | some cell => { links with next := Function.update links.next cell target }

/-- The walk from a cell on: a cell that the test accepts is unlinked and disposed of,
any other becomes the trailing pointer.  A chain of as many cells as there are turns is
walked to its end. -/
def sweep {σ : Type*} (remove : Nat → Bool) (dispose : σ → Nat → σ) :
    Nat → Option Nat → Option Nat → Links → σ → Links × σ
  | 0, _, _, links, acc => (links, acc)
  | _ + 1, _, none, links, acc => (links, acc)
  | turns + 1, prev, some cell, links, acc =>
      let next := links.next cell
      if remove cell then
        sweep remove dispose turns prev next (links.relink prev next) (dispose acc cell)
      else sweep remove dispose turns (some cell) next links acc

/-- The walk over every chain of a table, from the head pointers of its buckets. -/
def sweepAll {σ : Type*} (remove : Nat → Bool) (dispose : σ → Nat → σ) (turns : Nat) :
    List (Option Nat) → (Nat → Option Nat) → σ →
      List (Option Nat) × (Nat → Option Nat) × σ
  | [], next, acc => ([], next, acc)
  | head :: heads, next, acc =>
      let (links, acc) := sweep remove dispose turns none head ⟨head, next⟩ acc
      let (heads, next, acc) := sweepAll remove dispose turns heads links.next acc
      (links.head :: heads, next, acc)

/-- A new cell at the head. -/
def Links.push (links : Links) (cell : Nat) : Links :=
  ⟨some cell, Function.update links.next cell links.head⟩

/-- The walk from a cell to the last one, with a trailing pointer. -/
def walkToLast (next : Nat → Option Nat) : Nat → Option Nat → Nat → Option Nat × Nat
  | 0, prev, cell => (prev, cell)
  | turns + 1, prev, cell =>
      match next cell with
      | none => (prev, cell)
      | some following => walkToLast next turns (some cell) following

/-! ## Chains -/

section Linked

variable {next : Nat → Option Nat} {start : Option Nat}

/-- A chain only depends on the pointers of its own cells. -/
theorem Linked.congr {other : Nat → Option Nat} {cells : List Nat}
    (linked : Linked next start cells) (same : ∀ cell ∈ cells, other cell = next cell) :
    Linked other start cells := by
  induction cells generalizing start with
  | nil => exact linked
  | cons cell rest ih =>
      obtain ⟨first, tail⟩ := linked
      refine ⟨first, ?_⟩
      rw [same cell List.mem_cons_self]
      exact ih tail fun later member => same later (List.mem_cons_of_mem _ member)

theorem Linked.congr_all {other : Nat → Option Nat} {heads : List (Option Nat)}
    {chains : List (List Nat)} (linked : List.Forall₂ (Linked next) heads chains)
    (same : ∀ cell ∈ chains.flatten, other cell = next cell) :
    List.Forall₂ (Linked other) heads chains := by
  induction linked with
  | nil => exact .nil
  | cons first _ ih =>
      rw [List.flatten_cons, List.forall_mem_append] at same
      exact .cons (first.congr same.1) (ih same.2)

/-- The pointer to a chain points to its first cell. -/
theorem Linked.start_eq {cells : List Nat} (linked : Linked next start cells) :
    start = cells.head? := by
  cases cells with
  | nil => exact linked
  | cons cell rest => exact linked.1

/-- A pointer leads to one chain only. -/
theorem Linked.unique : Relator.RightUnique (Linked next) := by
  intro start cells others linked linked'
  induction cells generalizing start others with
  | nil =>
      cases others with
      | nil => rfl
      | cons other rest =>
          obtain rfl : start = none := linked
          exact absurd linked'.1 (by simp)
  | cons cell rest ih =>
      obtain ⟨rfl, tail⟩ := linked
      cases others with
      | nil => exact absurd linked' (by simp [Linked])
      | cons other others =>
          obtain ⟨same, tail'⟩ := linked'
          obtain rfl : cell = other := Option.some.inj same
          rw [ih tail tail']

/-- The pointer of a cell points to the cell behind it. -/
theorem Linked.next_eq {front rest : List Nat} {cell : Nat}
    (linked : Linked next start (front ++ cell :: rest)) : next cell = rest.head? := by
  induction front generalizing start with
  | nil => exact linked.2.start_eq
  | cons first front ih => exact ih linked.2

/-- A cell is bypassed by letting the cell before it point to the cell behind it. -/
theorem Linked.bypass {front rest : List Nat} {last cell : Nat}
    (linked : Linked next start (front ++ last :: cell :: rest))
    (distinct : (front ++ last :: cell :: rest).Nodup) :
    Linked (Function.update next last (next cell)) start (front ++ last :: rest) := by
  induction front generalizing start with
  | nil =>
      obtain ⟨first, -, tail⟩ := linked
      refine ⟨first, ?_⟩
      rw [Function.update_self]
      apply tail.congr
      intro later member
      have other : later ≠ last := by
        rintro rfl
        exact (List.nodup_cons.mp distinct).1 (List.mem_cons_of_mem _ member)
      exact Function.update_of_ne other ..
  | cons first front ih =>
      obtain ⟨head, tail⟩ := linked
      obtain ⟨fresh, distinct⟩ := List.nodup_cons.mp distinct
      refine ⟨head, ?_⟩
      have other : first ≠ last := by
        rintro rfl
        exact fresh (by simp)
      rw [Function.update_of_ne other]
      exact ih tail distinct

/-- The walk ends at the last cell, with the one before it. -/
theorem walkToLast_chain {front : List Nat} {last : Nat} (turns : Nat) {prev : Option Nat}
    {cell : Nat} (linked : Linked next start (front ++ [last]))
    (begins : (front ++ [last]).head? = some cell) (enough : front.length ≤ turns) :
    walkToLast next turns prev cell = (front.getLast?.or prev, last) := by
  induction front generalizing start turns prev cell with
  | nil =>
      obtain rfl : last = cell := Option.some.inj begins
      have ends : next last = none := linked.2
      cases turns with
      | zero => rfl
      | succ turns => simp [walkToLast, ends]
  | cons first front ih =>
      obtain rfl : first = cell := Option.some.inj begins
      obtain ⟨turns, rfl⟩ : ∃ fewer, turns = fewer + 1 :=
        Nat.exists_eq_add_one_of_ne_zero (Nat.ne_of_gt (Nat.lt_of_lt_of_le (by simp) enough))
      obtain ⟨-, tail⟩ := linked
      have ahead : ∃ following, (front ++ [last]).head? = some following := by
        cases front with
        | nil => exact ⟨last, rfl⟩
        | cons second front => exact ⟨second, rfl⟩
      obtain ⟨following, head⟩ := ahead
      have behind : next first = some following := tail.start_eq.trans head
      rw [walkToLast, behind]
      dsimp only
      rw [ih turns tail head (Nat.le_of_succ_le_succ enough), List.getLast?_cons]
      cases front.getLast? <;> rfl

theorem Links.push_linked {links : Links} {cells : List Nat} {cell : Nat}
    (linked : Linked links.next links.head cells) (new : cell ∉ cells) :
    Linked (links.push cell).next (links.push cell).head (cell :: cells) := by
  refine ⟨rfl, ?_⟩
  have first : (links.push cell).next cell = links.head := Function.update_self ..
  rw [first]
  apply linked.congr
  intro other member
  exact Function.update_of_ne (ne_of_mem_of_not_mem member new) ..

end Linked

/-! ## The walk -/

section Sweep

variable {σ : Type*} {remove : Nat → Bool} {dispose : σ → Nat → σ}
variable {links : Links} {kept rest : List Nat} {cell : Nat}

/-- Unlinking the cell behind the trailing pointer leaves the other cells linked in
their order. -/
theorem Links.relink_linked
    (linked : Linked links.next links.head (kept ++ cell :: rest))
    (distinct : (kept ++ cell :: rest).Nodup) :
    Linked (links.relink kept.getLast? (links.next cell)).next
      (links.relink kept.getLast? (links.next cell)).head (kept ++ rest) := by
  rcases List.eq_nil_or_concat kept with rfl | ⟨front, last, rfl⟩
  · exact linked.2
  · rw [List.concat_eq_append, List.append_assoc] at linked distinct
    rw [List.concat_eq_append, List.append_assoc, List.getLast?_concat]
    exact linked.bypass distinct

/-- Only the pointer of the cell before is written. -/
theorem Links.relink_next (target : Option Nat) {other : Nat} (outside : other ∉ kept) :
    (links.relink kept.getLast? target).next other = links.next other := by
  cases last : kept.getLast? with
  | none => rfl
  | some prev =>
      have different : other ≠ prev := by
        rintro rfl
        exact outside (List.mem_of_getLast? last)
      exact Function.update_of_ne different ..

/-- What the walk leaves of a chain, of the memory around it and of the accumulator, when
it has come past the cells `kept` and the cells `cells` are ahead. -/
structure Swept (remove : Nat → Bool) (dispose : σ → Nat → σ) (links : Links) (acc : σ)
    (kept cells : List Nat) (result : Links × σ) : Prop where
  linked : Linked result.1.next result.1.head
    (kept ++ cells.filter fun cell => !remove cell)
  frame : ∀ other, other ∉ kept ++ cells → result.1.next other = links.next other
  disposed : result.2 = (cells.filter remove).foldl dispose acc

theorem sweep_from (turns : Nat) (acc : σ) {cells : List Nat}
    (linked : Linked links.next links.head (kept ++ cells))
    (distinct : (kept ++ cells).Nodup) (enough : cells.length ≤ turns) :
    Swept remove dispose links acc kept cells
      (sweep remove dispose turns kept.getLast? cells.head? links acc) := by
  induction cells generalizing turns kept links acc with
  | nil =>
      have ends : sweep remove dispose turns kept.getLast? none links acc = (links, acc) := by
        cases turns <;> rfl
      rw [List.head?_nil, ends]
      exact ⟨linked, fun _ _ => rfl, rfl⟩
  | cons cell rest ih =>
      obtain ⟨turns, rfl⟩ : ∃ fewer, turns = fewer + 1 :=
        Nat.exists_eq_add_one_of_ne_zero (Nat.ne_of_gt (Nat.lt_of_lt_of_le (by simp) enough))
      have behind : links.next cell = rest.head? := linked.next_eq
      have shifted : kept ++ cell :: rest = (kept ++ [cell]) ++ rest := by simp
      rw [List.head?_cons]
      simp only [sweep]
      split
      next removed =>
        have fewer : (kept ++ rest).Sublist (kept ++ cell :: rest) :=
          (List.Sublist.refl kept).append (List.sublist_cons_self cell rest)
        have outside : ∀ other, other ∉ kept ++ cell :: rest →
            (links.relink kept.getLast? (links.next cell)).next other = links.next other :=
          fun other away => Links.relink_next _ fun member =>
            away (List.mem_append_left _ member)
        have swept := ih turns (dispose acc cell) (Links.relink_linked linked distinct)
          (distinct.sublist fewer) (Nat.le_of_succ_le_succ enough)
        rw [behind] at swept outside ⊢
        constructor
        case linked => simpa [removed] using swept.linked
        case frame =>
          intro other away
          rw [swept.frame other fun member => away (fewer.subset member)]
          exact outside other away
        case disposed => simpa [removed] using swept.disposed
      next stays =>
        have last : (kept ++ [cell]).getLast? = some cell := List.getLast?_concat
        rw [shifted] at linked distinct
        have swept := ih turns acc linked distinct (Nat.le_of_succ_le_succ enough)
        rw [last] at swept
        rw [behind]
        constructor
        case linked => simpa [stays] using swept.linked
        case frame => rw [shifted]; exact swept.frame
        case disposed => simpa [stays] using swept.disposed

/-- The walk over a whole chain leaves the cells that the test does not accept, in their
order, and disposes of the others in theirs. -/
theorem sweep_chain (turns : Nat) (acc : σ) {cells : List Nat}
    (linked : Linked links.next links.head cells) (distinct : cells.Nodup)
    (enough : cells.length ≤ turns) :
    Swept remove dispose links acc [] cells
      (sweep remove dispose turns none links.head links acc) := by
  rw [linked.start_eq]
  exact sweep_from turns acc linked distinct enough

/-- What the walk over a table of chains leaves of them. -/
structure SweptAll (remove : Nat → Bool) (dispose : σ → Nat → σ)
    (next : Nat → Option Nat) (acc : σ) (chains : List (List Nat))
    (result : List (Option Nat) × (Nat → Option Nat) × σ) : Prop where
  linked : List.Forall₂ (Linked result.2.1) result.1
    (chains.map (List.filter fun cell => !remove cell))
  frame : ∀ other, other ∉ chains.flatten → result.2.1 other = next other
  disposed : result.2.2 = (chains.flatten.filter remove).foldl dispose acc

/-- The chains of a table share no cells, so the walk over one leaves the others as they
are. -/
theorem sweepAll_chains (turns : Nat) {next : Nat → Option Nat} (acc : σ)
    {heads : List (Option Nat)} {chains : List (List Nat)}
    (linked : List.Forall₂ (Linked next) heads chains) (distinct : chains.flatten.Nodup)
    (enough : ∀ cells ∈ chains, cells.length ≤ turns) :
    SweptAll remove dispose next acc chains
      (sweepAll remove dispose turns heads next acc) := by
  induction chains generalizing heads next acc with
  | nil =>
      cases linked
      exact ⟨.nil, fun _ _ => rfl, rfl⟩
  | cons cells chains ih =>
      cases linked with
      | @cons head _ heads _ first others =>
          rw [List.flatten_cons, List.nodup_append] at distinct
          obtain ⟨here, there, apart⟩ := distinct
          have swept : Swept remove dispose ⟨head, next⟩ acc [] cells _ :=
            sweep_chain turns acc first here (enough cells List.mem_cons_self)
          simp only [sweepAll]
          generalize sweep remove dispose turns none head ⟨head, next⟩ acc = walked
            at swept ⊢
          obtain ⟨links, after⟩ := walked
          have untouched : ∀ cell ∈ chains.flatten, links.next cell = next cell :=
            fun cell later => swept.frame cell fun now => apart cell now cell later rfl
          have rest := ih after (Linked.congr_all others untouched) there fun later member =>
            enough later (List.mem_cons_of_mem _ member)
          generalize sweepAll remove dispose turns heads links.next after = result
            at rest ⊢
          constructor
          case linked =>
            refine .cons (swept.linked.congr ?_) rest.linked
            intro cell member
            have now : cell ∈ cells := List.mem_of_mem_filter member
            exact rest.frame cell fun later => apart cell now cell later rfl
          case frame =>
            intro other away
            rw [List.flatten_cons, List.mem_append, not_or] at away
            rw [rest.frame other away.2]
            exact swept.frame other away.1
          case disposed =>
            rw [List.flatten_cons, List.filter_append, List.foldl_append,
              ← swept.disposed]
            exact rest.disposed

end Sweep

end NetDefender.Chain
