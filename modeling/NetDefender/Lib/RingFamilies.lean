import NetDefender.Lib.Rings

/-!
# Families of rings

Rings that have no node in common, each with a head of its own.  A node that is on none of them
can be put on one, and one that is on a ring can be taken off and left alone; a node that is put
on a second ring breaks the first.  The nodes of a ring are walked along the pointers.
-/

namespace NetDefender.Rings

variable {α : Type} {ι : Type*} [DecidableEq α] {m : Memory α} {head x : α} {nodes front back : List α}

/-! ## Nodes left alone -/

/-- A node is taken out between two others, and points to itself. -/
def Memory.isolate (m : Memory α) (node prev next : α) : Memory α :=
  ((m.join prev next).setNext node (.to node)).setPrev node (.to node)

@[simp]
theorem Memory.isolate_next (m : Memory α) (node prev next a : α) :
    (m.isolate node prev next).next a =
      if a = node then .to node else if a = prev then .to next else m.next a := by
  simp [Memory.isolate]

@[simp]
theorem Memory.isolate_prev (m : Memory α) (node prev next a : α) :
    (m.isolate node prev next).prev a =
      if a = node then .to node else if a = next then .to prev else m.prev a := by
  simp [Memory.isolate]

/-- Rings that do not hold the node do not see how it is marked. -/
theorem Ring.isolate_of_remove {prev next : α} (ring : Ring (m.remove x prev next) head nodes)
    (absent : x ∉ head :: nodes) : Ring (m.isolate x prev next) head nodes := by
  apply ring.congr
  intro a member
  have other : a ≠ x := ne_of_mem_of_not_mem member absent
  simp [other]

/-! ## Walks -/

/-- The nodes from a position up to the head, along the pointers. -/
def Memory.walk (m : Memory α) (head : α) : Nat → α → Option (List α)
  | 0, _ => none
  | fuel + 1, position =>
      if position = head then some []
      else
        match m.next position with
        | .to next => (m.walk head fuel next).map (position :: ·)
        | _ => none

/-- Whether a node is found from a position up to the head; what is behind it is not read. -/
def Memory.search (m : Memory α) (head x : α) : Nat → α → Option Bool
  | 0, _ => none
  | fuel + 1, position =>
      if position = head then some false
      else if position = x then some true
      else
        match m.next position with
        | .to next => m.search head x fuel next
        | _ => none

/-- The pointers lead from a position over the nodes to the head. -/
theorem walk_chain {fuel : Nat} {position : α} (chain : (nodes ++ [head]).IsChain (Linked m))
    (first : (nodes ++ [head]).head? = some position) (apart : head ∉ nodes)
    (enough : nodes.length < fuel) : m.walk head fuel position = some nodes := by
  induction nodes generalizing fuel position with
  | nil =>
      cases first
      cases fuel with
      | zero => cases enough
      | succ fuel => rw [Memory.walk, if_pos rfl]
  | cons a nodes ih =>
      cases first
      obtain ⟨other, outside⟩ := List.ne_and_not_mem_of_not_mem_cons apart
      cases fuel with
      | zero => cases enough
      | succ fuel =>
          obtain ⟨next, begins⟩ : ∃ next, (nodes ++ [head]).head? = some next := by
            cases nodes <;> exact ⟨_, rfl⟩
          obtain ⟨linked, later⟩ := List.isChain_cons.mp chain
          rw [Memory.walk, if_neg other.symm, (linked next begins).1]
          dsimp only
          rw [ih later begins outside (Nat.lt_of_succ_lt_succ enough), Option.map_some]

theorem search_chain {fuel : Nat} {position : α} (chain : (nodes ++ [head]).IsChain (Linked m))
    (first : (nodes ++ [head]).head? = some position) (apart : head ∉ nodes)
    (enough : nodes.length < fuel) :
    m.search head x fuel position = some (decide (x ∈ nodes)) := by
  induction nodes generalizing fuel position with
  | nil =>
      cases first
      cases fuel with
      | zero => cases enough
      | succ fuel => simp [Memory.search]
  | cons a nodes ih =>
      cases first
      obtain ⟨other, outside⟩ := List.ne_and_not_mem_of_not_mem_cons apart
      cases fuel with
      | zero => cases enough
      | succ fuel =>
          obtain ⟨next, begins⟩ : ∃ next, (nodes ++ [head]).head? = some next := by
            cases nodes <;> exact ⟨_, rfl⟩
          obtain ⟨linked, later⟩ := List.isChain_cons.mp chain
          rw [Memory.search, if_neg other.symm]
          by_cases found : a = x
          · simp [found]
          · rw [if_neg found, (linked next begins).1]
            dsimp only
            rw [ih later begins outside (Nat.lt_of_succ_lt_succ enough)]
            simp [Ne.symm found]

theorem Ring.walk {fuel : Nat} (ring : Ring m head nodes) (apart : head ∉ nodes)
    (enough : nodes.length < fuel) : m.walk head fuel (nodes.head?.getD head) = some nodes :=
  walk_chain (List.IsChain.tail ring) (head?_append_eq head nodes) apart enough

theorem Ring.search {fuel : Nat} (ring : Ring m head nodes) (apart : head ∉ nodes)
    (enough : nodes.length < fuel) :
    m.search head x fuel (nodes.head?.getD head) = some (decide (x ∈ nodes)) :=
  search_chain (List.IsChain.tail ring) (head?_append_eq head nodes) apart enough

/-- A walk that stays among nodes other than the head does not end. -/
theorem walk_closed {inside : α → Prop} (closed : ∀ a, inside a → ∃ b, inside b ∧ m.next a = .to b)
    (outside : ¬inside head) (fuel : Nat) {position : α} (here : inside position) :
    m.walk head fuel position = none := by
  induction fuel generalizing position with
  | zero => rfl
  | succ fuel ih =>
      obtain ⟨next, within, points⟩ := closed position here
      have other : position ≠ head := fun same => outside (same ▸ here)
      rw [Memory.walk, if_neg other, points]
      dsimp only
      rw [ih within, Option.map_none]

omit [DecidableEq α] in
/-- A node of a ring points to one of the ring: the first of those behind it. -/
theorem Ring.next_of_append (ring : Ring m head (front ++ x :: back)) :
    m.next x = .to (back.head?.getD head) := (ring_append_cons.mp ring).2.2.2.1

omit [DecidableEq α] in
theorem Ring.next_mem (ring : Ring m head nodes) (member : x ∈ head :: nodes) :
    ∃ b ∈ head :: nodes, m.next x = .to b := by
  cases List.mem_cons.mp member with
  | inl same =>
      rw [same]
      exact ⟨_, head?_getD_mem head nodes, ring.next_head⟩
  | inr inside =>
      obtain ⟨front, back, rfl⟩ := List.append_of_mem inside
      refine ⟨_, ?_, ring.next_of_append⟩
      apply List.cons_subset_cons _ _ (head?_getD_mem head back)
      intro a behind
      exact List.mem_append_right _ (List.mem_cons_of_mem _ behind)

/-! ## Families -/

/-- Rings that have no node in common. -/
structure Family (m : Memory α) (head : ι → α) (nodes : ι → List α) : Prop where
  rings : ∀ i, Ring m (head i) (nodes i)
  nodup : ∀ i, (head i :: nodes i).Nodup
  apart : ∀ i j a, a ∈ head i :: nodes i → a ∈ head j :: nodes j → i = j

section Family

variable [DecidableEq ι] {head : ι → α} {nodes : ι → List α} {i j : ι}

omit [DecidableEq α] [DecidableEq ι] in
theorem Family.head_not_mem (family : Family m head nodes) (i : ι) : head i ∉ nodes i :=
  (List.nodup_cons.mp (family.nodup i)).1

/-- A node that is on no ring is put behind the nodes of one. -/
theorem Family.insert (family : Family m head nodes) (free : ∀ j, x ∉ head j :: nodes j) (i : ι) :
    Family (m.insert x ((nodes i).getLast?.getD (head i)) (head i)) head
      (Function.update nodes i (nodes i ++ [x])) := by
  have last := getLast?_getD_mem (head i) (nodes i)
  constructor
  · intro j
    by_cases here : j = i
    · subst here
      rw [Function.update_self]
      exact (family.rings j).insert (family.head_not_mem j) (free j)
    · rw [Function.update_of_ne here]
      have outside : ∀ a ∈ head i :: nodes i, a ∉ head j :: nodes j := fun a inside there =>
        here (family.apart j i a there inside)
      exact (family.rings j).insert_apart (free j) (outside _ last)
        (outside _ List.mem_cons_self)
  · intro j
    by_cases here : j = i
    · subst here
      rw [Function.update_self, ← List.cons_append]
      exact List.nodup_append.mpr ⟨family.nodup j, by simp, by
        intro a inside b single
        cases List.mem_singleton.mp single
        exact ne_of_mem_of_not_mem inside (free j)⟩
    · rw [Function.update_of_ne here]
      exact family.nodup j
  · have old : ∀ j a, a ∈ head j :: Function.update nodes i (nodes i ++ [x]) j →
        a ∈ head j :: nodes j ∨ a = x ∧ j = i := by
      intro j a member
      by_cases here : j = i
      · subst here
        rw [Function.update_self, ← List.cons_append, List.mem_append, List.mem_singleton] at member
        exact member.imp_right fun same => ⟨same, rfl⟩
      · rw [Function.update_of_ne here] at member
        exact Or.inl member
    intro j k a first second
    cases old j a first with
    | inl before =>
        cases old k a second with
        | inl before' => exact family.apart j k a before before'
        | inr new => exact absurd (new.1 ▸ before) (free j)
    | inr new =>
        cases old k a second with
        | inl before' => exact absurd (new.1 ▸ before') (free k)
        | inr new' => exact new.2.trans new'.2.symm

omit [DecidableEq ι] in
/-- A node that is put on a second ring breaks the first: a walk from its head does not end. -/
theorem Family.insert_breaks (family : Family m head nodes) (member : x ∈ nodes j)
    (other : i ≠ j) (fuel : Nat) {first : α}
    (begins : (m.insert x ((nodes i).getLast?.getD (head i)) (head i)).next (head j) = .to first) :
    (m.insert x ((nodes i).getLast?.getD (head i)) (head i)).walk (head j) fuel first = none := by
  have last := getLast?_getD_mem (head i) (nodes i)
  obtain ⟨front, back, parts⟩ := List.append_of_mem member
  have distinct := family.nodup j
  have ring := family.rings j
  rw [parts] at distinct ring
  have among : ∀ a ∈ head j :: front, a ∈ head j :: nodes j := by
    intro a inside
    rw [parts]
    exact List.cons_subset_cons _ (List.subset_append_left _ _) inside
  -- in front of the node, the pointers are those of the old ring
  have keeps : ∀ a ∈ head j :: front,
      (m.insert x ((nodes i).getLast?.getD (head i)) (head i)).next a = m.next a := by
    intro a inside
    have notLast : a ≠ (nodes i).getLast?.getD (head i) := by
      rintro rfl
      exact other (family.apart i j _ last (among _ inside))
    have notNode : a ≠ x := by
      rw [← List.cons_append, List.nodup_append] at distinct
      exact distinct.2.2 a inside x List.mem_cons_self
    rw [Memory.insert_next, if_neg notLast, if_neg notNode]
  -- from there the pointers lead into the other ring, and back to the node
  let inside (a : α) : Prop := a ∈ front ++ [x] ∨ a ∈ head i :: nodes i
  have outside : ¬inside (head j) := by
    rintro (here | there)
    · apply (List.nodup_cons.mp distinct).1
      rw [List.append_cons]
      exact List.mem_append_left back here
    · exact other (family.apart i j _ there List.mem_cons_self)
  have ahead : ∀ behind, (behind ++ x :: back).head?.getD (head j) ∈ behind ++ [x] := by
    intro behind
    cases behind with
    | nil => exact List.mem_singleton_self x
    | cons b behind => exact List.mem_cons_self
  have closed : ∀ a, inside a → ∃ b, inside b ∧
      (m.insert x ((nodes i).getLast?.getD (head i)) (head i)).next a = .to b := by
    rintro a (here | there)
    · cases List.mem_append.mp here with
      | inl before =>
          obtain ⟨start, behind, rfl⟩ := List.append_of_mem before
          have points := keeps a (List.mem_cons_of_mem _ before)
          rw [List.append_assoc, List.cons_append] at ring
          refine ⟨_, Or.inl ?_, points.trans ring.next_of_append⟩
          rw [List.append_assoc]
          exact List.mem_append_right _ (List.mem_cons_of_mem _ (ahead behind))
      | inr same =>
          cases List.mem_singleton.mp same
          rw [Memory.insert_next]
          split
          next => exact ⟨x, Or.inl here, rfl⟩
          next => exact ⟨head i, Or.inr List.mem_cons_self, if_pos rfl⟩
    · rw [Memory.insert_next]
      split
      next => exact ⟨x, Or.inl (List.mem_append_right _ (List.mem_singleton_self x)), rfl⟩
      next =>
        split
        next => exact ⟨head i, Or.inr List.mem_cons_self, rfl⟩
        next =>
          obtain ⟨b, within, points⟩ := (family.rings i).next_mem there
          exact ⟨b, Or.inr within, points⟩
  apply walk_closed closed outside
  rw [keeps _ List.mem_cons_self, ring.next_head, Pointer.to.injEq] at begins
  exact Or.inl (begins ▸ ahead front)

/-- A node of a ring is taken off, and points to itself. -/
theorem Family.isolate (family : Family m head nodes) (member : x ∈ nodes i) :
    ∃ prev next, m.prev x = .to prev ∧ m.next x = .to next ∧
      Family (m.isolate x prev next) head (Function.update nodes i ((nodes i).erase x)) := by
  obtain ⟨prev, next, before, behind, -, memPrev, memNext, ring⟩ :=
    (family.rings i).erase (family.nodup i) member
  have distinct := (List.nodup_cons.mp (family.nodup i)).2
  have other : x ≠ head i := ne_of_mem_of_not_mem member (family.head_not_mem i)
  have sub : ∀ j a, a ∈ head j :: Function.update nodes i ((nodes i).erase x) j →
      a ∈ head j :: nodes j := by
    intro j a inside
    by_cases here : j = i
    · subst here
      rw [Function.update_self] at inside
      exact List.cons_subset_cons _ List.erase_subset inside
    · rwa [Function.update_of_ne here] at inside
  refine ⟨prev, next, before, behind, ?_, ?_, ?_⟩
  · intro j
    by_cases here : j = i
    · subst here
      rw [Function.update_self]
      apply ring.isolate_of_remove
      exact List.not_mem_cons_of_ne_of_not_mem other distinct.not_mem_erase
    · rw [Function.update_of_ne here]
      have outside : ∀ a ∈ head i :: nodes i, a ∉ head j :: nodes j := fun a inside there =>
        here (family.apart j i a there inside)
      have absent := outside x (List.mem_cons_of_mem _ member)
      exact ((family.rings j).remove_apart absent (outside _ memPrev)
        (outside _ memNext)).isolate_of_remove absent
  · intro j
    by_cases here : j = i
    · subst here
      rw [Function.update_self]
      exact List.nodup_cons.mpr ⟨fun inside => family.head_not_mem j (List.erase_subset inside),
        distinct.erase x⟩
    · rw [Function.update_of_ne here]
      exact family.nodup j
  · exact fun j k a first second => family.apart j k a (sub j a first) (sub k a second)

end Family

end NetDefender.Rings
