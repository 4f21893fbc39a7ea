import Mathlib.Data.List.Chain
import Mathlib.Logic.Function.Basic

/-!
# Rings of nodes

Circular lists of nodes in memory that are linked both ways, with the head of the list as one
of the nodes.  A node is put in and taken out by writing the pointers of its neighbours, so
that the rings through other nodes stay as they are.
-/

namespace NetDefender.Rings

/-- What a pointer to a node holds: nothing, one of two marks of a node that has been taken
out, or a node. -/
inductive Pointer (α : Type) where
  | null
  | poison1
  | poison2
  | to (node : α)
  deriving DecidableEq, Repr

/-- The pointers of every node. -/
structure Memory (α : Type) where
  next : α → Pointer α
  prev : α → Pointer α

namespace Memory

variable {α : Type} [DecidableEq α]

def setNext (m : Memory α) (node : α) (target : Pointer α) : Memory α :=
  { m with next := Function.update m.next node target }

def setPrev (m : Memory α) (node : α) (target : Pointer α) : Memory α :=
  { m with prev := Function.update m.prev node target }

/-- A node is put between two others. -/
def insert (m : Memory α) (new prev next : α) : Memory α :=
  (((m.setPrev next (.to new)).setNext new (.to next)).setPrev new (.to prev)).setNext prev
    (.to new)

/-- Two nodes are made neighbours. -/
def join (m : Memory α) (prev next : α) : Memory α :=
  (m.setPrev next (.to prev)).setNext prev (.to next)

variable (m : Memory α) (node new prev next a : α) (target : Pointer α)

@[simp]
theorem setNext_next : (m.setNext node target).next a = if a = node then target else m.next a :=
  Function.update_apply ..

@[simp]
theorem setNext_prev : (m.setNext node target).prev = m.prev := rfl

@[simp]
theorem setPrev_prev : (m.setPrev node target).prev a = if a = node then target else m.prev a :=
  Function.update_apply ..

@[simp]
theorem setPrev_next : (m.setPrev node target).next = m.next := rfl

@[simp]
theorem insert_next : (m.insert new prev next).next a =
    if a = prev then .to new else if a = new then .to next else m.next a := by
  simp [insert]

@[simp]
theorem insert_prev : (m.insert new prev next).prev a =
    if a = new then .to prev else if a = next then .to new else m.prev a := by
  simp [insert]

@[simp]
theorem join_next : (m.join prev next).next a = if a = prev then .to next else m.next a := by
  simp [join]

@[simp]
theorem join_prev : (m.join prev next).prev a = if a = next then .to prev else m.prev a := by
  simp [join]

end Memory

variable {α : Type} {m m' : Memory α} {head x : α} {nodes front back : List α}

/-! ## Neighbours -/

/-- Two nodes point to each other. -/
def Linked (m : Memory α) (a b : α) : Prop := m.next a = .to b ∧ m.prev b = .to a

theorem Linked.next_unique {a b c : α} (first : Linked m a b) (second : Linked m a c) : b = c :=
  Pointer.to.inj (first.1.symm.trans second.1)

theorem Linked.prev_unique {a b c : α} (first : Linked m a c) (second : Linked m b c) : a = b :=
  Pointer.to.inj (first.2.symm.trans second.2)

/-- The nodes form a ring with the head. -/
def Ring (m : Memory α) (head : α) (nodes : List α) : Prop :=
  (head :: nodes ++ [head]).IsChain (Linked m)

theorem ring_nil : Ring m head [] ↔ m.next head = .to head ∧ m.prev head = .to head :=
  List.isChain_pair

theorem ring_cons : Ring m head (x :: nodes) ↔
    Linked m head x ∧ (x :: (nodes ++ [head])).IsChain (Linked m) :=
  List.isChain_cons_cons

/-- A ring is empty exactly when its head points to itself. -/
theorem Ring.next_head_eq_iff (ring : Ring m head nodes) (apart : head ∉ nodes) :
    m.next head = .to head ↔ nodes = [] := by
  cases nodes with
  | nil => simp [(ring_nil.mp ring).1]
  | cons x nodes =>
      have linked := (ring_cons.mp ring).1
      rw [linked.1]
      simp only [Pointer.to.injEq, List.cons_ne_nil, iff_false]
      rintro rfl
      exact apart List.mem_cons_self

/-- Memories that agree on the nodes of a ring have it both. -/
theorem Ring.congr (ring : Ring m head nodes)
    (same : ∀ a ∈ head :: nodes, m'.next a = m.next a ∧ m'.prev a = m.prev a) :
    Ring m' head nodes := by
  refine List.IsChain.imp_of_mem_imp ?_ ring
  intro a b memberA memberB linked
  have inside {c : α} (member : c ∈ head :: nodes ++ [head]) : c ∈ head :: nodes := by
    simpa [or_comm] using member
  exact ⟨(same a (inside memberA)).1.trans linked.1, (same b (inside memberB)).2.trans linked.2⟩

/-- The node before the nodes that follow, and the node behind them. -/
theorem getLast?_cons_eq (head : α) (front : List α) :
    (head :: front).getLast? = some (front.getLast?.getD head) := by
  simp [List.getLast?_cons]

theorem head?_append_eq (head : α) (back : List α) :
    (back ++ [head]).head? = some (back.head?.getD head) := by
  cases back <;> rfl

theorem getLast?_getD_mem (head : α) (nodes : List α) :
    nodes.getLast?.getD head ∈ head :: nodes :=
  List.mem_of_getLast? (getLast?_cons_eq head nodes)

theorem head?_getD_mem (head : α) (nodes : List α) :
    nodes.head?.getD head ∈ head :: nodes := by
  cases nodes with
  | nil => exact List.mem_cons_self
  | cons x nodes => exact List.mem_cons_of_mem _ List.mem_cons_self

/-- A ring in two parts. -/
theorem ring_append : Ring m head (front ++ back) ↔
    (head :: front).IsChain (Linked m) ∧ (back ++ [head]).IsChain (Linked m) ∧
      Linked m (front.getLast?.getD head) (back.head?.getD head) := by
  rw [Ring, ← List.cons_append, List.append_assoc, List.isChain_append, getLast?_cons_eq,
    head?_append_eq]
  simp

/-- A ring around one of its nodes. -/
theorem ring_append_cons : Ring m head (front ++ x :: back) ↔
    (head :: front).IsChain (Linked m) ∧ (back ++ [head]).IsChain (Linked m) ∧
      Linked m (front.getLast?.getD head) x ∧ Linked m x (back.head?.getD head) := by
  have behind : (x :: (back ++ [head])).IsChain (Linked m) ↔
      Linked m x (back.head?.getD head) ∧ (back ++ [head]).IsChain (Linked m) := by
    rw [List.isChain_cons, head?_append_eq]
    simp
  rw [ring_append, List.cons_append, behind, List.head?_cons, Option.getD_some]
  tauto

/-- The last node of a ring. -/
theorem Ring.prev_head (ring : Ring m head nodes) :
    m.prev head = .to (nodes.getLast?.getD head) := by
  rw [← List.append_nil nodes] at ring
  have linked := (ring_append.mp ring).2.2
  rw [List.head?_nil, Option.getD_none] at linked
  exact linked.2

/-- The first node of a ring. -/
theorem Ring.next_head (ring : Ring m head nodes) : m.next head = .to (nodes.head?.getD head) := by
  rw [← List.nil_append nodes] at ring
  have linked := (ring_append.mp ring).2.2
  rw [List.getLast?_nil, Option.getD_none] at linked
  exact linked.1

variable [DecidableEq α]

/-! ## Nodes that come and go -/

/-- A node is taken out between two others, and marked. -/
def Memory.remove (m : Memory α) (node prev next : α) : Memory α :=
  ((m.join prev next).setNext node .poison1).setPrev node .poison2

@[simp]
theorem Memory.remove_next (m : Memory α) (node prev next a : α) :
    (m.remove node prev next).next a =
      if a = node then .poison1 else if a = prev then .to next else m.next a := by
  simp [Memory.remove]

@[simp]
theorem Memory.remove_prev (m : Memory α) (node prev next a : α) :
    (m.remove node prev next).prev a =
      if a = node then .poison2 else if a = next then .to prev else m.prev a := by
  simp [Memory.remove]

/-- A new node at the end of a ring. -/
theorem Ring.insert (ring : Ring m head nodes) (apart : head ∉ nodes)
    (absent : x ∉ head :: nodes) :
    Ring (m.insert x (nodes.getLast?.getD head) head) head (nodes ++ [x]) := by
  have last : x ≠ nodes.getLast?.getD head := by
    rintro rfl
    exact absent (getLast?_getD_mem head nodes)
  have other : x ≠ head := List.ne_of_not_mem_cons absent
  rw [← List.append_nil nodes] at ring
  obtain ⟨chain, -, linked⟩ := ring_append.mp ring
  refine ring_append_cons.mpr ⟨?_, List.isChain_singleton _, ?_, ?_⟩
  · refine List.IsChain.imp_of_mem_tail_imp ?_ chain
    intro a b memberA memberB pair
    have different : a ≠ x ∧ b ≠ x :=
      ⟨fun same => absent (same ▸ memberA),
        fun same => absent (same ▸ List.mem_of_mem_tail memberB)⟩
    -- the old last node pointed to the head
    have inner : b ≠ head := by
      rintro rfl
      exact apart memberB
    have notLast : a ≠ nodes.getLast?.getD head := by
      rintro rfl
      exact inner (pair.next_unique linked)
    constructor
    · rw [Memory.insert_next, if_neg notLast, if_neg different.1, pair.1]
    · rw [Memory.insert_prev, if_neg different.2, if_neg inner, pair.2]
  · constructor
    · rw [Memory.insert_next, if_pos rfl]
    · rw [Memory.insert_prev, if_pos rfl]
  · constructor
    · rw [Memory.insert_next, if_neg last, if_pos rfl]
      rfl
    · rw [List.head?_nil, Option.getD_none, Memory.insert_prev, if_neg other.symm, if_pos rfl]

/-- A node of a ring is taken out. -/
theorem Ring.remove (ring : Ring m head (front ++ x :: back)) (absentFront : x ∉ head :: front)
    (absentBack : x ∉ head :: back) :
    Ring (m.remove x (front.getLast?.getD head) (back.head?.getD head)) head
      (front ++ back) := by
  obtain ⟨start, rest, before, behind⟩ := ring_append_cons.mp ring
  -- any other two neighbours keep their pointers
  have keeps {a b : α} (notA : a ≠ x) (notB : b ≠ x) (pair : Linked m a b) :
      Linked (m.remove x (front.getLast?.getD head) (back.head?.getD head)) a b := by
    have notPrev : a ≠ front.getLast?.getD head := by
      rintro rfl
      exact notB (pair.next_unique before)
    have notNext : b ≠ back.head?.getD head := by
      rintro rfl
      exact notA (pair.prev_unique behind)
    constructor
    · rw [Memory.remove_next, if_neg notA, if_neg notPrev, pair.1]
    · rw [Memory.remove_prev, if_neg notB, if_neg notNext, pair.2]
  have absentRest : x ∉ back ++ [head] := by
    simpa [and_comm] using absentBack
  refine ring_append.mpr ⟨?_, ?_, ?_, ?_⟩
  · refine List.IsChain.imp_of_mem_imp ?_ start
    intro a b memberA memberB
    exact keeps (fun same => absentFront (same ▸ memberA)) fun same => absentFront (same ▸ memberB)
  · refine List.IsChain.imp_of_mem_imp ?_ rest
    intro a b memberA memberB
    exact keeps (fun same => absentRest (same ▸ memberA)) fun same => absentRest (same ▸ memberB)
  · have notPrev : front.getLast?.getD head ≠ x := fun same =>
      absentFront (same ▸ getLast?_getD_mem head front)
    rw [Memory.remove_next, if_neg notPrev, if_pos rfl]
  · have notNext : back.head?.getD head ≠ x := fun same =>
      absentBack (same ▸ head?_getD_mem head back)
    rw [Memory.remove_prev, if_neg notNext, if_pos rfl]

/-- A node of a ring stands between two nodes of the ring, and can be taken out there. -/
theorem Ring.erase (ring : Ring m head nodes) (distinct : (head :: nodes).Nodup)
    (member : x ∈ nodes) :
    ∃ prev next, m.prev x = .to prev ∧ m.next x = .to next ∧ prev ≠ x ∧
      prev ∈ head :: nodes ∧ next ∈ head :: nodes ∧
      Ring (m.remove x prev next) head (nodes.erase x) := by
  obtain ⟨front, back, absent, rfl, erased⟩ := List.exists_erase_eq member
  obtain ⟨apart, inner⟩ := List.nodup_cons.mp distinct
  obtain ⟨-, inner', disjoint⟩ := List.nodup_append.mp inner
  have other : x ≠ head := by
    rintro rfl
    exact apart member
  have absentFront : x ∉ head :: front := List.not_mem_cons_of_ne_of_not_mem other absent
  have absentBack : x ∉ head :: back :=
    List.not_mem_cons_of_ne_of_not_mem other (List.nodup_cons.mp inner').1
  obtain ⟨-, -, before, behind⟩ := ring_append_cons.mp ring
  have last := getLast?_getD_mem head front
  refine ⟨_, _, before.2, behind.1, fun same => absentFront (same ▸ last), ?_, ?_, ?_⟩
  · exact List.cons_subset_cons _ (List.subset_append_left _ _) last
  · refine List.cons_subset_cons _ ?_ (head?_getD_mem head back)
    intro y inside
    exact List.mem_append_right _ (List.mem_cons_of_mem _ inside)
  · rw [erased]
    exact ring.remove absentFront absentBack

/-! ## Rings that stay -/

/-- A ring that has nothing to do with a new node and its neighbours. -/
theorem Ring.insert_apart (ring : Ring m head nodes) {prev next : α}
    (absent : x ∉ head :: nodes) (absentPrev : prev ∉ head :: nodes)
    (absentNext : next ∉ head :: nodes) : Ring (m.insert x prev next) head nodes := by
  refine ring.congr fun a member => ⟨?_, ?_⟩
  · rw [Memory.insert_next, if_neg (ne_of_mem_of_not_mem member absentPrev),
      if_neg (ne_of_mem_of_not_mem member absent)]
  · rw [Memory.insert_prev, if_neg (ne_of_mem_of_not_mem member absent),
      if_neg (ne_of_mem_of_not_mem member absentNext)]

/-- A ring that has nothing to do with a node that is taken out and its neighbours. -/
theorem Ring.remove_apart (ring : Ring m head nodes) {prev next : α}
    (absent : x ∉ head :: nodes) (absentPrev : prev ∉ head :: nodes)
    (absentNext : next ∉ head :: nodes) : Ring (m.remove x prev next) head nodes := by
  refine ring.congr fun a member => ⟨?_, ?_⟩
  · rw [Memory.remove_next, if_neg (ne_of_mem_of_not_mem member absent),
      if_neg (ne_of_mem_of_not_mem member absentPrev)]
  · rw [Memory.remove_prev, if_neg (ne_of_mem_of_not_mem member absent),
      if_neg (ne_of_mem_of_not_mem member absentNext)]

end NetDefender.Rings
