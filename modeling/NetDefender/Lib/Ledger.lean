import Mathlib.Algebra.BigOperators.Group.Finset.Piecewise
import Mathlib.Data.List.Flatten

/-!
# Ledgers

A record of what several parties have done, in the order in which it was done.  Each party has
its own part of the record, and an entry is about a list of items: the items that all parties
have dealt with are an interleaving of those that each has dealt with.
-/

namespace NetDefender.Ledger

variable {Party Entry Item : Type} [DecidableEq Party]

/-- The entries of one party. -/
def own (party : Party) (record : List (Party × Entry)) : List Entry :=
  record.filterMap fun line => if line.1 = party then some line.2 else none

/-- The items of a record. -/
def items (about : Entry → List Item) (record : List (Party × Entry)) : List Item :=
  record.flatMap fun line => about line.2

variable {party other : Party} {entry : Entry} {about : Entry → List Item}
  {front back record : List (Party × Entry)} {entries : List Entry}

@[simp]
theorem own_nil : own party ([] : List (Party × Entry)) = [] := rfl

@[simp]
theorem own_append : own party (front ++ back) = own party front ++ own party back :=
  List.filterMap_append

@[simp]
theorem own_map_self : own party (entries.map (Prod.mk party)) = entries := by
  simp [own, List.filterMap_map]

theorem own_map_of_ne (different : other ≠ party) :
    own party (entries.map (Prod.mk other)) = [] := by
  simp [own, List.filterMap_map, different]

theorem mem_own : entry ∈ own party record ↔ (party, entry) ∈ record := by
  simp only [own, List.mem_filterMap]
  constructor
  · rintro ⟨⟨actor, done⟩, member, here⟩
    split at here
    next same =>
      cases here
      cases same
      exact member
    next => cases here
  · intro member
    exact ⟨(party, entry), member, if_pos rfl⟩

omit [DecidableEq Party] in
@[simp]
theorem items_nil : items about ([] : List (Party × Entry)) = [] := rfl

omit [DecidableEq Party] in
@[simp]
theorem items_append : items about (front ++ back) = items about front ++ items about back :=
  List.flatMap_append

omit [DecidableEq Party] in
@[simp]
theorem items_map : items about (entries.map (Prod.mk party)) = entries.flatMap about :=
  List.flatMap_map ..

/-- What one party has dealt with keeps its order. -/
theorem own_sublist : ((own party record).flatMap about).Sublist (items about record) := by
  induction record with
  | nil => exact List.Sublist.refl _
  | cons line record ih =>
      rw [own, List.filterMap_cons, items, List.flatMap_cons]
      by_cases same : line.1 = party
      · rw [if_pos same]
        exact List.Sublist.append (List.Sublist.refl _) ih
      · rw [if_neg same]
        exact ih.trans (List.sublist_append_right _ _)

/-- Items that only one party deals with. -/
theorem items_eq_own (alone : ∀ line ∈ record, line.1 ≠ party → about line.2 = []) :
    items about record = (own party record).flatMap about := by
  induction record with
  | nil => rfl
  | cons line record ih =>
      obtain ⟨here, later⟩ := List.forall_mem_cons.mp alone
      rw [own, List.filterMap_cons, items, List.flatMap_cons]
      by_cases same : line.1 = party
      · rw [if_pos same]
        exact congrArg (about line.2 ++ ·) (ih later)
      · rw [if_neg same, here same, List.nil_append]
        exact ih later

/-- Each item that is dealt with is dealt with by one party. -/
theorem coe_items [Fintype Party] : (items about record : Multiset Item) =
    ∑ party, (((own party record).flatMap about : List Item) : Multiset Item) := by
  induction record with
  | nil => simp
  | cons line record ih =>
      have first (party : Party) :
          (((own party (line :: record)).flatMap about : List Item) : Multiset Item) =
            (if line.1 = party then (about line.2 : Multiset Item) else 0) +
              ((own party record).flatMap about : List Item) := by
        rw [own, List.filterMap_cons]
        by_cases same : line.1 = party
        · rw [if_pos same, if_pos same, List.flatMap_cons, Multiset.coe_add]
          rfl
        · rw [if_neg same, if_neg same, zero_add]
          rfl
      simp only [first, Finset.sum_add_distrib, Finset.sum_ite_eq, Finset.mem_univ, if_true,
        ← ih]
      rw [items, List.flatMap_cons, ← Multiset.coe_add]
      rfl

end NetDefender.Ledger
