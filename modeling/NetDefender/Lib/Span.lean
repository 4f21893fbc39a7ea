import Mathlib.Data.List.TakeWhile
import Mathlib.Tactic.Tauto

/-!
# Queues of spans

Half-open intervals of natural numbers, kept in a list.  A list of spans is
laminar when each later span lies wholly behind an earlier one or is nested
inside it.  Cutting a new span out of every entry, inserting it by its start, and
joining neighbours all keep a list laminar and keep, or extend by the new span,
the set of positions it covers.
-/

/-- The positions `lo`, `lo + 1`, …, up to but excluding `hi`. -/
structure Span where
  lo : Nat
  hi : Nat
  deriving DecidableEq, Repr

namespace Span

/-- Membership of a position. -/
def Has (span : Span) (position : Nat) : Prop :=
  span.lo ≤ position ∧ position < span.hi

instance (span : Span) (position : Nat) : Decidable (span.Has position) :=
  inferInstanceAs (Decidable (_ ∧ _))

/-- A span with at least one position. -/
def Proper (span : Span) : Prop := span.lo < span.hi

/-- A position is covered by some span of the list. -/
def Covered (spans : List Span) (position : Nat) : Prop :=
  ∃ span ∈ spans, span.Has position

instance (spans : List Span) (position : Nat) :
    Decidable (Covered spans position) :=
  inferInstanceAs (Decidable (∃ span ∈ spans, span.Has position))

@[simp] theorem covered_nil (position : Nat) : ¬Covered [] position := by
  simp [Covered]

@[simp] theorem covered_cons (span : Span) (spans : List Span) (position : Nat) :
    Covered (span :: spans) position ↔
      span.Has position ∨ Covered spans position := by
  simp [Covered]

@[simp] theorem covered_append (left right : List Span) (position : Nat) :
    Covered (left ++ right) position ↔
      Covered left position ∨ Covered right position := by
  simp [Covered, or_and_right, exists_or]

/-- The order of a laminar list: `later` lies behind `earlier`, or inside it. -/
def Precedes (earlier later : Span) : Prop :=
  earlier.hi ≤ later.lo ∨ (earlier.lo ≤ later.lo ∧ later.hi ≤ earlier.hi)

/-- A list of proper spans in which any two are ordered by `Precedes`. -/
structure Laminar (spans : List Span) : Prop where
  proper : ∀ span ∈ spans, span.Proper
  ordered : spans.Pairwise Precedes

theorem Precedes.lo_le {earlier later : Span} (precedes : Precedes earlier later)
    (proper : earlier.Proper) : earlier.lo ≤ later.lo := by
  simp only [Precedes, Proper] at *
  omega

theorem laminar_nil : Laminar [] :=
  ⟨by simp, List.Pairwise.nil⟩

theorem laminar_cons {span : Span} {spans : List Span} :
    Laminar (span :: spans) ↔
      span.Proper ∧ (∀ later ∈ spans, Precedes span later) ∧ Laminar spans := by
  constructor
  · intro laminar
    have ordered := List.pairwise_cons.mp laminar.ordered
    exact ⟨laminar.proper span List.mem_cons_self, ordered.1,
      fun later member => laminar.proper later (List.mem_cons_of_mem _ member),
      ordered.2⟩
  · rintro ⟨proper, before, laminar⟩
    refine ⟨?_, List.pairwise_cons.mpr ⟨before, laminar.ordered⟩⟩
    intro other member
    cases member with
    | head => exact proper
    | tail _ member => exact laminar.proper other member

theorem Laminar.lo_le {span : Span} {spans : List Span}
    (laminar : Laminar (span :: spans)) :
    ∀ later ∈ span :: spans, span.lo ≤ later.lo := by
  intro later member
  cases member with
  | head => exact le_rfl
  | tail _ member =>
      exact ((laminar_cons.mp laminar).2.1 later member).lo_le
        (laminar_cons.mp laminar).1

/-! ## Cutting a new span out of the entries -/

/-- What remains of `span` when the positions of `new` are taken out of it.  An
entry that reaches past the new span on both sides is left whole. -/
def cut (new span : Span) : Option Span :=
  if new.lo ≤ span.lo ∧ span.hi ≤ new.hi then none
  else if new.lo < span.lo ∧ span.lo < new.hi ∧ new.hi < span.hi then
    some ⟨new.hi, span.hi⟩
  else if span.lo < new.lo ∧ new.lo < span.hi ∧ span.hi ≤ new.hi then
    some ⟨span.lo, new.lo⟩
  else some span

section Cut

variable {new span kept other otherKept : Span} {position : Nat}

/-- The three ways in which an entry survives a cut. -/
theorem cut_cases (result : cut new span = some kept) :
    ¬(new.lo ≤ span.lo ∧ span.hi ≤ new.hi) ∧
      ((new.lo < span.lo ∧ span.lo < new.hi ∧ new.hi < span.hi ∧
          kept.lo = new.hi ∧ kept.hi = span.hi) ∨
        (span.lo < new.lo ∧ new.lo < span.hi ∧ span.hi ≤ new.hi ∧
          kept.lo = span.lo ∧ kept.hi = new.lo) ∨
        (¬(new.lo < span.lo ∧ span.lo < new.hi ∧ new.hi < span.hi) ∧
          ¬(span.lo < new.lo ∧ new.lo < span.hi ∧ span.hi ≤ new.hi) ∧
          kept.lo = span.lo ∧ kept.hi = span.hi)) := by
  rw [cut] at result
  split at result
  next => cases result
  next notInside =>
    refine ⟨notInside, ?_⟩
    split at result
    next start =>
      cases result
      exact Or.inl ⟨start.1, start.2.1, start.2.2, rfl, rfl⟩
    next notStart =>
      split at result
      next stop =>
        cases result
        exact Or.inr (Or.inl ⟨stop.1, stop.2.1, stop.2.2, rfl, rfl⟩)
      next notStop =>
        cases result
        exact Or.inr (Or.inr ⟨notStart, notStop, rfl, rfl⟩)

theorem has_of_cut (result : cut new span = some kept)
    (inside : kept.Has position) : span.Has position := by
  have cases := cut_cases result
  simp only [Has] at *
  omega

theorem has_cut (inside : span.Has position) (outside : ¬new.Has position) :
    ∃ kept, cut new span = some kept ∧ kept.Has position := by
  simp only [Has] at *
  cases result : cut new span with
  | none =>
      rw [cut] at result
      split at result
      next => omega
      next =>
        split at result
        next => cases result
        next => split at result <;> cases result
  | some kept =>
      have cases := cut_cases result
      exact ⟨kept, rfl, by omega⟩

theorem proper_cut (proper : span.Proper) (result : cut new span = some kept) :
    kept.Proper := by
  have cases := cut_cases result
  simp only [Proper] at *
  omega

theorem cut_bounds (result : cut new span = some kept) :
    (kept.lo = span.lo ∨ kept.lo = new.hi) ∧ kept.hi ≤ span.hi := by
  have cases := cut_cases result
  omega

/-- An entry that was cut is disjoint from the new span or contains it. -/
theorem cut_apart (result : cut new span = some kept) :
    kept.hi ≤ new.lo ∨ new.hi ≤ kept.lo ∨
      (kept.lo ≤ new.lo ∧ new.hi ≤ kept.hi) := by
  have cases := cut_cases result
  omega

/-- An entry that does not reach past both ends of the new span is disjoint from
it after the cut. -/
theorem cut_disjoint (result : cut new span = some kept)
    (notInside : ¬(span.lo ≤ new.lo ∧ new.hi < span.hi)) :
    kept.hi ≤ new.lo ∨ new.hi ≤ kept.lo := by
  have cases := cut_cases result
  omega

theorem precedes_cut (newProper : new.Proper) (spanProper : span.Proper)
    (otherProper : other.Proper) (precedes : Precedes span other)
    (result : cut new span = some kept)
    (otherResult : cut new other = some otherKept) :
    Precedes kept otherKept := by
  have spanCases := cut_cases result
  have otherCases := cut_cases otherResult
  simp only [Proper, Precedes] at *
  omega

end Cut

theorem laminar_cut {new : Span} (newProper : new.Proper) {spans : List Span}
    (laminar : Laminar spans) : Laminar (spans.filterMap (cut new)) := by
  induction spans with
  | nil => exact laminar_nil
  | cons span spans inductionHypothesis =>
      obtain ⟨proper, before, tail⟩ := laminar_cons.mp laminar
      rw [List.filterMap_cons]
      split
      next => exact inductionHypothesis tail
      next kept result =>
        refine laminar_cons.mpr ⟨proper_cut proper result, ?_,
          inductionHypothesis tail⟩
        intro later member
        obtain ⟨other, inSpans, otherResult⟩ := List.mem_filterMap.mp member
        exact precedes_cut newProper proper (tail.proper other inSpans)
          (before other inSpans) result otherResult

theorem covered_cut (new : Span) (spans : List Span) (position : Nat) :
    new.Has position ∨ Covered (spans.filterMap (cut new)) position ↔
      new.Has position ∨ Covered spans position := by
  constructor
  · rintro (inNew | ⟨kept, member, inside⟩)
    · exact Or.inl inNew
    · obtain ⟨span, inSpans, result⟩ := List.mem_filterMap.mp member
      exact Or.inr ⟨span, inSpans, has_of_cut result inside⟩
  · rintro (inNew | ⟨span, inSpans, inside⟩)
    · exact Or.inl inNew
    · by_cases inNew : new.Has position
      · exact Or.inl inNew
      · obtain ⟨kept, result, inKept⟩ := has_cut inside inNew
        exact Or.inr
          ⟨kept, List.mem_filterMap.mpr ⟨span, inSpans, result⟩, inKept⟩

/-! ## Inserting by the start -/

/-- Inserting the new span behind the entries that start no later keeps a list
that was cut by it laminar. -/
theorem laminar_insert {new : Span} (newProper : new.Proper)
    {spans front back : List Span} (laminar : Laminar spans)
    (split : spans.filterMap (cut new) = front ++ back)
    (front_le : ∀ span ∈ front, span.lo ≤ new.lo)
    (back_gt : ∀ span ∈ back.head?, new.lo < span.lo) :
    Laminar (front ++ new :: back) := by
  have cutLaminar := laminar_cut newProper laminar
  have apart : ∀ span ∈ front ++ back, span.hi ≤ new.lo ∨ new.hi ≤ span.lo ∨
      (span.lo ≤ new.lo ∧ new.hi ≤ span.hi) := by
    intro span member
    rw [← split] at member
    obtain ⟨_, _, result⟩ := List.mem_filterMap.mp member
    exact cut_apart result
  rw [split] at cutLaminar
  obtain ⟨frontOrdered, backOrdered, across⟩ :=
    List.pairwise_append.mp cutLaminar.ordered
  have proper : ∀ span ∈ front ++ back, span.Proper := cutLaminar.proper
  have backAfter : ∀ span ∈ back, new.hi ≤ span.lo := by
    cases back with
    | nil => simp
    | cons first rest =>
        have firstAfter := back_gt first rfl
        have backLaminar : Laminar (first :: rest) :=
          ⟨fun span member => proper span (List.mem_append_right _ member),
            backOrdered⟩
        intro span member
        have sorted := backLaminar.lo_le span member
        have nonempty := backLaminar.proper span member
        have cases := apart span (List.mem_append_right _ member)
        simp only [Proper] at nonempty
        omega
  have frontBefore : ∀ span ∈ front, Precedes span new := by
    intro span member
    have early := front_le span member
    have cases := apart span (List.mem_append_left _ member)
    simp only [Proper, Precedes] at *
    omega
  refine ⟨?_, List.pairwise_append.mpr ⟨frontOrdered,
    List.pairwise_cons.mpr ⟨fun span member => Or.inl (backAfter span member),
      backOrdered⟩, ?_⟩⟩
  · intro span member
    rw [List.mem_append, List.mem_cons] at member
    rcases member with member | rfl | member
    · exact proper span (List.mem_append_left _ member)
    · exact newProper
    · exact proper span (List.mem_append_right _ member)
  · intro earlier inFront later member
    cases member with
    | head => exact frontBefore earlier inFront
    | tail _ member => exact across earlier inFront later member

/-! ## Lists sorted by the start -/

/-- The starts of the spans do not decrease. -/
def Sorted (spans : List Span) : Prop :=
  spans.Pairwise fun earlier later => earlier.lo ≤ later.lo

/-- Cutting keeps the order of the starts: a start that is moved forward to
`new.hi` takes along, or removes, every entry that it would overtake. -/
theorem sorted_cut {spans : List Span} (new : Span) (sorted : Sorted spans) :
    Sorted (spans.filterMap (cut new)) := by
  apply List.Pairwise.filterMap _ _ sorted
  intro earlier later order kept result laterKept laterResult
  have cases := cut_cases result
  have laterCases := cut_cases laterResult
  omega

/-- Only the starts matter to the order. -/
theorem sorted_replace {span other : Span} {front back : List Span}
    (start : other.lo = span.lo) (sorted : Sorted (front ++ span :: back)) :
    Sorted (front ++ other :: back) := by
  simpa only [Sorted, List.pairwise_append, List.pairwise_cons, List.mem_cons,
    forall_eq_or_imp, start] using sorted

theorem sorted_insert {new : Span} {front back : List Span}
    (sorted : Sorted (front ++ back)) (front_le : ∀ span ∈ front, span.lo ≤ new.lo)
    (back_gt : ∀ span ∈ back.head?, new.lo < span.lo) :
    Sorted (front ++ new :: back) := by
  obtain ⟨frontSorted, backSorted, across⟩ := List.pairwise_append.mp sorted
  have after : ∀ span ∈ back, new.lo ≤ span.lo := by
    cases back with
    | nil => simp
    | cons first rest =>
        have firstAfter := back_gt first rfl
        intro span member
        rcases List.mem_cons.mp member with rfl | inRest
        · exact firstAfter.le
        · exact firstAfter.le.trans ((List.pairwise_cons.mp backSorted).1 span inRest)
  refine List.pairwise_append.mpr
    ⟨frontSorted, List.pairwise_cons.mpr ⟨after, backSorted⟩, ?_⟩
  intro earlier inFront later member
  cases member with
  | head => exact front_le earlier inFront
  | tail _ inBack => exact across earlier inFront later inBack

/-! ## Joining neighbours -/

/-- Join each span with the neighbours that it contains or touches. -/
def join (span : Span) : List Span → List Span
  | [] => [span]
  | next :: rest =>
      if next.lo ≤ span.hi then
        if next.hi ≤ span.hi then join span rest else join ⟨span.lo, next.hi⟩ rest
      else span :: join next rest

/-- Joining the first two spans of a laminar list keeps it laminar. -/
theorem laminar_joined {span next : Span} {rest : List Span}
    (laminar : Laminar (span :: next :: rest)) (touching : next.lo ≤ span.hi)
    (longer : ¬next.hi ≤ span.hi) : Laminar (⟨span.lo, next.hi⟩ :: rest) := by
  obtain ⟨proper, before, tail⟩ := laminar_cons.mp laminar
  obtain ⟨nextProper, nextBefore, restLaminar⟩ := laminar_cons.mp tail
  have order := before next List.mem_cons_self
  refine laminar_cons.mpr ⟨?_, ?_, restLaminar⟩
  · simp only [Proper] at *
    omega
  · intro later member
    have behind := nextBefore later member
    simp only [Proper, Precedes] at *
    omega

theorem laminar_dropped {span next : Span} {rest : List Span}
    (laminar : Laminar (span :: next :: rest)) : Laminar (span :: rest) := by
  obtain ⟨proper, before, tail⟩ := laminar_cons.mp laminar
  exact laminar_cons.mpr
    ⟨proper, fun later member => before later (List.mem_cons_of_mem _ member),
      (laminar_cons.mp tail).2.2⟩

theorem covered_join (position : Nat) (spans : List Span) : ∀ {span : Span},
    Laminar (span :: spans) →
      (Covered (join span spans) position ↔ Covered (span :: spans) position) := by
  induction spans with
  | nil =>
      intro span _
      rfl
  | cons next rest inductionHypothesis =>
      intro span laminar
      obtain ⟨proper, before, tail⟩ := laminar_cons.mp laminar
      have order := before next List.mem_cons_self
      have nextProper := (laminar_cons.mp tail).1
      simp only [Precedes, Proper] at order proper nextProper
      rw [join]
      split
      next touching =>
        split
        next inside =>
          rw [inductionHypothesis (laminar_dropped laminar), covered_cons,
            covered_cons, covered_cons]
          have absorbed : next.Has position → span.Has position := by
            simp only [Has]
            omega
          tauto
        next longer =>
          rw [inductionHypothesis (laminar_joined laminar touching longer),
            covered_cons, covered_cons, covered_cons]
          have joined : Has ⟨span.lo, next.hi⟩ position ↔
              span.Has position ∨ next.Has position := by
            simp only [Has]
            omega
          tauto
      next =>
        rw [covered_cons, inductionHypothesis tail, covered_cons span]

/-- Every joined span starts where some entry starts and stops where some entry
stops. -/
theorem mem_join (spans : List Span) : ∀ {span joined : Span},
    joined ∈ join span spans →
      (∃ source ∈ span :: spans, joined.lo = source.lo) ∧
        ∃ source ∈ span :: spans, joined.hi = source.hi := by
  induction spans with
  | nil =>
      intro span joined member
      rw [join, List.mem_singleton] at member
      rw [member]
      exact ⟨⟨span, List.mem_cons_self, rfl⟩, ⟨span, List.mem_cons_self, rfl⟩⟩
  | cons next rest inductionHypothesis =>
      intro span joined member
      rw [join] at member
      split at member
      next =>
        split at member
        next =>
          obtain ⟨⟨low, lowMember, lowEq⟩, high, highMember, highEq⟩ :=
            inductionHypothesis member
          simp only [List.mem_cons] at lowMember highMember ⊢
          exact ⟨⟨low, by tauto, lowEq⟩, high, by tauto, highEq⟩
        next =>
          obtain ⟨⟨low, lowMember, lowEq⟩, high, highMember, highEq⟩ :=
            inductionHypothesis member
          simp only [List.mem_cons] at lowMember highMember ⊢
          constructor
          · rcases lowMember with rfl | lowMember
            · exact ⟨span, Or.inl rfl, lowEq⟩
            · exact ⟨low, Or.inr (Or.inr lowMember), lowEq⟩
          · rcases highMember with rfl | highMember
            · exact ⟨next, Or.inr (Or.inl rfl), highEq⟩
            · exact ⟨high, Or.inr (Or.inr highMember), highEq⟩
      next =>
        rcases List.mem_cons.mp member with rfl | inRest
        · exact ⟨⟨joined, List.mem_cons_self, rfl⟩, joined, List.mem_cons_self, rfl⟩
        · obtain ⟨⟨low, lowMember, lowEq⟩, high, highMember, highEq⟩ :=
            inductionHypothesis inRest
          exact ⟨⟨low, List.mem_cons_of_mem _ lowMember, lowEq⟩, high,
            List.mem_cons_of_mem _ highMember, highEq⟩

theorem laminar_join (spans : List Span) : ∀ {span : Span},
    Laminar (span :: spans) → Laminar (join span spans) := by
  induction spans with
  | nil =>
      intro span laminar
      exact laminar
  | cons next rest inductionHypothesis =>
      intro span laminar
      obtain ⟨proper, _, tail⟩ := laminar_cons.mp laminar
      rw [join]
      split
      next touching =>
        split
        next => exact inductionHypothesis (laminar_dropped laminar)
        next longer =>
          exact inductionHypothesis (laminar_joined laminar touching longer)
      next apart =>
        refine laminar_cons.mpr ⟨proper, ?_, inductionHypothesis tail⟩
        intro later member
        obtain ⟨⟨source, inSource, equality⟩, _⟩ := mem_join rest member
        have sorted := tail.lo_le source inSource
        left
        omega

/-- A joined span covers only positions that the list covers. -/
theorem covered_of_joined {span next : Span} {rest : List Span}
    (laminar : Laminar (span :: next :: rest)) (touching : next.lo ≤ span.hi)
    (position : Nat) (inside : Has ⟨span.lo, next.hi⟩ position) :
    Covered (span :: next :: rest) position := by
  obtain ⟨proper, before, tail⟩ := laminar_cons.mp laminar
  have order := before next List.mem_cons_self
  simp only [covered_cons, Has, Precedes] at *
  omega

/-- A laminar list that covers the same positions as another one, with starts and
stops taken from it. -/
structure Rejoined (before after : List Span) : Prop where
  laminar : Laminar after
  covered : ∀ position, Covered after position ↔ Covered before position
  starts : ∀ span ∈ after, ∃ source ∈ before, span.lo = source.lo
  stops : ∀ span ∈ after, ∃ source ∈ before, span.hi = source.hi

theorem Rejoined.refl {spans : List Span} (laminar : Laminar spans) :
    Rejoined spans spans where
  laminar := laminar
  covered _ := Iff.rfl
  starts span member := ⟨span, member, rfl⟩
  stops span member := ⟨span, member, rfl⟩

theorem rejoined_join {span : Span} {spans : List Span}
    (laminar : Laminar (span :: spans)) :
    Rejoined (span :: spans) (join span spans) where
  laminar := laminar_join spans laminar
  covered position := covered_join position spans laminar
  starts _ member := (mem_join spans member).1
  stops _ member := (mem_join spans member).2

/-! ## The covered prefix -/

/-- The length of the longest prefix of `0 .. bound` that the spans cover. -/
def coveredPrefix (spans : List Span) (bound : Nat) : Nat :=
  ((List.range bound).takeWhile fun position => decide (Covered spans position)).length

theorem coveredPrefix_eq {spans : List Span} {bound length : Nat}
    (inBound : length ≤ bound) (covered : ∀ position < length, Covered spans position)
    (stops : length < bound → ¬Covered spans length) :
    coveredPrefix spans bound = length := by
  have splitting : List.range bound =
      List.range length ++ (List.range (bound - length)).map (length + ·) := by
    rw [← List.range_add, Nat.add_sub_cancel' inBound]
  have prefixHolds : ∀ position ∈ List.range length,
      decide (Covered spans position) = true := by
    intro position member
    exact decide_eq_true (covered position (List.mem_range.mp member))
  rw [coveredPrefix, splitting, List.takeWhile_append_of_pos prefixHolds,
    List.length_append, List.length_range]
  suffices rest : ((List.range (bound - length)).map (length + ·)).takeWhile
      (fun position => decide (Covered spans position)) = [] by
    rw [rest, List.length_nil, Nat.add_zero]
  cases remaining : bound - length with
  | zero => rfl
  | succ count =>
      have stop := stops (by omega)
      rw [List.range_succ_eq_map, List.map_cons, Nat.add_zero,
        List.takeWhile_cons_of_neg]
      simpa using stop

end Span
