import NetDefender.Lib.Span

/-!
# A new span that gives way

A new span is compared with the entries of a laminar list, one after the other, and cut
down where it overlaps an entry in part: at its start by an entry that reaches into it,
at its stop by an entry that reaches beyond it.  The end that the tests use is the one
the new span came with.  If the list leaves the matter undisputed, what is kept is
disjoint from each entry or inside it, and what was cut off is covered.
-/

namespace Span

/-- The entry begins before the new span and ends in it. -/
def EntersBefore (new old : Span) : Prop :=
  old.lo < new.lo ∧ new.lo < old.hi ∧ old.hi ≤ new.hi

/-- The entry begins in the new span and goes on beyond it. -/
def LeavesBehind (new old : Span) : Prop :=
  new.lo < old.lo ∧ old.lo < new.hi ∧ new.hi < old.hi

instance (new old : Span) : Decidable (LeavesBehind new old) :=
  inferInstanceAs (Decidable (_ ∧ _))

/-- An entry that lies inside the new span is hidden by one that begins before it, and
the entries that go on beyond the new span begin at one position. -/
structure Undisputed (new : Span) (spans : List Span) : Prop where
  hidden : ∀ old ∈ spans, new.lo ≤ old.lo → old.hi ≤ new.hi →
    ∃ shield ∈ spans, shield.lo < new.lo ∧ old.lo < shield.hi ∧ shield.hi ≤ new.hi
  agreed : ∀ old ∈ spans, ∀ other ∈ spans, LeavesBehind new old → LeavesBehind new other →
    old.lo = other.lo

instance (new : Span) (spans : List Span) : Decidable (Undisputed new spans) :=
  decidable_of_iff
    ((∀ old ∈ spans, new.lo ≤ old.lo → old.hi ≤ new.hi →
        ∃ shield ∈ spans, shield.lo < new.lo ∧ old.lo < shield.hi ∧ shield.hi ≤ new.hi) ∧
      ∀ old ∈ spans, ∀ other ∈ spans, LeavesBehind new old → LeavesBehind new other →
        old.lo = other.lo)
    ⟨fun ⟨hidden, agreed⟩ => ⟨hidden, agreed⟩, fun ⟨hidden, agreed⟩ => ⟨hidden, agreed⟩⟩

/-- What is kept of the new span once the entries in `front` have been passed. -/
structure Yielded (new : Span) (front : List Span) (kept : Span) : Prop where
  start_le : new.lo ≤ kept.lo
  stop_le : kept.hi ≤ new.hi
  order : kept.lo ≤ kept.hi
  start : kept.lo = new.lo ∨ ∃ old ∈ front, EntersBefore new old ∧ kept.lo = old.hi
  stop : kept.hi = new.hi ∨ ∃ old ∈ front, LeavesBehind new old ∧ kept.hi = old.lo
  starts : ∀ old ∈ front, EntersBefore new old → old.hi ≤ kept.lo
  stops : ∀ old ∈ front, LeavesBehind new old → kept.hi ≤ old.lo ∨ old.lo ≤ kept.lo
  inner : ∀ old ∈ front, new.lo ≤ old.lo → old.hi ≤ new.hi → old.hi ≤ kept.lo

theorem Yielded.refl {new : Span} (order : new.lo ≤ new.hi) : Yielded new [] new where
  start_le := le_rfl
  stop_le := le_rfl
  order := order
  start := Or.inl rfl
  stop := Or.inl rfl
  starts old member := by cases member
  stops old member := by cases member
  inner old member := by cases member

/-! ## One entry -/

section Step

variable {new kept old : Span} {front rest : List Span}

theorem laminar_behind (laminar : Laminar (front ++ old :: rest)) :
    (∀ earlier ∈ front, Precedes earlier old ∧ earlier.lo ≤ old.lo) ∧
      ∀ later ∈ rest, old.lo ≤ later.lo := by
  obtain ⟨_, behind, across⟩ := List.pairwise_append.mp laminar.ordered
  constructor
  · intro earlier member
    have precedes := across earlier member old List.mem_cons_self
    exact ⟨precedes, precedes.lo_le (laminar.proper earlier (by simp [member]))⟩
  · intro later member
    exact ((List.pairwise_cons.mp behind).1 later member).lo_le
      (laminar.proper old (by simp))

/-- The part that is kept never covers an entry. -/
theorem Yielded.not_covers (yielded : Yielded new front kept)
    (laminar : Laminar (front ++ old :: rest))
    (undisputed : Undisputed new (front ++ old :: rest)) :
    ¬(kept.lo ≤ old.lo ∧ old.hi ≤ new.hi) := by
  rintro ⟨start, stop⟩
  have begun := yielded.start_le
  obtain ⟨shield, member, before, reaches, inside⟩ :=
    undisputed.hidden old (by simp) (by omega) stop
  rcases List.mem_append.mp member with inFront | behind
  · have passed := yielded.starts shield inFront ⟨before, by omega, inside⟩
    omega
  · -- an entry that begins before the new span is not behind one that begins in it
    rcases List.mem_cons.mp behind with rfl | inRest
    · omega
    · have later := (laminar_behind laminar).2 shield inRest
      omega

/-- The stop is cut where an entry goes on beyond the new span. -/
theorem Yielded.cutStop (yielded : Yielded new front kept)
    (undisputed : Undisputed new (front ++ old :: rest)) (ahead : kept.lo < old.lo)
    (inside : old.lo < new.hi) (beyond : new.hi < old.hi) :
    Yielded new (front ++ [old]) ⟨kept.lo, old.lo⟩ ∧ old.lo ≤ kept.hi := by
  have begun := yielded.start_le
  have leaves : LeavesBehind new old := ⟨by omega, inside, beyond⟩
  have kept_stop : old.lo ≤ kept.hi := by
    rcases yielded.stop with same | ⟨other, member, otherLeaves, stop⟩
    · omega
    · have agreed := undisputed.agreed old (by simp) other (by simp [member]) leaves
        otherLeaves
      omega
  refine ⟨⟨begun, inside.le, ahead.le, ?_, ?_, ?_, ?_, ?_⟩, kept_stop⟩
  · rcases yielded.start with same | ⟨other, member, enters, start⟩
    · exact Or.inl same
    · exact Or.inr ⟨other, by simp [member], enters, start⟩
  · exact Or.inr ⟨old, by simp, leaves, rfl⟩
  · intro other member enters
    rcases List.mem_append.mp member with inFront | last
    · exact yielded.starts other inFront enters
    · rw [List.mem_singleton.mp last] at enters
      exact absurd enters.1 (not_lt.mpr leaves.1.le)
  · intro other member otherLeaves
    have agreed := undisputed.agreed old (by simp) other (by
      rcases List.mem_append.mp member with inFront | last
      · simp [inFront]
      · simp [List.mem_singleton.mp last]) leaves otherLeaves
    exact Or.inl agreed.le
  · intro other member starts stops
    rcases List.mem_append.mp member with inFront | last
    · exact yielded.inner other inFront starts stops
    · rw [List.mem_singleton.mp last] at stops
      omega

/-- The start is cut where an entry reaches into the new span. -/
theorem Yielded.cutStart (yielded : Yielded new front kept)
    (laminar : Laminar (front ++ old :: rest)) (before : old.lo < kept.lo)
    (reaches : kept.lo < old.hi) (inside : old.hi ≤ new.hi) :
    Yielded new (front ++ [old]) ⟨old.hi, kept.hi⟩ ∧ old.hi ≤ kept.hi := by
  have begun := yielded.start_le
  have earlier := (laminar_behind laminar).1
  have untouched : kept.lo = new.lo := by
    rcases yielded.start with same | ⟨other, member, enters, start⟩
    · exact same
    · have order := (earlier other member).1
      simp only [Precedes] at order
      omega
  have enters : EntersBefore new old := ⟨by omega, by omega, inside⟩
  have whole : kept.hi = new.hi := by
    rcases yielded.stop with same | ⟨other, member, leaves, stop⟩
    · exact same
    · have order := (earlier other member).2
      have otherStart := leaves.1
      omega
  have later : new.lo ≤ old.hi := by omega
  have room : old.hi ≤ kept.hi := by omega
  refine ⟨⟨later, yielded.stop_le, room, ?_, ?_, ?_, ?_, ?_⟩, room⟩
  · exact Or.inr ⟨old, by simp, enters, rfl⟩
  · exact Or.inl whole
  · intro other member otherEnters
    rcases List.mem_append.mp member with inFront | last
    · exact (yielded.starts other inFront otherEnters).trans reaches.le
    · rw [List.mem_singleton.mp last]
  · intro other member leaves
    rcases List.mem_append.mp member with inFront | last
    · rcases yielded.stops other inFront leaves with ends | starts
      · exact Or.inl ends
      · exact Or.inr (starts.trans reaches.le)
    · rw [List.mem_singleton.mp last] at leaves
      exact absurd leaves.1 (not_lt.mpr enters.1.le)
  · intro other member starts stops
    rcases List.mem_append.mp member with inFront | last
    · exact (yielded.inner other inFront starts stops).trans reaches.le
    · rw [List.mem_singleton.mp last]

/-- An entry that none of the tests is true of is passed. -/
theorem Yielded.pass (yielded : Yielded new front kept)
    (laminar : Laminar (front ++ old :: rest))
    (undisputed : Undisputed new (front ++ old :: rest))
    (notStop : ¬(kept.lo < old.lo ∧ old.lo < new.hi ∧ new.hi < old.hi))
    (notStart : ¬(old.lo < kept.lo ∧ kept.lo < old.hi ∧ old.hi ≤ new.hi)) :
    Yielded new (front ++ [old]) kept := by
  have begun := yielded.start_le
  have notCovers := yielded.not_covers laminar undisputed
  have earlier := (laminar_behind laminar).1
  refine ⟨begun, yielded.stop_le, yielded.order, ?_, ?_, ?_, ?_, ?_⟩
  · rcases yielded.start with same | ⟨other, member, enters, start⟩
    · exact Or.inl same
    · exact Or.inr ⟨other, by simp [member], enters, start⟩
  · rcases yielded.stop with same | ⟨other, member, leaves, stop⟩
    · exact Or.inl same
    · exact Or.inr ⟨other, by simp [member], leaves, stop⟩
  · intro other member enters
    rcases List.mem_append.mp member with inFront | last
    · exact yielded.starts other inFront enters
    · rw [List.mem_singleton.mp last] at enters ⊢
      obtain ⟨before, reaches, inside⟩ := enters
      rcases yielded.start with same | ⟨shield, inFront, entered, start⟩
      · omega
      · have order := (earlier shield inFront).1
        have shieldReaches := entered.2.1
        simp only [Precedes] at order
        omega
  · intro other member leaves
    rcases List.mem_append.mp member with inFront | last
    · exact yielded.stops other inFront leaves
    · rw [List.mem_singleton.mp last] at leaves ⊢
      obtain ⟨_, inside, beyond⟩ := leaves
      exact Or.inr (by omega)
  · intro other member starts stops
    rcases List.mem_append.mp member with inFront | last
    · exact yielded.inner other inFront starts stops
    · rw [List.mem_singleton.mp last] at starts stops ⊢
      omega

end Step

/-! ## The whole list -/

section Whole

variable {new kept : Span} {spans : List Span}

/-- What is kept is disjoint from an entry or inside it, and then stops before its end. -/
theorem Yielded.apart_or_inside (yielded : Yielded new spans kept) {old : Span}
    (member : old ∈ spans) :
    old.hi ≤ kept.lo ∨ kept.hi ≤ old.lo ∨ (old.lo ≤ kept.lo ∧ kept.hi < old.hi) := by
  have begun := yielded.start_le
  have ended := yielded.stop_le
  have starts := yielded.starts old member
  have stops := yielded.stops old member
  have inner := yielded.inner old member
  simp only [EntersBefore, LeavesBehind] at starts stops
  omega

/-- What is kept covers no entry. -/
theorem Yielded.not_covers_entry (yielded : Yielded new spans kept) {old : Span}
    (proper : old.Proper) (member : old ∈ spans) :
    ¬(kept.lo ≤ old.lo ∧ old.hi ≤ kept.hi) := by
  rintro ⟨start, stop⟩
  have begun := yielded.start_le
  have ended := yielded.stop_le
  have inner := yielded.inner old member
  simp only [Proper] at proper
  omega

/-- Nothing is kept of a new span that stops where an entry that reaches into it stops. -/
theorem Yielded.stop_ne (yielded : Yielded new spans kept) (proper : new.Proper)
    (keptProper : kept.Proper) {old : Span} (member : old ∈ spans) (start : old.lo < new.lo) :
    old.hi ≠ new.hi := by
  intro stop
  have ended := yielded.stop_le
  have starts := yielded.starts old member
  simp only [EntersBefore, Proper] at starts proper keptProper
  omega

/-- What has been cut off is covered. -/
theorem Yielded.covered (yielded : Yielded new spans kept) (position : Nat) :
    kept.Has position ∨ Covered spans position ↔
      new.Has position ∨ Covered spans position := by
  have begun := yielded.start_le
  have ended := yielded.stop_le
  constructor
  · rintro (inKept | found)
    · left
      simp only [Has] at inKept ⊢
      omega
    · exact Or.inr found
  · rintro (inNew | found)
    · simp only [Has] at inNew
      by_cases before : position < kept.lo
      · rcases yielded.start with same | ⟨old, member, enters, start⟩
        · omega
        · have entersBefore := enters.1
          exact Or.inr ⟨old, member, by omega, by omega⟩
      · by_cases behind : kept.hi ≤ position
        · rcases yielded.stop with same | ⟨old, member, leaves, stop⟩
          · omega
          · have beyond := leaves.2.2
            exact Or.inr ⟨old, member, by omega, by omega⟩
        · exact Or.inl ⟨by omega, by omega⟩
    · exact Or.inr found

end Whole

end Span
