import Mathlib.Data.List.Basic
import Mathlib.Order.Bounds.Basic

/-!
# Framing

A framing says how long the first frame of a list is, as soon as the frame is there
as a whole.  A list then has a unique longest prefix made of frames, and reading a
list in two steps, the second from where the first stopped, finds the same frames as
reading it at once.
-/

namespace NetDefender

variable {α : Type*}

/-- The length of the first frame of a list, if the frame is complete.  It depends on
the frame alone. -/
structure Framing (α : Type*) where
  size : List α → Option Nat
  positive : ∀ {data : List α} {length : Nat}, size data = some length → 0 < length
  bounded : ∀ {data : List α} {length : Nat}, size data = some length →
    length ≤ data.length
  stable : ∀ {data : List α} {length : Nat}, size data = some length →
    ∀ more, size (data.take length ++ more) = some length

namespace Framing

variable (framing : Framing α)

/-- A list that is one frame. -/
def IsFrame (piece : List α) : Prop := framing.size piece = some piece.length

/-- At most `fuel` frames from the front of a list. -/
def framesWithin : Nat → List α → List (List α)
  | 0, _ => []
  | fuel + 1, data =>
      match framing.size data with
      | none => []
      | some length => data.take length :: framesWithin fuel (data.drop length)

/-- The frames at the front of a list. -/
def frames (data : List α) : List (List α) := framing.framesWithin data.length data

/-- How much of a list is made of complete frames. -/
def covered (data : List α) : Nat := (framing.frames data).flatten.length

/-- What is left after the complete frames. -/
def rest (data : List α) : List α := data.drop (framing.covered data)

variable {framing}

theorem size_nil : framing.size [] = none := by
  cases size : framing.size [] with
  | none => rfl
  | some length =>
      have positive := framing.positive size
      have bounded := framing.bounded size
      rw [List.length_nil] at bounded
      omega

theorem framesWithin_nil (fuel : Nat) : framing.framesWithin fuel [] = [] := by
  cases fuel with
  | zero => rfl
  | succ fuel => rw [framesWithin, size_nil]

/-- Any two amounts of fuel that cover the list give the same frames. -/
theorem framesWithin_congr {fuel : Nat} : ∀ {other : Nat} {data : List α},
    data.length ≤ fuel → data.length ≤ other →
      framing.framesWithin fuel data = framing.framesWithin other data := by
  induction fuel with
  | zero =>
      intro other data enough _
      rw [List.eq_nil_of_length_eq_zero (Nat.le_zero.mp enough), framesWithin_nil,
        framesWithin_nil]
  | succ fuel inductionHypothesis =>
      intro other data enough alsoEnough
      cases other with
      | zero =>
          rw [List.eq_nil_of_length_eq_zero (Nat.le_zero.mp alsoEnough),
            framesWithin_nil, framesWithin_nil]
      | succ other =>
          rw [framesWithin, framesWithin]
          cases size : framing.size data with
          | none => rfl
          | some length =>
              have positive := framing.positive size
              have shorter : (data.drop length).length ≤ fuel ∧
                  (data.drop length).length ≤ other := by
                rw [List.length_drop]
                omega
              exact congrArg _ (inductionHypothesis shorter.1 shorter.2)

theorem frames_of_none {data : List α} (size : framing.size data = none) :
    framing.frames data = [] := by
  rw [frames]
  cases data with
  | nil => rfl
  | cons first others => rw [List.length_cons, framesWithin, size]

@[simp] theorem frames_nil : framing.frames [] = [] := frames_of_none size_nil

@[simp] theorem covered_nil : framing.covered [] = 0 := by
  rw [covered, frames_nil]
  rfl

theorem frames_of_some {data : List α} {length : Nat}
    (size : framing.size data = some length) :
    framing.frames data = data.take length :: framing.frames (data.drop length) := by
  have positive := framing.positive size
  have bounded := framing.bounded size
  obtain ⟨fuel, fuelEq⟩ := Nat.exists_eq_succ_of_ne_zero
    (by omega : data.length ≠ 0)
  have tail : framing.framesWithin fuel (data.drop length) =
      framing.frames (data.drop length) := by
    apply framesWithin_congr
    · rw [List.length_drop]
      omega
    · exact Nat.le_refl _
  rw [frames, fuelEq, framesWithin, size, ← tail]

section Frames

variable {piece data more : List α} {pieces : List (List α)}

theorem IsFrame.size_append (isFrame : framing.IsFrame piece) (more : List α) :
    framing.size (piece ++ more) = some piece.length := by
  have stable := framing.stable isFrame more
  rwa [List.take_length] at stable

/-- A frame in front of a list is its first frame. -/
theorem frames_append_frame (isFrame : framing.IsFrame piece) (data : List α) :
    framing.frames (piece ++ data) = piece :: framing.frames data := by
  rw [frames_of_some (isFrame.size_append data), List.take_left, List.drop_left]

theorem frames_flatten_append (areFrames : ∀ piece ∈ pieces, framing.IsFrame piece)
    (data : List α) :
    framing.frames (pieces.flatten ++ data) = pieces ++ framing.frames data := by
  induction pieces with
  | nil => rfl
  | cons piece pieces inductionHypothesis =>
      rw [List.flatten_cons, List.append_assoc,
        frames_append_frame (areFrames piece List.mem_cons_self), inductionHypothesis,
        List.cons_append]
      exact fun other member => areFrames other (List.mem_cons_of_mem _ member)

theorem frames_flatten (areFrames : ∀ piece ∈ pieces, framing.IsFrame piece) :
    framing.frames pieces.flatten = pieces := by
  have whole := frames_flatten_append areFrames []
  rwa [List.append_nil, frames_nil, List.append_nil] at whole

/-- The frames of a list are frames, and the list consists of them and of a rest
without a frame. -/
theorem frames_spec (data : List α) :
    (∀ piece ∈ framing.frames data, framing.IsFrame piece) ∧
      data = (framing.frames data).flatten ++ framing.rest data ∧
      framing.size (framing.rest data) = none := by
  induction length : data.length using Nat.strongRecOn generalizing data with
  | ind _ inductionHypothesis =>
      cases size : framing.size data with
      | none => simp [rest, covered, frames_of_none size, size]
      | some first =>
          have positive := framing.positive size
          have bounded := framing.bounded size
          obtain ⟨areFrames, split, ends⟩ := inductionHypothesis
            (data.drop first).length (by rw [List.length_drop]; omega)
            (data.drop first) rfl
          have sizeTake : (data.take first).length = first := by
            rw [List.length_take]
            omega
          have restEq : framing.rest data = framing.rest (data.drop first) := by
            rw [rest, rest, covered, covered, frames_of_some size, List.flatten_cons,
              List.length_append, List.drop_drop, sizeTake]
          refine ⟨?_, ?_, by rw [restEq]; exact ends⟩
          · intro piece member
            rw [frames_of_some size, List.mem_cons] at member
            rcases member with rfl | later
            · rw [IsFrame, sizeTake]
              have stable := framing.stable size []
              rwa [List.append_nil] at stable
            · exact areFrames piece later
          · rw [restEq, frames_of_some size, List.flatten_cons, List.append_assoc,
              ← split, List.take_append_drop]

/-- Reading on from the rest finds the frames of the whole. -/
theorem frames_append (data more : List α) :
    framing.frames (data ++ more) =
      framing.frames data ++ framing.frames (framing.rest data ++ more) := by
  obtain ⟨areFrames, split, _⟩ := framing.frames_spec data
  rw [← frames_flatten_append areFrames, ← List.append_assoc, ← split]

theorem covered_append (data more : List α) :
    framing.covered (data ++ more) =
      framing.covered data + framing.covered (framing.rest data ++ more) := by
  rw [covered, frames_append, List.flatten_append, List.length_append]
  rfl

theorem covered_le (data : List α) : framing.covered data ≤ data.length := by
  obtain ⟨_, split, _⟩ := framing.frames_spec data
  have length := congrArg List.length split
  rw [List.length_append] at length
  exact Nat.le.intro length.symm

/-- The complete frames are the longest prefix that consists of frames. -/
theorem covered_isGreatest (data : List α) :
    IsGreatest { length | ∃ pieces : List (List α),
      (∀ piece ∈ pieces, framing.IsFrame piece) ∧ pieces.flatten <+: data ∧
        pieces.flatten.length = length } (framing.covered data) := by
  obtain ⟨areFrames, split, _⟩ := framing.frames_spec data
  constructor
  · exact ⟨framing.frames data, areFrames, ⟨framing.rest data, split.symm⟩, rfl⟩
  · rintro length ⟨pieces, pieceFrames, ⟨tail, whole⟩, rfl⟩
    rw [covered, ← whole, frames_flatten_append pieceFrames, List.flatten_append,
      List.length_append]
    exact Nat.le_add_right _ _

/-- A part of a list that starts with a frame holds no complete frame exactly if it is
shorter than that frame. -/
theorem frames_eq_nil_iff (isFrame : framing.IsFrame piece)
    (part : data <+: piece ++ more) :
    framing.frames data = [] ↔ data.length < piece.length := by
  obtain ⟨tail, whole⟩ := part
  constructor
  · intro none
    by_contra long
    have front : piece <+: data :=
      List.prefix_of_prefix_length_le ⟨more, rfl⟩ ⟨tail, whole⟩ (not_lt.mp long)
    obtain ⟨others, split⟩ := front
    rw [← split, frames_append_frame isFrame] at none
    cases none
  · intro short
    cases size : framing.size data with
    | none => exact frames_of_none size
    | some first =>
        have bounded := framing.bounded size
        have whole : framing.size (piece ++ more) = some first := by
          have stable := framing.stable size (data.drop first ++ tail)
          rwa [← List.append_assoc, List.take_append_drop, whole] at stable
        rw [isFrame.size_append more, Option.some_inj] at whole
        omega

/-! ## Reading a growing list again and again -/

/-- How many frames are read if, after each new part, the list is read from its start
again. -/
def rereads (framing : Framing α) (data : List α) : List (List α) → Nat
  | [] => 0
  | part :: parts =>
      (framing.frames (data ++ part)).length + framing.rereads (data ++ part) parts

/-- The last reading finds every frame. -/
theorem le_rereads (parts : List (List α)) : ∀ {data : List α}, parts ≠ [] →
    (framing.frames (data ++ parts.flatten)).length ≤ framing.rereads data parts := by
  induction parts with
  | nil =>
      intro data nonempty
      exact absurd rfl nonempty
  | cons part parts inductionHypothesis =>
      intro data _
      rw [rereads, List.flatten_cons, ← List.append_assoc]
      cases parts with
      | nil =>
          rw [List.flatten_nil, List.append_nil]
          exact Nat.le_add_right _ _
      | cons next parts =>
          exact Nat.le_add_left_of_le (inductionHypothesis (List.cons_ne_nil _ _))

/-- Every frame is read once exactly if no frame is complete before the last part. -/
theorem rereads_eq_iff (parts : List (List α)) : ∀ {data : List α}, parts ≠ [] →
    framing.frames data = [] →
      (framing.rereads data parts = (framing.frames (data ++ parts.flatten)).length ↔
        framing.frames (data ++ parts.dropLast.flatten) = []) := by
  induction parts with
  | nil =>
      intro data nonempty
      exact absurd rfl nonempty
  | cons part parts inductionHypothesis =>
      intro data _ none
      cases parts with
      | nil => simp [rereads, none]
      | cons next parts =>
          have whole : data ++ (part :: next :: parts).flatten =
              data ++ part ++ (next :: parts).flatten := by
            rw [List.flatten_cons, List.append_assoc]
          have front : data ++ (part :: next :: parts).dropLast.flatten =
              data ++ part ++ (next :: parts).dropLast.flatten := by
            rw [List.dropLast_cons_cons, List.flatten_cons, List.append_assoc]
          have later : (framing.frames (data ++ part ++ (next :: parts).flatten)).length ≤
              framing.rereads (data ++ part) (next :: parts) :=
            le_rereads (next :: parts) (List.cons_ne_nil _ _)
          rw [rereads, whole, front]
          cases found : framing.frames (data ++ part) with
          | nil =>
              rw [List.length_nil, Nat.zero_add]
              exact inductionHypothesis (List.cons_ne_nil _ _) found
          | cons first others =>
              rw [frames_append (data ++ part) (next :: parts).dropLast.flatten, found,
                List.length_cons]
              constructor
              · intro once
                omega
              · intro empty
                cases empty

/-- Nothing is read from empty parts. -/
theorem rereads_of_flatten_nil {parts : List (List α)} (empty : parts.flatten = []) :
    framing.rereads [] parts = 0 := by
  induction parts with
  | nil => rfl
  | cons part parts inductionHypothesis =>
      rw [List.flatten_cons, List.append_eq_nil_iff] at empty
      obtain ⟨rfl, rest⟩ := empty
      rw [rereads, List.append_nil, inductionHypothesis rest, frames_nil]
      rfl

/-- Whole frames that arrive in parts are read once each exactly if the first one is
not complete before the last part. -/
theorem rereads_flatten_iff {parts : List (List α)}
    (areFrames : ∀ piece ∈ pieces, framing.IsFrame piece)
    (content : parts.flatten = pieces.flatten) :
    framing.rereads [] parts = pieces.length ↔
      ∀ first ∈ pieces.head?, parts.dropLast.flatten.length < first.length := by
  have whole := frames_flatten areFrames
  cases pieces with
  | nil =>
      constructor
      · intro _ first member
        cases member
      · intro _
        exact rereads_of_flatten_nil content
  | cons first others =>
      have isFrame := areFrames first List.mem_cons_self
      have nonempty : parts ≠ [] := by
        rintro rfl
        rw [List.flatten_nil, List.flatten_cons] at content
        have missing : first = [] := (List.append_eq_nil_iff.mp content.symm).1
        have positive := framing.positive isFrame
        rw [missing, List.length_nil] at positive
        exact absurd positive (Nat.lt_irrefl 0)
      have front : parts.dropLast.flatten <+: first ++ others.flatten := by
        refine ⟨parts.getLast nonempty, ?_⟩
        rw [← List.flatten_cons, ← content]
        nth_rewrite 3 [← List.dropLast_append_getLast nonempty]
        rw [List.flatten_append, List.flatten_singleton]
      have once := framing.rereads_eq_iff parts nonempty frames_nil
      rw [List.nil_append, List.nil_append, content, whole,
        frames_eq_nil_iff isFrame front] at once
      simpa using once

end Frames

end Framing

end NetDefender
