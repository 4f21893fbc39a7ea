import Mathlib.Data.BitVec

/-!
# Cyclic redundancy checks

The register of a reflected 32-bit CRC, fed one 32-bit word at a time.  Every step
is linear over exclusive or, so two messages of one length have the same check
value exactly when the check value of their difference is zero.
-/

namespace Crc

variable (polynomial : BitVec 32)

/-- One shift of the register. -/
def shift (register : BitVec 32) : BitVec 32 :=
  if register.getLsbD 0 then register >>> 1 ^^^ polynomial else register >>> 1

/-- Feed a word into the register. -/
def feed (register word : BitVec 32) : BitVec 32 :=
  (shift polynomial)^[32] (register ^^^ word)

/-- The register after a message, from a given seed. -/
def digest (seed : BitVec 32) (message : List (BitVec 32)) : BitVec 32 :=
  message.foldl (feed polynomial) seed

/-- The word-wise difference of two messages. -/
def difference (left right : List (BitVec 32)) : List (BitVec 32) :=
  List.zipWith (· ^^^ ·) left right

theorem shift_xor (left right : BitVec 32) :
    shift polynomial (left ^^^ right) =
      shift polynomial left ^^^ shift polynomial right := by
  rw [shift, shift, shift, BitVec.getLsbD_xor, BitVec.ushiftRight_xor_distrib]
  cases left.getLsbD 0 with
  | false =>
      cases right.getLsbD 0 with
      | false => rfl
      | true => simp [BitVec.xor_assoc]
  | true =>
      cases right.getLsbD 0 with
      | false => simp [BitVec.xor_assoc, BitVec.xor_comm polynomial]
      | true =>
          have cancel : polynomial ^^^ (right >>> 1 ^^^ polynomial) = right >>> 1 := by
            rw [BitVec.xor_comm (right >>> 1), ← BitVec.xor_assoc, BitVec.xor_self,
              BitVec.zero_xor]
          simp [BitVec.xor_assoc, cancel]

theorem iterate_shift_xor (count : Nat) : ∀ left right : BitVec 32,
    (shift polynomial)^[count] (left ^^^ right) =
      (shift polynomial)^[count] left ^^^ (shift polynomial)^[count] right := by
  induction count with
  | zero =>
      intro left right
      rfl
  | succ count inductionHypothesis =>
      intro left right
      simp only [Function.iterate_succ_apply]
      rw [shift_xor, inductionHypothesis]

theorem feed_xor (left right word other : BitVec 32) :
    feed polynomial (left ^^^ right) (word ^^^ other) =
      feed polynomial left word ^^^ feed polynomial right other := by
  rw [feed, feed, feed, ← iterate_shift_xor]
  congr 1
  ac_rfl

theorem digest_xor (left : List (BitVec 32)) :
    ∀ (right : List (BitVec 32)) (seed other : BitVec 32),
      left.length = right.length →
      digest polynomial (seed ^^^ other) (difference left right) =
        digest polynomial seed left ^^^ digest polynomial other right := by
  induction left with
  | nil =>
      intro right seed other length
      cases right with
      | nil => rfl
      | cons => cases length
  | cons word left inductionHypothesis =>
      intro right seed other length
      cases right with
      | nil => cases length
      | cons otherWord right =>
          have tail := inductionHypothesis right (feed polynomial seed word)
            (feed polynomial other otherWord) (Nat.succ.inj length)
          rw [← feed_xor] at tail
          exact tail

/-- Two messages of one length collide exactly when their difference has check
value zero. -/
theorem digest_eq_iff {left right : List (BitVec 32)}
    (length : left.length = right.length) :
    digest polynomial 0 left = digest polynomial 0 right ↔
      digest polynomial 0 (difference left right) = 0 := by
  have linear := digest_xor polynomial left right 0 0 length
  have zero : (0 : BitVec 32) ^^^ 0 = 0 := by decide
  rw [zero] at linear
  rw [linear]
  exact BitVec.xor_eq_zero_iff.symm

end Crc
