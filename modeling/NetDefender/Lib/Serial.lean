import Mathlib.Data.BitVec
import Mathlib.Tactic.ByContra
import Mathlib.Tactic.Ring

/-!
# Serial numbers

Numbers that count positions in an unbounded stream but are kept in a 32-bit
word, so that they wrap around.  Two such numbers are only ever compared through
their distance.  This module fixes one natural-number distance, `offset`, and the
few laws by which every modular computation on serial numbers is turned into
linear arithmetic.
-/

namespace Serial

/-- How far `position` lies ahead of `base`, going forward around the circle. -/
def offset (base position : BitVec 32) : Nat := (position - base).toNat

theorem offset_lt (base position : BitVec 32) : offset base position < 2 ^ 32 :=
  (position - base).isLt

@[simp] theorem offset_self (base : BitVec 32) : offset base base = 0 := by
  simp [offset]

theorem offset_eq_zero_iff (base position : BitVec 32) :
    offset base position = 0 ↔ position = base := by
  unfold offset
  bv_omega

theorem add_offset (base position : BitVec 32) :
    base + BitVec.ofNat 32 (offset base position) = position := by
  unfold offset
  bv_omega

theorem eq_of_offset_eq {base left right : BitVec 32}
    (equality : offset base left = offset base right) : left = right := by
  rw [← add_offset base left, ← add_offset base right, equality]

theorem offset_add_ofNat (base position : BitVec 32) (count : Nat) :
    offset base (position + BitVec.ofNat 32 count) =
      (offset base position + count) % 2 ^ 32 := by
  unfold offset
  have regroup : position + BitVec.ofNat 32 count - base =
      (position - base) + BitVec.ofNat 32 count := by ring
  rw [regroup, BitVec.toNat_add, BitVec.toNat_ofNat]
  omega

theorem offset_add_ofNat_of_lt {base position : BitVec 32} {count : Nat}
    (bound : offset base position + count < 2 ^ 32) :
    offset base (position + BitVec.ofNat 32 count) =
      offset base position + count := by
  rw [offset_add_ofNat, Nat.mod_eq_of_lt bound]

theorem offset_self_add {base : BitVec 32} {count : Nat} (bound : count < 2 ^ 32) :
    offset base (base + BitVec.ofNat 32 count) = count := by
  rw [offset_add_ofNat_of_lt] <;> rw [offset_self, Nat.zero_add]
  exact bound

/-- The distance between two numbers, measured from any common base. -/
theorem offset_rebase (base left right : BitVec 32) :
    offset left right =
      (2 ^ 32 + offset base right - offset base left) % 2 ^ 32 := by
  unfold offset
  bv_omega

theorem offset_swap (left right : BitVec 32) :
    offset right left = (2 ^ 32 - offset left right) % 2 ^ 32 := by
  rw [offset_rebase left right left]
  simp

theorem toNat_sub_eq_offset (left right : BitVec 32) :
    (left - right).toNat = offset right left := rfl

/-! ## Slices of a stream -/

section Carries

variable {Item : Type} {stream : BitVec 32 → Item} {start : BitVec 32}
variable {items more : List Item} {count : Nat}

/-- The first `count` entries of `items` are the values of the stream from
position `start` on. -/
def Carries (stream : BitVec 32 → Item) (start : BitVec 32) (items : List Item)
    (count : Nat) : Prop :=
  ∀ index < count, items[index]? = some (stream (start + BitVec.ofNat 32 index))

namespace Carries

theorem mono (carries : Carries stream start items count) {fewer : Nat}
    (bound : fewer ≤ count) : Carries stream start items fewer :=
  fun index small => carries index (lt_of_lt_of_le small bound)

/-- Only the values inside the slice matter. -/
theorem congr (carries : Carries stream start items count)
    {other : BitVec 32 → Item}
    (agree : ∀ index < count, other (start + BitVec.ofNat 32 index) =
      stream (start + BitVec.ofNat 32 index)) :
    Carries other start items count := by
  intro index small
  rw [agree index small]
  exact carries index small

theorem take (carries : Carries stream start items count) {kept : Nat}
    (bound : count ≤ kept) : Carries stream start (items.take kept) count := by
  intro index small
  rw [List.getElem?_take_of_lt (lt_of_lt_of_le small bound)]
  exact carries index small

theorem drop (carries : Carries stream start items count) {skipped : Nat}
    (bound : skipped ≤ count) :
    Carries stream (start + BitVec.ofNat 32 skipped) (items.drop skipped)
      (count - skipped) := by
  intro index small
  rw [List.getElem?_drop, carries (skipped + index) (by omega), BitVec.ofNat_add,
    add_assoc]

theorem le_length (carries : Carries stream start items count) :
    count ≤ items.length := by
  by_contra short
  have missing := carries items.length (not_le.mp short)
  rw [List.getElem?_eq_none le_rfl] at missing
  cases missing

/-- A slice followed by the slice that starts where it stops. -/
theorem append (carries : Carries stream start items count) {extra : Nat}
    (next : Carries stream (start + BitVec.ofNat 32 count) more extra) :
    Carries stream start (items.take count ++ more) (count + extra) := by
  have length : (items.take count).length = count := by
    rw [List.length_take, min_eq_left carries.le_length]
  intro index small
  by_cases inFirst : index < count
  · rw [List.getElem?_append_left (by omega), List.getElem?_take_of_lt inFirst]
    exact carries index inFirst
  · rw [List.getElem?_append_right (by omega), length,
      next (index - count) (by omega), add_assoc, ← BitVec.ofNat_add,
      Nat.add_sub_cancel' (not_lt.mp inFirst)]

theorem append_right (carries : Carries stream start items count) :
    Carries stream start (items ++ more) count := by
  intro index small
  rw [List.getElem?_append_left (lt_of_lt_of_le small carries.le_length)]
  exact carries index small

end Carries

end Carries

end Serial
