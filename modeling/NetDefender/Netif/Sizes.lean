import Mathlib.Algebra.Order.Ring.Int
import Mathlib.Order.Bounds.Basic
import Mathlib.Data.Nat.Log

/-!
# Sizes that are powers of two

`is_power2` of `common.c`, with which `netif.c` rounds the sizes of rings and of the memory
pool.  Its loop finds the highest bit of a number and looks at the bits below it, but not at the
lowest one.
-/

namespace NetDefender.Netif

/-! ## The test -/

/-- The loop of `is_power2` from the shift `i` on; an `int` is shifted 31 times at most. -/
def scanBits (onum : Int) : Nat → Nat → Bool → Nat × Bool
  | 0, i, ret => (i, ret)
  | fuel + 1, i, ret =>
      if onum >>> i > 1 then
        scanBits onum fuel (i + 1) (if (onum >>> i) % 2 ≠ 0 then false else ret)
      else (i, ret)

/-- `is_power2`: its return value and `*lower`. -/
def isPower2 (num offset : Int) : Bool × Int :=
  let onum := num + offset
  if num < 2 ∨ onum < 2 then (false, num)
  else
    let (i, ret) := scanBits onum 31 1 true
    (ret, 1 <<< i)

/-- `is_power2` tells whether the sum is a power of two, and rounds it down to one. -/
structure IsPower2Right (num offset : Int) : Prop where
  tells : (isPower2 num offset).1 = true ↔ ∃ exponent : Nat, num + offset = 2 ^ exponent
  rounds : IsGreatest {power | (∃ exponent : Nat, power = 2 ^ exponent) ∧ power ≤ num + offset}
    (isPower2 num offset).2

/-! ## The loop -/

variable {n i fuel top : Nat}

/-- Shifting a number that is above one halves it, and a power of two stays one. -/
theorem shift_eq_pow_iff (before : i < top) :
    n >>> i = 2 ^ (top - i) ↔ (n >>> i) % 2 = 0 ∧ n >>> (i + 1) = 2 ^ (top - (i + 1)) := by
  have half : n >>> (i + 1) = n >>> i / 2 := by
    rw [Nat.shiftRight_add, Nat.shiftRight_one]
  have double : 2 ^ (top - i) = 2 ^ (top - (i + 1)) * 2 := by
    rw [← Nat.pow_succ]
    congr 1
    omega
  rw [half, double]
  omega

/-- The loop stops at the highest bit, and has found the others zero that it has passed. -/
theorem scanBits_eq (ret : Bool) (low : 2 ^ top ≤ n) (high : n < 2 ^ (top + 1))
    (begun : i ≤ top) (enough : top < i + fuel) :
    scanBits n fuel i ret = (top, ret && decide (n >>> i = 2 ^ (top - i))) := by
  induction fuel generalizing i ret with
  | zero => omega
  | succ fuel ih =>
      have shifted : (n : Int) >>> i = ((n >>> i : Nat) : Int) := rfl
      simp only [scanBits, shifted]
      rcases Nat.lt_or_eq_of_le begun with before | rfl
      · have more : 1 < n >>> i := by
          rw [Nat.shiftRight_eq_div_pow, Nat.lt_iff_add_one_le,
            Nat.le_div_iff_mul_le (Nat.two_pow_pos i)]
          calc
            2 * 2 ^ i = 2 ^ (i + 1) := (Nat.pow_succ').symm
            _ ≤ 2 ^ top := Nat.pow_le_pow_right Nat.two_pos before
            _ ≤ n := low
        rw [if_pos (by exact_mod_cast more), ih _ before (by omega)]
        simp only [shift_eq_pow_iff before]
        by_cases even : n >>> i % 2 = 0
        · have whole : ((n >>> i : Nat) : Int) % 2 = 0 := by exact_mod_cast even
          rw [if_neg (not_not.mpr whole)]
          simp only [even, true_and]
        · have odd : ¬((n >>> i : Nat) : Int) % 2 = 0 := by exact_mod_cast even
          rw [if_pos odd]
          simp only [even, false_and, decide_false, Bool.and_false, Bool.false_and]
      · have last : n >>> i = 1 := by
          rw [Nat.shiftRight_eq_div_pow]
          apply Nat.div_eq_of_lt_le
          · simpa using low
          · simpa [Nat.pow_succ'] using high
        simp [last]

/-- Only the lowest bit may differ from a power of two. -/
theorem shift_one_eq_pow_iff (low : 2 ^ top ≤ n) (some : 1 ≤ top) :
    n >>> 1 = 2 ^ (top - 1) ↔ n = 2 ^ top ∨ n = 2 ^ top + 1 := by
  have double : 2 ^ top = 2 ^ (top - 1) * 2 := by
    rw [← Nat.pow_succ, Nat.succ_eq_add_one, Nat.sub_add_cancel some]
  rw [Nat.shiftRight_one]
  omega

/-! ## What it returns -/

variable {num offset : Int}

/-- The highest bit is what the loop leaves in `i`. -/
theorem isPower2_eq (large : 2 ≤ num) (sum : num + offset = n) (low : 2 ^ top ≤ n)
    (high : n < 2 ^ (top + 1)) (positive : 1 ≤ top) (inside : top < 31) :
    isPower2 num offset = (decide (n = 2 ^ top ∨ n = 2 ^ top + 1), 2 ^ top) := by
  have two : 2 ≤ n := (Nat.pow_le_pow_right Nat.two_pos positive).trans low
  have valid : ¬(num < 2 ∨ (n : Int) < 2) := by omega
  have enough : top < 1 + 31 := by omega
  have scanned := scanBits_eq true low high positive enough
  simp only [isPower2, sum, if_neg valid, scanned, Bool.true_and,
    decide_eq_decide.mpr (shift_one_eq_pow_iff low positive), Nat.one_shiftLeft]
  exact_mod_cast rfl

/-- A number lies between one power of two and the next. -/
theorem exponent_unique {exponent : Nat} (low : 2 ^ top ≤ n) (high : n < 2 ^ (top + 1))
    (low' : 2 ^ exponent ≤ n) (high' : n < 2 ^ (exponent + 1)) : exponent = top := by
  have least := (Nat.pow_lt_pow_iff_right Nat.one_lt_two).mp (low'.trans_lt high)
  have greatest := (Nat.pow_lt_pow_iff_right Nat.one_lt_two).mp (low.trans_lt high')
  exact Nat.le_antisymm (Nat.le_of_lt_succ least) (Nat.le_of_lt_succ greatest)

/-- What lies on a power of two, or one above it, is below the next one. -/
theorem exists_pow_iff (low : 2 ^ top ≤ n) (high : n < 2 ^ (top + 1)) :
    (∃ exponent, n = 2 ^ exponent) ↔ n = 2 ^ top := by
  refine ⟨?_, fun same => ⟨top, same⟩⟩
  rintro ⟨exponent, same⟩
  have next : n < 2 ^ (exponent + 1) := by
    rw [same]
    exact Nat.pow_lt_pow_succ Nat.one_lt_two
  rwa [exponent_unique low high same.ge next] at same

theorem exists_succ_pow_iff (low : 2 ^ top ≤ n) (high : n < 2 ^ (top + 1))
    (positive : 1 ≤ top) :
    (∃ exponent, 1 ≤ exponent ∧ n = 2 ^ exponent + 1) ↔ n = 2 ^ top + 1 := by
  refine ⟨?_, fun same => ⟨top, positive, same⟩⟩
  rintro ⟨exponent, large, same⟩
  have next : n < 2 ^ (exponent + 1) := by
    have two : 2 ≤ 2 ^ exponent := Nat.pow_le_pow_right Nat.two_pos large
    rw [same, Nat.pow_succ]
    omega
  rwa [exponent_unique low high (same ▸ Nat.le_succ _) next] at same

/-- `*lower` is always right. -/
theorem isGreatest_pow (low : 2 ^ top ≤ n) (high : n < 2 ^ (top + 1)) :
    IsGreatest {power : Int | (∃ exponent : Nat, power = 2 ^ exponent) ∧ power ≤ (n : Int)}
      (2 ^ top) := by
  refine ⟨⟨⟨top, rfl⟩, by exact_mod_cast low⟩, ?_⟩
  rintro _ ⟨⟨exponent, rfl⟩, below⟩
  have below : 2 ^ exponent ≤ n := by exact_mod_cast below
  have upper := (Nat.pow_lt_pow_iff_right Nat.one_lt_two).mp (below.trans_lt high)
  exact_mod_cast Nat.pow_le_pow_right Nat.two_pos (Nat.le_of_lt_succ upper)

/-- For a sum from 2 on, `is_power2` is right unless the sum is one more than a power of two
that is not 1. -/
theorem is_power2_iff (large : 2 ≤ num) (low : 2 ≤ num + offset) (high : num + offset < 2 ^ 31) :
    IsPower2Right num offset ↔
      ¬∃ exponent : Nat, 1 ≤ exponent ∧ num + offset = 2 ^ exponent + 1 := by
  obtain ⟨n, sum⟩ := Int.eq_ofNat_of_zero_le (Int.le_trans (by decide) low)
  have two : 2 ≤ n := by omega
  have nonzero : n ≠ 0 := Nat.ne_of_gt (Nat.lt_of_lt_of_le Nat.two_pos two)
  have below := Nat.pow_log_le_self 2 nonzero
  have above := Nat.lt_pow_succ_log_self Nat.one_lt_two n
  have positive : 1 ≤ Nat.log 2 n := Nat.log_pos Nat.one_lt_two two
  have inside : Nat.log 2 n < 31 := by
    apply Nat.log_lt_of_lt_pow nonzero
    exact_mod_cast sum ▸ high
  generalize Nat.log 2 n = top at below above positive inside
  have result := isPower2_eq large sum below above positive inside
  have power : (∃ exponent : Nat, num + offset = 2 ^ exponent) ↔ n = 2 ^ top := by
    rw [← exists_pow_iff below above, sum]
    exact_mod_cast Iff.rfl
  have succ : (∃ exponent : Nat, 1 ≤ exponent ∧ num + offset = 2 ^ exponent + 1) ↔
      n = 2 ^ top + 1 := by
    rw [← exists_succ_pow_iff below above positive, sum]
    exact_mod_cast Iff.rfl
  rw [succ]
  constructor
  · intro right same
    have tells := right.tells
    rw [result, power, same] at tells
    simp at tells
  · intro other
    refine ⟨?_, ?_⟩
    · rw [result, power]
      simp [other]
    · rw [result, sum]
      exact isGreatest_pow below above

/-- The sum for the greatest memory pool is a power of two. -/
theorem is_power2_iff_pool : IsPower2Right 134217727 1 ↔
    ¬∃ exponent : Nat, 1 ≤ exponent ∧ (134217727 : Int) + 1 = 2 ^ exponent + 1 :=
  is_power2_iff (by decide) (by decide) (by decide)

/-- The number 3 passes for a power of two. -/
theorem three_taken_for_power : (isPower2 3 0).1 = true ∧ ¬IsPower2Right 3 0 := by
  have passes : (isPower2 3 0).1 = true := by decide
  refine ⟨passes, fun right => ?_⟩
  have power : ∃ exponent : Nat, 3 = 2 ^ exponent := by
    obtain ⟨exponent, same⟩ := right.tells.mp passes
    exact ⟨exponent, by exact_mod_cast same⟩
  have low : 2 ^ 1 ≤ 3 := by decide
  have high : 3 < 2 ^ (1 + 1) := by decide
  rw [exists_pow_iff low high] at power
  exact absurd power (by decide)

end NetDefender.Netif
