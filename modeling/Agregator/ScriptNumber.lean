import Mathlib.Data.Int.Basic
import Mathlib.Data.Nat.Notation
import Mathlib.Algebra.GroupWithZero.Nat
import Mathlib.Algebra.Ring.Int.Defs
/-!
# ScriptNumber — whole numbers as a script holds them

A number of a script has 53 bits.  A whole number that has more is rounded to the nearest one that has not, and of two that are
equally near to the even one.  Whole numbers up to `2 ^ 53` are held as they are (`number_of_le`), and no number above zero
becomes zero (`number_pos`).
-/
namespace Script

/-- The nearest multiple of a step, of two that are equally near the even one. -/
def nearest (step x : ℕ) : ℕ :=
  if 2 * (x % step) < step ∨ (2 * (x % step) = step ∧ x / step % 2 = 0) then x / step * step else (x / step + 1) * step

/-- The step from one number to the next among those as long as this one. -/
def step (x : ℕ) : ℕ := 2 ^ (x.log2 - 52)

/-- A whole number as it is held. -/
def number (x : ℕ) : ℕ := nearest (step x) x

theorem nearest_of_dvd {d x : ℕ} (hd : 0 < d) (h : d ∣ x) : nearest d x = x := by
  have hmod := Nat.mod_eq_zero_of_dvd h
  unfold nearest
  rw [if_pos (.inl (by omega))]
  exact Nat.div_mul_cancel h

theorem step_pos (x : ℕ) : 0 < step x := Nat.two_pow_pos _

/-- **Numbers up to `2 ^ 53` are held as they are.** -/
theorem number_of_le {x : ℕ} (h : x ≤ 2 ^ 53) : number x = x := by
  refine nearest_of_dvd (step_pos x) ?_
  by_cases hx : x = 2 ^ 53
  · subst hx
    decide
  · have hlog : x.log2 ≤ 52 := by
      by_cases hzero : x = 0
      · rw [hzero]
        decide
      · have hlt := (Nat.log2_lt hzero).2 (show x < 2 ^ 53 by omega)
        omega
    have hone : step x = 1 := by
      unfold step
      rw [Nat.sub_eq_zero_of_le hlog, Nat.pow_zero]
    rw [hone]
    exact Nat.one_dvd x

theorem step_le {x : ℕ} (h : 0 < x) : step x ≤ x := by
  unfold step
  calc 2 ^ (x.log2 - 52) ≤ 2 ^ x.log2 := Nat.pow_le_pow_right (by decide) (Nat.sub_le _ _)
    _ ≤ x := Nat.log2_self_le (by omega)

/-- **No number above zero becomes zero.** -/
theorem number_pos {x : ℕ} : 0 < number x ↔ 0 < x := by
  constructor
  · intro h
    by_contra hx
    have hzero : x = 0 := by omega
    rw [hzero] at h
    exact absurd h (by decide)
  · intro h
    have hquot : 1 ≤ x / step x := (Nat.le_div_iff_mul_le (step_pos x)).2 (by rw [Nat.one_mul]; exact step_le h)
    unfold number nearest
    split
    · exact Nat.mul_pos hquot (step_pos x)
    · exact Nat.mul_pos (Nat.succ_pos _) (step_pos x)

/-- A number with its sign. -/
def ofInt (x : ℤ) : ℤ := if x < 0 then -(number x.natAbs : ℤ) else number x.natAbs

theorem ofInt_of_le {x : ℤ} (hlow : 0 ≤ x) (h : x ≤ 2 ^ 53) : ofInt x = x := by
  unfold ofInt
  rw [if_neg (by omega), number_of_le (by omega)]
  omega

theorem ofInt_pos {x : ℤ} : 0 < ofInt x ↔ 0 < x := by
  unfold ofInt
  have h := number_pos (x := x.natAbs)
  split <;> omega

example : number (3 * (2 ^ 53 - 1)) = 3 * (2 ^ 53 - 1) - 1 := by decide

end Script
