import Mathlib.Tactic
import Mathlib.Data.Nat.Size
import Mathlib.Data.Nat.Sqrt

/-!
# Newton's iteration for the integer square root

The step `x ↦ (x + n / x) / 2` with truncating division never falls below `Nat.sqrt n`, and the
first `x` it does not decrease, started from any `x` at or above the root, is the root. These are
the two facts a loop needs; the bound on `x + n / x` is what a machine word must hold.
-/

namespace Newton

variable {n x : ℕ}

/-- One step of the iteration. -/
def step (n x : ℕ) : ℕ := (x + n / x) / 2

/-- A step from a positive point stays at or above the root. -/
theorem sqrt_le_step (hx : 0 < x) : Nat.sqrt n ≤ step n x := by
  have hs : Nat.sqrt n * Nat.sqrt n ≤ n := Nat.sqrt_le n
  unfold step
  rw [Nat.le_div_iff_mul_le two_pos]
  by_cases h : Nat.sqrt n * 2 ≤ x
  · exact h.trans (Nat.le_add_right _ _)
  · obtain ⟨k, hk⟩ : ∃ k, Nat.sqrt n * 2 = x + k := ⟨Nat.sqrt n * 2 - x, by omega⟩
    -- `k * x ≤ (x + k)² / 4 = (sqrt n)²`
    have hkx : k * x ≤ n := by nlinarith [sq_nonneg ((k : ℤ) - x)]
    have := (Nat.le_div_iff_mul_le hx).mpr hkx
    omega

/-- A point the iteration does not decrease is at most the root. -/
theorem le_sqrt_of_le_step (hx : 0 < x) (h : x ≤ step n x) : x ≤ Nat.sqrt n := by
  unfold step at h
  rw [Nat.le_div_iff_mul_le two_pos] at h
  exact Nat.le_sqrt.mpr ((Nat.le_div_iff_mul_le hx).mp (by omega))

/-- The iteration stops at the root. -/
theorem eq_sqrt_of_le_step (hx : 0 < x) (hs : Nat.sqrt n ≤ x) (h : x ≤ step n x) :
    x = Nat.sqrt n :=
  le_antisymm (le_sqrt_of_le_step hx h) hs

/-- At or above the root the quotient exceeds the root by at most two. -/
theorem div_le_sqrt_add_two (hs : Nat.sqrt n ≤ x) : n / x ≤ Nat.sqrt n + 2 := by
  have hn : n ≤ Nat.sqrt n * Nat.sqrt n + Nat.sqrt n + Nat.sqrt n := Nat.sqrt_le_add n
  apply Nat.div_le_of_le_mul
  nlinarith

/-- The power of two with half as many bits, rounded up, is above the root. -/
theorem sqrt_lt_two_pow_half_size : Nat.sqrt n < 2 ^ ((Nat.size n + 1) / 2) := by
  rw [Nat.sqrt_lt, ← pow_add]
  calc n < 2 ^ Nat.size n := Nat.lt_size_self n
    _ ≤ _ := Nat.pow_le_pow_right two_pos (by omega)

end Newton
