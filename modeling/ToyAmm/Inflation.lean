import Mathlib.Tactic

/-!
# Inflating the price of a share

One side of a share pool: a reserve, the supply of shares, what an attacker has put into the
reserve, and how many deposits others have made. The attacker makes the first deposit and raises
the price of a share by donations, so that later deposits, whose shares are rounded down, are short
of up to one share each.

`Bounded` says that `n` such deposits raise the value of the first `issued` shares by at most the
factor `(issued + n + 1) / (issued + 1)`: every deposit mints at least one share, so the factors
`(supply + 1) / supply` of the deposits telescope. If some of the first shares are locked and do
not belong to the attacker, then up to as many deposits do not pay for them (`Bounded.payout_le`).
-/

namespace Inflation

structure Side where
  reserve : ℕ
  supply : ℕ
  spent : ℕ
  deposits : ℕ

variable {issued : ℕ} {p : Side}

structure Bounded (issued : ℕ) (p : Side) : Prop where
  supply_le : issued + p.deposits ≤ p.supply
  reserve_le : p.reserve * (issued * (issued + 1)) ≤
    p.spent * p.supply * (issued + p.deposits + 1)

/-- So far the reserve is the attacker's. -/
theorem Bounded.first (issued spent : ℕ) : Bounded issued ⟨spent, issued, spent, 0⟩ := by
  refine ⟨le_rfl, ?_⟩
  show spent * (issued * (issued + 1)) ≤ spent * issued * (issued + 0 + 1)
  rw [Nat.mul_assoc, Nat.add_zero]

/-- A donation buys no shares. -/
theorem Bounded.donate (h : Bounded issued p) (n : ℕ) :
    Bounded issued { p with reserve := p.reserve + n, spent := p.spent + n } := by
  have hs := h.supply_le
  refine ⟨hs, ?_⟩
  have hn : issued * (issued + 1) ≤ p.supply * (issued + p.deposits + 1) :=
    Nat.mul_le_mul (by omega) (by omega)
  calc (p.reserve + n) * (issued * (issued + 1))
      = p.reserve * (issued * (issued + 1)) + n * (issued * (issued + 1)) := Nat.add_mul _ _ _
    _ ≤ p.spent * p.supply * (issued + p.deposits + 1) +
          n * (p.supply * (issued + p.deposits + 1)) :=
        Nat.add_le_add h.reserve_le (Nat.mul_le_mul_left n hn)
    _ = (p.spent + n) * p.supply * (issued + p.deposits + 1) := by ring

/-- A deposit that mints at least one share is short of less than one. -/
theorem Bounded.deposit (h : Bounded issued p) {a : ℕ} (hx : 0 < p.reserve)
    (ha : 0 < a * p.supply / p.reserve) :
    Bounded issued
      { p with
        reserve := p.reserve + a
        supply := p.supply + a * p.supply / p.reserve
        deposits := p.deposits + 1 } := by
  obtain ⟨x, s, P, j⟩ := p
  obtain ⟨hs, hv⟩ := h
  simp only at hs hv hx ha ⊢
  set n := a * s / x with hn
  have hshort : a * s < x * (n + 1) := Nat.lt_mul_div_succ (a * s) hx
  have hpos : 0 < s := by
    by_contra h0
    rw [Nat.eq_zero_of_not_pos h0, Nat.mul_zero, Nat.zero_div] at hn
    omega
  refine ⟨by simp only; omega, ?_⟩
  have hfactor : (issued + j + 1) * (s + n + 1) ≤ (s + n) * (issued + (j + 1) + 1) := by
    have hle : issued + j + 1 ≤ s + n := by omega
    nlinarith
  refine Nat.le_of_mul_le_mul_right ?_ hpos
  calc (x + a) * (issued * (issued + 1)) * s
      = (x * s + a * s) * (issued * (issued + 1)) := by ring
    _ ≤ (x * (s + n + 1)) * (issued * (issued + 1)) := by
        apply Nat.mul_le_mul_right
        linarith
    _ = x * (issued * (issued + 1)) * (s + n + 1) := by ring
    _ ≤ P * s * (issued + j + 1) * (s + n + 1) := Nat.mul_le_mul_right _ hv
    _ = P * s * ((issued + j + 1) * (s + n + 1)) := by ring
    _ ≤ P * s * ((s + n) * (issued + (j + 1) + 1)) := Nat.mul_le_mul_left _ hfactor
    _ = P * (s + n) * (issued + (j + 1) + 1) * s := by ring

/-- The shares that are not locked are worth no more than the attacker has spent, for as many
deposits as there are locked shares. -/
theorem Bounded.payout_le (h : Bounded issued p) {l lockup : ℕ} (hl : l + lockup = issued)
    (hd : p.deposits ≤ lockup) : l * p.reserve / p.supply ≤ p.spent := by
  rcases Nat.eq_zero_or_pos issued with h0 | hpos
  · rw [show l = 0 by omega, Nat.zero_mul, Nat.zero_div]
    exact Nat.zero_le _
  have hfactor : l * (issued + p.deposits + 1) ≤ issued * (issued + 1) := by
    subst hl
    calc l * (l + lockup + p.deposits + 1) ≤ l * (l + lockup + lockup + 1) :=
          Nat.mul_le_mul_left l (by omega)
      _ ≤ (l + lockup) * (l + lockup + 1) := by nlinarith
  apply Nat.div_le_of_le_mul
  refine Nat.le_of_mul_le_mul_right ?_ (Nat.mul_pos hpos (Nat.succ_pos issued))
  calc l * p.reserve * (issued * (issued + 1)) = l * (p.reserve * (issued * (issued + 1))) :=
        Nat.mul_assoc _ _ _
    _ ≤ l * (p.spent * p.supply * (issued + p.deposits + 1)) :=
        Nat.mul_le_mul_left l h.reserve_le
    _ = p.supply * p.spent * (l * (issued + p.deposits + 1)) := by ring
    _ ≤ p.supply * p.spent * (issued * (issued + 1)) := Nat.mul_le_mul_left _ hfactor

end Inflation
