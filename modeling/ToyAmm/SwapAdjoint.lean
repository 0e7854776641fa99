import ToyAmm.QuoteFacts

/-!
# Exact output is the minimum input

`swapExactOutput` asks for the least input with which `swapExactInput` pays the wanted output: its
two ceilings invert the two floors, by the adjunctions of `ConstantProduct`.
-/

open Checked ConstantProduct

namespace AmmMath

variable {x y a t : U64} {f : U16}

/-- The input that leaves `net` for a wanted output, as one condition on the input. -/
theorem minInput_le_iff {x y t a f : ℕ} (hx : 0 < x) (hty : t < y) (hf : f < 10000) :
    Reference.grossUp (Reference.curveIn x y t) f ≤ a ↔
      t ≤ Reference.curveOut x y (Reference.afterFee a f) := by
  rw [ceilGross_le_iff (by omega) (by norm_num), ceilIn_le_iff_le_floorOut hx hty]

/-- An input pays the output `t` exactly when it is at least the minimum and fits beside the
reserve. -/
theorem swapExactInput_pays_iff (hx : 0 < x.toNat) (hy : 0 < y.toNat) (ht : 0 < t.toNat)
    (hf : f.toNat < 10000) :
    (∃ q, swapExactInput x y a f = .ok q ∧ t.toNat ≤ q.amountOut.toNat) ↔
      t.toNat < y.toNat ∧
        Reference.grossUp (Reference.curveIn x.toNat y.toNat t.toNat) f.toNat ≤ a.toNat ∧
        x.toNat + a.toNat < 2 ^ 64 := by
  constructor
  · rintro ⟨q, hq, hle⟩
    have hs := swapExactInput_spec hq
    rw [hs.amountOut] at hle
    have hty : t.toNat < y.toNat := hle.trans_lt (floorOut_lt hx hy)
    refine ⟨hty, (minInput_le_iff hx hty hf).mpr hle, ?_⟩
    rw [← hs.newReserveIn]
    exact q.newReserveIn.isLt
  · rintro ⟨hty, hle, hfit⟩
    have hpay := (minInput_le_iff hx hty hf).mp hle
    have ha : 0 < a.toNat := by
      rcases Nat.eq_zero_or_pos a.toNat with h0 | h0
      · rw [h0] at hpay
        simp only [floorNet, floorOut, Nat.zero_mul, Nat.zero_div] at hpay
        omega
      · exact h0
    obtain ⟨q, hq, hqv⟩ := swapExactInput_matches.exists_ok
      (Reference.swapExactInput_eq_ok.mpr ⟨ha, hx, hy, hf, by omega, rfl⟩) hfit
    refine ⟨q, hq, ?_⟩
    rw [show q.amountOut.toNat = _ from congrArg SwapQuote.amountOut hqv]
    exact hpay

/-- An exact-output swap is quoted exactly when its minimum input fits beside the reserve. -/
theorem swapExactOutput_ok_iff (hx : 0 < x.toNat) (ht : 0 < t.toNat) (hf : f.toNat < 10000) :
    (∃ q, swapExactOutput x y t f = .ok q) ↔
      t.toNat < y.toNat ∧
        x.toNat + Reference.grossUp (Reference.curveIn x.toNat y.toNat t.toNat) f.toNat <
          2 ^ 64 := by
  constructor
  · rintro ⟨q, hq⟩
    have hs := swapExactOutput_spec hq
    refine ⟨hs.amount_lt, ?_⟩
    rw [← hs.amountIn, ← hs.newReserveIn]
    exact q.newReserveIn.isLt
  · rintro ⟨hty, hfit⟩
    obtain ⟨q, hq, -⟩ := swapExactOutput_matches.exists_ok
      (Reference.swapExactOutput_eq_ok.mpr ⟨ht, hx, hty, hf, rfl⟩) hfit
    exact ⟨q, hq⟩

/-- **The two swap formulas are adjoint.** An exact-output swap of `t` is quoted exactly when some
input pays at least `t`; the inputs that do are those at or above the quoted one that fit beside
the reserve; and when the quote overflows, no input does. -/
theorem swapExactOutput_adjoint (x y t : U64) (f : U16) (hx : 1 ≤ x.toNat) (hy : 1 ≤ y.toNat)
    (ht : 1 ≤ t.toNat) (hf : f.toNat < 10000) :
    ((∃ q, swapExactOutput x y t f = .ok q) ↔
        ∃ a r, swapExactInput x y a f = .ok r ∧ t.toNat ≤ r.amountOut.toNat) ∧
      (∀ q, swapExactOutput x y t f = .ok q → ∀ a,
        (∃ r, swapExactInput x y a f = .ok r ∧ t.toNat ≤ r.amountOut.toNat) ↔
          q.amountIn.toNat ≤ a.toNat ∧ x.toNat + a.toNat ≤ 2 ^ 64 - 1) ∧
      (swapExactOutput x y t f = .err .overflow →
        ∀ a, ¬ ∃ r, swapExactInput x y a f = .ok r ∧ t.toNat ≤ r.amountOut.toNat) := by
  have hex : (∃ q, swapExactOutput x y t f = .ok q) ↔
      ∃ a r, swapExactInput x y a f = .ok r ∧ t.toNat ≤ r.amountOut.toNat := by
    rw [swapExactOutput_ok_iff hx ht hf]
    simp only [swapExactInput_pays_iff hx hy ht hf]
    constructor
    · rintro ⟨hty, hfit⟩
      exact ⟨BitVec.ofNatLT _ (lt_of_le_of_lt (Nat.le_add_left _ _) hfit), hty, le_rfl, hfit⟩
    · rintro ⟨a, hty, hle, hfit⟩
      exact ⟨hty, by omega⟩
  refine ⟨hex, ?_, ?_⟩
  · intro q hq a
    have hs := swapExactOutput_spec hq
    rw [swapExactInput_pays_iff hx hy ht hf, hs.amountIn]
    constructor
    · rintro ⟨-, hle, hfit⟩
      exact ⟨hle, by omega⟩
    · rintro ⟨hle, hfit⟩
      exact ⟨hs.amount_lt, hle, by omega⟩
  · intro hov a ha
    obtain ⟨q, hq⟩ := hex.mpr ⟨a, ha⟩
    rw [hq] at hov
    cases hov

theorem swapExactOutput_adjoint_thirty_bps :
    (∃ q, swapExactOutput 1000 1000 90 30 = .ok q) ↔
      ∃ a r, swapExactInput 1000 1000 a 30 = .ok r ∧ 90 ≤ r.amountOut.toNat :=
  (swapExactOutput_adjoint 1000 1000 90 30 (by decide) (by decide) (by decide) (by decide)).1

end AmmMath
