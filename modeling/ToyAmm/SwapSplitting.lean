import ToyAmm.SwapAdjoint

/-!
# Splitting an order never pays

A split order is a list of swaps in one direction, each of either kind and each quoted on the
reserves the previous one left. Every leg is a trade on the curve for some net input not above its
input after the fee (`fillLeg_keeps`); such trades compose (`fillLegs_keeps`, by induction on the
list), so the whole list is no better than one swap of its total.
-/

open Checked ConstantProduct

namespace AmmMath

/-- One swap of a split order. -/
inductive Leg where
  | exactInput (amountIn : U64)
  | exactOutput (amountOut : U64)
  deriving DecidableEq, Repr

/-- The reserves after some legs, and what those legs paid and received in total. -/
structure Fill where
  reserveIn : U64
  reserveOut : U64
  totalIn : ℕ
  totalOut : ℕ
  deriving DecidableEq, Repr

/-- Quote one leg on the given reserves. -/
def fillLeg (feeBps : U16) (reserveIn reserveOut : U64) : Leg → Result Fill
  | .exactInput amountIn => do
    let q ← swapExactInput reserveIn reserveOut amountIn feeBps
    .ok ⟨q.newReserveIn, q.newReserveOut, q.amountIn.toNat, q.amountOut.toNat⟩
  | .exactOutput amountOut => do
    let q ← swapExactOutput reserveIn reserveOut amountOut feeBps
    .ok ⟨q.newReserveIn, q.newReserveOut, q.amountIn.toNat, q.amountOut.toNat⟩

/-- Quote the legs in order, each on the reserves left by the one before. -/
def fillLegs (feeBps : U16) (reserveIn reserveOut : U64) : List Leg → Result Fill
  | [] => .ok ⟨reserveIn, reserveOut, 0, 0⟩
  | leg :: rest => do
    let first ← fillLeg feeBps reserveIn reserveOut leg
    let after ← fillLegs feeBps first.reserveIn first.reserveOut rest
    .ok { after with
      totalIn := first.totalIn + after.totalIn
      totalOut := first.totalOut + after.totalOut }

/-- What a fill from `(x, y)` amounts to on the curve. -/
structure Fill.Keeps (feeBps : ℕ) (x y : ℕ) (r : Fill) : Prop where
  reserveIn : r.reserveIn.toNat = x + r.totalIn
  reserveOut : r.reserveOut.toNat + r.totalOut = y
  curve : ∃ n ≤ Reference.afterFee r.totalIn feeBps,
    ConstantProduct.Keeps x y n r.reserveOut.toNat

variable {x y : U64} {f : U16} {legs : List Leg} {r : Fill}

/-- A quoted leg is a trade on the curve. -/
theorem fillLeg_keeps {leg : Leg} (h : fillLeg f x y leg = .ok r) :
    r.Keeps f.toNat x.toNat y.toNat := by
  cases leg with
  | exactInput a =>
    obtain ⟨q, hq, ⟨⟩⟩ := Outcome.bind_eq_ok.mp h
    have hs := swapExactInput_spec hq
    exact ⟨hs.amountIn ▸ hs.newReserveIn, hs.newReserveOut, q.amountInAfterFee.toNat,
      by rw [hs.amountIn, hs.amountInAfterFee], hs.keeps⟩
  | exactOutput t =>
    obtain ⟨q, hq, ⟨⟩⟩ := Outcome.bind_eq_ok.mp h
    have hs := swapExactOutput_spec hq
    refine ⟨hs.newReserveIn, hs.amountOut ▸ hs.newReserveOut, q.amountInAfterFee.toNat, ?_,
      hs.keeps⟩
    have hf := hs.fee_lt
    rw [← ceilGross_le_iff (by omega) (by norm_num), hs.amountInAfterFee]
    exact hs.amountIn.ge

/-- The legs of a split order compose to one trade on the curve. -/
theorem fillLegs_keeps (h : fillLegs f x y legs = .ok r) : r.Keeps f.toNat x.toNat y.toNat := by
  induction legs generalizing x y r with
  | nil =>
    obtain rfl := Outcome.ok.inj h
    exact ⟨rfl, rfl, 0, Nat.zero_le _, le_rfl⟩
  | cons leg rest ih =>
    obtain ⟨first, hfirst, h⟩ := Outcome.bind_eq_ok.mp h
    obtain ⟨after, hafter, ⟨⟩⟩ := Outcome.bind_eq_ok.mp h
    obtain ⟨hri₁, hro₁, n₁, hn₁, hk₁⟩ := fillLeg_keeps hfirst
    obtain ⟨hri₂, hro₂, n₂, hn₂, hk₂⟩ := ih hafter
    refine ⟨by simp only; omega, by simp only; omega, n₁ + n₂, ?_, ?_⟩
    · exact (Nat.add_le_add hn₁ hn₂).trans (floorNet_add_le _ _)
    · -- the second part starts from the full input, at least what the first part was priced on
      have hx : x.toNat + n₁ ≤ first.reserveIn.toNat := by
        have := afterFee_le first.totalIn f.toNat
        omega
      exact hk₁.trans hx hk₂

/-- A split order with a leg has positive reserves, a valid fee and a positive output. -/
theorem fillLegs_pos (hne : legs ≠ []) (h : fillLegs f x y legs = .ok r) :
    0 < x.toNat ∧ 0 < y.toNat ∧ f.toNat < 10000 ∧ 0 < r.totalOut := by
  rcases legs with _ | ⟨leg, rest⟩
  · exact absurd rfl hne
  obtain ⟨first, hfirst, h⟩ := Outcome.bind_eq_ok.mp h
  obtain ⟨after, -, ⟨⟩⟩ := Outcome.bind_eq_ok.mp h
  cases leg with
  | exactInput a =>
    obtain ⟨q, hq, ⟨⟩⟩ := Outcome.bind_eq_ok.mp hfirst
    have hs := swapExactInput_spec hq
    exact ⟨hs.reserveIn_pos, hs.reserveOut_pos, hs.fee_lt, Nat.add_pos_left hs.amountOut_pos _⟩
  | exactOutput t =>
    obtain ⟨q, hq, ⟨⟩⟩ := Outcome.bind_eq_ok.mp hfirst
    have hs := swapExactOutput_spec hq
    have hout : 0 < q.amountOut.toNat := hs.amountOut ▸ hs.amount_pos
    exact ⟨hs.reserveIn_pos, (Nat.zero_le _).trans_lt hs.amount_lt, hs.fee_lt,
      Nat.add_pos_left hout _⟩

/-- **Splitting an order never pays.** One exact-input swap of the total input pays at least the
total output of the legs, and one exact-output swap of the total output costs at most their total
input. -/
theorem splitting_never_pays (x y : U64) (f : U16) (legs : List Leg) (hne : legs ≠ []) (r : Fill)
    (h : fillLegs f x y legs = .ok r) :
    ∃ p t : U64, p.toNat = r.totalIn ∧ t.toNat = r.totalOut ∧
      (∃ q, swapExactInput x y p f = .ok q ∧ r.totalOut ≤ q.amountOut.toNat) ∧
      ∃ q, swapExactOutput x y t f = .ok q ∧ q.amountIn.toNat ≤ r.totalIn := by
  obtain ⟨hx, hy, hf, hout⟩ := fillLegs_pos hne h
  obtain ⟨hri, hro, n, hn, hk⟩ := fillLegs_keeps h
  have hfit := r.reserveIn.isLt
  have hyl := y.isLt
  have hy' : 0 < r.reserveOut.toNat := by
    rcases Nat.eq_zero_or_pos r.reserveOut.toNat with h0 | h0
    · have := Nat.mul_pos hx hy
      rw [ConstantProduct.Keeps, h0] at hk
      omega
    · exact h0
  have hty : r.totalOut < y.toNat := by omega
  -- one swap of the total has at least the net input of the legs together
  have hmin : Reference.grossUp (Reference.curveIn x.toNat y.toNat r.totalOut) f.toNat ≤
      r.totalIn := by
    rw [ceilGross_le_iff (by omega) (by norm_num), ceilIn_le_iff hty,
      show y.toNat - r.totalOut = r.reserveOut.toNat by omega]
    exact hk.mono hn
  refine ⟨BitVec.ofNatLT r.totalIn (by omega), BitVec.ofNatLT r.totalOut (by omega), rfl, rfl,
    ?_, ?_⟩
  · have hpays := (swapExactInput_pays_iff (a := BitVec.ofNatLT r.totalIn (by omega))
      (t := BitVec.ofNatLT r.totalOut (by omega)) hx hy hout hf).mpr
      ⟨hty, hmin, by rw [BitVec.toNat_ofNatLT]; omega⟩
    exact hpays
  · obtain ⟨q, hq⟩ := (swapExactOutput_ok_iff (y := y)
      (t := BitVec.ofNatLT r.totalOut (by omega)) hx hout hf).mpr
      ⟨hty, by rw [BitVec.toNat_ofNatLT]; omega⟩
    exact ⟨q, hq, (swapExactOutput_spec hq).amountIn ▸ hmin⟩

theorem splitting_never_pays_two_legs :
    ∃ p t : U64, p.toNat = 93 ∧ t.toNat = 82 ∧
      (∃ q, swapExactInput 1000 1000 p 30 = .ok q ∧ 82 ≤ q.amountOut.toNat) ∧
      ∃ q, swapExactOutput 1000 1000 t 30 = .ok q ∧ q.amountIn.toNat ≤ 93 :=
  splitting_never_pays 1000 1000 30 [.exactInput 50, .exactOutput 36] (by simp)
    ⟨1093, 918, 93, 82⟩ (by decide +kernel)

end AmmMath
