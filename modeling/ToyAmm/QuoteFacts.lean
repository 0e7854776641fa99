import ToyAmm.QuoteSpec

/-!
# What a quote says

For each quote function, the facts about a quote it returned: which inputs it accepted, and the
value of each field over the naturals. Everything later is proved from these records; the
functions themselves are not unfolded again.
-/

open Checked ConstantProduct

namespace AmmMath

variable {x y s a b t l : U64} {f : U16}

theorem curveOut_le (x y n : ℕ) : Reference.curveOut x y n ≤ y := floorOut_le_self

structure SwapQuote.Spec (x y a : U64) (f : U16) (q : SwapQuote U64) : Prop where
  amount_pos : 0 < a.toNat
  reserveIn_pos : 0 < x.toNat
  reserveOut_pos : 0 < y.toNat
  fee_lt : f.toNat < 10000
  amountIn : q.amountIn = a
  amountInAfterFee : q.amountInAfterFee.toNat = Reference.afterFee a.toNat f.toNat
  feeAmount : q.feeAmount.toNat + q.amountInAfterFee.toNat = a.toNat
  amountOut : q.amountOut.toNat =
    Reference.curveOut x.toNat y.toNat (Reference.afterFee a.toNat f.toNat)
  amountOut_pos : 0 < q.amountOut.toNat
  newReserveIn : q.newReserveIn.toNat = x.toNat + a.toNat
  newReserveOut : q.newReserveOut.toNat + q.amountOut.toNat = y.toNat

theorem swapExactInput_spec {q : SwapQuote U64} (h : swapExactInput x y a f = .ok q) :
    q.Spec x y a f := by
  obtain ⟨href, -⟩ := swapExactInput_matches.ok h
  obtain ⟨ha, hx, hy, hf, ho, hq⟩ := Reference.swapExactInput_eq_ok.mp href
  simp only [SwapQuote.toNat, SwapQuote.mk.injEq] at hq
  obtain ⟨h1, h2, h3, h4, h5, h6⟩ := hq
  have hout := curveOut_le x.toNat y.toNat (Reference.afterFee a.toNat f.toNat)
  have hfee := afterFee_le a.toNat f.toNat
  exact
    { amount_pos := ha
      reserveIn_pos := hx
      reserveOut_pos := hy
      fee_lt := hf
      amountIn := BitVec.eq_of_toNat_eq h1
      amountInAfterFee := h2
      feeAmount := by omega
      amountOut := h4
      amountOut_pos := by omega
      newReserveIn := h5
      newReserveOut := by omega }

structure ExactOutputQuote.Spec (x y t : U64) (f : U16) (q : ExactOutputQuote U64) : Prop where
  amount_pos : 0 < t.toNat
  reserveIn_pos : 0 < x.toNat
  amount_lt : t.toNat < y.toNat
  fee_lt : f.toNat < 10000
  amountOut : q.amountOut = t
  amountInAfterFee : q.amountInAfterFee.toNat = Reference.curveIn x.toNat y.toNat t.toNat
  amountIn : q.amountIn.toNat =
    Reference.grossUp (Reference.curveIn x.toNat y.toNat t.toNat) f.toNat
  feeAmount : q.feeAmount.toNat + q.amountInAfterFee.toNat = q.amountIn.toNat
  newReserveIn : q.newReserveIn.toNat = x.toNat + q.amountIn.toNat
  newReserveOut : q.newReserveOut.toNat + t.toNat = y.toNat

theorem swapExactOutput_spec {q : ExactOutputQuote U64} (h : swapExactOutput x y t f = .ok q) :
    q.Spec x y t f := by
  obtain ⟨href, -⟩ := swapExactOutput_matches.ok h
  obtain ⟨ht, hx, hty, hf, hq⟩ := Reference.swapExactOutput_eq_ok.mp href
  simp only [ExactOutputQuote.toNat, ExactOutputQuote.mk.injEq] at hq
  obtain ⟨h1, h2, h3, h4, h5, h6⟩ := hq
  have hgross := le_grossUp (Reference.curveIn x.toNat y.toNat t.toNat) hf
  exact
    { amount_pos := ht
      reserveIn_pos := hx
      amount_lt := hty
      fee_lt := hf
      amountOut := BitVec.eq_of_toNat_eq h1
      amountInAfterFee := h2
      amountIn := h3
      feeAmount := by omega
      newReserveIn := by omega
      newReserveOut := by omega }

/-- A swap, of either kind, keeps the product of the reserves: the net input it was priced on is
part of the input that enters. -/
theorem mul_le_of_keeps {x y n x' y' : ℕ} (h : Keeps x y n y') (hx : x + n ≤ x') :
    x * y ≤ x' * y' :=
  le_trans h (Nat.mul_le_mul_right y' hx)

theorem SwapQuote.Spec.keeps {q : SwapQuote U64} (h : q.Spec x y a f) :
    Keeps x.toNat y.toNat q.amountInAfterFee.toNat q.newReserveOut.toNat := by
  have hk : Keeps x.toNat y.toNat q.amountInAfterFee.toNat
      (y.toNat - Reference.curveOut x.toNat y.toNat q.amountInAfterFee.toNat) :=
    keeps_floorOut h.reserveIn_pos
  have ho := h.amountOut
  rw [← h.amountInAfterFee] at ho
  have hr := h.newReserveOut
  rw [← ho] at hk
  rwa [show q.newReserveOut.toNat = y.toNat - q.amountOut.toNat by omega]

theorem ExactOutputQuote.Spec.keeps {q : ExactOutputQuote U64} (h : q.Spec x y t f) :
    Keeps x.toNat y.toNat q.amountInAfterFee.toNat q.newReserveOut.toNat := by
  have hk := keeps_ceilIn (x := x.toNat) h.amount_lt
  have hr := h.newReserveOut
  rw [h.amountInAfterFee, show q.newReserveOut.toNat = y.toNat - t.toNat by omega]
  exact hk

theorem SwapQuote.Spec.mul_le {q : SwapQuote U64} (h : q.Spec x y a f) :
    x.toNat * y.toNat ≤ q.newReserveIn.toNat * q.newReserveOut.toNat := by
  apply mul_le_of_keeps h.keeps
  have := h.feeAmount
  have := h.newReserveIn
  omega

theorem ExactOutputQuote.Spec.mul_le {q : ExactOutputQuote U64} (h : q.Spec x y t f) :
    x.toNat * y.toNat ≤ q.newReserveIn.toNat * q.newReserveOut.toNat := by
  apply mul_le_of_keeps h.keeps
  have := h.feeAmount
  have := h.newReserveIn
  omega

/-! ## Liquidity -/

structure LiquidityQuote.InitialSpec (a b : U64) (q : LiquidityQuote U64) : Prop where
  amountA_pos : 0 < a.toNat
  amountB_pos : 0 < b.toNat
  amountA : q.amountA = a
  amountB : q.amountB = b
  lpTokens : q.lpTokens.toNat + 1000 = Nat.sqrt (a.toNat * b.toNat)
  lpTokens_pos : 0 < q.lpTokens.toNat

theorem initialLiquidity_spec {q : LiquidityQuote U64} (h : initialLiquidity a b = .ok q) :
    q.InitialSpec a b := by
  obtain ⟨href, -⟩ := initialLiquidity_matches.ok h
  obtain ⟨ha, hb, hs, hq⟩ := Reference.initialLiquidity_eq_ok.mp href
  simp only [LiquidityQuote.toNat, LiquidityQuote.mk.injEq] at hq
  obtain ⟨h1, h2, h3⟩ := hq
  exact ⟨ha, hb, BitVec.eq_of_toNat_eq h2, BitVec.eq_of_toNat_eq h3, by omega, by omega⟩

structure LiquidityQuote.AddSpec (x y s a b : U64) (q : LiquidityQuote U64) : Prop where
  amountA_pos : 0 < a.toNat
  amountB_pos : 0 < b.toNat
  reserveA_pos : 0 < x.toNat
  reserveB_pos : 0 < y.toNat
  amountA : q.amountA = a
  amountB : q.amountB = b
  lpTokens : q.lpTokens.toNat =
    Reference.mintedShares x.toNat y.toNat s.toNat a.toNat b.toNat
  lpTokens_pos : 0 < q.lpTokens.toNat

theorem addLiquidity_spec {q : LiquidityQuote U64} (h : addLiquidity x y s a b = .ok q) :
    q.AddSpec x y s a b := by
  obtain ⟨href, -⟩ := addLiquidity_matches.ok h
  obtain ⟨ha, hb, hx, hy, h0, hq⟩ := Reference.addLiquidity_eq_ok.mp href
  simp only [LiquidityQuote.toNat, LiquidityQuote.mk.injEq] at hq
  obtain ⟨h1, h2, h3⟩ := hq
  exact ⟨ha, hb, hx, hy, BitVec.eq_of_toNat_eq h2, BitVec.eq_of_toNat_eq h3, h1,
    by rw [h1]; exact Nat.pos_of_ne_zero h0⟩

structure LiquidityQuote.RemoveSpec (x y s l : U64) (q : LiquidityQuote U64) : Prop where
  lp_pos : 0 < l.toNat
  reserveA_pos : 0 < x.toNat
  reserveB_pos : 0 < y.toNat
  lp_le : l.toNat ≤ s.toNat
  lpTokens : q.lpTokens = l
  amountA : q.amountA.toNat = l.toNat * x.toNat / s.toNat
  amountB : q.amountB.toNat = l.toNat * y.toNat / s.toNat
  amountA_pos : 0 < q.amountA.toNat
  amountB_pos : 0 < q.amountB.toNat

theorem removeLiquidity_spec {q : LiquidityQuote U64} (h : removeLiquidity x y s l = .ok q) :
    q.RemoveSpec x y s l := by
  obtain ⟨href, -⟩ := removeLiquidity_matches.ok h
  obtain ⟨hl, hx, hy, hls, ha, hb, hq⟩ := Reference.removeLiquidity_eq_ok.mp href
  simp only [LiquidityQuote.toNat, LiquidityQuote.mk.injEq] at hq
  obtain ⟨h1, h2, h3⟩ := hq
  exact ⟨hl, hx, hy, hls, BitVec.eq_of_toNat_eq h1, h2, h3, by omega, by omega⟩

/-- A withdrawal of at most the supply is quoted whenever both of its parts are positive. -/
theorem removeLiquidity_ok (hl : 0 < l.toNat) (hx : 0 < x.toNat) (hy : 0 < y.toNat)
    (hls : l.toNat ≤ s.toNat) (ha : 0 < l.toNat * x.toNat / s.toNat)
    (hb : 0 < l.toNat * y.toNat / s.toNat) : ∃ q, removeLiquidity x y s l = .ok q := by
  obtain ⟨q, hq, -⟩ := removeLiquidity_matches.exists_ok
    (Reference.removeLiquidity_eq_ok.mpr ⟨hl, hx, hy, hls, ha.ne', hb.ne', rfl⟩) trivial
  exact ⟨q, hq⟩

/-- The shares minted are at most either side's proportional part. -/
theorem LiquidityQuote.AddSpec.mul_le_left {q : LiquidityQuote U64} (h : q.AddSpec x y s a b) :
    q.lpTokens.toNat * x.toNat ≤ a.toNat * s.toNat := by
  rw [h.lpTokens]
  exact (Nat.mul_le_mul_right _ (min_le_left _ _)).trans (Nat.div_mul_le_self _ _)

theorem LiquidityQuote.AddSpec.mul_le_right {q : LiquidityQuote U64} (h : q.AddSpec x y s a b) :
    q.lpTokens.toNat * y.toNat ≤ b.toNat * s.toNat := by
  rw [h.lpTokens]
  exact (Nat.mul_le_mul_right _ (min_le_right _ _)).trans (Nat.div_mul_le_self _ _)

/-- A deposit leaves every share at least as well backed, on both sides. -/
theorem LiquidityQuote.AddSpec.backed {q : LiquidityQuote U64} (h : q.AddSpec x y s a b) :
    Backed (⟨x.toNat, y.toNat, s.toNat⟩ : Pool ℕ)
      ⟨x.toNat + a.toNat, y.toNat + b.toNat, s.toNat + q.lpTokens.toNat⟩ :=
  backed_of_mul_le h.mul_le_left h.mul_le_right

theorem LiquidityQuote.RemoveSpec.amountA_le {q : LiquidityQuote U64}
    (h : q.RemoveSpec x y s l) : q.amountA.toNat ≤ x.toNat := by
  rw [h.amountA]; exact share_le h.lp_le

theorem LiquidityQuote.RemoveSpec.amountB_le {q : LiquidityQuote U64}
    (h : q.RemoveSpec x y s l) : q.amountB.toNat ≤ y.toNat := by
  rw [h.amountB]; exact share_le h.lp_le

/-- Taking out at most the proportional part of a reserve leaves the other shares backed. -/
theorem mul_sub_le_sub_mul {x s l w : ℕ} (hl : l ≤ s) (hw : w ≤ x) (h : w * s ≤ l * x) :
    x * (s - l) ≤ (x - w) * s := by
  obtain ⟨r, rfl⟩ := Nat.exists_eq_add_of_le hl
  obtain ⟨z, rfl⟩ := Nat.exists_eq_add_of_le hw
  rw [Nat.add_sub_cancel_left, Nat.add_sub_cancel_left]
  nlinarith

/-- A withdrawal leaves every remaining share at least as well backed, on both sides. -/
theorem LiquidityQuote.RemoveSpec.backed {q : LiquidityQuote U64} (h : q.RemoveSpec x y s l) :
    Backed (⟨x.toNat, y.toNat, s.toNat⟩ : Pool ℕ)
      ⟨x.toNat - q.amountA.toNat, y.toNat - q.amountB.toNat, s.toNat - l.toNat⟩ := by
  constructor
  · exact mul_sub_le_sub_mul h.lp_le h.amountA_le
      (by rw [h.amountA]; exact Nat.div_mul_le_self _ _)
  · exact mul_sub_le_sub_mul h.lp_le h.amountB_le
      (by rw [h.amountB]; exact Nat.div_mul_le_self _ _)

end AmmMath
