import ToyAmm.SwapAdjoint

/-!
# Who pays for rounding, and how much

Every rounding of the math library is exact on one side. `integerSqrtFloor_exact`: the root is the
floor of the real one, whatever the word. `swap_extremal`: both swap formulas take the extremal
integer that still keeps the product of the reserves before the fee, and the fee comes on top.
`swapExactOutput_fee_inverse`: the gross-up of an exact-output swap is undone by the fee of an
exact-input one. `deposit_loss_lt_share`: a deposit redeemed at once is short by less than one
share and one unit.
-/

open Checked ConstantProduct

namespace AmmMath

variable {x y s a b t : U64} {f : U16}

/-! ## The square root -/

/-- **The integer square root is total and exact.** No shift, division or sum of it aborts, as an
abort would be the result. -/
theorem integerSqrtFloor_exact (value : U128) :
    (∃ x, (shlOrPanic 1 ((128 - leadingZeros value + 1) / 2) : Result U128) = .ok x ∧
        x.toNat = 2 ^ ((128 - leadingZeros value + 1) / 2)) ∧
      (∃ r, integerSqrtFloor value = .ok r ∧ r.toNat * r.toNat ≤ value.toNat ∧
        value.toNat < (r.toNat + 1) * (r.toNat + 1) ∧ r.toNat ≤ 2 ^ 64 - 1 ∧
        ∃ m, narrowU64 r = .ok m ∧ m.toNat = r.toNat) ∧
      ∀ a b, initialLiquidity a b ≠ .err .overflow ∧ initialLiquidity a b ≠ .panic := by
  refine ⟨?_, ?_, ?_⟩
  · obtain ⟨x, hx, hpow, -⟩ := start_inv value
    exact ⟨x, hx, hpow⟩
  · obtain ⟨r, hr, hv⟩ := integerSqrtFloor_ok value
    have hlt := sqrt_lt_two_pow_64 value
    obtain ⟨m, hm, hmv⟩ := narrowU64_ok hv hlt
    refine ⟨r, hr, ?_, ?_, by omega, m, hm, by omega⟩
    · rw [hv]
      exact Nat.sqrt_le _
    · rw [hv]
      exact Nat.lt_succ_sqrt _
  · intro a b
    refine ⟨?_, initialLiquidity_matches.ne_panic⟩
    rw [ne_eq, initialLiquidity_matches.err_iff, Reference.initialLiquidity]
    split_ifs <;> simp

/-! ## Swaps -/

/-- What the pool keeps of a swap: something of the reserve paid from, and beside the product of
the old reserves the fee at the new price. -/
structure FavoursPool (x y : U64) (f : U16) (fee newIn newOut : U64) : Prop where
  newReserveOut_pos : 1 ≤ newOut.toNat
  product : x.toNat * y.toNat + fee.toNat * newOut.toNat ≤ newIn.toNat * newOut.toNat
  fee_pos : 1 ≤ f.toNat → 1 ≤ fee.toNat
  increases : 1 ≤ f.toNat → x.toNat * y.toNat < newIn.toNat * newOut.toNat

/-- The curve is kept by the net input alone, so the fee is a gain. -/
theorem FavoursPool.of_keeps {net fee newIn newOut : U64}
    (h : Keeps x.toNat y.toNat net.toNat newOut.toNat) (hpos : 1 ≤ newOut.toNat)
    (hin : newIn.toNat = x.toNat + net.toNat + fee.toNat) (hfee : 1 ≤ f.toNat → 1 ≤ fee.toNat) :
    FavoursPool x y f fee newIn newOut := by
  have hproduct : x.toNat * y.toNat + fee.toNat * newOut.toNat ≤ newIn.toNat * newOut.toNat := by
    rw [hin, Nat.add_mul (x.toNat + net.toNat)]
    exact Nat.add_le_add_right h _
  refine ⟨hpos, hproduct, hfee, fun hf => ?_⟩
  have hgain : 1 ≤ fee.toNat * newOut.toNat := Nat.mul_pos (hfee hf) hpos
  omega

theorem SwapQuote.Spec.favoursPool {q : SwapQuote U64} (h : q.Spec x y a f) :
    FavoursPool x y f q.feeAmount q.newReserveIn q.newReserveOut := by
  have hnet := h.amountInAfterFee
  have hfee := h.feeAmount
  have hnew := h.newReserveIn
  refine .of_keeps h.keeps ?_ (by omega) ?_
  · have hlt : Reference.curveOut x.toNat y.toNat (Reference.afterFee a.toNat f.toNat) < y.toNat :=
      floorOut_lt h.reserveIn_pos h.reserveOut_pos
    have ho := h.amountOut
    have hr := h.newReserveOut
    omega
  · intro hf
    have hlt : Reference.afterFee a.toNat f.toNat < a.toNat :=
      floorNet_lt (by omega) h.amount_pos
    omega

theorem ExactOutputQuote.Spec.favoursPool {q : ExactOutputQuote U64} (h : q.Spec x y t f) :
    FavoursPool x y f q.feeAmount q.newReserveIn q.newReserveOut := by
  have hnet := h.amountInAfterFee
  have hfee := h.feeAmount
  have hnew := h.newReserveIn
  have hlt := h.amount_lt
  have hr := h.newReserveOut
  refine .of_keeps h.keeps (by omega) (by omega) ?_
  intro hf
  -- an output of at least one costs at least one before the fee
  have hpos : 0 < Reference.curveIn x.toNat y.toNat t.toNat := by
    by_contra h0
    have hkeep := (ceilIn_le_iff h.amount_lt).mp (Nat.le_of_not_lt h0)
    rw [keeps_sub_iff hlt.le, Nat.zero_mul, Nat.add_zero] at hkeep
    have := Nat.mul_pos h.amount_pos h.reserveIn_pos
    omega
  have hfl := h.fee_lt
  have hgross : Reference.curveIn x.toNat y.toNat t.toNat <
      Reference.grossUp (Reference.curveIn x.toNat y.toNat t.toNat) f.toNat :=
    lt_ceilGross (by omega) (by omega) hpos
  have hin := h.amountIn
  omega

/-- **Both swap formulas take the extremum that favours the pool**, over all integers, and the
fee comes on top of it. -/
theorem swap_extremal :
    (∀ (x y a : U64) (f : U16) q, swapExactInput x y a f = .ok q →
      IsGreatest {o : ℤ | (x.toNat : ℤ) * y.toNat ≤
        (x.toNat + q.amountInAfterFee.toNat) * (y.toNat - o)} q.amountOut.toNat ∧
      FavoursPool x y f q.feeAmount q.newReserveIn q.newReserveOut) ∧
    ∀ (x y t : U64) (f : U16) q, swapExactOutput x y t f = .ok q →
      IsLeast {i : ℤ | (x.toNat : ℤ) * y.toNat ≤ (x.toNat + i) * (y.toNat - q.amountOut.toNat)}
        q.amountInAfterFee.toNat ∧
      FavoursPool x y f q.feeAmount q.newReserveIn q.newReserveOut := by
  constructor
  · intro x y a f q hq
    have hs := swapExactInput_spec hq
    refine ⟨?_, hs.favoursPool⟩
    rw [hs.amountOut, hs.amountInAfterFee]
    exact isGreatest_floorOut hs.reserveIn_pos
  · intro x y t f q hq
    have hs := swapExactOutput_spec hq
    refine ⟨?_, hs.favoursPool⟩
    rw [hs.amountOut, hs.amountInAfterFee]
    exact isLeast_ceilIn hs.amount_lt

theorem swap_extremal_thirty_bps :
    FavoursPool 1000 1000 30 1 1100 910 ∧ FavoursPool 1000 1000 30 1 1100 910 :=
  ⟨(swap_extremal.1 1000 1000 100 30 ⟨100, 99, 1, 90, 1100, 910⟩ (by decide +kernel)).2,
    (swap_extremal.2 1000 1000 90 30 ⟨90, 99, 100, 1, 1100, 910⟩ (by decide +kernel)).2⟩

/-! ## The fee -/

/-- The fee that an exact-input swap takes from the input of an exact-output quote leaves the net
input of that quote. -/
theorem ExactOutputQuote.Spec.afterFee {q : ExactOutputQuote U64} (h : q.Spec x y t f) :
    Reference.afterFee q.amountIn.toNat f.toNat = q.amountInAfterFee.toNat := by
  have hf := h.fee_lt
  rw [h.amountIn, h.amountInAfterFee]
  exact floorNet_ceilGross (by omega) (Nat.sub_le _ _)

theorem ExactOutputQuote.Spec.fee_eq {q : ExactOutputQuote U64} (h : q.Spec x y t f) :
    q.feeAmount.toNat = (q.amountIn.toNat * f.toNat) ⌈/⌉ 10000 := by
  have hf := h.fee_lt
  have hfee := h.feeAmount
  have hnet := h.afterFee
  have hsub : q.amountIn.toNat - Reference.afterFee q.amountIn.toNat f.toNat =
      (q.amountIn.toNat * (10000 - (10000 - f.toNat))) ⌈/⌉ 10000 :=
    sub_floorNet (by norm_num) (Nat.sub_le _ _)
  rw [Nat.sub_sub_self hf.le] at hsub
  omega

/-- **The gross-up of an exact-output swap is an exact inverse of the exact-input fee.** -/
theorem swapExactOutput_fee_inverse (x y t : U64) (f : U16) (q : ExactOutputQuote U64)
    (hq : swapExactOutput x y t f = .ok q) :
    amountAfterFee q.amountIn f = .ok q.amountInAfterFee ∧
      q.feeAmount.toNat = (q.amountIn.toNat * f.toNat) ⌈/⌉ 10000 ∧
      ∃ r, swapExactInput x y q.amountIn f = .ok r ∧ r.amountIn = q.amountIn ∧
        r.amountInAfterFee = q.amountInAfterFee ∧ r.feeAmount = q.feeAmount ∧
        r.newReserveIn = q.newReserveIn ∧ t.toNat ≤ r.amountOut.toNat ∧
        r.newReserveOut.toNat ≤ q.newReserveOut.toNat := by
  have hs := swapExactOutput_spec hq
  have hnet := hs.afterFee
  refine ⟨?_, hs.fee_eq, ?_⟩
  · obtain ⟨n, hn, hv⟩ := amountAfterFee_ok (a := q.amountIn) hs.fee_lt
    rw [hn, BitVec.eq_of_toNat_eq (hv.trans hnet)]
  · have hfit : x.toNat + q.amountIn.toNat < 2 ^ 64 := by
      rw [← hs.newReserveIn]
      exact q.newReserveIn.isLt
    obtain ⟨r, hr, hpay⟩ := (swapExactInput_pays_iff hs.reserveIn_pos
      (hs.amount_pos.trans hs.amount_lt) hs.amount_pos hs.fee_lt).mpr
      ⟨hs.amount_lt, hs.amountIn.ge, hfit⟩
    have hi := swapExactInput_spec hr
    have hrnet : r.amountInAfterFee = q.amountInAfterFee :=
      BitVec.eq_of_toNat_eq (hi.amountInAfterFee.trans hnet)
    have hrfee := hi.feeAmount
    have hqfee := hs.feeAmount
    have hrout := hi.newReserveOut
    have hqout := hs.newReserveOut
    rw [hrnet] at hrfee
    refine ⟨r, hr, hi.amountIn, hrnet, BitVec.eq_of_toNat_eq (by omega),
      BitVec.eq_of_toNat_eq (hi.newReserveIn.trans hs.newReserveIn.symm), hpay, by omega⟩

theorem swapExactOutput_fee_inverse_steep :
    amountAfterFee 990000 9999 = .ok 99 ∧ 989901 = (990000 * 9999) ⌈/⌉ 10000 ∧
      ∃ r, swapExactInput 1000 1000 990000 9999 = .ok r ∧ r.amountIn = 990000 ∧
        r.amountInAfterFee = 99 ∧ r.feeAmount = 989901 ∧ r.newReserveIn = 991000 ∧
        90 ≤ r.amountOut.toNat ∧ r.newReserveOut.toNat ≤ 910 :=
  swapExactOutput_fee_inverse 1000 1000 90 9999 ⟨90, 99, 990000, 989901, 991000, 910⟩
    (by decide +kernel)

/-! ## Deposits -/

/-- What a deposit redeems for on the side that bound its shares. -/
theorem binding_side_loss {x s a l w : ℕ} (hx : 0 < x) (hs : 0 < s + l) (hl : l = a * s / x)
    (hw : w = l * (x + a) / (s + l)) :
    w ≤ a ∧ ((a : ℤ) - w - 1) * (s + l) < x := by
  subst hl hw
  have hle : a * s / x * x ≤ a * s := Nat.div_mul_le_self _ _
  have hlt : a * s < (a * s / x + 1) * x := by
    rw [Nat.mul_comm (_ + 1)]
    exact Nat.lt_mul_div_succ _ hx
  refine ⟨redeemed_le hle, ?_⟩
  have hloss := lt_redeemed hs hlt
  zify at hloss
  push_cast
  linarith

/-- **A deposit's rounding loss is less than one share and one unit**, on the side that binds. -/
theorem deposit_loss_lt_share (x y s a b : U64) (q w : LiquidityQuote U64)
    (hx : x.toNat + a.toNat < 2 ^ 64) (hy : y.toNat + b.toNat < 2 ^ 64)
    (hs : s.toNat + q.lpTokens.toNat < 2 ^ 64) (hadd : addLiquidity x y s a b = .ok q)
    (hremove : removeLiquidity (x + a) (y + b) (s + q.lpTokens) q.lpTokens = .ok w) :
    (a.toNat * s.toNat / x.toNat ≤ b.toNat * s.toNat / y.toNat →
        w.amountA.toNat ≤ a.toNat ∧
          ((a.toNat : ℤ) - w.amountA.toNat - 1) * (s.toNat + q.lpTokens.toNat) < x.toNat) ∧
      (b.toNat * s.toNat / y.toNat ≤ a.toNat * s.toNat / x.toNat →
        w.amountB.toNat ≤ b.toNat ∧
          ((b.toNat : ℤ) - w.amountB.toNat - 1) * (s.toNat + q.lpTokens.toNat) < y.toNat) := by
  have hq := addLiquidity_spec hadd
  have hw := removeLiquidity_spec hremove
  have hpos : 0 < s.toNat + q.lpTokens.toNat := Nat.add_pos_right _ hq.lpTokens_pos
  have hwa := hw.amountA
  have hwb := hw.amountB
  rw [BitVec.toNat_add_of_lt hx, BitVec.toNat_add_of_lt hs] at hwa
  rw [BitVec.toNat_add_of_lt hy, BitVec.toNat_add_of_lt hs] at hwb
  constructor
  · intro hbind
    exact binding_side_loss hq.reserveA_pos hpos (hq.lpTokens.trans (min_eq_left hbind)) hwa
  · intro hbind
    exact binding_side_loss hq.reserveB_pos hpos (hq.lpTokens.trans (min_eq_right hbind)) hwb

theorem deposit_loss_lt_share_skewed :
    (7 * 10 / 50 ≤ 9 * 10 / 30 → 5 ≤ 7 ∧ ((7 : ℤ) - 5 - 1) * (10 + 1) < 50) ∧
      (9 * 10 / 30 ≤ 7 * 10 / 50 → 3 ≤ 9 ∧ ((9 : ℤ) - 3 - 1) * (10 + 1) < 30) :=
  deposit_loss_lt_share 50 30 10 7 9 ⟨1, 7, 9⟩ ⟨1, 5, 3⟩ (by decide) (by decide) (by decide)
    (by decide +kernel) (by decide +kernel)

end AmmMath
