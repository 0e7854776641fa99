import ToyAmm.Reference

/-!
# Every quote matches its reference

One theorem for each quote function: `amountAfterFee_matches`, `swapExactInput_matches`,
`swapExactOutput_matches`, `initialLiquidity_matches`, `addLiquidity_matches` and
`removeLiquidity_matches`. Along the way every raw operator is shown not to abort and every
128-bit product and sum to fit.
-/

open Checked ConstantProduct

namespace AmmMath

variable {x y s a b t l : U64} {f : U16}

/-! ## Products and sums of 64-bit values -/

theorem mul_lt_two_pow_128 {m n : ℕ} (hm : m < 2 ^ 64) (hn : n < 2 ^ 64) : m * n < 2 ^ 128 :=
  calc m * n < 2 ^ 64 * 2 ^ 64 := Nat.mul_lt_mul'' hm hn
    _ = 2 ^ 128 := by norm_num

theorem mul_add_lt_two_pow_128 {m n k : ℕ} (hm : m < 2 ^ 64) (hn : n < 2 ^ 64) (hk : k < 2 ^ 64) :
    m * n + k < 2 ^ 128 := by
  have h : m * n ≤ (2 ^ 64 - 1) * (2 ^ 64 - 1) := Nat.mul_le_mul (by omega) (by omega)
  omega

theorem extend_ne_zero (hx : x ≠ 0) : extend 128 x ≠ 0 := by
  rw [← toNat_pos, toNat_extend (by decide)]
  exact toNat_pos.mpr hx

/-- Narrowing a word whose value is below `2 ^ 64` keeps the value. -/
theorem narrowU64_ok {n : U128} {m : ℕ} (hn : n.toNat = m) (hm : m < 2 ^ 64) :
    ∃ r, narrowU64 n = .ok r ∧ r.toNat = m :=
  ⟨BitVec.ofNatLT m hm, narrowU64_eq_ok.mpr hn.symm, rfl⟩

theorem subOrPanic_ok {w : ℕ} {p q : BitVec w} (h : q.toNat ≤ p.toNat) :
    ∃ r, (subOrPanic p q : Result (BitVec w)) = .ok r ∧ r.toNat = p.toNat - q.toNat :=
  ⟨BitVec.ofNatLT (p.toNat - q.toNat) (by omega),
    subOrPanic_eq_ok.mpr (by rw [BitVec.toNat_ofNatLT]; omega), rfl⟩

/-- A product of two 64-bit values divided by a 64-bit divisor: the helper does not overflow. -/
theorem mulDivFloor_extend (hd : s ≠ 0) :
    ∃ r, checkedMulDivFloor (extend 128 a) (extend 128 b) (extend 128 s) = .ok r ∧
      r.toNat = a.toNat * b.toNat / s.toNat := by
  obtain ⟨r, hr, hv⟩ := checkedMulDivFloor_ok (a := extend 128 a) (b := extend 128 b)
    (extend_ne_zero hd) (by simpa using mul_lt_two_pow_128 a.isLt b.isLt)
  exact ⟨r, hr, by simpa using hv⟩

/-! ## The fee -/

theorem invalidFee_iff : extend 64 f ≥ feeDenominator ↔ 10000 ≤ f.toNat := by
  show feeDenominator.toNat ≤ (extend 64 f).toNat ↔ 10000 ≤ f.toNat
  rw [toNat_extend (by decide)]
  rfl

theorem multiplier_ok (hf : f.toNat < 10000) :
    ∃ m : U128, (subOrPanic (extend 128 feeDenominator) (extend 128 f) : Result U128) = .ok m ∧
      m.toNat = 10000 - f.toNat := by
  have hD : (extend 128 feeDenominator).toNat = 10000 := rfl
  have hF : (extend 128 f).toNat = f.toNat := toNat_extend (by decide) f
  obtain ⟨m, hm, hv⟩ := subOrPanic_ok (p := extend 128 feeDenominator) (q := extend 128 f)
    (by rw [hD, hF]; exact hf.le)
  exact ⟨m, hm, by rw [hv, hD, hF]⟩

theorem afterFee_le (n : ℕ) (k : ℕ) : Reference.afterFee n k ≤ n := floorNet_le (Nat.sub_le _ _)

theorem amountAfterFee_ok (hf : f.toNat < 10000) :
    ∃ n, amountAfterFee a f = .ok n ∧ n.toNat = Reference.afterFee a.toNat f.toNat := by
  obtain ⟨m, hm, hmv⟩ := multiplier_ok hf
  have hD : (extend 128 feeDenominator).toNat = 10000 := rfl
  have hA : (extend 128 a).toNat = a.toNat := toNat_extend (by decide) a
  have hlt := a.isLt
  obtain ⟨w, hw, hwv⟩ := checkedMulDivFloor_ok (a := extend 128 a) (b := m)
    (d := extend 128 feeDenominator) (by decide)
    (by rw [hA, hmv]; exact mul_lt_two_pow_128 hlt (by omega))
  have hwv' : w.toNat = Reference.afterFee a.toNat f.toNat := by rw [hwv, hA, hmv, hD]; rfl
  obtain ⟨n, hn, hnv⟩ := narrowU64_ok hwv' ((afterFee_le _ _).trans_lt hlt)
  refine ⟨n, ?_, hnv⟩
  rw [amountAfterFee, if_neg (by rw [invalidFee_iff]; omega), hm, Outcome.ok_bind, hw,
    Outcome.ok_bind, hn]

theorem amountAfterFee_err (hf : 10000 ≤ f.toNat) : amountAfterFee a f = .err .invalidFee :=
  if_pos (invalidFee_iff.mpr hf)

theorem amountAfterFee_matches :
    Matches BitVec.toNat (fun _ => True) (amountAfterFee a f)
      (Reference.amountAfterFee a.toNat f.toNat) := by
  by_cases hf : 10000 ≤ f.toNat
  · exact .of_err (amountAfterFee_err hf) (if_pos hf)
  · obtain ⟨n, hn, hv⟩ := amountAfterFee_ok (a := a) (Nat.lt_of_not_le hf)
    exact .of_ok hn (if_neg hf) hv trivial

/-! ## Swaps -/

/-- Adding two 64-bit values in 128 bits and narrowing: the sum, or `Overflow`. -/
theorem addNarrow_ok (h : x.toNat + a.toNat < 2 ^ 64) :
    (checkedAdd (extend 128 x) (extend 128 a)).bind (narrow 64) =
      some (BitVec.ofNatLT _ h) := by
  have hs : (extend 128 x).toNat + (extend 128 a).toNat = x.toNat + a.toNat := by simp
  have hlt : x.toNat + a.toNat < 2 ^ 128 := by omega
  rw [checkedAdd, hs, fit_of_lt hlt, Option.bind_some, narrow_eq_some]
  rfl

theorem addNarrow_overflow (h : 2 ^ 64 ≤ x.toNat + a.toNat) :
    (checkedAdd (extend 128 x) (extend 128 a)).bind (narrow 64) = none := by
  have hs : (extend 128 x).toNat + (extend 128 a).toNat = x.toNat + a.toNat := by simp
  have hlt : x.toNat + a.toNat < 2 ^ 128 := by have := x.isLt; have := a.isLt; omega
  rw [checkedAdd, hs, fit_of_lt hlt, Option.bind_some]
  exact fit_of_le h

/-- What an exact-input swap has computed before its last two checks. -/
theorem swapExactInput_steps (ha : a ≠ 0) (hx : x ≠ 0) (hy : y ≠ 0) (hf : f.toNat < 10000) :
    ∃ n fee o : U64, n.toNat = Reference.afterFee a.toNat f.toNat ∧
      fee.toNat = a.toNat - Reference.afterFee a.toNat f.toNat ∧
      o.toNat = Reference.curveOut x.toNat y.toNat (Reference.afterFee a.toNat f.toNat) ∧
      swapExactInput x y a f = (if o = 0 then .err .insufficientOutput else do
        let newReserveIn ← .okOr .overflow
          ((checkedAdd (extend 128 x) (extend 128 a)).bind (narrow 64))
        let newReserveOut ← .okOr .underflow (checkedSub y o)
        .ok ⟨a, n, fee, o, newReserveIn, newReserveOut⟩) := by
  obtain ⟨n, hn, hnv⟩ := amountAfterFee_ok (a := a) hf
  have hxl := x.isLt
  have hnl := n.isLt
  obtain ⟨fee, hfee, hfeev⟩ := subOrPanic_ok (p := a) (q := n) (hnv ▸ afterFee_le _ _)
  have hsum : (extend 128 x).toNat + (extend 128 n).toNat < 2 ^ 128 := by simp; omega
  have hden : (addOrPanic (extend 128 x) (extend 128 n) : Result U128) =
      .ok (BitVec.ofNatLT _ hsum) := addOrPanic_eq_ok.mpr rfl
  have hdv : (BitVec.ofNatLT _ hsum).toNat = x.toNat + n.toNat := by simp
  have hd0 : BitVec.ofNatLT _ hsum ≠ 0 := by
    rw [← toNat_pos, hdv]
    have := toNat_pos.mpr hx
    omega
  obtain ⟨w, hw, hwv⟩ := checkedMulDivFloor_ok (a := extend 128 n) (b := extend 128 y) hd0
    (by simpa using mul_lt_two_pow_128 n.isLt y.isLt)
  have hwv' : w.toNat = Reference.curveOut x.toNat y.toNat n.toNat := by
    rw [hwv, hdv]; simp [floorOut]
  obtain ⟨o, ho, hov⟩ := narrowU64_ok hwv'
    ((floorOut_lt (toNat_pos.mpr hx) (toNat_pos.mpr hy)).trans y.isLt)
  refine ⟨n, fee, o, hnv, by rw [hfeev, hnv], by rw [hov, hnv], ?_⟩
  rw [swapExactInput, if_neg ha, if_neg (not_or.mpr ⟨hx, hy⟩), hn, Outcome.ok_bind, hfee,
    Outcome.ok_bind, hden, Outcome.ok_bind, hw, Outcome.ok_bind, ho, Outcome.ok_bind]

theorem swapExactInput_matches :
    Matches SwapQuote.toNat (fun q => q.newReserveIn < 2 ^ 64) (swapExactInput x y a f)
      (Reference.swapExactInput x.toNat y.toNat a.toNat f.toNat) := by
  unfold Reference.swapExactInput
  simp only [toNat_eq_zero]
  by_cases ha : a = 0
  · exact .of_err (if_pos ha) (if_pos ha)
  rw [if_neg ha]
  by_cases hxy : x = 0 ∨ y = 0
  · exact .of_err (by rw [swapExactInput, if_neg ha, if_pos hxy]) (if_pos hxy)
  rw [if_neg hxy]
  obtain ⟨hx, hy⟩ := not_or.mp hxy
  by_cases hf : 10000 ≤ f.toNat
  · refine .of_err ?_ (if_pos hf)
    rw [swapExactInput, if_neg ha, if_neg hxy, amountAfterFee_err hf, Outcome.err_bind]
  rw [if_neg hf]
  obtain ⟨n, fee, o, hn, hfee, ho, hrun⟩ := swapExactInput_steps ha hx hy (Nat.lt_of_not_le hf)
  rw [← ho, ← hn, hrun]
  by_cases ho0 : o = 0
  · exact .of_err (if_pos ho0) (if_pos (toNat_eq_zero.mpr ho0))
  rw [if_neg ho0, if_neg (toNat_eq_zero.not.mpr ho0)]
  by_cases hsum : x.toNat + a.toNat < 2 ^ 64
  · have hlt : o.toNat < y.toNat := by
      rw [ho]; exact floorOut_lt (toNat_pos.mpr hx) (toNat_pos.mpr hy)
    have hsub : checkedSub y o = some (BitVec.ofNatLT (y.toNat - o.toNat) (by omega)) :=
      checkedSub_eq_some.mpr (by rw [BitVec.toNat_ofNatLT]; omega)
    rw [addNarrow_ok hsum, hsub]
    refine .of_ok rfl rfl ?_ hsum
    simp [SwapQuote.toNat, hfee, hn]
  · rw [addNarrow_overflow (Nat.le_of_not_lt hsum)]
    exact .of_overflow rfl rfl hsum

/-- The curve's input as a 128-bit word. -/
theorem curveIn_ok (hlt : t.toNat < y.toNat) :
    ∃ r w, (subOrPanic y t : Result U64) = .ok r ∧
      checkedMulDivCeil (extend 128 t) (extend 128 x) (extend 128 r) = .ok w ∧
      w.toNat = Reference.curveIn x.toNat y.toNat t.toNat := by
  obtain ⟨r, hr, hrv⟩ := subOrPanic_ok (p := y) (q := t) hlt.le
  have hr0 : r ≠ 0 := by rw [← toNat_pos]; omega
  obtain ⟨w, hw, hwv⟩ := checkedMulDivCeil_ok (a := extend 128 t) (b := extend 128 x)
    (extend_ne_zero hr0) (by
      have := mul_add_lt_two_pow_128 t.isLt x.isLt r.isLt
      simp only [toNat_extend (show 64 ≤ 128 by decide)]
      omega)
  refine ⟨r, w, hr, hw, ?_⟩
  rw [hwv]
  simp [ceilIn, hrv]

/-- The gross-up as a 128-bit word. -/
theorem grossUp_ok (n : U64) (hf : f.toNat < 10000) :
    ∃ m w, (subOrPanic (extend 128 feeDenominator) (extend 128 f) : Result U128) = .ok m ∧
      checkedMulDivCeil (extend 128 n) (extend 128 feeDenominator) m = .ok w ∧
      w.toNat = Reference.grossUp n.toNat f.toNat := by
  obtain ⟨m, hm, hmv⟩ := multiplier_ok hf
  have hD : (extend 128 feeDenominator).toNat = 10000 := rfl
  have hN : (extend 128 n).toNat = n.toNat := toNat_extend (by decide) n
  have hnl := n.isLt
  obtain ⟨w, hw, hwv⟩ := checkedMulDivCeil_ok (a := extend 128 n)
    (b := extend 128 feeDenominator) (d := m) (by rw [← toNat_pos]; omega)
    (by rw [hN, hD]; omega)
  exact ⟨m, w, hm, hw, by rw [hwv, hN, hD, hmv]; rfl⟩

theorem le_grossUp (n : ℕ) {k : ℕ} (hk : k < 10000) : n ≤ Reference.grossUp n k :=
  le_ceilGross (by omega) (Nat.sub_le _ _)

theorem swapExactOutput_matches :
    Matches ExactOutputQuote.toNat (fun q => q.newReserveIn < 2 ^ 64) (swapExactOutput x y t f)
      (Reference.swapExactOutput x.toNat y.toNat t.toNat f.toNat) := by
  unfold Reference.swapExactOutput
  simp only [toNat_eq_zero]
  by_cases ht : t = 0
  · exact .of_err (if_pos ht) (if_pos ht)
  by_cases hxy : x = 0 ∨ y = 0
  · rw [if_neg ht]
    exact .of_err (by rw [swapExactOutput, if_neg ht, if_pos hxy]) (if_pos hxy)
  by_cases hty : y.toNat ≤ t.toNat
  · rw [if_neg ht, if_neg hxy]
    refine .of_err ?_ (if_pos hty)
    rw [swapExactOutput, if_neg ht, if_neg hxy]
    exact if_pos hty
  have htyw : ¬ t ≥ y := hty
  by_cases hf : 10000 ≤ f.toNat
  · rw [if_neg ht, if_neg hxy, if_neg hty]
    refine .of_err ?_ (if_pos hf)
    rw [swapExactOutput, if_neg ht, if_neg hxy, if_neg htyw]
    exact if_pos (invalidFee_iff.mpr hf)
  have hf' : f.toNat < 10000 := Nat.lt_of_not_le hf
  rw [if_neg ht, if_neg hxy, if_neg hty, if_neg hf]
  obtain ⟨r, w, hr, hw, hwv⟩ := curveIn_ok (x := x) (Nat.lt_of_not_le hty)
  rw [swapExactOutput, if_neg ht, if_neg hxy, if_neg htyw, if_neg (invalidFee_iff.not.mpr hf), hr,
    Outcome.ok_bind, hw, Outcome.ok_bind]
  have hgross := le_grossUp (Reference.curveIn x.toNat y.toNat t.toNat) hf'
  -- the three places that narrow: the net input, the input, and the new reserve
  by_cases hn64 : 2 ^ 64 ≤ w.toNat
  · rw [narrowU64_of_le hn64]
    exact .of_overflow rfl rfl (by dsimp only; omega)
  obtain ⟨n, hn, hnv⟩ := narrowU64_ok hwv (by omega)
  obtain ⟨m, v, hm, hv, hvv⟩ := grossUp_ok n hf'
  rw [hn, Outcome.ok_bind, hm, Outcome.ok_bind, hv, Outcome.ok_bind]
  rw [hnv] at hvv
  by_cases hv64 : 2 ^ 64 ≤ v.toNat
  · rw [narrowU64_of_le hv64]
    exact .of_overflow rfl rfl (by dsimp only; omega)
  obtain ⟨i, hi, hiv⟩ := narrowU64_ok hvv (by omega)
  obtain ⟨fee, hfee, hfeev⟩ := subOrPanic_ok (p := i) (q := n) (by omega)
  have hxl := x.isLt
  have hil := i.isLt
  have hsum : (extend 128 x).toNat + (extend 128 i).toNat < 2 ^ 128 := by simp; omega
  have hsumv : (BitVec.ofNatLT _ hsum).toNat = x.toNat + i.toNat := by simp
  rw [hi, Outcome.ok_bind, hfee, Outcome.ok_bind, checkedAdd, fit_of_lt hsum, Outcome.okOr_some,
    Outcome.ok_bind]
  by_cases hr64 : 2 ^ 64 ≤ x.toNat + i.toNat
  · rw [narrowU64_of_le (hr64.trans_eq hsumv.symm)]
    exact .of_overflow rfl rfl (by dsimp only; omega)
  obtain ⟨nr, hnr, hnrv⟩ := narrowU64_ok hsumv (Nat.lt_of_not_le hr64)
  have hsub : checkedSub y t = some (BitVec.ofNatLT (y.toNat - t.toNat) (by omega)) :=
    checkedSub_eq_some.mpr (by rw [BitVec.toNat_ofNatLT]; omega)
  rw [hnr, Outcome.ok_bind, hsub]
  refine .of_ok rfl rfl ?_ (by dsimp only; omega)
  simp [ExactOutputQuote.toNat, hfeev, hiv, hnv, hnrv]

/-! ## Liquidity -/

theorem initialLiquidity_matches :
    Matches LiquidityQuote.toNat (fun _ => True) (initialLiquidity a b)
      (Reference.initialLiquidity a.toNat b.toNat) := by
  unfold Reference.initialLiquidity
  simp only [toNat_eq_zero]
  by_cases hab : a = 0 ∨ b = 0
  · exact .of_err (if_pos hab) (if_pos hab)
  rw [if_neg hab]
  have hA : (extend 128 a).toNat = a.toNat := toNat_extend (by decide) a
  have hB : (extend 128 b).toNat = b.toNat := toNat_extend (by decide) b
  have hmul : (extend 128 a).toNat * (extend 128 b).toNat < 2 ^ 128 := by
    rw [hA, hB]; exact mul_lt_two_pow_128 a.isLt b.isLt
  obtain ⟨root, hroot, hrootv⟩ := integerSqrtFloor_ok (BitVec.ofNatLT _ hmul)
  have hrootv' : root.toNat = Nat.sqrt (a.toNat * b.toNat) := by
    rw [hrootv, BitVec.toNat_ofNatLT, hA, hB]
  obtain ⟨minted, hminted, hmintedv⟩ := narrowU64_ok hrootv' (by
    rw [Nat.sqrt_lt]; exact mul_lt_two_pow_128 a.isLt b.isLt)
  have hrun : initialLiquidity a b = (if minted ≤ minimumLiquidity then .err .insufficientLiquidity
      else do
        let lpTokens ← subOrPanic minted minimumLiquidity
        .ok ⟨lpTokens, a, b⟩) := by
    rw [initialLiquidity, if_neg hab, checkedMul, fit_of_lt hmul, Outcome.okOr_some,
      Outcome.ok_bind, hroot, Outcome.ok_bind, hminted, Outcome.ok_bind]
  have hmin : minimumLiquidity.toNat = 1000 := rfl
  rw [hrun, ← hmintedv]
  by_cases hle : minted.toNat ≤ 1000
  · exact .of_err (if_pos hle) (if_pos hle)
  obtain ⟨lp, hlp, hlpv⟩ := subOrPanic_ok (p := minted) (q := minimumLiquidity) (by omega)
  rw [if_neg (show ¬ minted ≤ minimumLiquidity from hle), if_neg hle, hlp]
  refine .of_ok rfl rfl ?_ trivial
  rw [LiquidityQuote.toNat, hlpv, hmin]

theorem addLiquidity_matches :
    Matches LiquidityQuote.toNat (fun q => q.lpTokens < 2 ^ 64) (addLiquidity x y s a b)
      (Reference.addLiquidity x.toNat y.toNat s.toNat a.toNat b.toNat) := by
  unfold Reference.addLiquidity
  simp only [toNat_eq_zero]
  by_cases hab : a = 0 ∨ b = 0
  · exact .of_err (if_pos hab) (if_pos hab)
  by_cases hxy : x = 0 ∨ y = 0
  · rw [if_neg hab]
    exact .of_err (by rw [addLiquidity, if_neg hab, if_pos hxy]) (if_pos hxy)
  rw [if_neg hab, if_neg hxy]
  obtain ⟨hx, hy⟩ := not_or.mp hxy
  obtain ⟨la, hla, hlav⟩ := mulDivFloor_extend (a := a) (b := s) hx
  obtain ⟨lb, hlb, hlbv⟩ := mulDivFloor_extend (a := b) (b := s) hy
  have hmin : (least la lb).toNat =
      Reference.mintedShares x.toNat y.toNat s.toNat a.toNat b.toNat := by
    rw [toNat_least, hlav, hlbv]; rfl
  have hrun : addLiquidity x y s a b = (do
      let lpTokens ← narrowU64 (least la lb)
      if lpTokens = 0 then .err .insufficientLiquidity else .ok ⟨lpTokens, a, b⟩) := by
    rw [addLiquidity, if_neg hab, if_neg hxy, hla, Outcome.ok_bind, hlb, Outcome.ok_bind]
  rw [hrun, ← hmin]
  by_cases h64 : 2 ^ 64 ≤ (least la lb).toNat
  · rw [narrowU64_of_le h64, if_neg (by omega)]
    exact .of_overflow rfl rfl (Nat.not_lt.mpr h64)
  obtain ⟨lp, hlp, hlpv⟩ := narrowU64_ok (n := least la lb) rfl (Nat.lt_of_not_le h64)
  rw [hlp, Outcome.ok_bind, ← hlpv]
  by_cases h0 : lp = 0
  · exact .of_err (if_pos h0) (if_pos (toNat_eq_zero.mpr h0))
  · rw [if_neg h0, if_neg (toNat_eq_zero.not.mpr h0)]
    exact .of_ok rfl rfl rfl lp.isLt

/-- A share of a reserve is at most the reserve. -/
theorem share_le {l r s : ℕ} (h : l ≤ s) : l * r / s ≤ r :=
  Nat.div_le_of_le_mul (Nat.mul_le_mul_right r h)

theorem removeLiquidity_matches :
    Matches LiquidityQuote.toNat (fun _ => True) (removeLiquidity x y s l)
      (Reference.removeLiquidity x.toNat y.toNat s.toNat l.toNat) := by
  unfold Reference.removeLiquidity
  simp only [toNat_eq_zero]
  by_cases hl : l = 0
  · exact .of_err (if_pos hl) (if_pos hl)
  by_cases hxy : x = 0 ∨ y = 0
  · rw [if_neg hl]
    exact .of_err (by rw [removeLiquidity, if_neg hl, if_pos hxy]) (if_pos hxy)
  by_cases hs : s = 0 ∨ s.toNat < l.toNat
  · rw [if_neg hl, if_neg hxy]
    refine .of_err ?_ (if_pos hs)
    rw [removeLiquidity, if_neg hl, if_neg hxy]
    exact if_pos hs
  rw [if_neg hl, if_neg hxy, if_neg hs]
  obtain ⟨hs0, hls⟩ := not_or.mp hs
  have hls' : l.toNat ≤ s.toNat := Nat.le_of_not_lt hls
  obtain ⟨wa, hwa, hwav⟩ := mulDivFloor_extend (a := l) (b := x) hs0
  obtain ⟨wb, hwb, hwbv⟩ := mulDivFloor_extend (a := l) (b := y) hs0
  obtain ⟨oa, hoa, hoav⟩ := narrowU64_ok hwav ((share_le hls').trans_lt x.isLt)
  obtain ⟨ob, hob, hobv⟩ := narrowU64_ok hwbv ((share_le hls').trans_lt y.isLt)
  have hrun : removeLiquidity x y s l =
      (if oa = 0 ∨ ob = 0 then .err .insufficientLiquidity else .ok ⟨l, oa, ob⟩) := by
    rw [removeLiquidity, if_neg hl, if_neg hxy, if_neg (show ¬ (s = 0 ∨ l > s) from hs), hwa,
      Outcome.ok_bind, hoa, Outcome.ok_bind, hwb, Outcome.ok_bind, hob, Outcome.ok_bind]
  rw [hrun, ← hoav, ← hobv]
  by_cases h0 : oa = 0 ∨ ob = 0
  · exact .of_err (if_pos h0) (if_pos (h0.imp toNat_eq_zero.mpr toNat_eq_zero.mpr))
  · rw [if_neg h0, if_neg (fun h => h0 (h.imp toNat_eq_zero.mp toNat_eq_zero.mp))]
    exact .of_ok rfl rfl rfl trivial

/-! ## Machine arithmetic is exact arithmetic -/

/-- The quote `run` computes `ref` without a trap: it never panics, `Underflow` and `ZeroDiv` are
never returned, `Overflow` exactly when `overflows` holds, and in every other case the value or
the error is the reference's. -/
structure Exact {Q R : Type} (read : Q → R) (overflows : Prop) (run : Result Q)
    (ref : Except AmmMathError R) : Prop where
  ne_panic : run ≠ .panic
  ne_underflow : run ≠ .err .underflow
  ne_zeroDiv : run ≠ .err .zeroDiv
  overflow_iff : run = .err .overflow ↔ overflows
  ok_iff : ¬ overflows → ∀ r, ref = .ok r ↔ run.map read = .ok r
  err_iff : ¬ overflows → ∀ e, ref = .error e ↔ run = .err e

/-- The reference has no machine errors. -/
def NoMachineError {R : Type} (ref : Except AmmMathError R) : Prop :=
  ∀ e, ref = .error e → e ≠ .overflow ∧ e ≠ .underflow ∧ e ≠ .zeroDiv

theorem Matches.exact {Q R : Type} {read : Q → R} {fits : R → Prop} [DecidablePred fits]
    {run : Result Q} {ref : Except AmmMathError R} {overflows : Prop}
    (h : Matches read fits run ref) (href : NoMachineError ref)
    (hov : overflows ↔ ∃ r, ref = .ok r ∧ ¬ fits r) : Exact read overflows run ref where
  ne_panic := h.ne_panic
  ne_underflow := by
    rw [ne_eq, h.err_iff]
    rintro (he | ⟨he, -⟩)
    · exact (href _ he).2.1 rfl
    · cases he
  ne_zeroDiv := by
    rw [ne_eq, h.err_iff]
    rintro (he | ⟨he, -⟩)
    · exact (href _ he).2.2 rfl
    · cases he
  overflow_iff := by
    rw [h.err_iff, hov]
    constructor
    · rintro (he | ⟨-, he⟩)
      · exact absurd rfl (href _ he).1
      · exact he
    · exact fun he => .inr ⟨rfl, he⟩
  ok_iff hno r := by
    rw [h]
    rcases ref with e | r'
    · simp [within]
    · have hf : fits r' := by
        by_contra hf
        exact hno (hov.mpr ⟨r', rfl, hf⟩)
      simp [within, hf]
  err_iff hno e := by
    rw [h.err_iff, hov] at *
    constructor
    · exact .inl
    · rintro (he | ⟨-, he⟩)
      · exact he
      · exact absurd he hno

namespace Reference

variable (x y s a b t l f : ℕ)

theorem amountAfterFee_noMachineError : NoMachineError (amountAfterFee a f) := by
  unfold amountAfterFee
  split_ifs <;> rintro e ⟨⟩
  decide

theorem swapExactInput_noMachineError : NoMachineError (swapExactInput x y a f) := by
  unfold swapExactInput
  split_ifs <;> rintro e ⟨⟩ <;> decide

theorem swapExactOutput_noMachineError : NoMachineError (swapExactOutput x y t f) := by
  unfold swapExactOutput
  split_ifs <;> rintro e ⟨⟩ <;> decide

theorem initialLiquidity_noMachineError : NoMachineError (initialLiquidity a b) := by
  unfold initialLiquidity
  split_ifs <;> rintro e ⟨⟩ <;> decide

theorem addLiquidity_noMachineError : NoMachineError (addLiquidity x y s a b) := by
  unfold addLiquidity
  split_ifs <;> rintro e ⟨⟩ <;> decide

theorem removeLiquidity_noMachineError : NoMachineError (removeLiquidity x y s l) := by
  unfold removeLiquidity
  split_ifs <;> rintro e ⟨⟩ <;> decide

/-! ### When the reference returns a quote -/

variable {x y s a b t l f}

theorem swapExactInput_eq_ok {q : SwapQuote ℕ} :
    swapExactInput x y a f = .ok q ↔
      0 < a ∧ 0 < x ∧ 0 < y ∧ f < 10000 ∧ curveOut x y (afterFee a f) ≠ 0 ∧
        q = ⟨a, afterFee a f, a - afterFee a f, curveOut x y (afterFee a f), x + a,
          y - curveOut x y (afterFee a f)⟩ := by
  unfold swapExactInput
  split_ifs with ha hxy hf ho
  · simp; omega
  · simp; omega
  · simp; omega
  · simp [ho]
  · obtain ⟨hx, hy⟩ := not_or.mp hxy
    simp only [Except.ok.injEq, eq_comm (b := q)]
    exact ⟨fun h => ⟨by omega, by omega, by omega, by omega, ho, h⟩, fun h => h.2.2.2.2.2⟩

theorem swapExactOutput_eq_ok {q : ExactOutputQuote ℕ} :
    swapExactOutput x y t f = .ok q ↔
      0 < t ∧ 0 < x ∧ t < y ∧ f < 10000 ∧
        q = ⟨t, curveIn x y t, grossUp (curveIn x y t) f,
          grossUp (curveIn x y t) f - curveIn x y t, x + grossUp (curveIn x y t) f, y - t⟩ := by
  unfold swapExactOutput
  split_ifs with ht hxy hty hf
  · simp; omega
  · simp; omega
  · simp; omega
  · simp; omega
  · obtain ⟨hx, hy⟩ := not_or.mp hxy
    simp only [Except.ok.injEq, eq_comm (b := q)]
    exact ⟨fun h => ⟨by omega, by omega, by omega, by omega, h⟩, fun h => h.2.2.2.2⟩

theorem initialLiquidity_eq_ok {q : LiquidityQuote ℕ} :
    initialLiquidity a b = .ok q ↔
      0 < a ∧ 0 < b ∧ 1000 < Nat.sqrt (a * b) ∧ q = ⟨Nat.sqrt (a * b) - 1000, a, b⟩ := by
  unfold initialLiquidity
  split_ifs with hab hs
  · simp; omega
  · simp; omega
  · obtain ⟨ha, hb⟩ := not_or.mp hab
    simp only [Except.ok.injEq, eq_comm (b := q)]
    exact ⟨fun h => ⟨by omega, by omega, by omega, h⟩, fun h => h.2.2.2⟩

theorem addLiquidity_eq_ok {q : LiquidityQuote ℕ} :
    addLiquidity x y s a b = .ok q ↔
      0 < a ∧ 0 < b ∧ 0 < x ∧ 0 < y ∧ mintedShares x y s a b ≠ 0 ∧
        q = ⟨mintedShares x y s a b, a, b⟩ := by
  unfold addLiquidity
  split_ifs with hab hxy h0
  · simp; omega
  · simp; omega
  · simp [h0]
  · obtain ⟨ha, hb⟩ := not_or.mp hab
    obtain ⟨hx, hy⟩ := not_or.mp hxy
    simp only [Except.ok.injEq, eq_comm (b := q)]
    exact ⟨fun h => ⟨by omega, by omega, by omega, by omega, h0, h⟩, fun h => h.2.2.2.2.2⟩

theorem removeLiquidity_eq_ok {q : LiquidityQuote ℕ} :
    removeLiquidity x y s l = .ok q ↔
      0 < l ∧ 0 < x ∧ 0 < y ∧ l ≤ s ∧ l * x / s ≠ 0 ∧ l * y / s ≠ 0 ∧
        q = ⟨l, l * x / s, l * y / s⟩ := by
  unfold removeLiquidity
  split_ifs with hl hxy hs h0
  · simp; omega
  · simp; omega
  · simp; omega
  · simp only [false_iff]
    rintro ⟨-, -, -, -, h1, h2, -⟩
    exact h0.elim h1 h2
  · obtain ⟨hx, hy⟩ := not_or.mp hxy
    obtain ⟨h1, h2⟩ := not_or.mp h0
    simp only [Except.ok.injEq, eq_comm (b := q)]
    exact ⟨fun h => ⟨by omega, by omega, by omega, by omega, h1, h2, h⟩,
      fun h => h.2.2.2.2.2.2⟩

end Reference

/-- **Machine arithmetic equals ideal arithmetic.** Every quote computes its reference, without a
trap and with `Overflow` in the stated cases only; its intermediate 128-bit products, sums and
divisions of 64-bit values are exact, and so is the square root. -/
theorem quotes_exact (x y s a b t l : U64) (f : U16) :
    Exact BitVec.toNat False (amountAfterFee a f)
        (Reference.amountAfterFee a.toNat f.toNat) ∧
      Exact SwapQuote.toNat
        (0 < a.toNat ∧ 0 < x.toNat ∧ 0 < y.toNat ∧ f.toNat < 10000 ∧
          Reference.curveOut x.toNat y.toNat (Reference.afterFee a.toNat f.toNat) ≠ 0 ∧
          2 ^ 64 ≤ x.toNat + a.toNat)
        (swapExactInput x y a f)
        (Reference.swapExactInput x.toNat y.toNat a.toNat f.toNat) ∧
      Exact ExactOutputQuote.toNat
        (0 < t.toNat ∧ 0 < x.toNat ∧ t.toNat < y.toNat ∧ f.toNat < 10000 ∧
          2 ^ 64 ≤ x.toNat +
            Reference.grossUp (Reference.curveIn x.toNat y.toNat t.toNat) f.toNat)
        (swapExactOutput x y t f)
        (Reference.swapExactOutput x.toNat y.toNat t.toNat f.toNat) ∧
      Exact LiquidityQuote.toNat False (initialLiquidity a b)
        (Reference.initialLiquidity a.toNat b.toNat) ∧
      Exact LiquidityQuote.toNat
        (0 < a.toNat ∧ 0 < b.toNat ∧ 0 < x.toNat ∧ 0 < y.toNat ∧
          2 ^ 64 ≤ min (a.toNat * s.toNat / x.toNat) (b.toNat * s.toNat / y.toNat))
        (addLiquidity x y s a b)
        (Reference.addLiquidity x.toNat y.toNat s.toNat a.toNat b.toNat) ∧
      Exact LiquidityQuote.toNat False (removeLiquidity x y s l)
        (Reference.removeLiquidity x.toNat y.toNat s.toNat l.toNat) ∧
      (∀ p q d : U128, p.toNat < 2 ^ 64 → q.toNat < 2 ^ 64 → d ≠ 0 →
        ∃ r, checkedMulDivFloor p q d = .ok r ∧ r.toNat = p.toNat * q.toNat / d.toNat) ∧
      (∀ p q d : U128, p.toNat < 2 ^ 64 → q.toNat < 2 ^ 64 → d.toNat < 2 ^ 64 → d ≠ 0 →
        ∃ r, checkedMulDivCeil p q d = .ok r ∧ r.toNat = (p.toNat * q.toNat) ⌈/⌉ d.toNat) ∧
      ∀ v : U128, ∃ r, integerSqrtFloor v = .ok r ∧ r.toNat = Nat.sqrt v.toNat := by
  refine ⟨?_, ?_, ?_, ?_, ?_, ?_, ?_, ?_, integerSqrtFloor_ok⟩
  · exact amountAfterFee_matches.exact (Reference.amountAfterFee_noMachineError _ _) (by simp)
  · refine swapExactInput_matches.exact (Reference.swapExactInput_noMachineError _ _ _ _) ?_
    simp only [Reference.swapExactInput_eq_ok]
    constructor
    · rintro ⟨ha, hx, hy, hf, ho, hs⟩
      exact ⟨_, ⟨ha, hx, hy, hf, ho, rfl⟩, Nat.not_lt.mpr hs⟩
    · rintro ⟨_, ⟨ha, hx, hy, hf, ho, rfl⟩, hs⟩
      exact ⟨ha, hx, hy, hf, ho, Nat.le_of_not_lt hs⟩
  · refine swapExactOutput_matches.exact (Reference.swapExactOutput_noMachineError _ _ _ _) ?_
    simp only [Reference.swapExactOutput_eq_ok]
    constructor
    · rintro ⟨ht, hx, hty, hf, hs⟩
      exact ⟨_, ⟨ht, hx, hty, hf, rfl⟩, Nat.not_lt.mpr hs⟩
    · rintro ⟨_, ⟨ht, hx, hty, hf, rfl⟩, hs⟩
      exact ⟨ht, hx, hty, hf, Nat.le_of_not_lt hs⟩
  · exact initialLiquidity_matches.exact (Reference.initialLiquidity_noMachineError _ _) (by simp)
  · refine addLiquidity_matches.exact (Reference.addLiquidity_noMachineError _ _ _ _ _) ?_
    simp only [Reference.addLiquidity_eq_ok]
    constructor
    · rintro ⟨ha, hb, hx, hy, hs⟩
      have h0 : Reference.mintedShares x.toNat y.toNat s.toNat a.toNat b.toNat ≠ 0 := by
        unfold Reference.mintedShares; omega
      exact ⟨_, ⟨ha, hb, hx, hy, h0, rfl⟩, Nat.not_lt.mpr hs⟩
    · rintro ⟨_, ⟨ha, hb, hx, hy, -, rfl⟩, hs⟩
      exact ⟨ha, hb, hx, hy, Nat.le_of_not_lt hs⟩
  · exact removeLiquidity_matches.exact (Reference.removeLiquidity_noMachineError _ _ _ _) (by simp)
  · intro p q d hp hq hd
    exact checkedMulDivFloor_ok hd (mul_lt_two_pow_128 hp hq)
  · intro p q d hp hq hdl hd
    apply checkedMulDivCeil_ok hd
    have := mul_add_lt_two_pow_128 hp hq hdl
    omega

end AmmMath
