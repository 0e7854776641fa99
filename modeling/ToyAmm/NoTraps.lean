import ToyAmm.TradeSuccess

/-!
# No arithmetic trap

In a reachable unlocked pool with shares, a trade that its user can pay for fails only for a reason
that the user can see beforehand: an amount too small to be worth a unit, or a limit. What rules
out the rest is the invariant: all balances of a mint fit in one word, and the supply is at most
the root of the product of the reserves.
-/

open Checked AmmMath Token Ledger ConstantProduct Transition

namespace AmmMath

variable {x y s a b l t : U64} {f : U16}

/-! ## Quotes of a pool with shares -/

theorem share_eq_zero_iff {l x s : ℕ} (hs : 0 < s) : l * x / s = 0 ↔ l * x < s :=
  Nat.div_eq_zero_iff_lt hs

theorem mintedShares_eq_zero_iff {x y s a b : ℕ} (hx : 0 < x) (hy : 0 < y) :
    Reference.mintedShares x y s a b = 0 ↔ a * s < x ∨ b * s < y := by
  rw [Reference.mintedShares, Nat.min_eq_zero_iff, Nat.div_eq_zero_iff_lt hx,
    Nat.div_eq_zero_iff_lt hy]

/-- The supply stays at most the root of the product of the reserves, so it fits if they do. -/
theorem mintedShares_fits {x y s a b : ℕ} (hs : 0 < s) (hk : s ^ 2 ≤ x * y) (hx : x + a < 2 ^ 64)
    (hy : y + b < 2 ^ 64) : s + Reference.mintedShares x y s a b < 2 ^ 64 := by
  have hX : Reference.mintedShares x y s a b * x ≤ a * s :=
    (Nat.mul_le_mul_right x (min_le_left _ _)).trans (Nat.div_mul_le_self _ _)
  have hY : Reference.mintedShares x y s a b * y ≤ b * s :=
    (Nat.mul_le_mul_right y (min_le_right _ _)).trans (Nat.div_mul_le_self _ _)
  refine lt_of_pow_lt_pow_left₀ 2 (Nat.zero_le _) ?_
  calc (s + Reference.mintedShares x y s a b) ^ 2 ≤ (x + a) * (y + b) :=
        (backed_of_mul_le hX hY).worthLe.sq_le hs hk
    _ < 2 ^ 64 * 2 ^ 64 := Nat.mul_lt_mul'' hx hy
    _ = (2 ^ 64) ^ 2 := by ring

/-- A deposit that is not worth a share fails, any other is quoted. -/
theorem addLiquidity_cases (ha : 0 < a.toNat) (hb : 0 < b.toNat) (hx : 0 < x.toNat)
    (hy : 0 < y.toNat)
    (hfits : Reference.mintedShares x.toNat y.toNat s.toNat a.toNat b.toNat < 2 ^ 64) :
    (a.toNat * s.toNat < x.toNat ∨ b.toNat * s.toNat < y.toNat →
        addLiquidity x y s a b = .err .insufficientLiquidity) ∧
      (¬ (a.toNat * s.toNat < x.toNat ∨ b.toNat * s.toNat < y.toNat) →
        ∃ q, addLiquidity x y s a b = .ok q) := by
  rw [← mintedShares_eq_zero_iff hx hy]
  constructor
  · intro h0
    refine addLiquidity_matches.err_iff.mpr (.inl ?_)
    rw [Reference.addLiquidity, if_neg (by omega), if_neg (by omega), if_pos h0]
  · intro h0
    obtain ⟨q, hq, -⟩ := addLiquidity_matches.exists_ok
      (Reference.addLiquidity_eq_ok.mpr ⟨ha, hb, hx, hy, h0, rfl⟩) hfits
    exact ⟨q, hq⟩

/-- A withdrawal that is not worth a unit of either token fails, any other is quoted. -/
theorem removeLiquidity_cases (hl : 0 < l.toNat) (hls : l.toNat ≤ s.toNat) (hx : 0 < x.toNat)
    (hy : 0 < y.toNat) :
    (l.toNat * x.toNat < s.toNat ∨ l.toNat * y.toNat < s.toNat →
        removeLiquidity x y s l = .err .insufficientLiquidity) ∧
      (¬ (l.toNat * x.toNat < s.toNat ∨ l.toNat * y.toNat < s.toNat) →
        ∃ q, removeLiquidity x y s l = .ok q) := by
  have hs : 0 < s.toNat := by omega
  rw [← share_eq_zero_iff hs, ← share_eq_zero_iff hs]
  constructor
  · intro h0
    refine removeLiquidity_matches.err_iff.mpr (.inl ?_)
    rw [Reference.removeLiquidity, if_neg (by omega), if_neg (by omega), if_neg (by omega),
      if_pos h0]
  · intro h0
    rw [not_or] at h0
    exact removeLiquidity_ok hl hx hy hls (Nat.pos_of_ne_zero h0.1) (Nat.pos_of_ne_zero h0.2)

/-- An exact-input swap that the reserve has room for fails only if it would pay nothing. -/
theorem swapExactInput_cases (ha : 0 < a.toNat) (hx : 0 < x.toNat) (hy : 0 < y.toNat)
    (hf : f.toNat < 10000) (hfits : x.toNat + a.toNat < 2 ^ 64) :
    swapExactInput x y a f = .err .insufficientOutput ∨ ∃ q, swapExactInput x y a f = .ok q := by
  by_cases h0 : Reference.curveOut x.toNat y.toNat (Reference.afterFee a.toNat f.toNat) = 0
  · refine .inl (swapExactInput_matches.err_iff.mpr (.inl ?_))
    rw [Reference.swapExactInput, if_neg (by omega), if_neg (by omega), if_neg (by omega),
      if_pos h0]
  · obtain ⟨q, hq, -⟩ := swapExactInput_matches.exists_ok
      (Reference.swapExactInput_eq_ok.mpr ⟨ha, hx, hy, hf, h0, rfl⟩) hfits
    exact .inr ⟨q, hq⟩

/-- An exact-output swap overflows only if the reserve has no room for the exact input. -/
theorem swapExactOutput_overflow (h : swapExactOutput x y t f = .err .overflow) :
    2 ^ 64 ≤ x.toNat +
      Reference.grossUp (Reference.curveIn x.toNat y.toNat t.toNat) f.toNat := by
  rcases swapExactOutput_matches.err_iff.mp h with h | ⟨-, r, hr, hfits⟩
  · exact absurd rfl (Reference.swapExactOutput_noMachineError _ _ _ _ _ h).1
  · obtain ⟨-, -, -, -, rfl⟩ := Reference.swapExactOutput_eq_ok.mp hr
    exact Nat.not_lt.mp hfits

end AmmMath

namespace Amm

variable {Key : Type} [DecidableEq Key] {A : AddressScheme Key} {B : Bank Key} {c lp u : Key}
  {cfg : Config Key} {signers : List Key}

/-! ## Deposits and withdrawals -/

/-- A liquidity instruction fails for the one reason, else for the other, else it succeeds. -/
structure Settles (r : Result (Bank Key)) (insufficient slippage : Prop) : Prop where
  insufficient_iff : r = .err (.amm .insufficientLiquidity) ↔ insufficient
  slippage_iff : r = .err (.amm .slippageExceeded) ↔ ¬ insufficient ∧ slippage
  success_iff : (∃ B', r = .ok B') ↔ ¬ insufficient ∧ ¬ slippage

omit [DecidableEq Key] in
theorem Settles.of_cases {r : Result (Bank Key)} {insufficient slippage : Prop}
    (h₁ : insufficient → r = .err (.amm .insufficientLiquidity))
    (h₂ : ¬ insufficient → slippage → r = .err (.amm .slippageExceeded))
    (h₃ : ¬ insufficient → ¬ slippage → ∃ B', r = .ok B') : Settles r insufficient slippage := by
  by_cases hi : insufficient
  · have hr := h₁ hi
    constructor <;> simp [hr, hi]
  · by_cases hs : slippage
    · have hr := h₂ hi hs
      constructor <;> simp [hr, hi, hs]
    · obtain ⟨B', hr⟩ := h₃ hi hs
      constructor <;> simp [hr, hi, hs]

/-- The amounts that a liquidity instruction is quoted on. -/
theorem LoadedLp.amounts {l : LoadedLp Key} {self : Swap Key} {k : Key}
    (h : self.Checked A B signers l.toLoaded) (hM : B.tokens.mints k = some l.mintLp)
    (hp : PoolAt A B self.config cfg lp) (hk : k = lp) :
    l.vaultX.amount.toNat = (view A B self.config cfg lp).x ∧
      l.vaultY.amount.toNat = (view A B self.config cfg lp).y ∧
      l.mintLp.supply.toNat = (view A B self.config cfg lp).shares := by
  subst hk
  obtain ⟨-, hX, hY⟩ := h.amounts hp
  exact ⟨hX, hY, (supply_of_mint hM).symm⟩

theorem remove_settles (hb : B.tokens.SupplyBacked) (hp : PoolAt A B c cfg lp)
    (hs : SharePool.Sound 1000 (view A B c cfg lp)) (hu : Trader A B signers cfg u)
    (hunlocked : cfg.locked = false) (hlp : B.tokens.Holds (A.associatedAddress u lp) lp u)
    {n minA minB : U64} (hn : 0 < n.toNat)
    (hheld : n.toNat ≤ B.tokens.balance lp (A.associatedAddress u lp)) :
    Settles
      ((Instruction.removeLiquidity (cfg.removeAccounts A c lp u) n minA minB).process A B signers)
      (n.toNat * (view A B c cfg lp).x < (view A B c cfg lp).shares ∨
        n.toNat * (view A B c cfg lp).y < (view A B c cfg lp).shares)
      (n.toNat * (view A B c cfg lp).x / (view A B c cfg lp).shares < minA.toNat ∨
        n.toNat * (view A B c cfg lp).y / (view A B c cfg lp).shares < minB.toNat) := by
  obtain ⟨l, hl⟩ := hu.removeChecked hp hlp
  obtain ⟨hX, hY, hS⟩ : l.vaultX.amount.toNat = (view A B c cfg lp).x ∧
      l.vaultY.amount.toNat = (view A B c cfg lp).y ∧
      l.mintLp.supply.toNat = (view A B c cfg lp).shares :=
    LoadedLp.amounts hl.toSwap hl.mintLp hp rfl
  have hcfg : l.config = cfg := (hl.toSwap.amounts hp).1
  have hle : n.toNat ≤ (view A B c cfg lp).shares := hheld.trans (hb.balance_le _ _)
  obtain ⟨hx, hy⟩ := hs.reserves_pos (hn.trans_le hle)
  rw [← hX] at hx ⊢
  rw [← hY] at hy ⊢
  rw [← hS] at hle ⊢
  obtain ⟨hfail, hquote⟩ := removeLiquidity_cases hn hle hx hy
  apply Settles.of_cases
  · intro hi
    exact remove_fails hl (hcfg ▸ hunlocked) (hfail hi)
  · intro hi hslip
    obtain ⟨q, hq⟩ := hquote hi
    have hr := removeLiquidity_spec hq
    refine remove_slips hl (hcfg ▸ hunlocked) hq ?_
    rw [BitVec.le_def, BitVec.le_def, hr.amountA, hr.amountB]
    omega
  · intro hi hslip
    obtain ⟨q, hq⟩ := hquote hi
    have hr := removeLiquidity_spec hq
    rw [not_or, Nat.not_lt, Nat.not_lt, ← hr.amountA, ← hr.amountB] at hslip
    exact remove_goes_through hb hp hu hlp hl hunlocked hq (BitVec.le_def.mpr hslip.1)
      (BitVec.le_def.mpr hslip.2) hheld

/-- A vault has room for what a user holds. -/
theorem room_in_vault (hb : B.tokens.SupplyBacked) (huc : u ≠ c) {m : Key} {n : ℕ}
    (hn : n ≤ B.tokens.balance m (A.associatedAddress u m)) :
    B.tokens.balance m (A.associatedAddress c m) + n < 2 ^ 64 := by
  have hne : A.associatedAddress c m ≠ A.associatedAddress u m :=
    A.associated_ne_of_owner huc.symm
  have hsum := hb.add_le m hne
  have hlt := B.tokens.supply_lt m
  omega

theorem add_settles (hb : B.tokens.SupplyBacked) (hp : PoolAt A B c cfg lp)
    (hs : SharePool.Sound 1000 (view A B c cfg lp)) (hpos : 0 < (view A B c cfg lp).shares)
    (hu : Trader A B signers cfg u) (huc : u ≠ c) (hunlocked : cfg.locked = false)
    (hlp : B.tokens.Holds (A.associatedAddress u lp) lp u ∨
      B.vacant (A.associatedAddress u lp) = true)
    {a b minLp : U64} (ha : 0 < a.toNat) (hb₀ : 0 < b.toNat)
    (haX : a.toNat ≤ B.tokens.balance cfg.mintX (A.associatedAddress u cfg.mintX))
    (hbY : b.toNat ≤ B.tokens.balance cfg.mintY (A.associatedAddress u cfg.mintY)) :
    Settles
        ((Instruction.addLiquidity (cfg.addAccounts A c lp u) a b minLp).process A B signers)
        (a.toNat * (view A B c cfg lp).shares < (view A B c cfg lp).x ∨
          b.toNat * (view A B c cfg lp).shares < (view A B c cfg lp).y)
        (Reference.mintedShares (view A B c cfg lp).x (view A B c cfg lp).y
          (view A B c cfg lp).shares a.toNat b.toNat < minLp.toNat) ∧
      (view A B c cfg lp).shares + Reference.mintedShares (view A B c cfg lp).x
        (view A B c cfg lp).y (view A B c cfg lp).shares a.toNat b.toNat < 2 ^ 64 := by
  obtain ⟨B₁, l, hl⟩ := hu.addChecked hp hlp
  obtain ⟨hX, hY, hS⟩ : l.vaultX.amount.toNat = (view A B c cfg lp).x ∧
      l.vaultY.amount.toNat = (view A B c cfg lp).y ∧
      l.mintLp.supply.toNat = (view A B c cfg lp).shares :=
    LoadedLp.amounts hl.toSwap hl.mintLp hp rfl
  have hcfg : l.config = cfg := (hl.toSwap.amounts hp).1
  obtain ⟨hx, hy⟩ := hs.reserves_pos hpos
  have hfits : _ + Reference.mintedShares _ _ _ a.toNat b.toNat < 2 ^ 64 :=
    mintedShares_fits hpos (hs.of_pos hpos).2 (room_in_vault hb huc haX) (room_in_vault hb huc hbY)
  refine ⟨?_, hfits⟩
  rw [← hX] at hx hfits ⊢
  rw [← hY] at hy hfits ⊢
  rw [← hS] at hpos hfits ⊢
  have h0 : l.mintLp.supply ≠ 0 := toNat_pos.mp hpos
  obtain ⟨hfail, hquote⟩ := addLiquidity_cases ha hb₀ hx hy (s := l.mintLp.supply) (by omega)
  apply Settles.of_cases
  · intro hi
    exact add_fails hl (hcfg ▸ hunlocked) h0 (hfail hi)
  · intro hi hslip
    obtain ⟨q, hq⟩ := hquote hi
    refine add_slips hl (hcfg ▸ hunlocked) h0 hq ?_
    rw [BitVec.le_def, (addLiquidity_spec hq).lpTokens]
    exact Nat.not_le.mpr hslip
  · intro hi hslip
    obtain ⟨q, hq⟩ := hquote hi
    have hlpTokens := (addLiquidity_spec hq).lpTokens
    rw [← hlpTokens] at hslip hfits
    refine add_goes_through hb hp hu hl hunlocked h0 hq (BitVec.le_def.mpr (Nat.not_lt.mp hslip))
      haX hbY ?_
    rwa [hS] at hfits

/-! ## Swaps -/

theorem exactInput_outcome (hb : B.tokens.SupplyBacked) (hp : PoolAt A B c cfg lp)
    (hs : SharePool.Sound 1000 (view A B c cfg lp)) (hpos : 0 < (view A B c cfg lp).shares)
    (hu : Trader A B signers cfg u) (huc : u ≠ c) (hunlocked : cfg.locked = false) {aToB : Bool}
    {a minOut : U64} (ha : 0 < a.toNat)
    (hheld : a.toNat ≤ B.tokens.balance (cfg.mintIn aToB)
      (A.associatedAddress u (cfg.mintIn aToB))) :
    (∃ B', (Instruction.swap (cfg.swapAccounts A c u) (.exactInput a minOut) aToB).process A B
        signers = .ok B') ∨
      (Instruction.swap (cfg.swapAccounts A c u) (.exactInput a minOut) aToB).process A B signers =
        .err (.amm .insufficientOutput) ∨
      (Instruction.swap (cfg.swapAccounts A c u) (.exactInput a minOut) aToB).process A B signers =
        .err (.amm .slippageExceeded) := by
  obtain ⟨l, hl⟩ := hu.swapChecked hp
  obtain rfl := Option.some.inj (hl.config.symm.trans hp.config)
  obtain ⟨hin, hout⟩ := hl.reserve_eq hp aToB
  have hroom : (l.reserveIn aToB).toNat + a.toNat < 2 ^ 64 := by
    rw [hin]
    exact room_in_vault hb huc hheld
  obtain ⟨hx, hy⟩ := hs.reserves_pos hpos
  have hri : 0 < (l.reserveIn aToB).toNat := by
    rw [hin]
    cases aToB with
    | true => exact hx
    | false => exact hy
  have hro : 0 < (l.reserveOut aToB).toNat := by
    rw [hout]
    cases aToB with
    | true => exact hy
    | false => exact hx
  rcases swapExactInput_cases ha hri hro hp.fee_lt hroom with he | ⟨q, hq⟩
  · refine .inr (.inl (swap_fails hl hunlocked ?_))
    rw [SwapKind.quote, quoted_eq_err.mpr he]
    rfl
  · by_cases hslip : minOut ≤ q.amountOut
    · refine .inl (swap_goes_through hb hp hu hl hunlocked (q := ⟨q.amountIn, q.amountOut⟩) ?_ ?_)
      · rw [SwapKind.quote, quoted_eq_ok.mpr hq, Outcome.ok_bind, Outcome.require_pos hslip]
        rfl
      · rw [(swapExactInput_spec hq).amountIn]
        exact hheld
    · refine .inr (.inr (swap_fails hl hunlocked ?_))
      rw [SwapKind.quote, quoted_eq_ok.mpr hq, Outcome.ok_bind, Outcome.require_neg hslip]
      rfl

/-- What an exact-output swap would cost without any bound on numbers. -/
def PoolState.idealInput (p : PoolState Key) (aToB : Bool) (amountOut : ℕ) : ℕ :=
  Reference.grossUp
    (Reference.curveIn (p.reserveIn aToB) (p.reserveOut aToB) amountOut) p.config.feeBps.toNat

/-- An exact-output swap overflows only if it would cost more than all others hold. -/
theorem exactOutput_overflow (hI : Inv A B) {p : PoolState Key} (hp : B.pool A c = some p)
    {accs : Swap Key} {aToB : Bool} {t maxIn : U64} (hc : accs.config = c)
    (h : (Instruction.swap accs (.exactOutput t maxIn) aToB).process A B signers =
      .err (.amm .overflow)) :
    2 ^ 64 ≤ p.reserveIn aToB + p.idealInput aToB t.toNat ∧
      ∀ K : Finset Key, A.associatedAddress c (p.config.mintIn aToB) ∉ K →
        ∑ k ∈ K, B.tokens.balance (p.config.mintIn aToB) k < p.idealInput aToB t.toNat := by
  obtain ⟨lp, hat, hv, -⟩ := hI.poolAt hp
  subst hc
  obtain ⟨l, hl, he | he⟩ := swap_err h
  · cases he
  obtain ⟨hcfg, hX, hY⟩ := hl.amounts hat
  have hin := (hl.reserve_eq hat aToB).1
  have hx : p.vaultX = l.vaultX.amount.toNat := by rw [hX, hv]; rfl
  have hy : p.vaultY = l.vaultY.amount.toNat := by rw [hY, hv]; rfl
  have hover : swapExactOutput (l.reserveIn aToB) (l.reserveOut aToB) t l.config.feeBps =
      .err .overflow := SwapKind.exactOutput_err he
  have hroom : 2 ^ 64 ≤ p.reserveIn aToB + p.idealInput aToB t.toNat := by
    have hle := swapExactOutput_overflow hover
    rw [PoolState.idealInput, PoolState.reserveIn, PoolState.reserveOut, hx, hy, ← hcfg]
    cases aToB <;> exact hle
  have hri : (l.reserveIn aToB).toNat = p.reserveIn aToB := by
    rw [PoolState.reserveIn, hx, hy]
    cases aToB <;> rfl
  refine ⟨hroom, ?_⟩
  intro K hK
  have hall := hI.backed (p.config.mintIn aToB)
    (insert (A.associatedAddress accs.config (p.config.mintIn aToB)) K)
  rw [Finset.sum_insert hK, ← hin] at hall
  have hlt := B.tokens.supply_lt (p.config.mintIn aToB)
  omega

/-- **No arithmetic trap in reachable states.** -/
theorem no_arithmetic_trap (A : AddressScheme Key) (B : Bank Key) (c lp : Key) (p : PoolState Key)
    (hB : Reachable A B) (hp : B.pool A c = some p)
    (hlp : A.createProgramAddress (.lpMint c) p.config.lpBump = some lp) (hs : 0 < p.supply)
    (hunlocked : p.config.locked = false) (signers : List Key)
    (hsigners : ∀ k ∈ signers, ¬ A.IsProgramAddress k) (u : Key)
    (hu : Trader A B signers p.config u) :
    (∀ n minA minB : U64, 0 < n.toNat → B.tokens.Holds (A.associatedAddress u lp) lp u →
      n.toNat ≤ B.tokens.balance lp (A.associatedAddress u lp) →
      Settles
        (exec A B ⟨signers, .amm (.removeLiquidity (p.config.removeAccounts A c lp u) n minA minB)⟩)
        (n.toNat * p.vaultX < p.supply ∨ n.toNat * p.vaultY < p.supply)
        (n.toNat * p.vaultX / p.supply < minA.toNat ∨
          n.toNat * p.vaultY / p.supply < minB.toNat)) ∧
    (∀ a b minLp : U64, 0 < a.toNat → 0 < b.toNat →
      a.toNat ≤ B.tokens.balance p.config.mintX (A.associatedAddress u p.config.mintX) →
      b.toNat ≤ B.tokens.balance p.config.mintY (A.associatedAddress u p.config.mintY) →
      (B.tokens.Holds (A.associatedAddress u lp) lp u ∨
        B.vacant (A.associatedAddress u lp) = true) →
      Settles
          (exec A B ⟨signers, .amm (.addLiquidity (p.config.addAccounts A c lp u) a b minLp)⟩)
          (a.toNat * p.supply < p.vaultX ∨ b.toNat * p.supply < p.vaultY)
          (min (a.toNat * p.supply / p.vaultX) (b.toNat * p.supply / p.vaultY) < minLp.toNat) ∧
        p.supply + min (a.toNat * p.supply / p.vaultX) (b.toNat * p.supply / p.vaultY) < 2 ^ 64) ∧
    (∀ (aToB : Bool) (a minOut : U64), 0 < a.toNat →
      a.toNat ≤ B.tokens.balance (p.config.mintIn aToB)
        (A.associatedAddress u (p.config.mintIn aToB)) →
      let r := exec A B
        ⟨signers, .amm (.swap (p.config.swapAccounts A c u) (.exactInput a minOut) aToB)⟩
      (∃ B', r = .ok B') ∨ r = .err (.amm .insufficientOutput) ∨
        r = .err (.amm .slippageExceeded)) ∧
    (∀ (accs : Swap Key) (aToB : Bool) (t maxIn : U64), accs.config = c →
      exec A B ⟨signers, .amm (.swap accs (.exactOutput t maxIn) aToB)⟩ = .err (.amm .overflow) →
      2 ^ 64 ≤ p.reserveIn aToB + p.idealInput aToB t.toNat ∧
        ∀ K : Finset Key, A.associatedAddress c (p.config.mintIn aToB) ∉ K →
          ∑ k ∈ K, B.tokens.balance (p.config.mintIn aToB) k < p.idealInput aToB t.toNat) := by
  have hI := hB.inv
  obtain ⟨lp', hat, hv, hsound⟩ := hI.poolAt hp
  obtain rfl := hat.lp_eq hlp
  have huc : u ≠ c := by
    rintro rfl
    exact hsigners u hu.signed hat.isProgramAddress
  rw [← hv] at hsound
  have hX : (view A B c p.config lp).x = p.vaultX := congrArg (fun s => s.x) hv
  have hY : (view A B c p.config lp).y = p.vaultY := congrArg (fun s => s.y) hv
  have hS : (view A B c p.config lp).shares = p.supply := congrArg (fun s => s.shares) hv
  have hpos : 0 < (view A B c p.config lp).shares := hS.symm ▸ hs
  refine ⟨?_, ?_, ?_, ?_⟩
  · intro n minA minB hn hlpu hheld
    rw [← hX, ← hY, ← hS]
    exact remove_settles hI.backed hat hsound hu hunlocked hlpu hn hheld
  · intro a b minLp ha hb haX hbY hlpu
    rw [← hX, ← hY, ← hS]
    exact add_settles hI.backed hat hsound hpos hu huc hunlocked hlpu ha hb haX hbY
  · intro aToB a minOut ha hheld
    exact exactInput_outcome hI.backed hat hsound hpos hu huc hunlocked ha hheld
  · intro accs aToB t maxIn hc h
    exact exactOutput_overflow hI hp hc h

namespace Demo

/-- Alice sells 500 X, for at least 1000 Y. -/
def sale : Result (Bank Addr) :=
  exec Addr.scheme bank (byAlice (.amm (.swap (swapBy alice) (.exactInput 500 1000) true)))

/-- Alice mints 2^63 X into the vault. -/
def flood : Call Addr :=
  byAlice (.token (.mintTo mintX (.associated pool mintX) alice 9223372036854775808))

def flooded : Bank Addr := next (exec Addr.scheme) bank flood

def floodedState : PoolState Addr := { poolState with vaultX := 4000 + 2 ^ 63 }

theorem flooded_reachable : Reachable Addr.scheme flooded :=
  bank_reachable.next (byAlice_admissible _)

theorem flooded_pool : flooded.pool Addr.scheme pool = some floodedState := by decide +kernel

/-- Alice asks for all Y but one. -/
theorem flooded_overflow :
    exec Addr.scheme flooded (byAlice (.amm (.swap (swapBy alice) (.exactOutput 8999 0) true))) =
      .err (.amm .overflow) := by
  -- the outcome can be compared once the bank in it is forgotten
  refine (Outcome.map_eq_err (f := fun _ => true)).mp ?_
  decide +kernel

end Demo

/-- Alice's withdrawal, deposit and sale, and a purchase of nearly all Y from a vault that is nearly
full of X. -/
theorem no_arithmetic_trap_demo :
    Settles (exec Addr.scheme Demo.bank
        (Demo.byAlice (.amm (.removeLiquidity (Demo.removeBy Demo.alice) 600 401 0))))
      (600 * 4000 < 6000 ∨ 600 * 9000 < 6000) (600 * 4000 / 6000 < 401 ∨ 600 * 9000 / 6000 < 0) ∧
    Settles (exec Addr.scheme Demo.bank
        (Demo.byAlice (.amm (.addLiquidity (Demo.addBy Demo.alice) 400 900 600))))
      (400 * 6000 < 4000 ∨ 900 * 6000 < 9000)
      (min (400 * 6000 / 4000) (900 * 6000 / 9000) < 600) ∧
    ((∃ B', Demo.sale = .ok B') ∨ Demo.sale = .err (.amm .insufficientOutput) ∨
      Demo.sale = .err (.amm .slippageExceeded)) ∧
    ∀ K : Finset Addr, .associated Demo.pool Demo.mintX ∉ K →
      ∑ k ∈ K, Demo.flooded.tokens.balance Demo.mintX k <
        Demo.floodedState.idealInput true 8999 := by
  have hL : Demo.bank.tokens.Holds (.associated Demo.alice Demo.mintLp) Demo.mintLp Demo.alice :=
    ⟨5000, by decide +kernel⟩
  obtain ⟨hremove, hadd, hswap, -⟩ := no_arithmetic_trap Addr.scheme Demo.bank Demo.pool Demo.mintLp
    Demo.poolState Demo.bank_reachable Demo.bank_pool (by decide +kernel) (by decide) rfl
    [Demo.alice, Demo.mintX, Demo.mintY] (Demo.byAlice_admissible Demo.firstDeposit.op) Demo.alice
    ⟨List.mem_cons_self, ⟨996000, by decide +kernel⟩, ⟨991000, by decide +kernel⟩⟩
  obtain ⟨-, -, -, hover⟩ := no_arithmetic_trap Addr.scheme Demo.flooded Demo.pool Demo.mintLp
    Demo.floodedState Demo.flooded_reachable Demo.flooded_pool (by decide +kernel) (by decide) rfl
    [Demo.alice, Demo.mintX, Demo.mintY] (Demo.byAlice_admissible Demo.firstDeposit.op) Demo.alice
    ⟨List.mem_cons_self, ⟨996000, by decide +kernel⟩, ⟨991000, by decide +kernel⟩⟩
  refine ⟨?_, ?_, ?_, ?_⟩
  · exact hremove 600 401 0 (by decide) hL (by decide +kernel)
  · exact (hadd 400 900 600 (by decide) (by decide) (by decide +kernel) (by decide +kernel)
      (.inl hL)).1
  · exact hswap true 500 1000 (by decide) (by decide +kernel)
  · exact (hover (Demo.swapBy Demo.alice) true 8999 0 rfl Demo.flooded_overflow).2

end Amm
