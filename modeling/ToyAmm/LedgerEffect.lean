import ToyAmm.Isolation

/-!
# The ledger after a trade

What each trade does to the ledger, account by account: `SwapEffect`, `AddEffect` and
`RemoveEffect` say by which amounts of the quote the accounts of the user, the vaults and the LP
mint change, and that all else is the same. The specs of `Effects` give the amounts as one equation
for all accounts; read at the accounts of a pool in place, which are all different, it is an
equation for each. Every trade that succeeds has its effect (`trade_effect`).
-/

open Checked AmmMath Token Ledger Transition

namespace Amm

variable {Key : Type} [DecidableEq Key] {A : AddressScheme Key} {B B' : Bank Key} {c lp u : Key}
  {cfg : Config Key} {signers : List Key}

/-! ## Swaps -/

/-- The part of a swap quote that the ledger shows. -/
structure SwapMove where
  amountIn : U64
  amountOut : U64
  newReserveIn : U64
  newReserveOut : U64
  deriving DecidableEq, Repr

/-- The quote of a swap of each kind, and the limit it met. -/
inductive SwapKind.Quoted (rIn rOut : U64) (f : U16) : SwapKind → SwapMove → Prop where
  | exactInput {amountIn minAmountOut : U64} {q : SwapQuote U64}
      (quote : AmmMath.swapExactInput rIn rOut amountIn f = .ok q) (spent : q.amountIn = amountIn)
      (limit : minAmountOut.toNat ≤ q.amountOut.toNat) :
      Quoted rIn rOut f (.exactInput amountIn minAmountOut)
        ⟨q.amountIn, q.amountOut, q.newReserveIn, q.newReserveOut⟩
  | exactOutput {amountOut maxAmountIn : U64} {q : ExactOutputQuote U64}
      (quote : AmmMath.swapExactOutput rIn rOut amountOut f = .ok q)
      (paid : q.amountOut = amountOut) (limit : q.amountIn.toNat ≤ maxAmountIn.toNat) :
      Quoted rIn rOut f (.exactOutput amountOut maxAmountIn)
        ⟨q.amountIn, q.amountOut, q.newReserveIn, q.newReserveOut⟩

theorem SwapKind.quoted_of_quote {kind : SwapKind} {rIn rOut : U64} {f : U16} {q : SwapAmounts}
    (h : kind.quote rIn rOut f = .ok q) :
    ∃ n, kind.Quoted rIn rOut f n ∧ n.amountIn = q.amountIn ∧ n.amountOut = q.amountOut ∧
      n.newReserveIn.toNat = rIn.toNat + n.amountIn.toNat ∧
      n.newReserveOut.toNat + n.amountOut.toNat = rOut.toNat := by
  cases kind with
  | exactInput a m =>
    obtain ⟨qi, hqi, h⟩ := Outcome.bind_eq_ok.mp h
    obtain ⟨_, hlim, ⟨⟩⟩ := Outcome.bind_eq_ok.mp h
    have hquote := quoted_eq_ok.mp hqi
    have hs := swapExactInput_spec hquote
    refine ⟨_, .exactInput hquote hs.amountIn (Outcome.require_eq_ok.mp hlim), rfl, rfl, ?_,
      hs.newReserveOut⟩
    show qi.newReserveIn.toNat = rIn.toNat + qi.amountIn.toNat
    rw [hs.newReserveIn, hs.amountIn]
  | exactOutput t m =>
    obtain ⟨qo, hqo, h⟩ := Outcome.bind_eq_ok.mp h
    obtain ⟨_, hlim, ⟨⟩⟩ := Outcome.bind_eq_ok.mp h
    have hquote := quoted_eq_ok.mp hqo
    have hs := swapExactOutput_spec hquote
    refine ⟨_, .exactOutput hquote hs.amountOut (Outcome.require_eq_ok.mp hlim), rfl, rfl,
      hs.newReserveIn, ?_⟩
    show qo.newReserveOut.toNat + qo.amountOut.toNat = rOut.toNat
    rw [hs.amountOut, hs.newReserveOut]

/-- What a swap by `u` in the pool of `c` does: the quoted amounts change hands, nothing else. -/
structure SwapEffect (A : AddressScheme Key) (B B' : Bank Key) (c u : Key) (kind : SwapKind)
    (aToB : Bool) (cfg : Config Key) (lp : Key) (rIn rOut : U64) (q : SwapMove) : Prop where
  reserveIn : rIn.toNat =
    B.tokens.balance (cfg.mintIn aToB) (A.associatedAddress c (cfg.mintIn aToB))
  reserveOut : rOut.toNat =
    B.tokens.balance (cfg.mintOut aToB) (A.associatedAddress c (cfg.mintOut aToB))
  quoted : kind.Quoted rIn rOut cfg.feeBps q
  userIn : B'.tokens.balance (cfg.mintIn aToB) (A.associatedAddress u (cfg.mintIn aToB)) +
      q.amountIn.toNat =
    B.tokens.balance (cfg.mintIn aToB) (A.associatedAddress u (cfg.mintIn aToB))
  userOut : B'.tokens.balance (cfg.mintOut aToB) (A.associatedAddress u (cfg.mintOut aToB)) =
    B.tokens.balance (cfg.mintOut aToB) (A.associatedAddress u (cfg.mintOut aToB)) +
      q.amountOut.toNat
  vaultIn : B'.tokens.balance (cfg.mintIn aToB) (A.associatedAddress c (cfg.mintIn aToB)) =
    B.tokens.balance (cfg.mintIn aToB) (A.associatedAddress c (cfg.mintIn aToB)) +
      q.amountIn.toNat
  vaultOut : B'.tokens.balance (cfg.mintOut aToB) (A.associatedAddress c (cfg.mintOut aToB)) +
      q.amountOut.toNat =
    B.tokens.balance (cfg.mintOut aToB) (A.associatedAddress c (cfg.mintOut aToB))
  newReserveIn : B'.tokens.balance (cfg.mintIn aToB) (A.associatedAddress c (cfg.mintIn aToB)) =
    q.newReserveIn.toNat
  newReserveOut :
    B'.tokens.balance (cfg.mintOut aToB) (A.associatedAddress c (cfg.mintOut aToB)) =
      q.newReserveOut.toNat
  lpVault : B'.tokens.accounts (A.associatedAddress c lp) =
    B.tokens.accounts (A.associatedAddress c lp)
  configs : B'.configs = B.configs
  others : ChangesOnly (cfg.accountsOf A u ++ cfg.accountsOf A c) [] B.tokens B'.tokens
  evolves : Evolves B.tokens B'.tokens

omit [DecidableEq Key] in
/-- The LP vault is none of the accounts of a trade in the two tokens. -/
theorem PoolAt.lpVault_not_mem (hp : PoolAt A B c cfg lp) (hu : u ≠ c) :
    A.associatedAddress c lp ∉ cfg.accountsOf A u ++ cfg.accountsOf A c := by
  intro hk
  simp only [Config.accountsOf, List.cons_append, List.nil_append, List.mem_cons,
    List.not_mem_nil, or_false] at hk
  rcases hk with hk | hk | hk | hk
  · exact hu (A.associated_injective hk).1.symm
  · exact hu (A.associated_injective hk).1.symm
  · exact hp.mintX_ne_lp (A.associated_injective hk).2.symm
  · exact hp.mintY_ne_lp (A.associated_injective hk).2.symm

theorem SwapSpec.effect {kind : SwapKind} {aToB : Bool} {rIn rOut : U64} {q : SwapAmounts}
    (h : SwapSpec A B B' signers c u kind aToB cfg rIn rOut q) (hp : PoolAt A B c cfg lp)
    (hu : u ≠ c)
    (hch : ChangesOnly (cfg.accountsOf A u ++ cfg.accountsOf A c) [] B.tokens B'.tokens) :
    ∃ n, SwapEffect A B B' c u kind aToB cfg lp rIn rOut n := by
  obtain ⟨n, hn, hin, hout, hnewIn, hnewOut⟩ := SwapKind.quoted_of_quote h.quote
  have hmint := hp.mintIn_ne_mintOut aToB
  have huc : ∀ m, A.associatedAddress u m ≠ A.associatedAddress c m := fun m =>
    A.associated_ne_of_owner hu
  have hcu : ∀ m, A.associatedAddress c m ≠ A.associatedAddress u m := fun m =>
    A.associated_ne_of_owner hu.symm
  have hUI := h.balance (cfg.mintIn aToB) (A.associatedAddress u (cfg.mintIn aToB))
  have hUO := h.balance (cfg.mintOut aToB) (A.associatedAddress u (cfg.mintOut aToB))
  have hVI := h.balance (cfg.mintIn aToB) (A.associatedAddress c (cfg.mintIn aToB))
  have hVO := h.balance (cfg.mintOut aToB) (A.associatedAddress c (cfg.mintOut aToB))
  simp only [entry_self, entry_of_mint_ne hmint, entry_of_mint_ne hmint.symm, entry_of_ne (huc _),
    entry_of_ne (hcu _), Nat.add_zero, ← hin, ← hout] at hUI hUO hVI hVO
  have hri := h.reserveIn
  have hro := h.reserveOut
  exact
    ⟨n,
      { reserveIn := hri
        reserveOut := hro
        quoted := hn
        userIn := hUI
        userOut := hUO
        vaultIn := hVI
        vaultOut := hVO
        newReserveIn := by omega
        newReserveOut := by omega
        lpVault := hch.accounts (hp.lpVault_not_mem hu)
        configs := h.configs
        others := hch
        evolves := h.confined.evolves }⟩

/-! ## Deposits -/

/-- What a deposit by `u` in the pool of `c` does: it brings the two amounts, and is given shares;
the first one locks some more. -/
structure AddEffect (A : AddressScheme Key) (B B' : Bank Key) (c u : Key) (a b minLp : U64)
    (cfg : Config Key) (lp : Key) (rX rY s : U64) (q : LiquidityQuote U64) : Prop where
  reserveX : rX.toNat = B.tokens.balance cfg.mintX (A.associatedAddress c cfg.mintX)
  reserveY : rY.toNat = B.tokens.balance cfg.mintY (A.associatedAddress c cfg.mintY)
  supplyLp : s.toNat = B.tokens.supply lp
  quote : (if s = 0 then initialLiquidity a b else AmmMath.addLiquidity rX rY s a b) = .ok q
  limit : minLp.toNat ≤ q.lpTokens.toNat
  userX : B'.tokens.balance cfg.mintX (A.associatedAddress u cfg.mintX) + a.toNat =
    B.tokens.balance cfg.mintX (A.associatedAddress u cfg.mintX)
  userY : B'.tokens.balance cfg.mintY (A.associatedAddress u cfg.mintY) + b.toNat =
    B.tokens.balance cfg.mintY (A.associatedAddress u cfg.mintY)
  vaultX : B'.tokens.balance cfg.mintX (A.associatedAddress c cfg.mintX) =
    B.tokens.balance cfg.mintX (A.associatedAddress c cfg.mintX) + a.toNat
  vaultY : B'.tokens.balance cfg.mintY (A.associatedAddress c cfg.mintY) =
    B.tokens.balance cfg.mintY (A.associatedAddress c cfg.mintY) + b.toNat
  userLp : B'.tokens.balance lp (A.associatedAddress u lp) =
    B.tokens.balance lp (A.associatedAddress u lp) + q.lpTokens.toNat
  supply : B'.tokens.supply lp =
    B.tokens.supply lp + q.lpTokens.toNat + if B.tokens.supply lp = 0 then 1000 else 0
  lpVault : B'.tokens.balance lp (A.associatedAddress c lp) =
    B.tokens.balance lp (A.associatedAddress c lp) + if B.tokens.supply lp = 0 then 1000 else 0
  configs : B'.configs = B.configs
  others : ChangesOnly (A.associatedAddress u lp ::
    (cfg.accountsOf A u ++ cfg.accountsOf A c ++ lockAccounts A B.tokens c lp)) [lp]
    B.tokens B'.tokens
  evolves : Evolves B.tokens B'.tokens

/-- A deposit brings what was asked for, which is something. -/
theorem deposit_amounts {rX rY s a b : U64} {q : LiquidityQuote U64}
    (h : (if s = 0 then initialLiquidity a b else AmmMath.addLiquidity rX rY s a b) = .ok q) :
    q.amountA = a ∧ q.amountB = b ∧ 0 < a.toNat := by
  by_cases h0 : s = 0
  · rw [if_pos h0] at h
    have hs := initialLiquidity_spec h
    exact ⟨hs.amountA, hs.amountB, hs.amountA_pos⟩
  · rw [if_neg h0] at h
    have hs := addLiquidity_spec h
    exact ⟨hs.amountA, hs.amountB, hs.amountA_pos⟩

theorem lockedShares_eq {s : U64} {n : ℕ} (h : s.toNat = n) :
    lockedShares s = if n = 0 then 1000 else 0 := by
  unfold lockedShares
  subst h
  simp only [toNat_eq_zero]

theorem AddSpec.effect {a b minLp rX rY s : U64} {q : LiquidityQuote U64}
    (h : AddSpec A B B' signers c u a b minLp cfg lp rX rY s q) (hp : PoolAt A B c cfg lp)
    (hu : u ≠ c)
    (hch : ChangesOnly (A.associatedAddress u lp ::
      (cfg.accountsOf A u ++ cfg.accountsOf A c ++ lockAccounts A B.tokens c lp)) [lp]
      B.tokens B'.tokens) :
    AddEffect A B B' c u a b minLp cfg lp rX rY s q := by
  obtain ⟨ha, hb, -⟩ := deposit_amounts h.quote
  have hxy := hp.mintX_ne_mintY
  have hxl := hp.mintX_ne_lp
  have hyl := hp.mintY_ne_lp
  have huc : ∀ m, A.associatedAddress u m ≠ A.associatedAddress c m := fun m =>
    A.associated_ne_of_owner hu
  have hcu : ∀ m, A.associatedAddress c m ≠ A.associatedAddress u m := fun m =>
    A.associated_ne_of_owner hu.symm
  have hUX := h.balance cfg.mintX (A.associatedAddress u cfg.mintX)
  have hUY := h.balance cfg.mintY (A.associatedAddress u cfg.mintY)
  have hUL := h.balance lp (A.associatedAddress u lp)
  have hVX := h.balance cfg.mintX (A.associatedAddress c cfg.mintX)
  have hVY := h.balance cfg.mintY (A.associatedAddress c cfg.mintY)
  have hVL := h.balance lp (A.associatedAddress c lp)
  have hS := h.supply lp
  simp only [entry_self, entry_of_mint_ne hxy, entry_of_mint_ne hxy.symm, entry_of_mint_ne hxl,
    entry_of_mint_ne hxl.symm, entry_of_mint_ne hyl, entry_of_mint_ne hyl.symm,
    entry_of_ne (huc _), entry_of_ne (hcu _), Nat.add_zero, ha, hb, if_true,
    lockedShares_eq h.supplyLp, ← Nat.add_assoc] at hUX hUY hUL hVX hVY hVL hS
  exact
    { reserveX := h.reserveX
      reserveY := h.reserveY
      supplyLp := h.supplyLp
      quote := h.quote
      limit := h.slippage
      userX := hUX
      userY := hUY
      vaultX := hVX
      vaultY := hVY
      userLp := hUL
      supply := hS
      lpVault := hVL
      configs := h.configs
      others := hch
      evolves := h.confined.evolves }

/-! ## Withdrawals -/

/-- What a withdrawal by `u` from the pool of `c` does: it burns the shares, and is paid the two
amounts. -/
structure RemoveEffect (A : AddressScheme Key) (B B' : Bank Key) (c u : Key)
    (lpBurn minA minB : U64) (cfg : Config Key) (lp : Key) (rX rY s : U64)
    (q : LiquidityQuote U64) : Prop where
  reserveX : rX.toNat = B.tokens.balance cfg.mintX (A.associatedAddress c cfg.mintX)
  reserveY : rY.toNat = B.tokens.balance cfg.mintY (A.associatedAddress c cfg.mintY)
  supplyLp : s.toNat = B.tokens.supply lp
  quote : AmmMath.removeLiquidity rX rY s lpBurn = .ok q
  limitA : minA.toNat ≤ q.amountA.toNat
  limitB : minB.toNat ≤ q.amountB.toNat
  userLp : B'.tokens.balance lp (A.associatedAddress u lp) + lpBurn.toNat =
    B.tokens.balance lp (A.associatedAddress u lp)
  supply : B'.tokens.supply lp + lpBurn.toNat = B.tokens.supply lp
  vaultX : B'.tokens.balance cfg.mintX (A.associatedAddress c cfg.mintX) + q.amountA.toNat =
    B.tokens.balance cfg.mintX (A.associatedAddress c cfg.mintX)
  vaultY : B'.tokens.balance cfg.mintY (A.associatedAddress c cfg.mintY) + q.amountB.toNat =
    B.tokens.balance cfg.mintY (A.associatedAddress c cfg.mintY)
  userX : B'.tokens.balance cfg.mintX (A.associatedAddress u cfg.mintX) =
    B.tokens.balance cfg.mintX (A.associatedAddress u cfg.mintX) + q.amountA.toNat
  userY : B'.tokens.balance cfg.mintY (A.associatedAddress u cfg.mintY) =
    B.tokens.balance cfg.mintY (A.associatedAddress u cfg.mintY) + q.amountB.toNat
  lpVault : B'.tokens.accounts (A.associatedAddress c lp) =
    B.tokens.accounts (A.associatedAddress c lp)
  configs : B'.configs = B.configs
  others : ChangesOnly (A.associatedAddress u lp :: (cfg.accountsOf A u ++ cfg.accountsOf A c))
    [lp] B.tokens B'.tokens
  evolves : Evolves B.tokens B'.tokens

theorem RemoveSpec.effect {lpBurn minA minB rX rY s : U64} {q : LiquidityQuote U64}
    (h : RemoveSpec A B B' signers c u lpBurn minA minB cfg lp rX rY s q)
    (hp : PoolAt A B c cfg lp) (hu : u ≠ c)
    (hch : ChangesOnly (A.associatedAddress u lp :: (cfg.accountsOf A u ++ cfg.accountsOf A c))
      [lp] B.tokens B'.tokens) :
    RemoveEffect A B B' c u lpBurn minA minB cfg lp rX rY s q := by
  have hburn : q.lpTokens = lpBurn := (removeLiquidity_spec h.quote).lpTokens
  have hxy := hp.mintX_ne_mintY
  have hxl := hp.mintX_ne_lp
  have hyl := hp.mintY_ne_lp
  have huc : ∀ m, A.associatedAddress u m ≠ A.associatedAddress c m := fun m =>
    A.associated_ne_of_owner hu
  have hcu : ∀ m, A.associatedAddress c m ≠ A.associatedAddress u m := fun m =>
    A.associated_ne_of_owner hu.symm
  have hUX := h.balance cfg.mintX (A.associatedAddress u cfg.mintX)
  have hUY := h.balance cfg.mintY (A.associatedAddress u cfg.mintY)
  have hUL := h.balance lp (A.associatedAddress u lp)
  have hVX := h.balance cfg.mintX (A.associatedAddress c cfg.mintX)
  have hVY := h.balance cfg.mintY (A.associatedAddress c cfg.mintY)
  have hS := h.supply lp
  simp only [entry_self, entry_of_mint_ne hxy, entry_of_mint_ne hxy.symm, entry_of_mint_ne hxl,
    entry_of_mint_ne hxl.symm, entry_of_mint_ne hyl, entry_of_mint_ne hyl.symm,
    entry_of_ne (huc _), entry_of_ne (hcu _), Nat.add_zero, hburn, if_true]
    at hUX hUY hUL hVX hVY hS
  exact
    { reserveX := h.reserveX
      reserveY := h.reserveY
      supplyLp := h.supplyLp
      quote := h.quote
      limitA := h.slippageA
      limitB := h.slippageB
      userLp := hUL
      supply := hS
      vaultX := hVX
      vaultY := hVY
      userX := hUX
      userY := hUY
      lpVault := hch.accounts fun hk => by
        rcases List.mem_cons.mp hk with hk | hk
        · exact hcu _ hk
        · exact hp.lpVault_not_mem hu hk
      configs := h.configs
      others := hch
      evolves := h.confined.evolves }

/-! ## Every trade -/

/-- The effect of a trade, by its kind. -/
inductive TradeEffect (A : AddressScheme Key) (B B' : Bank Key) (signers : List Key)
    (cfg : Config Key) (lp : Key) : Instruction Key → Prop where
  | swap {accs : Swap Key} {kind : SwapKind} {aToB : Bool} {rIn rOut : U64} {q : SwapMove}
      (signed : accs.user ∈ signers)
      (effect : SwapEffect A B B' accs.config accs.user kind aToB cfg lp rIn rOut q) :
      TradeEffect A B B' signers cfg lp (.swap accs kind aToB)
  | addLiquidity {accs : AddLiquidity Key} {a b minLp rX rY s : U64} {q : LiquidityQuote U64}
      (signed : accs.user ∈ signers)
      (effect : AddEffect A B B' accs.config accs.user a b minLp cfg lp rX rY s q) :
      TradeEffect A B B' signers cfg lp (.addLiquidity accs a b minLp)
  | removeLiquidity {accs : RemoveLiquidity Key} {lpBurn minA minB rX rY s : U64}
      {q : LiquidityQuote U64} (signed : accs.user ∈ signers)
      (effect : RemoveEffect A B B' accs.config accs.user lpBurn minA minB cfg lp rX rY s q) :
      TradeEffect A B B' signers cfg lp (.removeLiquidity accs lpBurn minA minB)

theorem trade_effect {ix : Instruction Key} (ht : ix.IsTrade) (hp : PoolAt A B ix.config cfg lp)
    (hadm : ∀ k ∈ signers, ¬ A.IsProgramAddress k) (h : ix.process A B signers = .ok B') :
    TradeEffect A B B' signers cfg lp ix := by
  have hne : ∀ {u}, u ∈ signers → u ≠ ix.config := by
    rintro u hu rfl
    exact hadm _ hu hp.isProgramAddress
  cases ix with
  | init | updateFee | setLocked | updateAuthority => exact ht.elim
  | swap accs kind aToB =>
    obtain ⟨rIn, rOut, q, hs⟩ := hp.swap_spec rfl h
    obtain ⟨n, hn⟩ := hs.effect hp (hne hs.signed) (swap_changes h hp.config)
    exact .swap hs.signed hn
  | addLiquidity accs a b m =>
    obtain ⟨rX, rY, s, q, hs⟩ := hp.add_spec rfl h
    exact .addLiquidity hs.signed
      (hs.effect hp (hne hs.signed) (add_changes h hp.config hp.lpAddress))
  | removeLiquidity accs l a b =>
    obtain ⟨rX, rY, s, q, hs⟩ := hp.remove_spec rfl h
    exact .removeLiquidity hs.signed
      (hs.effect hp (hne hs.signed) (remove_changes h hp.config hp.lpAddress))

/-- **The ledger effect of a trade.** -/
theorem trade_ledger_effect (A : AddressScheme Key) (B : Bank Key) (hB : B.InPlace A)
    (signers : List Key) (hadm : ∀ k ∈ signers, ¬ A.IsProgramAddress k) (ix : Instruction Key)
    (ht : ix.IsTrade) :
    ((∀ B', exec A B ⟨signers, .amm ix⟩ ≠ .ok B') ∧
      next (exec A) B ⟨signers, .amm ix⟩ = B) ∨
    ∃ B' cfg lp, exec A B ⟨signers, .amm ix⟩ = .ok B' ∧
      next (exec A) B ⟨signers, .amm ix⟩ = B' ∧ PoolAt A B ix.config cfg lp ∧
      TradeEffect A B B' signers cfg lp ix := by
  by_cases hok : ∃ B', exec A B ⟨signers, .amm ix⟩ = .ok B'
  · obtain ⟨B', h⟩ := hok
    obtain ⟨cfg, hc, -⟩ := trade_config ht h
    obtain ⟨lp, hp⟩ := hB _ _ hc
    exact .inr ⟨B', cfg, lp, h, next_of_ok h, hp, trade_effect ht hp hadm h⟩
  · refine .inl ⟨fun B' h => hok ⟨B', h⟩, ?_⟩
    exact next_induction (P := fun B₁ => B₁ = B) rfl fun B' h => absurd ⟨B', h⟩ hok

theorem trade_ledger_effect_deposit :
    ((∀ B', exec Addr.scheme Demo.fresh Demo.firstDeposit ≠ .ok B') ∧
      next (exec Addr.scheme) Demo.fresh Demo.firstDeposit = Demo.fresh) ∨
    ∃ B' cfg lp, exec Addr.scheme Demo.fresh Demo.firstDeposit = .ok B' ∧
      next (exec Addr.scheme) Demo.fresh Demo.firstDeposit = B' ∧
      PoolAt Addr.scheme Demo.fresh Demo.pool cfg lp ∧
      TradeEffect Addr.scheme Demo.fresh B' Demo.firstDeposit.signers cfg lp
        (.addLiquidity (Demo.addBy Demo.alice) 4000 9000 0) :=
  trade_ledger_effect Addr.scheme Demo.fresh Demo.fresh_reachable.inPlace Demo.firstDeposit.signers
    (Demo.byAlice_admissible (.amm (.addLiquidity (Demo.addBy Demo.alice) 4000 9000 0)))
    (.addLiquidity (Demo.addBy Demo.alice) 4000 9000 0) trivial

end Amm
