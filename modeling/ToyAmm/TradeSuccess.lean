import ToyAmm.TradeErrors

/-!
# When a trade goes through

`swapAccounts`, `addAccounts` and `removeAccounts` are the accounts that a trade of `u` has to name.
If they are there and the pool is unlocked, the quote decides: its error is the error of the trade
(`swap_fails`, `add_fails`, `remove_fails`), and a quote within its limits, of amounts that the
user holds, is carried out (`swap_goes_through`, `add_goes_through`, `remove_goes_through`). No
call of the token program on the way fails.
-/

open Checked AmmMath Token Ledger

namespace Amm

variable {Key : Type} [DecidableEq Key] {A : AddressScheme Key} {B B' : Bank Key} {c lp u : Key}
  {cfg : Config Key} {signers : List Key}

/-! ## The accounts of a trade -/

def Config.swapAccounts (cfg : Config Key) (A : AddressScheme Key) (c u : Key) : Swap Key where
  user := u
  mintX := cfg.mintX
  mintY := cfg.mintY
  config := c
  vaultX := A.associatedAddress c cfg.mintX
  vaultY := A.associatedAddress c cfg.mintY
  userX := A.associatedAddress u cfg.mintX
  userY := A.associatedAddress u cfg.mintY

def Config.addAccounts (cfg : Config Key) (A : AddressScheme Key) (c lp u : Key) :
    AddLiquidity Key where
  user := u
  mintX := cfg.mintX
  mintY := cfg.mintY
  config := c
  mintLp := lp
  vaultX := A.associatedAddress c cfg.mintX
  vaultY := A.associatedAddress c cfg.mintY
  lpVault := A.associatedAddress c lp
  userX := A.associatedAddress u cfg.mintX
  userY := A.associatedAddress u cfg.mintY
  userLp := A.associatedAddress u lp

def Config.removeAccounts (cfg : Config Key) (A : AddressScheme Key) (c lp u : Key) :
    RemoveLiquidity Key where
  user := u
  mintX := cfg.mintX
  mintY := cfg.mintY
  config := c
  mintLp := lp
  vaultX := A.associatedAddress c cfg.mintX
  vaultY := A.associatedAddress c cfg.mintY
  userX := A.associatedAddress u cfg.mintX
  userY := A.associatedAddress u cfg.mintY
  userLp := A.associatedAddress u lp

/-- `u` has signed, and has accounts for both tokens of the pool. -/
structure Trader (A : AddressScheme Key) (B : Bank Key) (signers : List Key) (cfg : Config Key)
    (u : Key) : Prop where
  signed : u ∈ signers
  holdsX : B.tokens.Holds (A.associatedAddress u cfg.mintX) cfg.mintX u
  holdsY : B.tokens.Holds (A.associatedAddress u cfg.mintY) cfg.mintY u

omit [DecidableEq Key] in
/-- A trader passes the checks of a swap. -/
theorem Trader.swapChecked (hu : Trader A B signers cfg u) (hp : PoolAt A B c cfg lp) :
    ∃ l, (cfg.swapAccounts A c u).Checked A B signers l := by
  obtain ⟨ax, dx, sx, hMX⟩ := hp.mintX
  obtain ⟨ay, dy, sy, hMY⟩ := hp.mintY
  obtain ⟨vx, hvx⟩ := hp.vaultX
  obtain ⟨vy, hvy⟩ := hp.vaultY
  obtain ⟨ux, hux⟩ := hu.holdsX
  obtain ⟨uy, huy⟩ := hu.holdsY
  exact
    ⟨⟨cfg, ⟨ax, sx, dx⟩, ⟨ay, sy, dy⟩, ⟨cfg.mintX, c, vx⟩, ⟨cfg.mintY, c, vy⟩⟩,
      { signed := hu.signed
        mintX := hMX
        mintY := hMY
        config := hp.config
        vaultX := hvx
        vaultY := hvy
        userX := ⟨_, hux, rfl⟩
        userY := ⟨_, huy, rfl⟩
        mintX_eq := rfl
        mintY_eq := rfl
        address := hp.address
        vaultX_owner := rfl
        vaultY_owner := rfl
        vaultX_eq := rfl
        vaultY_eq := rfl
        userX_eq := rfl
        userY_eq := rfl }⟩

omit [DecidableEq Key] in
theorem Bank.cpi_ok {L : Ledger Key} {r : Token.Result (Ledger Key)} (h : r = .ok L) :
    B.cpi r = .ok { B with tokens := L } :=
  Bank.cpi_eq_ok.mpr ⟨h, rfl⟩

/-! ## Swaps -/

/-- The reserves that a swap is quoted on. -/
def Loaded.reserveIn (l : Loaded Key) (aToB : Bool) : U64 :=
  if aToB then l.vaultX.amount else l.vaultY.amount

def Loaded.reserveOut (l : Loaded Key) (aToB : Bool) : U64 :=
  if aToB then l.vaultY.amount else l.vaultX.amount

omit [DecidableEq Key] in
theorem Trader.holdsIn (hu : Trader A B signers cfg u) (aToB : Bool) :
    B.tokens.Holds (A.associatedAddress u (cfg.mintIn aToB)) (cfg.mintIn aToB) u := by
  cases aToB with
  | true => exact hu.holdsX
  | false => exact hu.holdsY

omit [DecidableEq Key] in
theorem Trader.holdsOut (hu : Trader A B signers cfg u) (aToB : Bool) :
    B.tokens.Holds (A.associatedAddress u (cfg.mintOut aToB)) (cfg.mintOut aToB) u := by
  cases aToB with
  | true => exact hu.holdsY
  | false => exact hu.holdsX

omit [DecidableEq Key] in
/-- The mints of a swap, with the decimals that it passes on. -/
theorem Swap.Checked.isMint {self : Swap Key} {l : Loaded Key} (h : self.Checked A B signers l)
    (aToB : Bool) :
    (∃ a, B.tokens.IsMint (l.config.mintIn aToB) a (self.legs l aToB).decimalsIn) ∧
      ∃ a, B.tokens.IsMint (l.config.mintOut aToB) a (self.legs l aToB).decimalsOut := by
  have hx : ∃ a, B.tokens.IsMint l.config.mintX a l.mintX.decimals := by
    rw [h.mintX_eq]
    exact ⟨_, _, h.mintX⟩
  have hy : ∃ a, B.tokens.IsMint l.config.mintY a l.mintY.decimals := by
    rw [h.mintY_eq]
    exact ⟨_, _, h.mintY⟩
  cases aToB with
  | true => exact ⟨hx, hy⟩
  | false => exact ⟨hy, hx⟩

omit [DecidableEq Key] in
theorem Config.legs_swapAccounts (cfg : Config Key) (A : AddressScheme Key) (c u : Key)
    (l : Loaded Key) (aToB : Bool) :
    ((cfg.swapAccounts A c u).legs l aToB).userIn = A.associatedAddress u (cfg.mintIn aToB) ∧
      ((cfg.swapAccounts A c u).legs l aToB).userOut = A.associatedAddress u (cfg.mintOut aToB) ∧
      ((cfg.swapAccounts A c u).legs l aToB).vaultIn = A.associatedAddress c (cfg.mintIn aToB) ∧
      ((cfg.swapAccounts A c u).legs l aToB).vaultOut = A.associatedAddress c (cfg.mintOut aToB) ∧
      ((cfg.swapAccounts A c u).legs l aToB).mintIn = cfg.mintIn aToB ∧
      ((cfg.swapAccounts A c u).legs l aToB).mintOut = cfg.mintOut aToB := by
  cases aToB <;> exact ⟨rfl, rfl, rfl, rfl, rfl, rfl⟩

/-- The reserves of a swap are what the vaults of its pool hold. -/
theorem Swap.Checked.reserve_eq {self : Swap Key} {l : Loaded Key}
    (h : self.Checked A B signers l) (hp : PoolAt A B self.config cfg lp) (aToB : Bool) :
    (l.reserveIn aToB).toNat = B.tokens.balance (cfg.mintIn aToB)
        (A.associatedAddress self.config (cfg.mintIn aToB)) ∧
      (l.reserveOut aToB).toNat = B.tokens.balance (cfg.mintOut aToB)
        (A.associatedAddress self.config (cfg.mintOut aToB)) := by
  obtain ⟨-, hx, hy⟩ := h.amounts hp
  cases aToB with
  | true => exact ⟨hx, hy⟩
  | false => exact ⟨hy, hx⟩

/-- Once its accounts are checked, a swap of an unlocked pool is decided by its quote. -/
theorem swap_fails {l : Loaded Key} {self : Swap Key} {kind : SwapKind} {aToB : Bool}
    {e : ProgramError} (hl : self.Checked A B signers l) (hunlocked : l.config.locked = false)
    (hq : kind.quote (l.reserveIn aToB) (l.reserveOut aToB) l.config.feeBps = .err e) :
    (Instruction.swap self kind aToB).process A B signers = .err e := by
  unfold Instruction.process Swap.swap
  unfold Loaded.reserveIn Loaded.reserveOut at hq
  simp only [Swap.tryAccounts_eq_ok.mpr hl, Outcome.ok_bind, Outcome.require_pos hunlocked, hq,
    Outcome.err_bind]

theorem swap_goes_through {l : Loaded Key} {kind : SwapKind} {aToB : Bool} {q : SwapAmounts}
    (hb : B.tokens.SupplyBacked) (hp : PoolAt A B c cfg lp) (hu : Trader A B signers cfg u)
    (hl : (cfg.swapAccounts A c u).Checked A B signers l) (hunlocked : cfg.locked = false)
    (hq : kind.quote (l.reserveIn aToB) (l.reserveOut aToB) cfg.feeBps = .ok q)
    (hheld : q.amountIn.toNat ≤ B.tokens.balance (cfg.mintIn aToB)
      (A.associatedAddress u (cfg.mintIn aToB))) :
    ∃ B', (Instruction.swap (cfg.swapAccounts A c u) kind aToB).process A B signers = .ok B' := by
  obtain rfl := Option.some.inj (hl.config.symm.trans hp.config)
  obtain ⟨⟨_, hMin⟩, _, hMout⟩ := hl.isMint aToB
  have hpays : q.amountOut.toNat ≤ B.tokens.balance (l.config.mintOut aToB)
      (A.associatedAddress c (l.config.mintOut aToB)) := by
    obtain ⟨rest, hrest, -⟩ := SwapKind.quote_spec hq
    have hro := (hl.reserve_eq hp aToB).2
    show _ ≤ B.tokens.balance _ (A.associatedAddress (l.config.swapAccounts A c u).config _)
    omega
  obtain ⟨L₁, h₁⟩ := transferChecked_ok hb (hu.holdsIn aToB) (hp.vaultIn aToB) hMin hu.signed hheld
  have ht₁ := (transferChecked_posts h₁).posts
  have hev := ht₁.evolves
  rw [← ht₁.balance_of_mint_ne (hp.mintIn_ne_mintOut aToB)] at hpays
  have hc : c ∈ configSigner A l.config ++ signers := by
    rw [configSigner_eq hp.address]
    exact List.mem_cons_self
  obtain ⟨L₂, h₂⟩ := transferChecked_ok (ht₁.supplyBacked hb) (hev.holds (hp.vaultOut aToB))
    (hev.holds (hu.holdsOut aToB)) (hev.isMint hMout) hc hpays
  obtain ⟨e1, e2, e3, e4, e5, e6⟩ := l.config.legs_swapAccounts A c u l aToB
  rw [← e1, ← e3, ← e5] at h₁
  rw [← e2, ← e4, ← e6] at h₂
  unfold Loaded.reserveIn Loaded.reserveOut at hq
  unfold Instruction.process Swap.swap
  simp only [Swap.tryAccounts_eq_ok.mpr hl, Outcome.ok_bind, Outcome.require_pos hunlocked, hq]
  rw [show (l.config.swapAccounts A c u).user = u from rfl, Bank.cpi_ok h₁, Outcome.ok_bind,
    show (l.config.swapAccounts A c u).config = c from rfl, Bank.cpi_ok h₂]
  exact ⟨_, rfl⟩

/-! ## Withdrawals -/

omit [DecidableEq Key] in
theorem Trader.removeChecked (hu : Trader A B signers cfg u) (hp : PoolAt A B c cfg lp)
    (hlp : B.tokens.Holds (A.associatedAddress u lp) lp u) :
    ∃ l, (cfg.removeAccounts A c lp u).Checked A B signers l := by
  obtain ⟨l, hl⟩ := hu.swapChecked hp
  obtain rfl := Option.some.inj (hl.config.symm.trans hp.config)
  obtain ⟨s, hs⟩ := hp.mintLp
  obtain ⟨ul, hul⟩ := hlp
  exact ⟨⟨l, ⟨some c, s, lpMintDecimals⟩⟩,
    { toSwap := hl
      mintLp := hs
      userLp := ⟨_, hul, rfl⟩
      lpAddress := hp.lpAddress
      userLp_eq := rfl }⟩

/-- Once its accounts are checked, a withdrawal from an unlocked pool is decided by its quote. -/
theorem remove_fails {l : LoadedLp Key} {self : RemoveLiquidity Key} {n minA minB : U64}
    {e : AmmMathError} (hl : self.Checked A B signers l) (hunlocked : l.config.locked = false)
    (hq : removeLiquidity l.vaultX.amount l.vaultY.amount l.mintLp.supply n = .err e) :
    (Instruction.removeLiquidity self n minA minB).process A B signers =
      .err (.amm (.ofMath e)) := by
  unfold Instruction.process RemoveLiquidity.handle
  simp only [RemoveLiquidity.tryAccounts_eq_ok.mpr hl, Outcome.ok_bind,
    Outcome.require_pos hunlocked, quoted_eq_err.mpr hq, Outcome.err_bind]

theorem remove_slips {l : LoadedLp Key} {self : RemoveLiquidity Key} {n minA minB : U64}
    {q : LiquidityQuote U64} (hl : self.Checked A B signers l) (hunlocked : l.config.locked = false)
    (hq : removeLiquidity l.vaultX.amount l.vaultY.amount l.mintLp.supply n = .ok q)
    (hslip : ¬ (minA ≤ q.amountA ∧ minB ≤ q.amountB)) :
    (Instruction.removeLiquidity self n minA minB).process A B signers =
      .err (.amm .slippageExceeded) := by
  unfold Instruction.process RemoveLiquidity.handle
  simp only [RemoveLiquidity.tryAccounts_eq_ok.mpr hl, Outcome.ok_bind,
    Outcome.require_pos hunlocked, quoted_eq_ok.mpr hq]
  by_cases hA : minA ≤ q.amountA
  · have hB : ¬ minB ≤ q.amountB := fun hB => hslip ⟨hA, hB⟩
    rw [Outcome.require_pos hA, Outcome.ok_bind, Outcome.require_neg hB, Outcome.err_bind]
  · rw [Outcome.require_neg hA, Outcome.err_bind]

theorem remove_goes_through {l : LoadedLp Key} {n minA minB : U64} {q : LiquidityQuote U64}
    (hb : B.tokens.SupplyBacked) (hp : PoolAt A B c cfg lp) (hu : Trader A B signers cfg u)
    (hlp : B.tokens.Holds (A.associatedAddress u lp) lp u)
    (hl : (cfg.removeAccounts A c lp u).Checked A B signers l) (hunlocked : cfg.locked = false)
    (hq : removeLiquidity l.vaultX.amount l.vaultY.amount l.mintLp.supply n = .ok q)
    (hA : minA ≤ q.amountA) (hB : minB ≤ q.amountB)
    (hheld : n.toNat ≤ B.tokens.balance lp (A.associatedAddress u lp)) :
    ∃ B', (Instruction.removeLiquidity (cfg.removeAccounts A c lp u) n minA minB).process A B
      signers = .ok B' := by
  obtain rfl := Option.some.inj (hl.toSwap.config.symm.trans hp.config)
  obtain ⟨-, hX, hY⟩ := hl.toSwap.amounts hp
  have hr := removeLiquidity_spec hq
  have hxl := hp.mintX_ne_lp
  have hyl := hp.mintY_ne_lp
  have hpaysX : q.amountA.toNat ≤
      B.tokens.balance l.config.mintX (A.associatedAddress c l.config.mintX) :=
    hr.amountA_le.trans hX.le
  have hpaysY : q.amountB.toNat ≤
      B.tokens.balance l.config.mintY (A.associatedAddress c l.config.mintY) :=
    hr.amountB_le.trans hY.le
  have hMX : B.tokens.IsMint l.config.mintX _ l.mintX.decimals := ⟨_, hl.toSwap.mintX⟩
  have hMY : B.tokens.IsMint l.config.mintY _ l.mintY.decimals := ⟨_, hl.toSwap.mintY⟩
  have hc : c ∈ configSigner A l.config ++ signers := by
    rw [configSigner_eq hp.address]
    exact List.mem_cons_self
  obtain ⟨L₁, h₁⟩ := burn_ok hb hlp hp.mintLp hu.signed hheld
  have hp₁ := (burn_posts h₁).posts
  have hev₁ := hp₁.evolves
  have hb₁ := hp₁.supplyBacked hb
  rw [← hp₁.balance_of_mint_ne hxl] at hpaysX
  obtain ⟨L₂, h₂⟩ := transferChecked_ok hb₁ (hev₁.holds hp.vaultX) (hev₁.holds hu.holdsX)
    (hev₁.isMint hMX) hc hpaysX
  have hp₂ := (transferChecked_posts h₂).posts
  have hev₂ := hev₁.trans hp₂.evolves
  rw [← hp₁.balance_of_mint_ne hyl, ← hp₂.balance_of_mint_ne hp.mintX_ne_mintY.symm] at hpaysY
  obtain ⟨L₃, h₃⟩ := transferChecked_ok (hp₂.supplyBacked hb₁) (hev₂.holds hp.vaultY)
    (hev₂.holds hu.holdsY) (hev₂.isMint hMY) hc hpaysY
  rw [← hr.lpTokens] at h₁
  unfold Instruction.process RemoveLiquidity.handle
  simp only [RemoveLiquidity.tryAccounts_eq_ok.mpr hl, Outcome.ok_bind,
    Outcome.require_pos hunlocked, quoted_eq_ok.mpr hq, Outcome.require_pos hA,
    Outcome.require_pos hB]
  simp only [Config.removeAccounts, Bank.cpi_ok h₁, Bank.cpi_ok h₂, Bank.cpi_ok h₃,
    Outcome.ok_bind]
  exact ⟨_, rfl⟩

/-! ## Deposits into a pool with shares -/

/-- `init_if_needed`: the account is there already, or can be created. -/
theorem initAssociatedIfNeeded_ok {d : U8} {a : Option Key} (hM : B.tokens.IsMint lp a d)
    (h : B.tokens.Holds (A.associatedAddress u lp) lp u ∨
      B.vacant (A.associatedAddress u lp) = true) :
    ∃ B', initAssociatedIfNeeded A B (A.associatedAddress u lp) lp u = .ok B' := by
  unfold initAssociatedIfNeeded
  by_cases hv : B.vacant (A.associatedAddress u lp) = true
  · obtain ⟨hc, hm, ha⟩ := Bank.vacant_iff.mp hv
    obtain ⟨L, hL⟩ : ∃ L, createAssociated A.associatedAddress B.tokens
        (A.associatedAddress u lp) u lp = .ok L :=
      createAssociated_ok (Ledger.vacant_iff.mpr ⟨hm, ha⟩) hM
    unfold initAssociated
    rw [if_pos hv, hc, Bank.cpi_ok hL]
    exact ⟨_, rfl⟩
  · obtain ⟨n, hn⟩ := h.resolve_right hv
    unfold loadAccount
    rw [if_neg hv, hn]
    simp only [Outcome.okOr_some, Outcome.ok_bind, Outcome.require_pos]
    exact ⟨_, rfl⟩

theorem Trader.addChecked (hu : Trader A B signers cfg u) (hp : PoolAt A B c cfg lp)
    (hlp : B.tokens.Holds (A.associatedAddress u lp) lp u ∨
      B.vacant (A.associatedAddress u lp) = true) :
    ∃ B₁ l, (cfg.addAccounts A c lp u).Checked A B signers B₁ l := by
  obtain ⟨l, hl⟩ := hu.swapChecked hp
  obtain rfl := Option.some.inj (hl.config.symm.trans hp.config)
  obtain ⟨B₁, hB₁⟩ := initAssociatedIfNeeded_ok hp.mintLp hlp
  obtain ⟨s, hs⟩ := hp.mintLp
  obtain ⟨vl, hvl⟩ := hp.lpVault
  exact ⟨B₁, ⟨l, ⟨some c, s, lpMintDecimals⟩⟩,
    { toSwap := hl
      mintLp := hs
      lpVault := ⟨_, hvl, rfl⟩
      userLp := hB₁
      lpAddress := hp.lpAddress
      lpVault_eq := rfl }⟩

section Add

variable {l : LoadedLp Key} {self : AddLiquidity Key} {a b minLp : U64} {q : LiquidityQuote U64}

omit [DecidableEq Key] in
theorem quote_of_supply (h0 : l.mintLp.supply ≠ 0) :
    AddLiquidity.quote l a b =
      quoted (addLiquidity l.vaultX.amount l.vaultY.amount l.mintLp.supply a b) := if_neg h0

/-- Once its accounts are checked, a deposit into an unlocked pool is decided by its quote. -/
theorem add_fails {e : AmmMathError} {B₁ : Bank Key} (hl : self.Checked A B signers B₁ l)
    (hunlocked : l.config.locked = false) (h0 : l.mintLp.supply ≠ 0)
    (hq : addLiquidity l.vaultX.amount l.vaultY.amount l.mintLp.supply a b = .err e) :
    (Instruction.addLiquidity self a b minLp).process A B signers = .err (.amm (.ofMath e)) := by
  unfold Instruction.process AddLiquidity.handle
  simp only [AddLiquidity.tryAccounts_eq_ok.mpr hl, Outcome.ok_bind,
    Outcome.require_pos hunlocked, quote_of_supply h0, quoted_eq_err.mpr hq, Outcome.err_bind]

theorem add_slips {B₁ : Bank Key} (hl : self.Checked A B signers B₁ l)
    (hunlocked : l.config.locked = false) (h0 : l.mintLp.supply ≠ 0)
    (hq : addLiquidity l.vaultX.amount l.vaultY.amount l.mintLp.supply a b = .ok q)
    (hslip : ¬ minLp ≤ q.lpTokens) :
    (Instruction.addLiquidity self a b minLp).process A B signers =
      .err (.amm .slippageExceeded) := by
  unfold Instruction.process AddLiquidity.handle
  simp only [AddLiquidity.tryAccounts_eq_ok.mpr hl, Outcome.ok_bind,
    Outcome.require_pos hunlocked, quote_of_supply h0, quoted_eq_ok.mpr hq,
    Outcome.require_neg hslip, Outcome.err_bind]

theorem add_goes_through {B₁ : Bank Key} (hb : B.tokens.SupplyBacked) (hp : PoolAt A B c cfg lp)
    (hu : Trader A B signers cfg u) (hl : (cfg.addAccounts A c lp u).Checked A B signers B₁ l)
    (hunlocked : cfg.locked = false) (h0 : l.mintLp.supply ≠ 0)
    (hq : addLiquidity l.vaultX.amount l.vaultY.amount l.mintLp.supply a b = .ok q)
    (hslip : minLp ≤ q.lpTokens)
    (ha : a.toNat ≤ B.tokens.balance cfg.mintX (A.associatedAddress u cfg.mintX))
    (hb' : b.toNat ≤ B.tokens.balance cfg.mintY (A.associatedAddress u cfg.mintY))
    (hfits : B.tokens.supply lp + q.lpTokens.toNat < 2 ^ 64) :
    ∃ B', (Instruction.addLiquidity (cfg.addAccounts A c lp u) a b minLp).process A B signers =
      .ok B' := by
  obtain rfl := Option.some.inj (hl.toSwap.config.symm.trans hp.config)
  have hadd := addLiquidity_spec hq
  have hxl := hp.mintX_ne_lp
  have hyl := hp.mintY_ne_lp
  have hMX : B.tokens.IsMint l.config.mintX _ l.mintX.decimals := ⟨_, hl.toSwap.mintX⟩
  have hMY : B.tokens.IsMint l.config.mintY _ l.mintY.decimals := ⟨_, hl.toSwap.mintY⟩
  have hc : c ∈ configSigner A l.config ++ signers := by
    rw [configSigner_eq hp.address]
    exact List.mem_cons_self
  have hE := initAssociatedIfNeeded_eq_ok hl.userLp
  have hev₁ := hE.posts.evolves
  have hb₁ := hE.posts.supplyBacked hb
  rw [← hadd.amountA, ← hE.posts.balance_of_mint_ne hxl] at ha
  obtain ⟨L₂, h₂⟩ := transferChecked_ok hb₁ (hev₁.holds hu.holdsX) (hev₁.holds hp.vaultX)
    (hev₁.isMint hMX) hu.signed ha
  have hp₂ := (transferChecked_posts h₂).posts
  have hev₂ := hev₁.trans hp₂.evolves
  have hb₂ := hp₂.supplyBacked hb₁
  rw [← hadd.amountB, ← hE.posts.balance_of_mint_ne hyl,
    ← hp₂.balance_of_mint_ne hp.mintX_ne_mintY.symm] at hb'
  obtain ⟨L₃, h₃⟩ := transferChecked_ok hb₂ (hev₂.holds hu.holdsY) (hev₂.holds hp.vaultY)
    (hev₂.isMint hMY) hu.signed hb'
  have hp₃ := (transferChecked_posts h₃).posts
  have hev₃ := hev₂.trans hp₃.evolves
  rw [← hE.posts.supply_eq, ← hp₂.supply_eq, ← hp₃.supply_eq] at hfits
  obtain ⟨L₄, h₄⟩ := mintTo_ok (hp₃.supplyBacked hb₂)
    ((hp₂.evolves.trans hp₃.evolves).holds hE.holds) (hev₃.isMint hp.mintLp) hc hfits
  unfold Instruction.process AddLiquidity.handle
  simp only [AddLiquidity.tryAccounts_eq_ok.mpr hl, Outcome.ok_bind,
    Outcome.require_pos hunlocked, quote_of_supply h0, quoted_eq_ok.mpr hq,
    Outcome.require_pos hslip]
  simp only [Config.addAccounts] at h₄ ⊢
  simp only [Bank.cpi_ok h₂, Bank.cpi_ok h₃, Bank.cpi_ok h₄, Outcome.ok_bind, if_neg h0]
  exact ⟨_, rfl⟩

end Add

end Amm
