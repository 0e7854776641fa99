import ToyAmm.Effects
import ToyAmm.SharePool
import ToyAmm.Transition

/-!
# Every pool is an abstract pool

`PoolAt` says that the accounts of a config are in place and whose they are, `view` reads the four
numbers of `SharePool` off the bank, and `Inv` is the invariant of the whole bank: every config
is a pool in place, and sound. `PoolAt.of_exec` is the step: a successful call keeps every pool in
place, changes its config by one `ConfigStep`, and is a `SharePool.Move` of its view, whichever
pools and accounts the call names. `Inv.of_exec` keeps the invariant.
-/

open Checked AmmMath Token Ledger ConstantProduct

namespace Amm

variable {Key : Type} [DecidableEq Key] {A : AddressScheme Key} {B B' : Bank Key} {c lp : Key}
  {cfg cfg' : Config Key} {signers : List Key} {call : Call Key}

/-! ## Pools in a bank -/

/-- The accounts of the config `c` are in place; `lp` is its LP mint. -/
structure PoolAt (A : AddressScheme Key) (B : Bank Key) (c : Key) (cfg : Config Key) (lp : Key) :
    Prop where
  config : B.configs c = some cfg
  address : A.createProgramAddress (.config cfg.seed) cfg.configBump = some c
  lpAddress : A.createProgramAddress (.lpMint c) cfg.lpBump = some lp
  fee_lt : cfg.feeBps.toNat < 10000
  mintX_ne_mintY : cfg.mintX ≠ cfg.mintY
  mintX_ne_lp : cfg.mintX ≠ lp
  mintY_ne_lp : cfg.mintY ≠ lp
  vaultX : B.tokens.Holds (A.associatedAddress c cfg.mintX) cfg.mintX c
  vaultY : B.tokens.Holds (A.associatedAddress c cfg.mintY) cfg.mintY c
  lpVault : B.tokens.Holds (A.associatedAddress c lp) lp c
  mintX : ∃ a d, B.tokens.IsMint cfg.mintX a d
  mintY : ∃ a d, B.tokens.IsMint cfg.mintY a d
  mintLp : B.tokens.IsMint lp (some c) lpMintDecimals

/-- The pool of the config `c` as an abstract pool. -/
def view (A : AddressScheme Key) (B : Bank Key) (c : Key) (cfg : Config Key) (lp : Key) :
    SharePool.State where
  x := B.tokens.balance cfg.mintX (A.associatedAddress c cfg.mintX)
  y := B.tokens.balance cfg.mintY (A.associatedAddress c cfg.mintY)
  shares := B.tokens.supply lp
  locked := B.tokens.balance lp (A.associatedAddress c lp)

/-- The fields that no instruction writes are the same. -/
structure Config.SameFixed (cfg cfg' : Config Key) : Prop where
  seed : cfg'.seed = cfg.seed
  mintX : cfg'.mintX = cfg.mintX
  mintY : cfg'.mintY = cfg.mintY
  configBump : cfg'.configBump = cfg.configBump
  lpBump : cfg'.lpBump = cfg.lpBump

omit [DecidableEq Key] in
theorem Config.SameFixed.refl (cfg : Config Key) : cfg.SameFixed cfg := ⟨rfl, rfl, rfl, rfl, rfl⟩

omit [DecidableEq Key] in
theorem Config.SameFixed.trans {cfg'' : Config Key} (h : cfg.SameFixed cfg')
    (h' : cfg'.SameFixed cfg'') : cfg.SameFixed cfg'' :=
  ⟨h'.seed.trans h.seed, h'.mintX.trans h.mintX, h'.mintY.trans h.mintY,
    h'.configBump.trans h.configBump, h'.lpBump.trans h.lpBump⟩

omit [DecidableEq Key] in
theorem Config.SameFixed.mintIn (h : cfg.SameFixed cfg') (aToB : Bool) :
    cfg'.mintIn aToB = cfg.mintIn aToB := by
  cases aToB with
  | true => exact h.mintX
  | false => exact h.mintY

theorem view_congr (h : cfg.SameFixed cfg') : view A B c cfg' lp = view A B c cfg lp := by
  unfold view
  rw [h.mintX, h.mintY]

omit [DecidableEq Key] in
theorem PoolAt.evolve (h : PoolAt A B c cfg lp) (he : Evolves B.tokens B'.tokens)
    (hc : B'.configs c = some cfg') (hfix : cfg.SameFixed cfg') (hfee : cfg'.feeBps.toNat < 10000) :
    PoolAt A B' c cfg' lp := by
  obtain ⟨ax, dx, hx⟩ := h.mintX
  obtain ⟨ay, dy, hy⟩ := h.mintY
  refine ⟨hc, ?_, ?_, hfee, ?_, ?_, ?_, ?_, ?_, he.holds h.lpVault, ?_, ?_, he.isMint h.mintLp⟩
  · rw [hfix.seed, hfix.configBump]
    exact h.address
  · rw [hfix.lpBump]
    exact h.lpAddress
  · rw [hfix.mintX, hfix.mintY]
    exact h.mintX_ne_mintY
  · rw [hfix.mintX]
    exact h.mintX_ne_lp
  · rw [hfix.mintY]
    exact h.mintY_ne_lp
  · rw [hfix.mintX]
    exact he.holds h.vaultX
  · rw [hfix.mintY]
    exact he.holds h.vaultY
  · rw [hfix.mintX]
    exact ⟨ax, dx, he.isMint hx⟩
  · rw [hfix.mintY]
    exact ⟨ay, dy, he.isMint hy⟩

omit [DecidableEq Key] in
theorem PoolAt.mintIn_ne_mintOut (hp : PoolAt A B c cfg lp) (aToB : Bool) :
    cfg.mintOut aToB ≠ cfg.mintIn aToB := by
  cases aToB with
  | true => exact hp.mintX_ne_mintY.symm
  | false => exact hp.mintX_ne_mintY

omit [DecidableEq Key] in
theorem PoolAt.vaultIn (hp : PoolAt A B c cfg lp) (aToB : Bool) :
    B.tokens.Holds (A.associatedAddress c (cfg.mintIn aToB)) (cfg.mintIn aToB) c := by
  cases aToB with
  | true => exact hp.vaultX
  | false => exact hp.vaultY

omit [DecidableEq Key] in
theorem PoolAt.vaultOut (hp : PoolAt A B c cfg lp) (aToB : Bool) :
    B.tokens.Holds (A.associatedAddress c (cfg.mintOut aToB)) (cfg.mintOut aToB) c := by
  cases aToB with
  | true => exact hp.vaultY
  | false => exact hp.vaultX

omit [DecidableEq Key] in
theorem PoolAt.mintIn_ne_lp (hp : PoolAt A B c cfg lp) (aToB : Bool) : lp ≠ cfg.mintIn aToB := by
  cases aToB with
  | true => exact hp.mintX_ne_lp.symm
  | false => exact hp.mintY_ne_lp.symm

omit [DecidableEq Key] in
theorem PoolAt.mintOut_ne_lp (hp : PoolAt A B c cfg lp) (aToB : Bool) : lp ≠ cfg.mintOut aToB := by
  cases aToB with
  | true => exact hp.mintY_ne_lp.symm
  | false => exact hp.mintX_ne_lp.symm

omit [DecidableEq Key] in
/-- A config has one LP mint. -/
theorem PoolAt.lp_eq {lp' : Key} (h : PoolAt A B c cfg lp)
    (h' : A.createProgramAddress (.lpMint c) cfg.lpBump = some lp') : lp' = lp :=
  Option.some.inj (h'.symm.trans h.lpAddress)

omit [DecidableEq Key] in
theorem PoolAt.isProgramAddress (h : PoolAt A B c cfg lp) : A.IsProgramAddress c :=
  ⟨_, _, h.address⟩

/-- Locked shares are backed by the supply. -/
theorem view_locked_le (hb : B.tokens.SupplyBacked) :
    (view A B c cfg lp).locked ≤ (view A B c cfg lp).shares :=
  hb.balance_le lp _

/-- Moves that `c` did not sign: its reserves and locked shares do not fall, its supply does not
rise. -/
theorem PoolAt.move_of_spares (h : PoolAt A B c cfg lp) (hs : Spares c B.tokens B'.tokens) :
    SharePool.Move 1000 (view A B c cfg lp) (view A B' c cfg lp) :=
  .trade (Nat.mul_le_mul (hs.balance h.vaultX) (hs.balance h.vaultY)) (hs.supply h.mintLp)
    (hs.balance h.lpVault)

/-! ## The pool of the config that a trade names -/

section Own

variable {u : Key}

omit [DecidableEq Key] in
/-- What a quoted swap leaves of the reserve it pays from, and what that does to the product. -/
theorem SwapKind.quote_spec {kind : SwapKind} {rIn rOut : U64} {f : U16} {q : SwapAmounts}
    (h : kind.quote rIn rOut f = .ok q) :
    ∃ rest, rest + q.amountOut.toNat = rOut.toNat ∧
      rIn.toNat * rOut.toNat ≤ (rIn.toNat + q.amountIn.toNat) * rest := by
  cases kind with
  | exactInput a m =>
    obtain ⟨qi, hqi, h⟩ := Outcome.bind_eq_ok.mp h
    obtain ⟨_, -, ⟨⟩⟩ := Outcome.bind_eq_ok.mp h
    have hs := swapExactInput_spec (quoted_eq_ok.mp hqi)
    have hk := hs.mul_le
    rw [hs.newReserveIn] at hk
    exact ⟨_, hs.newReserveOut, hs.amountIn.symm ▸ hk⟩
  | exactOutput t m =>
    obtain ⟨qo, hqo, h⟩ := Outcome.bind_eq_ok.mp h
    obtain ⟨_, -, ⟨⟩⟩ := Outcome.bind_eq_ok.mp h
    have hs := swapExactOutput_spec (quoted_eq_ok.mp hqo)
    have hk := hs.mul_le
    rw [hs.newReserveIn] at hk
    exact ⟨_, hs.amountOut.symm ▸ hs.newReserveOut, hk⟩

/-- A swap changes the two vaults by the quoted amounts, and neither the supply nor the locked
shares. -/
theorem SwapSpec.view {kind : SwapKind} {aToB : Bool} {rIn rOut : U64} {q : SwapAmounts}
    (h : SwapSpec A B B' signers c u kind aToB cfg rIn rOut q) (hp : PoolAt A B c cfg lp)
    (hu : u ≠ c) :
    (view A B' c cfg lp).x + (if aToB then 0 else q.amountOut.toNat) =
        (view A B c cfg lp).x + (if aToB then q.amountIn.toNat else 0) ∧
      (view A B' c cfg lp).y + (if aToB then q.amountOut.toNat else 0) =
        (view A B c cfg lp).y + (if aToB then 0 else q.amountIn.toNat) ∧
      (view A B' c cfg lp).shares = (view A B c cfg lp).shares ∧
      (view A B' c cfg lp).locked = (view A B c cfg lp).locked := by
  have hxy := hp.mintX_ne_mintY
  have hX := h.balance cfg.mintX (A.associatedAddress c cfg.mintX)
  have hY := h.balance cfg.mintY (A.associatedAddress c cfg.mintY)
  have hL := h.balance lp (A.associatedAddress c lp)
  have hne : ∀ m, A.associatedAddress c m ≠ A.associatedAddress u m := fun m =>
    A.associated_ne_of_owner hu.symm
  refine ⟨?_, ?_, h.supply lp, ?_⟩
  · cases aToB <;>
      simpa [Amm.view, entry_self, entry_of_ne (hne _), entry_of_mint_ne hxy] using hX
  · cases aToB <;>
      simpa [Amm.view, entry_self, entry_of_ne (hne _), entry_of_mint_ne hxy.symm] using hY
  · cases aToB <;>
      simpa [Amm.view, entry_of_mint_ne hp.mintX_ne_lp.symm,
        entry_of_mint_ne hp.mintY_ne_lp.symm] using hL

theorem SwapSpec.move {kind : SwapKind} {aToB : Bool} {rIn rOut : U64} {q : SwapAmounts}
    (h : SwapSpec A B B' signers c u kind aToB cfg rIn rOut q) (hp : PoolAt A B c cfg lp)
    (hu : u ≠ c) : SharePool.Move 1000 (Amm.view A B c cfg lp) (Amm.view A B' c cfg lp) := by
  obtain ⟨hx, hy, hs, hl⟩ := h.view hp hu
  obtain ⟨rest, hrest, hk⟩ := SwapKind.quote_spec h.quote
  have hri := h.reserveIn
  have hro := h.reserveOut
  refine .trade ?_ hs.le hl.ge
  cases aToB with
  | true =>
    have hri' : rIn.toNat = (Amm.view A B c cfg lp).x := hri
    have hro' : rOut.toNat = (Amm.view A B c cfg lp).y := hro
    simp only [if_true] at hx hy
    rw [← hri', ← hro', show (Amm.view A B' c cfg lp).y = rest by omega,
      show (Amm.view A B' c cfg lp).x = rIn.toNat + q.amountIn.toNat by omega]
    exact hk
  | false =>
    have hri' : rIn.toNat = (Amm.view A B c cfg lp).y := hri
    have hro' : rOut.toNat = (Amm.view A B c cfg lp).x := hro
    simp only [Bool.false_eq_true, if_false] at hx hy
    rw [← hri', ← hro', show (Amm.view A B' c cfg lp).x = rest by omega,
      show (Amm.view A B' c cfg lp).y = rIn.toNat + q.amountIn.toNat by omega,
      Nat.mul_comm, Nat.mul_comm rest]
    exact hk

/-- A deposit adds its amounts to the vaults, and its shares with the locked ones to the supply. -/
theorem AddSpec.view {a b minLp rX rY s : U64} {q : LiquidityQuote U64}
    (h : AddSpec A B B' signers c u a b minLp cfg lp rX rY s q) (hp : PoolAt A B c cfg lp)
    (hu : u ≠ c) :
    (Amm.view A B' c cfg lp).x = (Amm.view A B c cfg lp).x + q.amountA.toNat ∧
      (Amm.view A B' c cfg lp).y = (Amm.view A B c cfg lp).y + q.amountB.toNat ∧
      (Amm.view A B' c cfg lp).shares =
        (Amm.view A B c cfg lp).shares + (q.lpTokens.toNat + lockedShares s) ∧
      (Amm.view A B' c cfg lp).locked = (Amm.view A B c cfg lp).locked + lockedShares s := by
  have hxy := hp.mintX_ne_mintY
  have hxl := hp.mintX_ne_lp
  have hyl := hp.mintY_ne_lp
  have hX := h.balance cfg.mintX (A.associatedAddress c cfg.mintX)
  have hY := h.balance cfg.mintY (A.associatedAddress c cfg.mintY)
  have hL := h.balance lp (A.associatedAddress c lp)
  have hS := h.supply lp
  have hne : ∀ m, A.associatedAddress c m ≠ A.associatedAddress u m := fun m =>
    A.associated_ne_of_owner hu.symm
  refine ⟨?_, ?_, ?_, ?_⟩
  · simpa [Amm.view, entry_self, entry_of_ne (hne _), entry_of_mint_ne hxy, entry_of_mint_ne hxl]
      using hX
  · simpa [Amm.view, entry_self, entry_of_ne (hne _), entry_of_mint_ne hxy.symm,
      entry_of_mint_ne hyl] using hY
  · simpa [Amm.view] using hS
  · simpa [Amm.view, entry_self, entry_of_ne (hne _), entry_of_mint_ne hxl.symm,
      entry_of_mint_ne hyl.symm] using hL

/-- A withdrawal takes its amounts out of the vaults and its shares out of the supply. -/
theorem RemoveSpec.view {lpBurn minA minB rX rY s : U64} {q : LiquidityQuote U64}
    (h : RemoveSpec A B B' signers c u lpBurn minA minB cfg lp rX rY s q)
    (hp : PoolAt A B c cfg lp) (hu : u ≠ c) :
    (Amm.view A B' c cfg lp).x + q.amountA.toNat = (Amm.view A B c cfg lp).x ∧
      (Amm.view A B' c cfg lp).y + q.amountB.toNat = (Amm.view A B c cfg lp).y ∧
      (Amm.view A B' c cfg lp).shares + q.lpTokens.toNat = (Amm.view A B c cfg lp).shares ∧
      (Amm.view A B' c cfg lp).locked = (Amm.view A B c cfg lp).locked := by
  have hxy := hp.mintX_ne_mintY
  have hxl := hp.mintX_ne_lp
  have hyl := hp.mintY_ne_lp
  have hX := h.balance cfg.mintX (A.associatedAddress c cfg.mintX)
  have hY := h.balance cfg.mintY (A.associatedAddress c cfg.mintY)
  have hL := h.balance lp (A.associatedAddress c lp)
  have hS := h.supply lp
  have hne : ∀ m, A.associatedAddress c m ≠ A.associatedAddress u m := fun m =>
    A.associated_ne_of_owner hu.symm
  refine ⟨?_, ?_, ?_, ?_⟩
  · simpa [Amm.view, entry_self, entry_of_ne (hne _), entry_of_mint_ne hxy, entry_of_mint_ne hxl]
      using hX
  · simpa [Amm.view, entry_self, entry_of_ne (hne _), entry_of_mint_ne hxy.symm,
      entry_of_mint_ne hyl] using hY
  · simpa [Amm.view] using hS
  · simpa [Amm.view, entry_self, entry_of_ne (hne _), entry_of_mint_ne hxl.symm,
      entry_of_mint_ne hyl.symm] using hL

/-- The first deposit issues `floor(sqrt(a * b))` shares, the locked ones among them; a later one
backs every share. -/
theorem AddSpec.move {a b minLp rX rY s : U64} {q : LiquidityQuote U64}
    (h : AddSpec A B B' signers c u a b minLp cfg lp rX rY s q) (hp : PoolAt A B c cfg lp)
    (hu : u ≠ c) : SharePool.Move 1000 (Amm.view A B c cfg lp) (Amm.view A B' c cfg lp) := by
  obtain ⟨hx, hy, hs, hl⟩ := h.view hp hu
  have hsup : s.toNat = (Amm.view A B c cfg lp).shares := h.supplyLp
  have hq := h.quote
  by_cases h0 : s = 0
  · rw [if_pos h0] at hq
    have hi := initialLiquidity_spec hq
    have hlock : lockedShares s = 1000 := if_pos h0
    have hz : s.toNat = 0 := toNat_eq_zero.mpr h0
    have hshares : (Amm.view A B' c cfg lp).shares = Nat.sqrt (a.toNat * b.toNat) := by
      have := hi.lpTokens
      omega
    refine .bootstrap (by omega) ?_ (by omega)
    calc (Amm.view A B' c cfg lp).shares ^ 2 ≤ a.toNat * b.toNat := by
          rw [hshares]
          exact Nat.sqrt_le' _
      _ ≤ (Amm.view A B' c cfg lp).x * (Amm.view A B' c cfg lp).y := by
          rw [hx, hy, hi.amountA, hi.amountB]
          exact Nat.mul_le_mul (Nat.le_add_left _ _) (Nat.le_add_left _ _)
  · rw [if_neg h0] at hq
    have ha := addLiquidity_spec hq
    have hlock : lockedShares s = 0 := if_neg h0
    have hpos : 0 < s.toNat := toNat_pos.mpr h0
    have hrx : rX.toNat = (Amm.view A B c cfg lp).x := h.reserveX
    have hry : rY.toNat = (Amm.view A B c cfg lp).y := h.reserveY
    rw [ha.amountA] at hx
    rw [ha.amountB] at hy
    have hb := ha.backed
    rw [hrx, hry, hsup, ← hx, ← hy,
      show (Amm.view A B c cfg lp).shares + q.lpTokens.toNat = (Amm.view A B' c cfg lp).shares by
        omega] at hb
    exact .liquidity (by omega) hb (by omega)

theorem RemoveSpec.move {lpBurn minA minB rX rY s : U64} {q : LiquidityQuote U64}
    (h : RemoveSpec A B B' signers c u lpBurn minA minB cfg lp rX rY s q)
    (hp : PoolAt A B c cfg lp) (hu : u ≠ c) :
    SharePool.Move 1000 (Amm.view A B c cfg lp) (Amm.view A B' c cfg lp) := by
  obtain ⟨hx, hy, hs, hl⟩ := h.view hp hu
  have hsup : s.toNat = (Amm.view A B c cfg lp).shares := h.supplyLp
  have hrx : rX.toNat = (Amm.view A B c cfg lp).x := h.reserveX
  have hry : rY.toNat = (Amm.view A B c cfg lp).y := h.reserveY
  have hr := removeLiquidity_spec h.quote
  have hpos := hr.lp_pos
  have hle := hr.lp_le
  rw [hr.lpTokens] at hs
  have hb := hr.backed
  rw [show rX.toNat - q.amountA.toNat = (Amm.view A B' c cfg lp).x by omega,
    show rY.toNat - q.amountB.toNat = (Amm.view A B' c cfg lp).y by omega,
    show s.toNat - lpBurn.toNat = (Amm.view A B' c cfg lp).shares by omega, hrx, hry, hsup] at hb
  exact .liquidity (by omega) hb hl.ge

/-! Read at a pool in place, a trade that names it has its config and its LP mint. -/

theorem PoolAt.swap_spec {accs : Swap Key} {kind : SwapKind} {aToB : Bool}
    (hp : PoolAt A B c cfg lp) (hc : accs.config = c)
    (h : (Instruction.swap accs kind aToB).process A B signers = .ok B') :
    ∃ rIn rOut q, SwapSpec A B B' signers c accs.user kind aToB cfg rIn rOut q := by
  subst hc
  obtain ⟨cfg', rIn, rOut, q, hs⟩ := Amm.swap_spec h
  obtain rfl := Option.some.inj (hs.config.symm.trans hp.config)
  exact ⟨rIn, rOut, q, hs⟩

theorem PoolAt.add_spec {accs : AddLiquidity Key} {a b minLp : U64} (hp : PoolAt A B c cfg lp)
    (hc : accs.config = c)
    (h : (Instruction.addLiquidity accs a b minLp).process A B signers = .ok B') :
    ∃ rX rY s q, AddSpec A B B' signers c accs.user a b minLp cfg lp rX rY s q := by
  subst hc
  obtain ⟨cfg', lp', rX, rY, s, q, hs⟩ := Amm.add_spec h
  obtain rfl := Option.some.inj (hs.config.symm.trans hp.config)
  obtain rfl := hp.lp_eq hs.lpAddress
  exact ⟨rX, rY, s, q, hs⟩

theorem PoolAt.remove_spec {accs : RemoveLiquidity Key} {n minA minB : U64}
    (hp : PoolAt A B c cfg lp) (hc : accs.config = c)
    (h : (Instruction.removeLiquidity accs n minA minB).process A B signers = .ok B') :
    ∃ rX rY s q, RemoveSpec A B B' signers c accs.user n minA minB cfg lp rX rY s q := by
  subst hc
  obtain ⟨cfg', lp', rX, rY, s, q, hs⟩ := Amm.remove_spec h
  obtain rfl := Option.some.inj (hs.config.symm.trans hp.config)
  obtain rfl := hp.lp_eq hs.lpAddress
  exact ⟨rX, rY, s, q, hs⟩

end Own

/-! ## One call -/

/-- The config that an instruction names. -/
def Instruction.config : Instruction Key → Key
  | .init accs _ _ _ => accs.config
  | .addLiquidity accs _ _ _ => accs.config
  | .removeLiquidity accs _ _ _ => accs.config
  | .swap accs _ _ => accs.config
  | .updateFee accs _ => accs.config
  | .setLocked accs _ => accs.config
  | .updateAuthority accs _ => accs.config

/-- A swap, a deposit or a withdrawal. -/
def Instruction.IsTrade : Instruction Key → Prop
  | .swap _ _ _ => True
  | .addLiquidity _ _ _ _ => True
  | .removeLiquidity _ _ _ _ => True
  | _ => False

/-- A trade found its config there, and unlocked. -/
theorem trade_config {ix : Instruction Key} (ht : ix.IsTrade)
    (h : ix.process A B signers = .ok B') :
    ∃ cfg, B.configs ix.config = some cfg ∧ cfg.locked = false := by
  cases ix with
  | init | updateFee | setLocked | updateAuthority => exact ht.elim
  | swap accs kind aToB =>
    obtain ⟨cfg, _, _, _, hs⟩ := swap_spec h
    exact ⟨cfg, hs.config, hs.unlocked⟩
  | addLiquidity accs a b m =>
    obtain ⟨cfg, _, _, _, _, _, hs⟩ := add_spec h
    exact ⟨cfg, hs.config, hs.unlocked⟩
  | removeLiquidity accs l a b =>
    obtain ⟨cfg, _, _, _, _, _, hs⟩ := remove_spec h
    exact ⟨cfg, hs.config, hs.unlocked⟩

theorem exec_amm {ix : Instruction Key} (hop : call.op = .amm ix) :
    exec A B call = ix.process A B call.signers := by
  unfold exec
  rw [hop]

/-- The authorities that a call acts on: its signers and the config it names. -/
def Call.authorities (call : Call Key) : List Key :=
  match call.op with
  | .amm ix => ix.config :: call.signers
  | .token _ => call.signers

/-- How one call changes the config `c`: not at all, or as the stored authority signed for. -/
inductive ConfigStep (call : Call Key) (c : Key) (cfg : Config Key) : Config Key → Prop where
  | same : ConfigStep call c cfg cfg
  | updateFee {accs : UpdateFee Key} {newFeeBps : U16}
      (op : call.op = .amm (.updateFee accs newFeeBps)) (config : accs.config = c)
      (stored : cfg.authority = some accs.authority) (signed : accs.authority ∈ call.signers)
      (fee_lt : newFeeBps.toNat < 10000) : ConfigStep call c cfg { cfg with feeBps := newFeeBps }
  | setLocked {accs : SetLocked Key} {locked : Bool}
      (op : call.op = .amm (.setLocked accs locked)) (config : accs.config = c)
      (stored : cfg.authority = some accs.authority) (signed : accs.authority ∈ call.signers) :
      ConfigStep call c cfg { cfg with locked }
  | updateAuthority {accs : UpdateAuthority Key} {newAuthority : Option Key}
      (op : call.op = .amm (.updateAuthority accs newAuthority)) (config : accs.config = c)
      (stored : cfg.authority = some accs.authority) (signed : accs.authority ∈ call.signers) :
      ConfigStep call c cfg { cfg with authority := newAuthority }

omit [DecidableEq Key] in
theorem ConfigStep.sameFixed (h : ConfigStep call c cfg cfg') : cfg.SameFixed cfg' := by
  cases h <;> exact ⟨rfl, rfl, rfl, rfl, rfl⟩

omit [DecidableEq Key] in
theorem ConfigStep.fee_lt (h : ConfigStep call c cfg cfg') (hfee : cfg.feeBps.toNat < 10000) :
    cfg'.feeBps.toNat < 10000 := by
  cases h with
  | same => exact hfee
  | updateFee op config stored signed fee_lt => exact fee_lt
  | setLocked => exact hfee
  | updateAuthority => exact hfee

/-- A direct call of the token program is confined to the signers. -/
theorem token_confined {ix : TokenInstruction Key} (h : ix.process A B signers = .ok B') :
    Confined signers B.tokens B'.tokens ∧ B'.configs = B.configs := by
  cases ix with
  | transferChecked source mint destination authority amount decimals =>
    obtain ⟨ht, hc⟩ := Bank.cpi_eq_ok.mp h
    have hs := transferChecked_posts ht
    exact ⟨hs.confined hs.signed, hc⟩
  | mintTo mint destination authority amount =>
    obtain ⟨ht, hc⟩ := Bank.cpi_eq_ok.mp h
    have hs := mintTo_posts ht
    exact ⟨hs.confined hs.signed, hc⟩
  | burn source mint authority amount =>
    obtain ⟨ht, hc⟩ := Bank.cpi_eq_ok.mp h
    have hs := burn_posts ht
    exact ⟨hs.confined hs.signed, hc⟩
  | initializeMint address mintAuthority decimals =>
    obtain ⟨_, -, h⟩ := Outcome.bind_eq_ok.mp h
    obtain ⟨ht, hc⟩ := Bank.cpi_eq_ok.mp h
    obtain ⟨-, -, -, -, hp⟩ := initializeMint_posts ht
    exact ⟨hp.confined_zero, hc⟩
  | createAssociated address owner mint =>
    obtain ⟨_, -, h⟩ := Outcome.bind_eq_ok.mp h
    obtain ⟨ht, hc⟩ := Bank.cpi_eq_ok.mp h
    obtain ⟨-, -, -, -, hp⟩ := createAssociated_posts ht
    exact ⟨hp.confined_zero, hc⟩

/-- Every call is confined to its authorities. -/
theorem exec_confined (h : exec A B call = .ok B') :
    Confined call.authorities B.tokens B'.tokens := by
  obtain ⟨signers, op⟩ := call
  cases op with
  | token ix => exact (token_confined h).1
  | amm ix =>
    cases ix with
    | init accs seed feeBps authority =>
      exact (init_spec h).confined.mono (List.nil_subset _)
    | addLiquidity accs a b m =>
      obtain ⟨_, _, _, _, _, _, hs⟩ := add_spec h
      exact hs.confined
    | removeLiquidity accs l a b =>
      obtain ⟨_, _, _, _, _, _, hs⟩ := remove_spec h
      exact hs.confined
    | swap accs kind aToB =>
      obtain ⟨_, _, _, _, hs⟩ := swap_spec h
      exact hs.confined
    | updateFee accs newFeeBps =>
      obtain ⟨_, -, -, rfl⟩ := updateFee_eq_ok.mp h
      exact .refl _ _
    | setLocked accs locked =>
      obtain ⟨_, -, rfl⟩ := setLocked_eq_ok.mp h
      exact .refl _ _
    | updateAuthority accs newAuthority =>
      obtain ⟨_, -, rfl⟩ := updateAuthority_eq_ok.mp h
      exact .refl _ _

/-- Which configs one successful call writes: none, a new one, or one that its authority signed
for. -/
inductive ConfigWrite (A : AddressScheme Key) (B : Bank Key) (call : Call Key)
    (configs : Key → Option (Config Key)) : Prop where
  | none (same : configs = B.configs)
  | init {accs : Initialize Key} {seed : U64} {feeBps : U16} {authority : Option Key}
      (op : call.op = .amm (.init accs seed feeBps authority)) (vacant : B.configs accs.config = none)
      (new : configs = (B.setConfig accs.config (accs.newConfig A seed feeBps authority)).configs)
  | admin {accs : Admin Key} {cfg cfg' : Config Key} (config : B.configs accs.config = some cfg)
      (step : ConfigStep call accs.config cfg cfg')
      (new : configs = (B.setConfig accs.config cfg').configs)

theorem exec_configs (h : exec A B call = .ok B') : ConfigWrite A B call B'.configs := by
  obtain ⟨signers, op⟩ := call
  cases op with
  | token ix => exact .none (token_confined h).2
  | amm ix =>
    cases ix with
    | init accs seed feeBps authority =>
      have hs := init_spec h
      exact .init rfl hs.vacant hs.configs
    | addLiquidity accs a b m =>
      obtain ⟨_, _, _, _, _, _, hs⟩ := add_spec h
      exact .none hs.configs
    | removeLiquidity accs l a b =>
      obtain ⟨_, _, _, _, _, _, hs⟩ := remove_spec h
      exact .none hs.configs
    | swap accs kind aToB =>
      obtain ⟨_, _, _, _, hs⟩ := swap_spec h
      exact .none hs.configs
    | updateFee accs newFeeBps =>
      obtain ⟨_, ha, hfee, rfl⟩ := updateFee_eq_ok.mp h
      exact .admin ha.config (.updateFee rfl rfl ha.stored ha.signed hfee) rfl
    | setLocked accs locked =>
      obtain ⟨_, ha, rfl⟩ := setLocked_eq_ok.mp h
      exact .admin ha.config (.setLocked rfl rfl ha.stored ha.signed) rfl
    | updateAuthority accs newAuthority =>
      obtain ⟨_, ha, rfl⟩ := updateAuthority_eq_ok.mp h
      exact .admin ha.config (.updateAuthority rfl rfl ha.stored ha.signed) rfl

/-- How one successful call changes a config that is there. -/
theorem exec_config (h : exec A B call = .ok B') (hc : B.configs c = some cfg) :
    ∃ cfg', B'.configs c = some cfg' ∧ ConfigStep call c cfg cfg' := by
  cases exec_configs h with
  | none same => exact ⟨cfg, by rw [same, hc], .same⟩
  | @init accs _ _ _ op vacant new =>
    have hne : c ≠ accs.config := by
      rintro rfl
      rw [vacant] at hc
      cases hc
    exact ⟨cfg, by rw [new, Bank.configs_setConfig_of_ne hne, hc], .same⟩
  | @admin accs cfg₀ cfg₁ config step new =>
    by_cases hcc : c = accs.config
    · subst hcc
      obtain rfl := Option.some.inj (config.symm.trans hc)
      exact ⟨cfg₁, by rw [new, Bank.configs_setConfig_self], step⟩
    · exact ⟨cfg, by rw [new, Bank.configs_setConfig_of_ne hcc, hc], .same⟩

/-- A config that was not there before was written by `init`. -/
theorem exec_config_new (h : exec A B call = .ok B') (hc : B'.configs c = some cfg)
    (hnew : B.configs c = none) :
    ∃ accs seed feeBps authority, call.op = .amm (.init accs seed feeBps authority) ∧
      accs.config = c ∧ cfg = accs.newConfig A seed feeBps authority := by
  cases exec_configs h with
  | none same =>
    rw [same, hnew] at hc
    cases hc
  | @init accs seed feeBps authority op vacant new =>
    by_cases hcc : c = accs.config
    · subst hcc
      rw [new, Bank.configs_setConfig_self] at hc
      exact ⟨accs, seed, feeBps, authority, op, rfl, (Option.some.inj hc).symm⟩
    · rw [new, Bank.configs_setConfig_of_ne hcc, hnew] at hc
      cases hc
  | @admin accs cfg₀ cfg₁ config step new =>
    have hcc : c ≠ accs.config := by
      rintro rfl
      rw [hnew] at config
      cases config
    rw [new, Bank.configs_setConfig_of_ne hcc, hnew] at hc
    cases hc

/-- One successful call is a move of every pool. -/
theorem exec_move (h : exec A B call = .ok B') (hadm : call.Admissible A)
    (hp : PoolAt A B c cfg lp) : SharePool.Move 1000 (view A B c cfg lp) (view A B' c cfg lp) := by
  have hns : c ∉ call.signers := fun hc => hadm c hc hp.isProgramAddress
  have hother : c ∉ call.authorities →
      SharePool.Move 1000 (view A B c cfg lp) (view A B' c cfg lp) := fun hc =>
    hp.move_of_spares ((exec_confined h).spares hc)
  obtain ⟨signers, op⟩ := call
  cases op with
  | token ix => exact hother hns
  | amm ix =>
    by_cases hcc : ix.config = c
    · cases ix with
      | init accs seed feeBps authority =>
        have hs := init_spec h
        have hfree : B.configs accs.config = none := hs.vacant
        rw [show accs.config = c from hcc, hp.config] at hfree
        cases hfree
      | addLiquidity accs a b m =>
        obtain ⟨rX, rY, s, q, hs⟩ := hp.add_spec hcc h
        exact hs.move hp fun hu => hns (hu ▸ hs.signed)
      | removeLiquidity accs l a b =>
        obtain ⟨rX, rY, s, q, hs⟩ := hp.remove_spec hcc h
        exact hs.move hp fun hu => hns (hu ▸ hs.signed)
      | swap accs kind aToB =>
        obtain ⟨rIn, rOut, q, hs⟩ := hp.swap_spec hcc h
        exact hs.move hp fun hu => hns (hu ▸ hs.signed)
      | updateFee accs newFeeBps =>
        obtain ⟨_, -, -, rfl⟩ := updateFee_eq_ok.mp h
        exact hp.move_of_spares (.refl _ _)
      | setLocked accs locked =>
        obtain ⟨_, -, rfl⟩ := setLocked_eq_ok.mp h
        exact hp.move_of_spares (.refl _ _)
      | updateAuthority accs newAuthority =>
        obtain ⟨_, -, rfl⟩ := updateAuthority_eq_ok.mp h
        exact hp.move_of_spares (.refl _ _)
    · apply hother
      rw [Call.authorities, List.mem_cons, not_or]
      exact ⟨Ne.symm hcc, hns⟩

/-! ## The invariant of the bank -/

/-- Balances are backed by supply, and every config is a sound pool. -/
structure Inv (A : AddressScheme Key) (B : Bank Key) : Prop where
  backed : B.tokens.SupplyBacked
  pool : ∀ {c cfg}, B.configs c = some cfg →
    ∃ lp, PoolAt A B c cfg lp ∧ SharePool.Sound 1000 (view A B c cfg lp)

/-- A successful call keeps a pool in place. -/
theorem PoolAt.kept (hp : PoolAt A B c cfg lp) (h : exec A B call = .ok B') :
    ∃ cfg', PoolAt A B' c cfg' lp ∧ ConfigStep call c cfg cfg' := by
  obtain ⟨cfg', hc', hstep⟩ := exec_config h hp.config
  exact ⟨cfg', hp.evolve (exec_confined h).evolves hc' hstep.sameFixed (hstep.fee_lt hp.fee_lt),
    hstep⟩

/-- A successful call keeps a pool in place, sound, and moves its view. -/
theorem PoolAt.of_exec (hp : PoolAt A B c cfg lp) (hb : B.tokens.SupplyBacked)
    (hs : SharePool.Sound 1000 (view A B c cfg lp)) (hadm : call.Admissible A)
    (h : exec A B call = .ok B') :
    ∃ cfg', PoolAt A B' c cfg' lp ∧ ConfigStep call c cfg cfg' ∧
      SharePool.Sound 1000 (view A B' c cfg' lp) ∧
      SharePool.Move 1000 (view A B c cfg lp) (view A B' c cfg' lp) := by
  obtain ⟨cfg', hp', hstep⟩ := hp.kept h
  have hmove := exec_move h hadm hp
  have hsound := hmove.sound hs (view_locked_le ((exec_confined h).backed hb))
  refine ⟨cfg', hp', hstep, ?_, ?_⟩
  · rwa [view_congr hstep.sameFixed]
  · rwa [view_congr hstep.sameFixed]

/-- The pool that `Initialize` sets up: no reserves and no shares. -/
theorem InitSpec.pool {accs : Initialize Key} {seed : U64} {feeBps : U16} {authority : Option Key}
    (h : InitSpec A B B' accs seed feeBps authority) :
    PoolAt A B' accs.config (accs.newConfig A seed feeBps authority) accs.mintLp ∧
      view A B' accs.config (accs.newConfig A seed feeBps authority) accs.mintLp =
        ⟨⟨0, 0, 0⟩, 0⟩ := by
  have hzero : ∀ m, B.tokens.accounts (A.associatedAddress accs.config m) = none →
      B'.tokens.balance m (A.associatedAddress accs.config m) = 0 := by
    intro m hm
    rw [h.balance, balance_of_none hm]
  have hsup : B'.tokens.supply accs.mintLp = 0 := by
    rw [h.supply, supply_of_none h.mintLp]
  have hmint : ∀ m, B.tokens.mints m ≠ none → ∃ a d, B'.tokens.IsMint m a d := by
    intro m hm
    obtain ⟨⟨a, s, d⟩, hM⟩ := Option.ne_none_iff_exists'.mp hm
    exact ⟨a, d, h.confined.evolves.isMint ⟨s, hM⟩⟩
  refine ⟨⟨?_, h.address, h.lpAddress, h.fee_lt, h.mintX_ne_mintY, ?_, ?_, h.holdsX, h.holdsY,
    h.holdsLp, hmint _ h.mintX, hmint _ h.mintY, h.lpIsMint⟩, ?_⟩
  · rw [h.configs, Bank.configs_setConfig_self]
  · intro heq
    have heq' : accs.mintX = accs.mintLp := heq
    exact h.mintX (heq' ▸ h.mintLp)
  · intro heq
    have heq' : accs.mintY = accs.mintLp := heq
    exact h.mintY (heq' ▸ h.mintLp)
  · show SharePool.State.mk ⟨_, _, _⟩ _ = _
    rw [hsup, hzero _ h.emptyLp]
    congr
    · exact hzero _ h.emptyX
    · exact hzero _ h.emptyY

theorem Inv.of_exec (hI : Inv A B) (hadm : call.Admissible A) (h : exec A B call = .ok B') :
    Inv A B' := by
  refine ⟨(exec_confined h).backed hI.backed, ?_⟩
  intro c cfg hc
  cases hc₀ : B.configs c with
  | some cfg₀ =>
    obtain ⟨lp, hp, hs⟩ := hI.pool hc₀
    obtain ⟨cfg', hp', -, hs', -⟩ := hp.of_exec hI.backed hs hadm h
    obtain rfl := Option.some.inj (hp'.config.symm.trans hc)
    exact ⟨lp, hp', hs'⟩
  | none =>
    obtain ⟨accs, seed, feeBps, authority, hop, rfl, rfl⟩ := exec_config_new h hc hc₀
    rw [exec_amm hop] at h
    obtain ⟨hp, hv⟩ := (init_spec h).pool
    refine ⟨accs.mintLp, hp, ?_⟩
    rw [hv]
    exact ⟨le_rfl, .inl rfl⟩

end Amm
