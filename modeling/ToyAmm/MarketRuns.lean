import ToyAmm.MarketRefinement

/-!
# Runs of the market

`Listing.Reads` says which order a call is: an instruction that names the pool is the order of its
user if its accounts are the ones they have to be, and is refused otherwise; payments, burns and new
accounts are read off direct calls of the token program. One call shows as its order
(`step_shows`), hence every run does. In a bank that was reached by calls signed with keys, every
pool is listed as `Config.listing` computes, so all of this holds of it (`market_follows`).
-/

open Checked AmmMath Token Ledger Transition

namespace Amm

variable {Key : Type}

/-! ## Calls as orders -/

/-- The call is the order, signed by the same keys. -/
inductive Listing.Reads (P : Listing Key) (A : AddressScheme Key) :
    Call Key → List Key × Order Key → Prop where
  | exactInput {signers u aToB} (amountIn minAmountOut : U64) :
      P.Reads A
        ⟨signers, .amm (.swap (P.swapAccounts A u) (.exactInput amountIn minAmountOut) aToB)⟩
        (signers, .exactInput u aToB amountIn.toNat minAmountOut.toNat)
  | exactOutput {signers u aToB} (amountOut maxAmountIn : U64) :
      P.Reads A
        ⟨signers, .amm (.swap (P.swapAccounts A u) (.exactOutput amountOut maxAmountIn) aToB)⟩
        (signers, .exactOutput u aToB amountOut.toNat maxAmountIn.toNat)
  | addLiquidity {signers u} (amountA amountB minLpTokens : U64) :
      P.Reads A ⟨signers, .amm (.addLiquidity (P.addAccounts A u) amountA amountB minLpTokens)⟩
        (signers, .addLiquidity u amountA.toNat amountB.toNat minLpTokens.toNat)
  | removeLiquidity {signers u} (lpBurn minA minB : U64) :
      P.Reads A ⟨signers, .amm (.removeLiquidity (P.removeAccounts A u) lpBurn minA minB)⟩
        (signers, .removeLiquidity u lpBurn.toNat minA.toNat minB.toNat)
  | updateFee {signers} {accs : UpdateFee Key} (config : accs.config = P.pool) (newFeeBps : U16) :
      P.Reads A ⟨signers, .amm (.updateFee accs newFeeBps)⟩
        (signers, .updateFee accs.authority newFeeBps.toNat)
  | setLocked {signers} {accs : SetLocked Key} (config : accs.config = P.pool) (locked : Bool) :
      P.Reads A ⟨signers, .amm (.setLocked accs locked)⟩
        (signers, .setLocked accs.authority locked)
  | updateAuthority {signers} {accs : UpdateAuthority Key} (config : accs.config = P.pool)
      (newAuthority : Option Key) :
      P.Reads A ⟨signers, .amm (.updateAuthority accs newAuthority)⟩
        (signers, .updateAuthority accs.authority newAuthority)
  /-- The pool is there already. -/
  | init {signers} {accs : Initialize Key} (config : accs.config = P.pool) (seed : U64)
      (feeBps : U16) (authority : Option Key) :
      P.Reads A ⟨signers, .amm (.init accs seed feeBps authority)⟩ (signers, .refused)
  | otherSwap {signers} {accs : Swap Key} (config : accs.config = P.pool)
      (other : accs ≠ P.swapAccounts A accs.user) (kind : SwapKind) (aToB : Bool) :
      P.Reads A ⟨signers, .amm (.swap accs kind aToB)⟩ (signers, .refused)
  | otherAdd {signers} {accs : AddLiquidity Key} (config : accs.config = P.pool)
      (other : accs ≠ P.addAccounts A accs.user) (amountA amountB minLpTokens : U64) :
      P.Reads A ⟨signers, .amm (.addLiquidity accs amountA amountB minLpTokens)⟩
        (signers, .refused)
  | otherRemove {signers} {accs : RemoveLiquidity Key} (config : accs.config = P.pool)
      (other : accs ≠ P.removeAccounts A accs.user) (lpBurn minA minB : U64) :
      P.Reads A ⟨signers, .amm (.removeLiquidity accs lpBurn minA minB)⟩ (signers, .refused)
  | pay {signers src dst a} (amount : U64) :
      P.Reads A
        ⟨signers, .token (.transferChecked (P.account A src a) (P.mint a) (P.account A dst a) src
          amount (P.decimals a))⟩
        (signers, .pay src dst a amount.toNat)
  | burn {signers u a} (amount : U64) :
      P.Reads A ⟨signers, .token (.burn (P.account A u a) (P.mint a) u amount)⟩
        (signers, .burn u a amount.toNat)
  | openAccount {signers u a} :
      P.Reads A ⟨signers, .token (.createAssociated (P.account A u a) u (P.mint a))⟩
        (signers, .openAccount u a)

variable [DecidableEq Key] {A : AddressScheme Key} {P : Listing Key} {B B' : Bank Key}
  {cfg cfg' : Config Key} {signers : List Key} {call : Call Key} {calls : List (Call Key)}
  {order : List Key × Order Key} {orders : List (List Key × Order Key)}

/-- Every instruction that names the pool is an order. -/
theorem Listing.reads_of_config (P : Listing Key) (A : AddressScheme Key) (signers : List Key)
    {ix : Instruction Key} (h : ix.config = P.pool) :
    ∃ order, P.Reads A ⟨signers, .amm ix⟩ (signers, order) := by
  cases ix with
  | init accs seed feeBps authority => exact ⟨_, .init h seed feeBps authority⟩
  | addLiquidity accs a b minLp =>
    by_cases hc : accs = P.addAccounts A accs.user
    · rw [hc]
      exact ⟨_, .addLiquidity a b minLp⟩
    · exact ⟨_, .otherAdd h hc a b minLp⟩
  | removeLiquidity accs lpBurn minA minB =>
    by_cases hc : accs = P.removeAccounts A accs.user
    · rw [hc]
      exact ⟨_, .removeLiquidity lpBurn minA minB⟩
    · exact ⟨_, .otherRemove h hc lpBurn minA minB⟩
  | swap accs kind aToB =>
    by_cases hc : accs = P.swapAccounts A accs.user
    · rw [hc]
      cases kind with
      | exactInput amountIn minAmountOut => exact ⟨_, .exactInput amountIn minAmountOut⟩
      | exactOutput amountOut maxAmountIn => exact ⟨_, .exactOutput amountOut maxAmountIn⟩
    · exact ⟨_, .otherSwap h hc kind aToB⟩
  | updateFee accs newFeeBps => exact ⟨_, .updateFee h newFeeBps⟩
  | setLocked accs locked => exact ⟨_, .setLocked h locked⟩
  | updateAuthority accs newAuthority => exact ⟨_, .updateAuthority h newAuthority⟩

/-! ## Refused calls -/

theorem Initialize.tryAccounts_ne_amm {self : Initialize Key} {seed : U64} {e : AmmError} :
    self.tryAccounts A B signers seed ≠ .err (.amm e) := by
  unfold Initialize.tryAccounts requireSigner loadMint initMint initAssociated
  simp [Outcome.bind_eq_err, Outcome.require_eq_err, Outcome.okOr_eq_err, cpi_ne_amm]

/-- `init` finds nothing at the address of the config. -/
theorem Initialize.vacant_of_tryAccounts {self : Initialize Key} {seed : U64}
    (h : self.tryAccounts A B signers seed = .ok B') : B.configs self.config = none := by
  unfold Initialize.tryAccounts at h
  simp only [Outcome.bind_eq_ok, Outcome.require_eq_ok, exists_and_left, exists_const,
    Outcome.ok.injEq] at h
  obtain ⟨_, -, _, -, _, -, B₁, h₁, B₂, h₂, B₃, h₃, B₄, h₄, -, hvac, rfl⟩ := h
  have hconfigs : B₄.configs = B.configs :=
    (initAssociated_eq_ok h₄).configs.trans ((initAssociated_eq_ok h₃).configs.trans
      ((initAssociated_eq_ok h₂).configs.trans (initMint_eq_ok h₁).2.1))
  rw [← hconfigs]
  exact (Bank.vacant_iff.mp hvac).1

namespace Listing.Standing

variable (h : P.Standing A B cfg)
include h

/-- A trade of the pool that passes its checks has the accounts of the listing. -/
theorem swap_accounts {self : Swap Key} {l : Loaded Key} (hc : self.config = P.pool)
    (hl : self.Checked A B signers l) : self = P.swapAccounts A self.user := by
  have hx := hl.mintX_eq
  have hy := hl.mintY_eq
  have hvx := hl.vaultX_eq
  have hvy := hl.vaultY_eq
  have hux := hl.userX_eq
  have huy := hl.userY_eq
  have hcfg := hl.config
  rw [hc, h.pool.config] at hcfg
  obtain rfl := Option.some.inj hcfg
  rw [h.mintX] at hx
  rw [h.mintY] at hy
  obtain ⟨user, mintX, mintY, config, vaultX, vaultY, userX, userY⟩ := self
  simp only at hc hx hy hvx hvy hux huy
  subst hc hx hy hvx hvy hux huy
  rfl

theorem lp_eq {lp : Key} {bump : U8}
    (hlp : A.createProgramAddress (.lpMint P.pool) bump = some lp) (hbump : bump = cfg.lpBump) :
    lp = P.mint .lp := by
  rw [hbump, h.pool.lpAddress] at hlp
  exact (Option.some.inj hlp).symm

theorem add_accounts {self : AddLiquidity Key} {B₁ : Bank Key} {l : LoadedLp Key}
    (hc : self.config = P.pool) (hl : self.Checked A B signers B₁ l) :
    self = P.addAccounts A self.user := by
  have hswap := h.swap_accounts hc hl.toSwap
  have hcfg := hl.toSwap.config
  rw [show self.toSwap.config = P.pool from hc, h.pool.config] at hcfg
  have hlp := hl.lpAddress
  have hlv := hl.lpVault_eq
  have hul := (initAssociatedIfNeeded_eq_ok hl.userLp).address
  rw [hc] at hlp hlv
  have hlp := h.lp_eq hlp (by rw [Option.some.inj hcfg])
  obtain ⟨user, mintX, mintY, config, mintLp, vaultX, vaultY, lpVault, userX, userY, userLp⟩ := self
  simp only [AddLiquidity.toSwap, Listing.swapAccounts, Swap.mk.injEq] at hswap
  obtain ⟨-, rfl, rfl, rfl, rfl, rfl, rfl, rfl⟩ := hswap
  simp only at hlp hlv hul
  subst hlp hlv hul
  rfl

theorem remove_accounts {self : RemoveLiquidity Key} {l : LoadedLp Key}
    (hc : self.config = P.pool) (hl : self.Checked A B signers l) :
    self = P.removeAccounts A self.user := by
  have hswap := h.swap_accounts hc hl.toSwap
  have hcfg := hl.toSwap.config
  rw [show self.toSwap.config = P.pool from hc, h.pool.config] at hcfg
  have hlp := hl.lpAddress
  have hul := hl.userLp_eq
  rw [hc] at hlp
  have hlp := h.lp_eq hlp (by rw [Option.some.inj hcfg])
  obtain ⟨user, mintX, mintY, config, mintLp, vaultX, vaultY, userX, userY, userLp⟩ := self
  simp only [RemoveLiquidity.toSwap, Listing.swapAccounts, Swap.mk.injEq] at hswap
  obtain ⟨-, rfl, rfl, rfl, rfl, rfl, rfl, rfl⟩ := hswap
  simp only at hlp hul
  subst hlp hul
  rfl

end Listing.Standing

/-! ## One call -/

section Admin

variable (h : P.Standing A B cfg) {self : Admin Key} (hself : self.config = P.pool)
include h

/-- A new config shows as new rules. -/
theorem Listing.Standing.set_shows (cfg' : Config Key) (hfix : cfg.SameFixed cfg')
    (hfee : cfg'.feeBps.toNat < 10000) {M : Market Key}
    (hM : M = { P.market A B with
      feeBps := cfg'.feeBps.toNat
      locked := cfg'.locked
      authority := cfg'.authority }) :
    Outcome.Shows ProgramError.ammError (P.market A) (fun B' => ∃ cfg', P.Standing A B' cfg')
      (.ok (B.setConfig P.pool cfg')) (.ok M) := by
  rw [hM, ← market_setConfig]
  exact .ok ⟨cfg', h.setConfig hfix hfee⟩

include hself

theorem Listing.Standing.updateFee_shows (f : U16) :
    Outcome.Shows ProgramError.ammError (P.market A) (fun B' => ∃ cfg', P.Standing A B' cfg')
      ((Instruction.updateFee self f).process A B signers)
      ((P.market A B).step P.pool (signers, .updateFee self.authority f.toNat)) := by
  refine h.admin_shows hself ?_
  refine .bind (require_shows fee_lt_iff) fun _ hfee => ?_
  rw [hself]
  refine h.set_shows { cfg with feeBps := f } ⟨rfl, rfl, rfl, rfl, rfl⟩ (fee_lt_iff.mp hfee) ?_
  exact Market.ext rfl h.market_locked h.market_authority rfl rfl rfl

theorem Listing.Standing.setLocked_shows (locked : Bool) :
    Outcome.Shows ProgramError.ammError (P.market A) (fun B' => ∃ cfg', P.Standing A B' cfg')
      ((Instruction.setLocked self locked).process A B signers)
      ((P.market A B).step P.pool (signers, .setLocked self.authority locked)) := by
  refine h.admin_shows hself ?_
  rw [hself]
  refine h.set_shows { cfg with locked } ⟨rfl, rfl, rfl, rfl, rfl⟩ h.pool.fee_lt ?_
  exact Market.ext h.market_feeBps rfl h.market_authority rfl rfl rfl

theorem Listing.Standing.updateAuthority_shows (newAuthority : Option Key) :
    Outcome.Shows ProgramError.ammError (P.market A) (fun B' => ∃ cfg', P.Standing A B' cfg')
      ((Instruction.updateAuthority self newAuthority).process A B signers)
      ((P.market A B).step P.pool (signers, .updateAuthority self.authority newAuthority)) := by
  refine h.admin_shows hself ?_
  rw [hself]
  refine h.set_shows { cfg with authority := newAuthority } ⟨rfl, rfl, rfl, rfl, rfl⟩
    h.pool.fee_lt ?_
  exact Market.ext h.market_feeBps h.market_locked rfl rfl rfl rfl

end Admin

/-- What keeps the pool standing with its config keeps it standing. -/
theorem Listing.Shows.standing {x : Result (Bank Key)} {y : Shown (Market Key)}
    (h : P.Shows A cfg x y) :
    Outcome.Shows ProgramError.ammError (P.market A) (fun B' => ∃ cfg', P.Standing A B' cfg') x y :=
  ⟨h.eq, fun B' hB' => ⟨cfg, h.post B' hB'⟩⟩

/-- A demand that a call makes of its own accord can be shown before it. -/
theorem demand_shows {Q : Bank Key → Prop} {x : Result (Bank Key)} {y : Shown (Market Key)}
    {p : Prop} [Decidable p] (hx : x.Unseen ProgramError.ammError) (hp : ∀ B', x = .ok B' → p)
    (h : p → Outcome.Shows ProgramError.ammError (P.market A) Q x y) :
    Outcome.Shows ProgramError.ammError (P.market A) Q x (.demand p >>= fun _ => y) := by
  by_cases hp' : p
  · have hd : (.demand p : Shown PUnit) = .ok ⟨⟩ := if_pos hp'
    rw [hd]
    exact h hp'
  · have hd : (.demand p : Shown PUnit) = .panic := if_neg hp'
    rw [hd]
    refine ⟨?_, fun B' hB' => absurd (hp B' hB') hp'⟩
    rw [hx.observe fun B' hB' => hp' (hp B' hB')]
    rfl

theorem createAssociated_of_process {address owner mint : Key}
    (h : (TokenInstruction.createAssociated address owner mint).process A B signers = .ok B') :
    createAssociated A.associatedAddress B.tokens address owner mint = .ok B'.tokens ∧
      B'.configs = B.configs := by
  obtain ⟨_, -, h⟩ := Outcome.bind_eq_ok.mp h
  exact Bank.cpi_eq_ok.mp h

/-- A new associated account shows as one of the market. -/
theorem Listing.Standing.open_shows (h : P.Standing A B cfg) (signers : List Key) (u : Key)
    (a : Asset) :
    P.Shows A cfg
      ((TokenInstruction.createAssociated (P.account A u a) u (P.mint a)).process A B signers)
      (.demand ((P.market A B).opened u a = false) >>= fun _ =>
        .ok ((P.market A B).openAccount u a)) := by
  refine demand_shows (unseen_of_ne_amm fun e he => ?_) (fun B' hB' => ?_) fun ho => ?_
  · rcases Outcome.bind_eq_err.mp he with he | ⟨_, -, he⟩
    · cases (Outcome.require_eq_err.mp he).2
    · exact cpi_ne_amm he
  · obtain ⟨ht, -⟩ := createAssociated_of_process hB'
    obtain ⟨-, hv, -⟩ := createAssociated_posts ht
    show (B.tokens.accounts _).isSome = false
    rw [(Ledger.vacant_iff.mp hv).2]
    rfl
  · obtain ⟨L, hL⟩ := h.create_exists ho
    have hok : (TokenInstruction.createAssociated (P.account A u a) u (P.mint a)).process A B
        signers = .ok { B with tokens := L } := by
      have hnone : (B.configs (P.account A u a)).isNone = true := by
        rw [Listing.account, h.genuine.config]
        rfl
      exact Outcome.bind_eq_ok.mpr ⟨_, Outcome.require_pos hnone _, Bank.cpi_ok hL⟩
    have hstep : P.Standing A { B with tokens := L } cfg ∧
        (P.market A B).openAccount u a = P.market A { B with tokens := L } := h.create_ok rfl hL
    rw [hok, hstep.2]
    exact .ok hstep.1

/-- **One call is one order.** -/
theorem step_shows (h : ∃ cfg, P.Standing A B cfg) (hr : P.Reads A call order) :
    Outcome.Shows ProgramError.ammError (P.market A) (fun B' => ∃ cfg', P.Standing A B' cfg')
      (exec A B call) ((P.market A B).step P.pool order) := by
  obtain ⟨cfg, h⟩ := h
  cases hr with
  | exactInput amountIn minAmountOut =>
    exact (h.swap_shows (exactInput_shows amountIn minAmountOut) _).standing
  | exactOutput amountOut maxAmountIn =>
    exact (h.swap_shows (exactOutput_shows amountOut maxAmountIn) _).standing
  | addLiquidity a b minLp => exact (h.add_shows a b minLp).standing
  | removeLiquidity lpBurn minA minB => exact (h.remove_shows lpBurn minA minB).standing
  | updateFee config f => exact h.updateFee_shows config f
  | setLocked config locked => exact h.setLocked_shows config locked
  | updateAuthority config newAuthority => exact h.updateAuthority_shows config newAuthority
  | init config seed feeBps authority =>
    refine .panic (unseen_of_ne_amm fun _ => Initialize.tryAccounts_ne_amm) fun B₁ hB₁ => ?_
    have hnone := Initialize.vacant_of_tryAccounts hB₁
    rw [config, h.pool.config] at hnone
    cases hnone
  | otherSwap config other kind aToB =>
    refine .panic (unseen_of_ne_amm fun _ => Swap.tryAccounts_ne_amm) fun l hl => ?_
    exact other (h.swap_accounts config (Swap.tryAccounts_eq_ok.mp hl))
  | otherAdd config other a b minLp =>
    refine .panic (unseen_of_ne_amm fun _ => AddLiquidity.tryAccounts_ne_amm) fun l hl => ?_
    exact other (h.add_accounts config (AddLiquidity.tryAccounts_eq_ok.mp hl))
  | otherRemove config other lpBurn minA minB =>
    refine .panic (unseen_of_ne_amm fun _ => RemoveLiquidity.tryAccounts_ne_amm) fun l hl => ?_
    exact other (h.remove_accounts config (RemoveLiquidity.tryAccounts_eq_ok.mp hl))
  | pay amount =>
    refine Listing.Shows.standing
      (demand_shows Listing.Standing.cpi_unseen (fun B' hB' => ?_) h.pay_shows)
    exact (transferChecked_posts (Bank.cpi_eq_ok.mp hB').1).signed
  | burn amount =>
    refine Listing.Shows.standing
      (demand_shows Listing.Standing.cpi_unseen (fun B' hB' => ?_) h.burn_shows)
    exact (burn_posts (Bank.cpi_eq_ok.mp hB').1).signed
  | @openAccount signers u a => exact (h.open_shows signers u a).standing

/-! ## Listed pools -/

/-- The listing of a config: its addresses, and the decimals of its mints. -/
def Config.listing (cfg : Config Key) (A : AddressScheme Key) (B : Bank Key) (c : Key) :
    Listing Key :=
  let mint : Asset → Key
    | .x => cfg.mintX
    | .y => cfg.mintY
    | .lp => (A.findProgramAddress (.lpMint c)).1
  { pool := c
    mint
    decimals := fun a => (B.tokens.mints (mint a)).elim 0 Mint.decimals }

/-- Every pool stands as it is listed. -/
theorem Rooted.standing {c : Key} (hA : A.Apart) (hB : Rooted A B)
    (hc : B.configs c = some cfg) : (cfg.listing A B c).Standing A B cfg := by
  obtain ⟨lp, hp⟩ := hB.reachable.inPlace c cfg hc
  have hlp := (hB.reachable.canonical c cfg hc).mintLp_eq hp.lpAddress
  subst hlp
  refine ⟨hp, rfl, rfl, fun a => ?_, hB.genuine hA, hB.reachable.inv.backed⟩
  have hmint : ∃ auth d, B.tokens.IsMint ((cfg.listing A B c).mint a) auth d := by
    cases a with
    | x => exact hp.mintX
    | y => exact hp.mintY
    | lp => exact ⟨_, _, hp.mintLp⟩
  obtain ⟨auth, d, s, hM⟩ := hmint
  refine ⟨auth, s, hM.trans ?_⟩
  have hd : (cfg.listing A B c).decimals a =
      (B.tokens.mints ((cfg.listing A B c).mint a)).elim 0 Mint.decimals := rfl
  rw [hd, hM]
  rfl

/-- **Every pool is its market.** Each instruction that names the pool is an order; and over every
run of such instructions, payments, burns and new accounts, the market follows its orders and each
call ends as its order does. -/
theorem market_follows (A : AddressScheme Key) (hA : A.Apart) (hB : Rooted A B) {c : Key}
    (hc : B.configs c = some cfg) :
    (∀ signers (ix : Instruction Key), ix.config = c →
      ∃ order, (cfg.listing A B c).Reads A ⟨signers, .amm ix⟩ (signers, order)) ∧
    ∀ calls orders, List.Forall₂ ((cfg.listing A B c).Reads A) calls orders →
      run (Market.step c) ((cfg.listing A B c).market A B) orders =
          (cfg.listing A B c).market A (run (exec A) B calls) ∧
        trace some (Market.step c) ((cfg.listing A B c).market A B) orders =
          (trace ProgramError.ammError (exec A) B calls).map
            (Outcome.map ((cfg.listing A B c).market A)) := by
  have hstand : ∃ cfg', (cfg.listing A B c).Standing A B cfg' := ⟨cfg, hB.standing hA hc⟩
  have hstep : ∀ B₁ call order, (∃ cfg', (cfg.listing A B c).Standing A B₁ cfg') →
      (cfg.listing A B c).Reads A call order →
      Outcome.Shows ProgramError.ammError ((cfg.listing A B c).market A)
        (fun B₂ => ∃ cfg', (cfg.listing A B c).Standing A B₂ cfg') (exec A B₁ call)
        (((cfg.listing A B c).market A B₁).step c order) := fun _ _ _ hB hr => step_shows hB hr
  refine ⟨fun signers ix hix => (cfg.listing A B c).reads_of_config A signers hix, ?_⟩
  intro calls orders hreads
  exact ⟨run_shows hstep hstand hreads, trace_shows hstep hstand hreads⟩

namespace Demo

def listing : Listing Addr := poolState.config.listing Addr.scheme bank pool

/-- A swap, a gift to the pool, a swap with someone else's account, and the end of the pool. -/
def tour : List (Call Addr) :=
  [ byAlice (.amm (.swap (swapBy alice) (.exactInput 100 0) true)),
    byAlice (.token (.transferChecked (.associated alice mintX) mintX (.associated pool mintX) alice
      50 6)),
    byAlice (.amm (.swap { swapBy alice with userX := .associated bob mintX } (.exactOutput 10 99)
      true)),
    byAlice (.amm (.setLocked ⟨alice, pool⟩ true)) ]

def tourOrders : List (List Addr × Order Addr) :=
  [ ([alice, mintX, mintY], .exactInput alice true 100 0),
    ([alice, mintX, mintY], .pay alice pool .x 50),
    ([alice, mintX, mintY], .refused),
    ([alice, mintX, mintY], .setLocked alice true) ]

theorem listing_decimals : listing.decimals .x = 6 := by decide +kernel

theorem tour_reads : List.Forall₂ (listing.Reads Addr.scheme) tour tourOrders := by
  refine .cons (.exactInput 100 0) (.cons ?_ (.cons ?_ (.cons (.setLocked rfl true) .nil)))
  · have hpay := @Listing.Reads.pay _ listing Addr.scheme [alice, mintX, mintY] alice pool .x 50
    rw [listing_decimals] at hpay
    exact hpay
  · exact .otherSwap rfl (by decide) _ _

end Demo

theorem market_follows_demo :
    run (Market.step Demo.pool) (Demo.listing.market Addr.scheme Demo.bank) Demo.tourOrders =
        Demo.listing.market Addr.scheme (run (exec Addr.scheme) Demo.bank Demo.tour) ∧
      trace some (Market.step Demo.pool) (Demo.listing.market Addr.scheme Demo.bank)
          Demo.tourOrders =
        (trace ProgramError.ammError (exec Addr.scheme) Demo.bank Demo.tour).map
          (Outcome.map (Demo.listing.market Addr.scheme)) :=
  (market_follows Addr.scheme Demo.apart Demo.bank_rooted (config_of_pool Demo.bank_pool)).2
    Demo.tour Demo.tourOrders Demo.tour_reads

end Amm
