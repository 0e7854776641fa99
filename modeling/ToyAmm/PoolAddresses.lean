import ToyAmm.Isolation

/-!
# The addresses of a pool

`Pool.derive` computes every address of a pool from its seed and its two mints, and the bundles fill
the accounts of each instruction from it and from a user. In a reachable bank these are the only
accounts with which an instruction succeeds (`accounts_determined`): the caller chooses a user, a
pool and the arguments, and nothing else.
-/

open Checked AmmMath Token Ledger Transition

namespace Amm

variable {Key : Type}

/-! ## Fixtures -/

/-- All addresses that a pool's users share. -/
structure Pool (Key : Type) where
  seed : U64
  mintX : Key
  mintY : Key
  mintLp : Key
  config : Key
  vaultX : Key
  vaultY : Key
  lpVault : Key
  deriving DecidableEq, Repr

/-- Every program address and associated address of a pool. -/
def Pool.derive (A : AddressScheme Key) (seed : U64) (mintX mintY : Key) : Pool Key :=
  let config := (A.findProgramAddress (.config seed)).1
  let mintLp := (A.findProgramAddress (.lpMint config)).1
  { seed
    mintX
    mintY
    mintLp
    config
    vaultX := A.associatedAddress config mintX
    vaultY := A.associatedAddress config mintY
    lpVault := A.associatedAddress config mintLp }

/-- A signer with accounts for the two mints. -/
structure UserAccounts (Key : Type) where
  signer : Key
  ataX : Key
  ataY : Key
  deriving DecidableEq, Repr

def UserAccounts.pubkey (self : UserAccounts Key) : Key := self.signer

def UserAccounts.ataLp (self : UserAccounts Key) (A : AddressScheme Key) (mintLp : Key) : Key :=
  A.associatedAddress self.signer mintLp

/-- The actor `owner` of a scenario with these mints. -/
def UserAccounts.actor (A : AddressScheme Key) (mintX mintY owner : Key) : UserAccounts Key where
  signer := owner
  ataX := A.associatedAddress owner mintX
  ataY := A.associatedAddress owner mintY

/-! ## Bundles -/

def swapBundle (p : Pool Key) (u : UserAccounts Key) : Swap Key where
  user := u.pubkey
  mintX := p.mintX
  mintY := p.mintY
  config := p.config
  vaultX := p.vaultX
  vaultY := p.vaultY
  userX := u.ataX
  userY := u.ataY

def addLiquidityBundle (A : AddressScheme Key) (p : Pool Key) (u : UserAccounts Key) :
    AddLiquidity Key where
  user := u.pubkey
  mintX := p.mintX
  mintY := p.mintY
  config := p.config
  mintLp := p.mintLp
  vaultX := p.vaultX
  vaultY := p.vaultY
  lpVault := p.lpVault
  userX := u.ataX
  userY := u.ataY
  userLp := u.ataLp A p.mintLp

def removeLiquidityBundle (A : AddressScheme Key) (p : Pool Key) (u : UserAccounts Key) :
    RemoveLiquidity Key where
  user := u.pubkey
  mintX := p.mintX
  mintY := p.mintY
  config := p.config
  mintLp := p.mintLp
  vaultX := p.vaultX
  vaultY := p.vaultY
  userX := u.ataX
  userY := u.ataY
  userLp := u.ataLp A p.mintLp

/-- `InitializeBundle`, as the scenarios fill it. -/
def initializeBundle (p : Pool Key) (initializer : Key) : Initialize Key where
  initializer
  mintX := p.mintX
  mintY := p.mintY
  mintLp := p.mintLp
  vaultX := p.vaultX
  vaultY := p.vaultY
  lpVault := p.lpVault
  config := p.config

/-- The bundle of each of the three admin instructions. -/
def adminBundle (p : Pool Key) (authority : Key) : Admin Key where
  authority
  config := p.config

/-- The instruction with the accounts of its bundle for the pool `p` and the user it names. -/
def Instruction.bundled (A : AddressScheme Key) (p : Pool Key) : Instruction Key → Instruction Key
  | .init self seed feeBps authority =>
    .init (initializeBundle p self.initializer) seed feeBps authority
  | .addLiquidity self amountA amountB minLpTokens =>
    .addLiquidity (addLiquidityBundle A p (.actor A p.mintX p.mintY self.user)) amountA amountB
      minLpTokens
  | .removeLiquidity self lpBurn minA minB =>
    .removeLiquidity (removeLiquidityBundle A p (.actor A p.mintX p.mintY self.user)) lpBurn minA
      minB
  | .swap self kind aToB => .swap (swapBundle p (.actor A p.mintX p.mintY self.user)) kind aToB
  | .updateFee self newFeeBps => .updateFee (adminBundle p self.authority) newFeeBps
  | .setLocked self locked => .setLocked (adminBundle p self.authority) locked
  | .updateAuthority self newAuthority =>
    .updateAuthority (adminBundle p self.authority) newAuthority

variable [DecidableEq Key] {A : AddressScheme Key} {B B' : Bank Key} {signers : List Key}
  {c : Key} {cfg cfg' : Config Key} {call : Call Key} {calls : List (Call Key)}

/-! ## Configs with canonical addresses -/

/-- The pool of a config, with the addresses that are derived from its fields. -/
def Config.derive (cfg : Config Key) (A : AddressScheme Key) : Pool Key :=
  .derive A cfg.seed cfg.mintX cfg.mintY

omit [DecidableEq Key] in
theorem Config.SameFixed.derive_eq (h : cfg.SameFixed cfg') : cfg'.derive A = cfg.derive A := by
  unfold Config.derive
  rw [h.seed, h.mintX, h.mintY]

/-- A config is at the canonical address for its seed, and stores the canonical bumps. -/
structure Config.Canonical (cfg : Config Key) (A : AddressScheme Key) (c : Key) : Prop where
  address : c = (A.findProgramAddress (.config cfg.seed)).1
  configBump : cfg.configBump = (A.findProgramAddress (.config cfg.seed)).2
  lpBump : cfg.lpBump = (A.findProgramAddress (.lpMint c)).2

omit [DecidableEq Key] in
theorem Config.Canonical.of_sameFixed (h : cfg.Canonical A c) (hfix : cfg.SameFixed cfg') :
    cfg'.Canonical A c :=
  ⟨by rw [hfix.seed, h.address], by rw [hfix.configBump, hfix.seed, h.configBump],
    by rw [hfix.lpBump, h.lpBump]⟩

omit [DecidableEq Key] in
/-- The LP mint for the stored bump is the canonical one. -/
theorem Config.Canonical.mintLp_eq (h : cfg.Canonical A c) {lp : Key}
    (hlp : A.createProgramAddress (.lpMint c) cfg.lpBump = some lp) :
    lp = (A.findProgramAddress (.lpMint c)).1 := by
  rw [h.lpBump, A.create_find] at hlp
  exact (Option.some.inj hlp).symm

/-- All configs are canonical. -/
def Bank.Canonical (A : AddressScheme Key) (B : Bank Key) : Prop :=
  ∀ c cfg, B.configs c = some cfg → cfg.Canonical A c

/-- The accounts of a pool that `init` created, each at its address. -/
theorem init_accounts {self : Initialize Key} {seed : U64} {feeBps : U16} {authority : Option Key}
    (h : (Instruction.init self seed feeBps authority).process A B signers = .ok B') :
    self = initializeBundle (.derive A seed self.mintX self.mintY) self.initializer := by
  unfold Instruction.process Initialize.tryAccounts Initialize.init at h
  simp only [Outcome.bind_eq_ok, Outcome.require_eq_ok, exists_and_left, exists_const,
    Outcome.ok.injEq] at h
  obtain ⟨_, ⟨_, -, _, -, _, -, B₁, h₁, B₂, h₂, B₃, h₃, B₄, h₄, hseed, -, rfl⟩, -, rfl⟩ := h
  obtain ⟨hlp, -⟩ := initMint_eq_ok h₁
  have hx := (initAssociated_eq_ok h₂).address
  have hy := (initAssociated_eq_ok h₃).address
  have hl := (initAssociated_eq_ok h₄).address
  obtain ⟨initializer, mintX, mintY, mintLp, vaultX, vaultY, lpVault, config⟩ := self
  simp only at hlp hx hy hl hseed
  subst hseed hlp hx hy hl
  rfl

theorem Bank.Canonical.of_exec (hB : B.Canonical A) (h : exec A B call = .ok B') :
    B'.Canonical A := by
  intro c cfg' hc'
  cases hc : B.configs c with
  | some cfg =>
    obtain ⟨cfg₁, hc₁, hstep⟩ := exec_config h hc
    obtain rfl := Option.some.inj (hc₁.symm.trans hc')
    exact (hB c cfg hc).of_sameFixed hstep.sameFixed
  | none =>
    obtain ⟨accs, seed, feeBps, authority, hop, rfl, rfl⟩ := exec_config_new h hc' hc
    rw [exec_amm hop] at h
    have haccs := init_accounts h
    refine ⟨?_, rfl, rfl⟩
    show accs.config = (A.findProgramAddress (.config seed)).1
    rw [haccs]
    rfl

theorem Genesis.canonical (h : Genesis B) : B.Canonical A := by
  intro c cfg hc
  rw [h.1 c] at hc
  cases hc

theorem Reachable.canonical (h : Reachable A B) : B.Canonical A := by
  obtain ⟨B₀, calls, hg, hadm, rfl⟩ := h
  exact run_induction (P := fun B₁ : Bank Key => B₁.Canonical A)
    (fun _ _ _ hB _ hok => hB.of_exec hok) hg.canonical hadm

/-! ## The only accounts that pass -/

omit [DecidableEq Key] in
theorem Swap.Checked.eq_bundle {self : Swap Key} {l : Loaded Key}
    (h : self.Checked A B signers l) (hc : l.config.Canonical A self.config) :
    self = swapBundle (l.config.derive A)
      (.actor A l.config.mintX l.config.mintY self.user) := by
  have haddr := hc.address
  have hx := h.mintX_eq
  have hy := h.mintY_eq
  have hvx := h.vaultX_eq
  have hvy := h.vaultY_eq
  have hux := h.userX_eq
  have huy := h.userY_eq
  obtain ⟨user, mintX, mintY, config, vaultX, vaultY, userX, userY⟩ := self
  simp only at haddr hx hy hvx hvy hux huy
  subst hx hy hvx hvy hux huy
  simp only [swapBundle, Config.derive, Pool.derive, UserAccounts.actor, UserAccounts.pubkey,
    ← haddr]

theorem AddLiquidity.Checked.eq_bundle {self : AddLiquidity Key} {B₁ : Bank Key}
    {l : LoadedLp Key} (h : self.Checked A B signers B₁ l)
    (hc : l.config.Canonical A self.config) :
    self = addLiquidityBundle A (l.config.derive A)
      (.actor A l.config.mintX l.config.mintY self.user) := by
  have haddr := hc.address
  have hlp := hc.mintLp_eq h.lpAddress
  have hswap := h.toSwap.eq_bundle hc
  have hlv := h.lpVault_eq
  have hul := (initAssociatedIfNeeded_eq_ok h.userLp).address
  obtain ⟨user, mintX, mintY, config, mintLp, vaultX, vaultY, lpVault, userX, userY, userLp⟩ := self
  simp only at haddr hlp hlv hul
  subst hlv hul hlp
  simp only [AddLiquidity.toSwap, swapBundle, UserAccounts.pubkey, Swap.mk.injEq] at hswap
  obtain ⟨-, hx, hy, -, hvx, hvy, hux, huy⟩ := hswap
  simp only [addLiquidityBundle, UserAccounts.pubkey, UserAccounts.ataLp, ← hx, ← hy, ← hvx, ← hvy,
    ← hux, ← huy]
  simp only [Config.derive, Pool.derive, UserAccounts.actor, ← haddr]

omit [DecidableEq Key] in
theorem RemoveLiquidity.Checked.eq_bundle {self : RemoveLiquidity Key} {l : LoadedLp Key}
    (h : self.Checked A B signers l) (hc : l.config.Canonical A self.config) :
    self = removeLiquidityBundle A (l.config.derive A)
      (.actor A l.config.mintX l.config.mintY self.user) := by
  have haddr := hc.address
  have hlp := hc.mintLp_eq h.lpAddress
  have hswap := h.toSwap.eq_bundle hc
  have hul := h.userLp_eq
  obtain ⟨user, mintX, mintY, config, mintLp, vaultX, vaultY, userX, userY, userLp⟩ := self
  simp only at haddr hlp hul
  subst hul hlp
  simp only [RemoveLiquidity.toSwap, swapBundle, UserAccounts.pubkey, Swap.mk.injEq] at hswap
  obtain ⟨-, hx, hy, -, hvx, hvy, hux, huy⟩ := hswap
  simp only [removeLiquidityBundle, UserAccounts.pubkey, UserAccounts.ataLp, ← hx, ← hy, ← hvx,
    ← hvy, ← hux, ← huy]
  simp only [Config.derive, Pool.derive, UserAccounts.actor, ← haddr]

omit [DecidableEq Key] in
theorem Config.Canonical.admin_eq {self : Admin Key} (h : cfg.Canonical A self.config) :
    self = adminBundle (cfg.derive A) self.authority := by
  unfold adminBundle Config.derive Pool.derive
  simp only [← h.address]

/-- The accounts of an instruction on a config that is there. -/
theorem Bank.Canonical.eq_bundled {ix : Instruction Key} (hB : B.Canonical A)
    (h : ix.process A B signers = .ok B') (hc : B.configs ix.config = some cfg) :
    ix = ix.bundled A (cfg.derive A) := by
  have hcan := hB _ _ hc
  cases ix with
  | init self seed feeBps authority =>
    have hvac := (init_spec h).vacant
    rw [show B.configs self.config = some cfg from hc] at hvac
    cases hvac
  | addLiquidity self a b minLp =>
    obtain ⟨⟨B₁, l⟩, hl, -⟩ := Outcome.bind_eq_ok.mp h
    have hch := AddLiquidity.tryAccounts_eq_ok.mp hl
    obtain rfl := Option.some.inj (hch.toSwap.config.symm.trans hc)
    exact congrArg (Instruction.addLiquidity · a b minLp) (hch.eq_bundle hcan)
  | removeLiquidity self lpBurn minA minB =>
    obtain ⟨l, hl, -⟩ := Outcome.bind_eq_ok.mp h
    have hch := RemoveLiquidity.tryAccounts_eq_ok.mp hl
    obtain rfl := Option.some.inj (hch.toSwap.config.symm.trans hc)
    exact congrArg (Instruction.removeLiquidity · lpBurn minA minB) (hch.eq_bundle hcan)
  | swap self kind aToB =>
    obtain ⟨l, hl, -⟩ := Outcome.bind_eq_ok.mp h
    have hch := Swap.tryAccounts_eq_ok.mp hl
    obtain rfl := Option.some.inj (hch.config.symm.trans hc)
    exact congrArg (Instruction.swap · kind aToB) (hch.eq_bundle hcan)
  | updateFee self newFeeBps => exact congrArg (Instruction.updateFee · newFeeBps) hcan.admin_eq
  | setLocked self locked => exact congrArg (Instruction.setLocked · locked) hcan.admin_eq
  | updateAuthority self newAuthority =>
    exact congrArg (Instruction.updateAuthority · newAuthority) hcan.admin_eq

/-- **Only the bundles pass.** The accounts of a successful instruction are those of the pool that
it leaves at its config, derived from that config's seed and mints, and of the user that it names. -/
theorem accounts_determined (A : AddressScheme Key) (hB : Reachable A B) {ix : Instruction Key}
    (h : exec A B ⟨signers, .amm ix⟩ = .ok B') :
    ∃ cfg, B'.configs ix.config = some cfg ∧ ix = ix.bundled A (cfg.derive A) := by
  have hthere : ix.IsTrade ∨ ix.IsAdmin →
      ∃ cfg, B'.configs ix.config = some cfg ∧ ix = ix.bundled A (cfg.derive A) := by
    intro hix
    have hload : ∃ cfg, B.configs ix.config = some cfg := by
      rcases hix with ht | ha
      · obtain ⟨cfg, hc, -⟩ := trade_config ht h
        exact ⟨cfg, hc⟩
      · exact (admin_tokens ha h).2
    obtain ⟨cfg, hc⟩ := hload
    obtain ⟨cfg', hc', hstep⟩ := exec_config h hc
    refine ⟨cfg', hc', ?_⟩
    rw [hstep.sameFixed.derive_eq]
    exact hB.canonical.eq_bundled h hc
  cases ix with
  | init self seed feeBps authority =>
    have hs := init_spec h
    refine ⟨self.newConfig A seed feeBps authority, ?_, ?_⟩
    · show B'.configs self.config = _
      rw [hs.configs, Bank.configs_setConfig_self]
    · exact congrArg (Instruction.init · seed feeBps authority) (init_accounts h)
  | addLiquidity => exact hthere (.inl trivial)
  | removeLiquidity => exact hthere (.inl trivial)
  | swap => exact hthere (.inl trivial)
  | updateFee => exact hthere (.inr trivial)
  | setLocked => exact hthere (.inr trivial)
  | updateAuthority => exact hthere (.inr trivial)

theorem accounts_determined_swap :
    ∃ cfg, (next (exec Addr.scheme) Demo.bank Demo.aSwap).configs Demo.pool = some cfg ∧
      (Instruction.swap (Demo.swapBy Demo.alice) (.exactInput 100 0) true) =
        Instruction.bundled Addr.scheme (cfg.derive Addr.scheme)
          (.swap (Demo.swapBy Demo.alice) (.exactInput 100 0) true) :=
  accounts_determined Addr.scheme Demo.bank_reachable (eq_ok_next (by decide +kernel))

end Amm
