import Mathlib.Tactic
import ToyAmm.Instructions
import ToyAmm.TokenPosting

/-!
# What validated accounts are

For each accounts struct, the facts that hold of it exactly when its checks pass. The addresses of a
trade are all determined by its config and its user: the caller chooses accounts, but only
these pass.
-/

open Checked AmmMath Token

namespace Amm

variable {Key : Type}

/-! ## Derived addresses -/

namespace AddressScheme

variable {A : AddressScheme Key} {o o' m m' : Key}

theorem associated_ne_of_owner (h : o ≠ o') :
    A.associatedAddress o m ≠ A.associatedAddress o' m' :=
  fun he => h (A.associated_injective he).1

end AddressScheme

/-- The two mints of a pool by the direction of a swap. -/
def Config.mintIn (cfg : Config Key) (aToB : Bool) : Key := if aToB then cfg.mintX else cfg.mintY

def Config.mintOut (cfg : Config Key) (aToB : Bool) : Key := if aToB then cfg.mintY else cfg.mintX

@[simp] theorem Config.mintIn_true (cfg : Config Key) : cfg.mintIn true = cfg.mintX := rfl
@[simp] theorem Config.mintIn_false (cfg : Config Key) : cfg.mintIn false = cfg.mintY := rfl
@[simp] theorem Config.mintOut_true (cfg : Config Key) : cfg.mintOut true = cfg.mintY := rfl
@[simp] theorem Config.mintOut_false (cfg : Config Key) : cfg.mintOut false = cfg.mintX := rfl

variable [DecidableEq Key] {A : AddressScheme Key} {B : Bank Key} {signers : List Key}

/-- The accounts of a trade that passed its checks. -/
structure Swap.Checked (accs : Swap Key) (A : AddressScheme Key) (B : Bank Key)
    (signers : List Key) (l : Loaded Key) : Prop where
  signed : accs.user ∈ signers
  mintX : B.tokens.mints accs.mintX = some l.mintX
  mintY : B.tokens.mints accs.mintY = some l.mintY
  config : B.configs accs.config = some l.config
  vaultX : B.tokens.accounts accs.vaultX = some l.vaultX
  vaultY : B.tokens.accounts accs.vaultY = some l.vaultY
  userX : ∃ t, B.tokens.accounts accs.userX = some t ∧ t.owner = accs.user
  userY : ∃ t, B.tokens.accounts accs.userY = some t ∧ t.owner = accs.user
  mintX_eq : l.config.mintX = accs.mintX
  mintY_eq : l.config.mintY = accs.mintY
  address : A.createProgramAddress (.config l.config.seed) l.config.configBump = some accs.config
  vaultX_owner : l.vaultX.owner = accs.config
  vaultY_owner : l.vaultY.owner = accs.config
  vaultX_eq : accs.vaultX = A.associatedAddress accs.config accs.mintX
  vaultY_eq : accs.vaultY = A.associatedAddress accs.config accs.mintY
  userX_eq : accs.userX = A.associatedAddress accs.user accs.mintX
  userY_eq : accs.userY = A.associatedAddress accs.user accs.mintY

theorem Swap.tryAccounts_eq_ok {self : Swap Key} {l : Loaded Key} :
    self.tryAccounts A B signers = .ok l ↔ self.Checked A B signers l := by
  unfold Swap.tryAccounts requireSigner loadMint loadConfig loadAccount hasOne checkSeeds
    checkAssociated
  simp only [Outcome.bind_eq_ok, Outcome.okOr_eq_ok, Outcome.require_eq_ok, exists_and_left,
    exists_const, Outcome.ok.injEq]
  constructor
  · rintro ⟨h1, mx, hmx, my, hmy, cfg, hcfg, vx, hvx, vy, hvy, ux, hux, uy, huy, h2, h3, h4,
      ⟨h5, h6⟩, ⟨h7, h8⟩, ⟨h9, h10⟩, ⟨h11, h12⟩, rfl⟩
    exact ⟨h1, hmx, hmy, hcfg, hvx, hvy, ⟨ux, hux, h9⟩, ⟨uy, huy, h11⟩, h2, h3, h4, h5, h7, h6, h8,
      h10, h12⟩
  · rintro ⟨h1, hmx, hmy, hcfg, hvx, hvy, ⟨ux, hux, h9⟩, ⟨uy, huy, h11⟩, h2, h3, h4, h5, h7, h6,
      h8, h10, h12⟩
    exact ⟨h1, _, hmx, _, hmy, _, hcfg, _, hvx, _, hvy, ux, hux, uy, huy, h2, h3, h4, ⟨h5, h6⟩,
      ⟨h7, h8⟩, ⟨h9, h10⟩, ⟨h11, h12⟩, rfl⟩

/-! ## Liquidity -/

def AddLiquidity.toSwap (self : AddLiquidity Key) : Swap Key where
  user := self.user
  mintX := self.mintX
  mintY := self.mintY
  config := self.config
  vaultX := self.vaultX
  vaultY := self.vaultY
  userX := self.userX
  userY := self.userY

def RemoveLiquidity.toSwap (self : RemoveLiquidity Key) : Swap Key where
  user := self.user
  mintX := self.mintX
  mintY := self.mintY
  config := self.config
  vaultX := self.vaultX
  vaultY := self.vaultY
  userX := self.userX
  userY := self.userY

/-- The accounts of a deposit that passed its checks; `B'` is the bank with the user's LP
account. -/
structure AddLiquidity.Checked (accs : AddLiquidity Key) (A : AddressScheme Key) (B : Bank Key)
    (signers : List Key) (B' : Bank Key) (l : LoadedLp Key) : Prop where
  toSwap : accs.toSwap.Checked A B signers l.toLoaded
  mintLp : B.tokens.mints accs.mintLp = some l.mintLp
  lpVault : ∃ t, B.tokens.accounts accs.lpVault = some t ∧ t.owner = accs.config
  userLp : initAssociatedIfNeeded A B accs.userLp accs.mintLp accs.user = .ok B'
  lpAddress : A.createProgramAddress (.lpMint accs.config) l.config.lpBump = some accs.mintLp
  lpVault_eq : accs.lpVault = A.associatedAddress accs.config accs.mintLp

theorem AddLiquidity.tryAccounts_eq_ok {self : AddLiquidity Key} {B' : Bank Key}
    {l : LoadedLp Key} :
    self.tryAccounts A B signers = .ok (B', l) ↔ self.Checked A B signers B' l := by
  unfold AddLiquidity.tryAccounts requireSigner loadMint loadConfig loadAccount hasOne checkSeeds
    checkAssociated
  simp only [Outcome.bind_eq_ok, Outcome.okOr_eq_ok, Outcome.require_eq_ok, exists_and_left,
    exists_const, Outcome.ok.injEq, Prod.mk.injEq]
  constructor
  · rintro ⟨h1, mx, hmx, my, hmy, cfg, hcfg, lp, hlp, vx, hvx, vy, hvy, lv, hlv, ux, hux, uy, huy,
      B₁, hinit, h2, h3, h4, hlpa, ⟨h5, h6⟩, ⟨h7, h8⟩, ⟨hlo, hle⟩, ⟨h9, h10⟩, ⟨h11, h12⟩, rfl, rfl⟩
    exact ⟨⟨h1, hmx, hmy, hcfg, hvx, hvy, ⟨ux, hux, h9⟩, ⟨uy, huy, h11⟩, h2, h3, h4, h5, h7, h6,
      h8, h10, h12⟩, hlp, ⟨lv, hlv, hlo⟩, hinit, hlpa, hle⟩
  · rintro ⟨⟨h1, hmx, hmy, hcfg, hvx, hvy, ⟨ux, hux, h9⟩, ⟨uy, huy, h11⟩, h2, h3, h4, h5, h7, h6,
      h8, h10, h12⟩, hlp, ⟨lv, hlv, hlo⟩, hinit, hlpa, hle⟩
    exact ⟨h1, _, hmx, _, hmy, _, hcfg, _, hlp, _, hvx, _, hvy, lv, hlv, ux, hux, uy, huy, _, hinit,
      h2, h3, h4, hlpa, ⟨h5, h6⟩, ⟨h7, h8⟩, ⟨hlo, hle⟩, ⟨h9, h10⟩, ⟨h11, h12⟩, rfl, rfl⟩

/-- The accounts of a withdrawal that passed its checks. -/
structure RemoveLiquidity.Checked (accs : RemoveLiquidity Key) (A : AddressScheme Key)
    (B : Bank Key) (signers : List Key) (l : LoadedLp Key) : Prop where
  toSwap : accs.toSwap.Checked A B signers l.toLoaded
  mintLp : B.tokens.mints accs.mintLp = some l.mintLp
  userLp : ∃ t, B.tokens.accounts accs.userLp = some t ∧ t.owner = accs.user
  lpAddress : A.createProgramAddress (.lpMint accs.config) l.config.lpBump = some accs.mintLp
  userLp_eq : accs.userLp = A.associatedAddress accs.user accs.mintLp

theorem RemoveLiquidity.tryAccounts_eq_ok {self : RemoveLiquidity Key} {l : LoadedLp Key} :
    self.tryAccounts A B signers = .ok l ↔ self.Checked A B signers l := by
  unfold RemoveLiquidity.tryAccounts requireSigner loadMint loadConfig loadAccount hasOne checkSeeds
    checkAssociated
  simp only [Outcome.bind_eq_ok, Outcome.okOr_eq_ok, Outcome.require_eq_ok, exists_and_left,
    exists_const, Outcome.ok.injEq]
  constructor
  · rintro ⟨h1, mx, hmx, my, hmy, cfg, hcfg, lp, hlp, vx, hvx, vy, hvy, ux, hux, uy, huy, ul, hul,
      h2, h3, h4, hlpa, ⟨h5, h6⟩, ⟨h7, h8⟩, ⟨h9, h10⟩, ⟨h11, h12⟩, ⟨hulo, hule⟩, rfl⟩
    exact ⟨⟨h1, hmx, hmy, hcfg, hvx, hvy, ⟨ux, hux, h9⟩, ⟨uy, huy, h11⟩, h2, h3, h4, h5, h7, h6,
      h8, h10, h12⟩, hlp, ⟨ul, hul, hulo⟩, hlpa, hule⟩
  · rintro ⟨⟨h1, hmx, hmy, hcfg, hvx, hvy, ⟨ux, hux, h9⟩, ⟨uy, huy, h11⟩, h2, h3, h4, h5, h7, h6,
      h8, h10, h12⟩, hlp, ⟨ul, hul, hulo⟩, hlpa, hule⟩
    exact ⟨h1, _, hmx, _, hmy, _, hcfg, _, hlp, _, hvx, _, hvy, ux, hux, uy, huy, ul, hul,
      h2, h3, h4, hlpa, ⟨h5, h6⟩, ⟨h7, h8⟩, ⟨h9, h10⟩, ⟨h11, h12⟩, ⟨hulo, hule⟩, rfl⟩

/-! ## Administration -/

theorem Admin.tryAccounts_eq_ok {self : Admin Key} {cfg : Config Key} :
    self.tryAccounts A B signers = .ok cfg ↔
      self.authority ∈ signers ∧ B.configs self.config = some cfg ∧
        A.createProgramAddress (.config cfg.seed) cfg.configBump = some self.config := by
  unfold Admin.tryAccounts requireSigner loadConfig checkSeeds
  simp only [Outcome.bind_eq_ok, Outcome.okOr_eq_ok, Outcome.require_eq_ok, exists_and_left,
    exists_const, Outcome.ok.injEq]
  constructor
  · rintro ⟨h1, cfg', h2, h3, rfl⟩
    exact ⟨h1, h2, h3⟩
  · rintro ⟨h1, h2, h3⟩
    exact ⟨h1, cfg, h2, h3, rfl⟩

/-! ## Created accounts -/

/-- The owner has the account, and nothing else is different. -/
structure Ensured (A : AddressScheme Key) (B B' : Bank Key) (k mint owner : Key) : Prop where
  address : k = A.associatedAddress owner mint
  holds : B'.tokens.Holds k mint owner
  configs : B'.configs = B.configs
  mints : B'.tokens.mints = B.tokens.mints
  posts : Ledger.Posts B.tokens B'.tokens mint k 0 k 0

/-- `init` in addition found the address vacant. -/
structure Created (A : AddressScheme Key) (B B' : Bank Key) (k mint owner : Key) : Prop
    extends Ensured A B B' k mint owner where
  vacant : B.vacant k = true

theorem initAssociated_eq_ok {B' : Bank Key} {k mint authority : Key}
    (h : initAssociated A B k mint authority = .ok B') : Created A B B' k mint authority := by
  unfold initAssociated at h
  simp only [Outcome.bind_eq_ok, Outcome.require_eq_ok, Bank.cpi_eq_ok, exists_and_left,
    exists_const] at h
  obtain ⟨hc, hcreate, hconfigs⟩ := h
  obtain ⟨ha, hv, hh, hm, hp⟩ := Ledger.createAssociated_posts hcreate
  refine ⟨⟨ha, hh, hconfigs, hm, hp⟩, ?_⟩
  rw [Bank.vacant, hc, hv]
  rfl

theorem initAssociatedIfNeeded_eq_ok {B' : Bank Key} {k mint authority : Key}
    (h : initAssociatedIfNeeded A B k mint authority = .ok B') :
    Ensured A B B' k mint authority := by
  unfold initAssociatedIfNeeded at h
  by_cases hv : B.vacant k = true
  · rw [if_pos hv] at h
    exact (initAssociated_eq_ok h).toEnsured
  · rw [if_neg hv] at h
    unfold loadAccount at h
    simp only [Outcome.bind_eq_ok, Outcome.okOr_eq_ok, Outcome.require_eq_ok, exists_and_left,
      exists_const, Outcome.ok.injEq] at h
    obtain ⟨⟨m, o, a⟩, ht, hm, ho, hk, rfl⟩ := h
    simp only at hm ho
    subst hm ho
    exact ⟨hk, ⟨a, ht⟩, rfl, rfl, .of_eq (.refl _) rfl rfl _ _⟩

end Amm
