import ToyAmm.QuoteFacts
import ToyAmm.Validation

/-!
# What a successful instruction does

One record for each trade (`SwapSpec`, `AddSpec`, `RemoveSpec`): the quote it used, the balances and
supplies it left, given as one equation for all accounts at once, and that it moved nothing on
anyone's authority but its user's and its config's (`Ledger.Confined`). Later modules read these
records; the handlers are not unfolded again.
-/

open Checked AmmMath Token Ledger

namespace Amm

variable {Key : Type} [DecidableEq Key] {A : AddressScheme Key} {B B' : Bank Key}
  {signers : List Key}

theorem quoted_eq_ok {α : Type} {q : AmmMath.Result α} {a : α} : quoted q = .ok a ↔ q = .ok a :=
  Outcome.mapErr_eq_ok

omit [DecidableEq Key] in
theorem configSigner_eq {cfg : Config Key} {c : Key}
    (h : A.createProgramAddress (.config cfg.seed) cfg.configBump = some c) :
    configSigner A cfg = [c] := by
  rw [configSigner, h]
  rfl

/-! ## Swap -/

structure SwapSpec (A : AddressScheme Key) (B B' : Bank Key) (signers : List Key) (c u : Key)
    (kind : SwapKind) (aToB : Bool) (cfg : Config Key) (rIn rOut : U64) (q : SwapAmounts) :
    Prop where
  signed : u ∈ signers
  config : B.configs c = some cfg
  unlocked : cfg.locked = false
  reserveIn : rIn.toNat =
    B.tokens.balance (cfg.mintIn aToB) (A.associatedAddress c (cfg.mintIn aToB))
  reserveOut : rOut.toNat =
    B.tokens.balance (cfg.mintOut aToB) (A.associatedAddress c (cfg.mintOut aToB))
  quote : kind.quote rIn rOut cfg.feeBps = .ok q
  configs : B'.configs = B.configs
  confined : Confined (c :: signers) B.tokens B'.tokens
  supply : ∀ m, B'.tokens.supply m = B.tokens.supply m
  balance : ∀ m k, B'.tokens.balance m k +
      entry (cfg.mintIn aToB) (A.associatedAddress u (cfg.mintIn aToB)) q.amountIn.toNat m k +
      entry (cfg.mintOut aToB) (A.associatedAddress c (cfg.mintOut aToB)) q.amountOut.toNat m k =
    B.tokens.balance m k +
      entry (cfg.mintIn aToB) (A.associatedAddress c (cfg.mintIn aToB)) q.amountIn.toNat m k +
      entry (cfg.mintOut aToB) (A.associatedAddress u (cfg.mintOut aToB)) q.amountOut.toNat m k

omit [DecidableEq Key] in
/-- The accounts of a swap by its direction. -/
theorem Swap.Checked.legs {self : Swap Key} {l : Loaded Key} (h : self.Checked A B signers l)
    (aToB : Bool) :
    (self.legs l aToB).userIn = A.associatedAddress self.user (l.config.mintIn aToB) ∧
      (self.legs l aToB).userOut = A.associatedAddress self.user (l.config.mintOut aToB) ∧
      (self.legs l aToB).vaultIn = A.associatedAddress self.config (l.config.mintIn aToB) ∧
      (self.legs l aToB).vaultOut = A.associatedAddress self.config (l.config.mintOut aToB) ∧
      (self.legs l aToB).mintIn = l.config.mintIn aToB ∧
      (self.legs l aToB).mintOut = l.config.mintOut aToB := by
  have hx := h.mintX_eq
  have hy := h.mintY_eq
  cases aToB with
  | true =>
    simp only [Config.mintIn_true, Config.mintOut_true]
    rw [hx, hy]
    exact ⟨h.userX_eq, h.userY_eq, h.vaultX_eq, h.vaultY_eq, rfl, rfl⟩
  | false =>
    simp only [Config.mintIn_false, Config.mintOut_false]
    rw [hx, hy]
    exact ⟨h.userY_eq, h.userX_eq, h.vaultY_eq, h.vaultX_eq, rfl, rfl⟩

omit [DecidableEq Key] in
/-- The vaults of a trade are those of its config. -/
theorem Swap.Checked.vaults {self : Swap Key} {l : Loaded Key} (h : self.Checked A B signers l) :
    B.tokens.accounts (A.associatedAddress self.config l.config.mintX) = some l.vaultX ∧
      B.tokens.accounts (A.associatedAddress self.config l.config.mintY) = some l.vaultY := by
  rw [h.mintX_eq, ← h.vaultX_eq, h.mintY_eq, ← h.vaultY_eq]
  exact ⟨h.vaultX, h.vaultY⟩

omit [DecidableEq Key] in
/-- The reserves that a swap is quoted on are what its vaults hold. -/
theorem Swap.Checked.reserves {self : Swap Key} {l : Loaded Key} (h : self.Checked A B signers l)
    (aToB : Bool) :
    B.tokens.accounts (A.associatedAddress self.config (l.config.mintIn aToB)) =
        some (if aToB then l.vaultX else l.vaultY) ∧
      B.tokens.accounts (A.associatedAddress self.config (l.config.mintOut aToB)) =
        some (if aToB then l.vaultY else l.vaultX) := by
  obtain ⟨hx, hy⟩ := h.vaults
  cases aToB with
  | true => exact ⟨hx, hy⟩
  | false => exact ⟨hy, hx⟩

/-- The amount of a loaded account is its balance, if a transfer found it to be of the mint. -/
theorem balance_of_holds {L : Ledger Key} {k m o : Key} {t : Account Key} (h : L.Holds k m o)
    (ht : L.accounts k = some t) : t.amount.toNat = L.balance m k := by
  obtain ⟨a, ha, hb⟩ := h.account
  rw [ha] at ht
  obtain rfl := Option.some.inj ht
  exact hb

theorem swap_spec {self : Swap Key} {kind : SwapKind} {aToB : Bool}
    (h : (Instruction.swap self kind aToB).process A B signers = .ok B') :
    ∃ cfg rIn rOut q,
      SwapSpec A B B' signers self.config self.user kind aToB cfg rIn rOut q := by
  obtain ⟨l, hl, h⟩ := Outcome.bind_eq_ok.mp h
  have hc := Swap.tryAccounts_eq_ok.mp hl
  unfold Swap.swap at h
  simp only [Outcome.bind_eq_ok, Outcome.require_eq_ok, Bank.cpi_eq_ok, exists_and_left,
    exists_const, configSigner_eq hc.address] at h
  obtain ⟨hunlocked, q, hq, B₁, ⟨h₁, hconf₁⟩, h₂, hconf₂⟩ := h
  obtain ⟨e1, e2, e3, e4, e5, e6⟩ := hc.legs aToB
  obtain ⟨hri, hro⟩ := hc.reserves aToB
  have ht₁ := transferChecked_posts h₁
  have ht₂ := transferChecked_posts h₂
  rw [e1, e3, e5] at ht₁
  rw [e2, e4, e6] at ht₂
  have hp₁ := ht₁.posts
  have hp₂ := ht₂.posts
  refine ⟨l.config, _, _, q, hc.signed, hc.config, hunlocked, ?_, ?_, hq, hconf₂.trans hconf₁,
    ?_, ?_, ?_⟩
  · obtain ⟨o, ho⟩ := ht₁.dest
    rw [← balance_of_holds ho hri]
    cases aToB <;> rfl
  · rw [← balance_of_holds (hp₁.evolves.holds_of_account hro ht₂.holds) hro]
    cases aToB <;> rfl
  · exact (ht₁.confined (List.mem_cons_of_mem _ hc.signed)).trans
      (ht₂.confined List.mem_cons_self)
  · intro m
    rw [hp₂.supply_eq, hp₁.supply_eq]
  · intro m k
    have hb₁ := hp₁.balance m k
    have hb₂ := hp₂.balance m k
    omega

/-! ## Deposits -/

/-- The shares that a deposit locks: `minimumLiquidity` if it is the first. -/
def lockedShares (supply : U64) : ℕ := if supply = 0 then 1000 else 0

structure AddSpec (A : AddressScheme Key) (B B' : Bank Key) (signers : List Key) (c u : Key)
    (a b minLp : U64) (cfg : Config Key) (lp : Key) (rX rY s : U64) (q : LiquidityQuote U64) :
    Prop where
  signed : u ∈ signers
  config : B.configs c = some cfg
  unlocked : cfg.locked = false
  lpAddress : A.createProgramAddress (.lpMint c) cfg.lpBump = some lp
  reserveX : rX.toNat = B.tokens.balance cfg.mintX (A.associatedAddress c cfg.mintX)
  reserveY : rY.toNat = B.tokens.balance cfg.mintY (A.associatedAddress c cfg.mintY)
  supplyLp : s.toNat = B.tokens.supply lp
  quote : (if s = 0 then initialLiquidity a b else addLiquidity rX rY s a b) = .ok q
  slippage : minLp.toNat ≤ q.lpTokens.toNat
  configs : B'.configs = B.configs
  confined : Confined (c :: signers) B.tokens B'.tokens
  supply : ∀ m, B'.tokens.supply m =
    B.tokens.supply m + if m = lp then q.lpTokens.toNat + lockedShares s else 0
  balance : ∀ m k, B'.tokens.balance m k +
      entry cfg.mintX (A.associatedAddress u cfg.mintX) q.amountA.toNat m k +
      entry cfg.mintY (A.associatedAddress u cfg.mintY) q.amountB.toNat m k =
    B.tokens.balance m k +
      entry cfg.mintX (A.associatedAddress c cfg.mintX) q.amountA.toNat m k +
      entry cfg.mintY (A.associatedAddress c cfg.mintY) q.amountB.toNat m k +
      entry lp (A.associatedAddress u lp) q.lpTokens.toNat m k +
      entry lp (A.associatedAddress c lp) (lockedShares s) m k

/-- The last part of a deposit posts the locked shares, which are none if it is not the first. -/
theorem lock_posts {supply : U64} {mintLp lpVault authority : Key}
    (h : (if supply = 0 then
        B.cpi (B.tokens.mintTo signers mintLp lpVault authority minimumLiquidity)
      else .ok B) = .ok B') :
    Posts B.tokens B'.tokens mintLp lpVault 0 lpVault (lockedShares supply) ∧
      B'.configs = B.configs ∧
      ∀ {K : List Key}, authority ∈ K → Confined K B.tokens B'.tokens := by
  unfold lockedShares
  by_cases h0 : supply = 0
  · rw [if_pos h0, Bank.cpi_eq_ok] at h
    obtain ⟨hmint, hconfigs⟩ := h
    have hm := mintTo_posts hmint
    rw [if_pos h0]
    exact ⟨hm.posts, hconfigs, hm.confined⟩
  · rw [if_neg h0] at h
    obtain rfl := Outcome.ok.inj h
    rw [if_neg h0]
    exact ⟨.of_eq (.refl _) rfl rfl _ _, rfl, fun _ => .refl _ _⟩

theorem add_spec {self : AddLiquidity Key} {a b minLp : U64}
    (h : (Instruction.addLiquidity self a b minLp).process A B signers = .ok B') :
    ∃ cfg lp rX rY s q,
      AddSpec A B B' signers self.config self.user a b minLp cfg lp rX rY s q := by
  obtain ⟨⟨B₁, l⟩, hl, h⟩ := Outcome.bind_eq_ok.mp h
  have hc := AddLiquidity.tryAccounts_eq_ok.mp hl
  have hs := hc.toSwap
  have hu : self.user ∈ signers := hs.signed
  have haddr : A.createProgramAddress (.config l.config.seed) l.config.configBump =
      some self.config := hs.address
  have hE := initAssociatedIfNeeded_eq_ok hc.userLp
  unfold AddLiquidity.handle AddLiquidity.quote at h
  simp only [Outcome.bind_eq_ok, Outcome.require_eq_ok, Bank.cpi_eq_ok, exists_and_left,
    exists_const, configSigner_eq haddr] at h
  obtain ⟨hunlocked, q, hq, hslip, B₂, ⟨h₂, hconf₂⟩, B₃, ⟨h₃, hconf₃⟩, B₄, ⟨h₄, hconf₄⟩, h⟩ := h
  have ht₂ := transferChecked_posts h₂
  have ht₃ := transferChecked_posts h₃
  have hm₄ := mintTo_posts h₄
  rw [show self.userX = A.associatedAddress self.user self.mintX from hs.userX_eq,
    show self.vaultX = A.associatedAddress self.config self.mintX from hs.vaultX_eq,
    show self.mintX = l.config.mintX from hs.mintX_eq.symm] at ht₂
  rw [show self.userY = A.associatedAddress self.user self.mintY from hs.userY_eq,
    show self.vaultY = A.associatedAddress self.config self.mintY from hs.vaultY_eq,
    show self.mintY = l.config.mintY from hs.mintY_eq.symm] at ht₃
  rw [hE.address] at hm₄
  obtain ⟨hvx, hvy⟩ : B.tokens.accounts (A.associatedAddress self.config l.config.mintX) =
      some l.vaultX ∧
      B.tokens.accounts (A.associatedAddress self.config l.config.mintY) = some l.vaultY :=
    hs.vaults
  -- the four postings before the locked share, and what each says about every account
  have hconf : Confined (self.config :: signers) B.tokens B₄.tokens :=
    (hE.posts.confined_zero.trans (ht₂.confined (List.mem_cons_of_mem _ hu))).trans
      ((ht₃.confined (List.mem_cons_of_mem _ hu)).trans (hm₄.confined List.mem_cons_self))
  have hconfigs : B₄.configs = B.configs :=
    hconf₄.trans (hconf₃.trans (hconf₂.trans hE.configs))
  have hrX : l.vaultX.amount.toNat =
      B.tokens.balance l.config.mintX (A.associatedAddress self.config l.config.mintX) := by
    obtain ⟨o, ho⟩ := ht₂.dest
    exact balance_of_holds (hE.posts.evolves.holds_of_account hvx ho) hvx
  have hrY : l.vaultY.amount.toNat =
      B.tokens.balance l.config.mintY (A.associatedAddress self.config l.config.mintY) := by
    obtain ⟨o, ho⟩ := ht₃.dest
    exact balance_of_holds
      ((hE.posts.evolves.trans ht₂.posts.evolves).holds_of_account hvy ho) hvy
  have hq' : (if l.mintLp.supply = 0 then initialLiquidity a b
      else addLiquidity l.vaultX.amount l.vaultY.amount l.mintLp.supply a b) = .ok q := by
    split_ifs at hq ⊢ <;> exact quoted_eq_ok.mp hq
  rw [hc.lpVault_eq] at h
  obtain ⟨hlock, hconfig₅, hconf₅⟩ := lock_posts h
  refine ⟨l.config, self.mintLp, l.vaultX.amount, l.vaultY.amount, l.mintLp.supply, q, hu, hs.config,
    hunlocked, hc.lpAddress, hrX, hrY, (supply_of_mint hc.mintLp).symm, hq', hslip,
    hconfig₅.trans hconfigs, hconf.trans (hconf₅ List.mem_cons_self), ?_, ?_⟩
  · intro m
    have := hE.posts.supply m
    have := ht₂.posts.supply_eq m
    have := ht₃.posts.supply_eq m
    have := hm₄.posts.supply m
    have := hlock.supply m
    split_ifs at * <;> omega
  · intro m k
    have := hE.posts.balance m k
    have := ht₂.posts.balance m k
    have := ht₃.posts.balance m k
    have := hm₄.posts.balance m k
    have := hlock.balance m k
    simp only [entry_zero] at *
    omega

/-! ## Withdrawals -/

structure RemoveSpec (A : AddressScheme Key) (B B' : Bank Key) (signers : List Key) (c u : Key)
    (lpBurn minA minB : U64) (cfg : Config Key) (lp : Key) (rX rY s : U64)
    (q : LiquidityQuote U64) : Prop where
  signed : u ∈ signers
  config : B.configs c = some cfg
  unlocked : cfg.locked = false
  lpAddress : A.createProgramAddress (.lpMint c) cfg.lpBump = some lp
  reserveX : rX.toNat = B.tokens.balance cfg.mintX (A.associatedAddress c cfg.mintX)
  reserveY : rY.toNat = B.tokens.balance cfg.mintY (A.associatedAddress c cfg.mintY)
  supplyLp : s.toNat = B.tokens.supply lp
  quote : removeLiquidity rX rY s lpBurn = .ok q
  slippageA : minA.toNat ≤ q.amountA.toNat
  slippageB : minB.toNat ≤ q.amountB.toNat
  configs : B'.configs = B.configs
  confined : Confined (c :: signers) B.tokens B'.tokens
  supply : ∀ m, B'.tokens.supply m + (if m = lp then q.lpTokens.toNat else 0) = B.tokens.supply m
  balance : ∀ m k, B'.tokens.balance m k +
      entry lp (A.associatedAddress u lp) q.lpTokens.toNat m k +
      entry cfg.mintX (A.associatedAddress c cfg.mintX) q.amountA.toNat m k +
      entry cfg.mintY (A.associatedAddress c cfg.mintY) q.amountB.toNat m k =
    B.tokens.balance m k +
      entry cfg.mintX (A.associatedAddress u cfg.mintX) q.amountA.toNat m k +
      entry cfg.mintY (A.associatedAddress u cfg.mintY) q.amountB.toNat m k

theorem remove_spec {self : RemoveLiquidity Key} {lpBurn minA minB : U64}
    (h : (Instruction.removeLiquidity self lpBurn minA minB).process A B signers = .ok B') :
    ∃ cfg lp rX rY s q,
      RemoveSpec A B B' signers self.config self.user lpBurn minA minB cfg lp rX rY s q := by
  obtain ⟨l, hl, h⟩ := Outcome.bind_eq_ok.mp h
  have hc := RemoveLiquidity.tryAccounts_eq_ok.mp hl
  have hs := hc.toSwap
  have hu : self.user ∈ signers := hs.signed
  have haddr : A.createProgramAddress (.config l.config.seed) l.config.configBump =
      some self.config := hs.address
  unfold RemoveLiquidity.handle at h
  simp only [Outcome.bind_eq_ok, Outcome.require_eq_ok, Bank.cpi_eq_ok, quoted_eq_ok,
    exists_and_left, exists_const, configSigner_eq haddr] at h
  obtain ⟨hunlocked, q, hq, hminA, hminB, B₁, ⟨h₁, hconf₁⟩, B₂, ⟨h₂, hconf₂⟩, h₃, hconf₃⟩ := h
  have hb₁ := burn_posts h₁
  have ht₂ := transferChecked_posts h₂
  have ht₃ := transferChecked_posts h₃
  rw [hc.userLp_eq] at hb₁
  rw [show self.userX = A.associatedAddress self.user self.mintX from hs.userX_eq,
    show self.vaultX = A.associatedAddress self.config self.mintX from hs.vaultX_eq,
    show self.mintX = l.config.mintX from hs.mintX_eq.symm] at ht₂
  rw [show self.userY = A.associatedAddress self.user self.mintY from hs.userY_eq,
    show self.vaultY = A.associatedAddress self.config self.mintY from hs.vaultY_eq,
    show self.mintY = l.config.mintY from hs.mintY_eq.symm] at ht₃
  obtain ⟨hvx, hvy⟩ : B.tokens.accounts (A.associatedAddress self.config l.config.mintX) =
      some l.vaultX ∧
      B.tokens.accounts (A.associatedAddress self.config l.config.mintY) = some l.vaultY :=
    hs.vaults
  have hev₁ := hb₁.posts.evolves
  have hev₂ := hev₁.trans ht₂.posts.evolves
  refine ⟨l.config, self.mintLp, l.vaultX.amount, l.vaultY.amount, l.mintLp.supply, q, hu,
    hs.config, hunlocked, hc.lpAddress, ?_, ?_, (supply_of_mint hc.mintLp).symm, hq, hminA, hminB,
    hconf₃.trans (hconf₂.trans hconf₁), ?_, ?_, ?_⟩
  · exact balance_of_holds (hev₁.holds_of_account hvx ht₂.holds) hvx
  · exact balance_of_holds (hev₂.holds_of_account hvy ht₃.holds) hvy
  · exact (hb₁.confined (List.mem_cons_of_mem _ hu)).trans
      ((ht₂.confined List.mem_cons_self).trans (ht₃.confined List.mem_cons_self))
  · intro m
    have := hb₁.posts.supply m
    have := ht₂.posts.supply_eq m
    have := ht₃.posts.supply_eq m
    split_ifs at * <;> omega
  · intro m k
    have := hb₁.posts.balance m k
    have := ht₂.posts.balance m k
    have := ht₃.posts.balance m k
    simp only [entry_zero] at *
    omega

/-! ## Administration -/

/-- The signer is the authority stored in the config it names. -/
structure Admin.Authorized (accs : Admin Key) (A : AddressScheme Key) (B : Bank Key)
    (signers : List Key) (cfg : Config Key) : Prop where
  signed : accs.authority ∈ signers
  config : B.configs accs.config = some cfg
  address : A.createProgramAddress (.config cfg.seed) cfg.configBump = some accs.config
  stored : cfg.authority = some accs.authority

theorem Admin.authorize_eq_ok {self : Admin Key} {cfg : Config Key} {u : PUnit} :
    self.authorize cfg = .ok u ↔ cfg.authority = some self.authority := by
  unfold Admin.authorize
  simp only [Outcome.bind_eq_ok, Outcome.okOr_eq_ok, Outcome.require_eq_ok]
  constructor
  · rintro ⟨k, hk, rfl⟩
    exact hk
  · intro h
    exact ⟨_, h, rfl⟩

theorem fee_lt_iff {f : U16} : extend 64 f < feeDenominator ↔ f.toNat < 10000 := by
  have h := invalidFee_iff (f := f)
  show (extend 64 f).toNat < feeDenominator.toNat ↔ _
  rw [← Nat.not_le, ← Nat.not_le]
  exact not_congr h

theorem updateFee_eq_ok {self : UpdateFee Key} {newFeeBps : U16} :
    (Instruction.updateFee self newFeeBps).process A B signers = .ok B' ↔
      ∃ cfg, self.Authorized A B signers cfg ∧ newFeeBps.toNat < 10000 ∧
        B' = B.setConfig self.config { cfg with feeBps := newFeeBps } := by
  unfold Instruction.process UpdateFee.updateFee
  simp only [Outcome.bind_eq_ok, Admin.tryAccounts_eq_ok, Admin.authorize_eq_ok,
    Outcome.require_eq_ok, fee_lt_iff, exists_and_left, exists_const, Outcome.ok.injEq]
  constructor
  · rintro ⟨cfg, ⟨h1, h2, h3⟩, h4, h5, rfl⟩
    exact ⟨cfg, ⟨h1, h2, h3, h4⟩, h5, rfl⟩
  · rintro ⟨cfg, ⟨h1, h2, h3, h4⟩, h5, rfl⟩
    exact ⟨cfg, ⟨h1, h2, h3⟩, h4, h5, rfl⟩

theorem setLocked_eq_ok {self : SetLocked Key} {locked : Bool} :
    (Instruction.setLocked self locked).process A B signers = .ok B' ↔
      ∃ cfg, self.Authorized A B signers cfg ∧
        B' = B.setConfig self.config { cfg with locked } := by
  unfold Instruction.process SetLocked.setLocked
  simp only [Outcome.bind_eq_ok, Admin.tryAccounts_eq_ok, Admin.authorize_eq_ok, exists_and_left,
    exists_const, Outcome.ok.injEq]
  constructor
  · rintro ⟨cfg, ⟨h1, h2, h3⟩, h4, rfl⟩
    exact ⟨cfg, ⟨h1, h2, h3, h4⟩, rfl⟩
  · rintro ⟨cfg, ⟨h1, h2, h3, h4⟩, rfl⟩
    exact ⟨cfg, ⟨h1, h2, h3⟩, h4, rfl⟩

theorem updateAuthority_eq_ok {self : UpdateAuthority Key} {newAuthority : Option Key} :
    (Instruction.updateAuthority self newAuthority).process A B signers = .ok B' ↔
      ∃ cfg, self.Authorized A B signers cfg ∧
        B' = B.setConfig self.config { cfg with authority := newAuthority } := by
  unfold Instruction.process UpdateAuthority.updateAuthority
  simp only [Outcome.bind_eq_ok, Admin.tryAccounts_eq_ok, Admin.authorize_eq_ok, exists_and_left,
    exists_const, Outcome.ok.injEq]
  constructor
  · rintro ⟨cfg, ⟨h1, h2, h3⟩, h4, rfl⟩
    exact ⟨cfg, ⟨h1, h2, h3, h4⟩, rfl⟩
  · rintro ⟨cfg, ⟨h1, h2, h3, h4⟩, rfl⟩
    exact ⟨cfg, ⟨h1, h2, h3⟩, h4, rfl⟩

/-! ## Initialize -/

/-- The config that `Initialize` writes. -/
def Initialize.newConfig (self : Initialize Key) (A : AddressScheme Key) (seed : U64)
    (feeBps : U16) (authority : Option Key) : Config Key where
  seed := seed
  authority := authority
  mintX := self.mintX
  mintY := self.mintY
  feeBps := feeBps
  locked := false
  configBump := (self.bumps A seed).config
  lpBump := (self.bumps A seed).mintLp

structure InitSpec (A : AddressScheme Key) (B B' : Bank Key) (accs : Initialize Key) (seed : U64)
    (feeBps : U16) (authority : Option Key) : Prop where
  fee_lt : feeBps.toNat < 10000
  vacant : B.configs accs.config = none
  configs : B'.configs = (B.setConfig accs.config (accs.newConfig A seed feeBps authority)).configs
  address : A.createProgramAddress (.config seed) (accs.bumps A seed).config = some accs.config
  lpAddress :
    A.createProgramAddress (.lpMint accs.config) (accs.bumps A seed).mintLp = some accs.mintLp
  mintX : B.tokens.mints accs.mintX ≠ none
  mintY : B.tokens.mints accs.mintY ≠ none
  mintLp : B.tokens.mints accs.mintLp = none
  mintX_ne_mintY : accs.mintX ≠ accs.mintY
  lpIsMint : B'.tokens.IsMint accs.mintLp (some accs.config) lpMintDecimals
  holdsX : B'.tokens.Holds (A.associatedAddress accs.config accs.mintX) accs.mintX accs.config
  holdsY : B'.tokens.Holds (A.associatedAddress accs.config accs.mintY) accs.mintY accs.config
  holdsLp : B'.tokens.Holds (A.associatedAddress accs.config accs.mintLp) accs.mintLp accs.config
  emptyX : B.tokens.accounts (A.associatedAddress accs.config accs.mintX) = none
  emptyY : B.tokens.accounts (A.associatedAddress accs.config accs.mintY) = none
  emptyLp : B.tokens.accounts (A.associatedAddress accs.config accs.mintLp) = none
  confined : Confined [] B.tokens B'.tokens
  balance : ∀ m k, B'.tokens.balance m k = B.tokens.balance m k
  supply : ∀ m, B'.tokens.supply m = B.tokens.supply m

theorem initMint_eq_ok {k authority : Key} {seeds : Seeds Key} {d : U8}
    (h : initMint A B signers k seeds d authority = .ok B') :
    k = (A.findProgramAddress seeds).1 ∧ B'.configs = B.configs ∧ B.tokens.mints k = none ∧
      B'.tokens.IsMint k (some authority) d ∧ B'.tokens.accounts = B.tokens.accounts ∧
      Posts B.tokens B'.tokens k k 0 k 0 := by
  unfold initMint at h
  simp only [Outcome.bind_eq_ok, Outcome.require_eq_ok, Bank.cpi_eq_ok, exists_and_left,
    exists_const] at h
  obtain ⟨hk, -, hinit, hconf⟩ := h
  obtain ⟨-, hv, hm, hacc, hp⟩ := initializeMint_posts hinit
  exact ⟨hk, hconf, (Ledger.vacant_iff.mp hv).1, hm, hacc, hp⟩

theorem init_spec {self : Initialize Key} {seed : U64} {feeBps : U16} {authority : Option Key}
    (h : (Instruction.init self seed feeBps authority).process A B signers = .ok B') :
    InitSpec A B B' self seed feeBps authority := by
  unfold Instruction.process Initialize.tryAccounts Initialize.init loadMint requireSigner at h
  simp only [Outcome.bind_eq_ok, Outcome.require_eq_ok, Outcome.okOr_eq_ok, fee_lt_iff,
    exists_and_left, exists_const, Outcome.ok.injEq] at h
  obtain ⟨_, ⟨-, mx, hmx, my, hmy, B₁, h₁, B₂, h₂, B₃, h₃, B₄, h₄, hseed, hvac, rfl⟩, hfee, rfl⟩ := h
  obtain ⟨hlp, hc₁, hnew, hm₁, ha₁, hp₁⟩ := initMint_eq_ok h₁
  have hx := initAssociated_eq_ok h₂
  have hy := initAssociated_eq_ok h₃
  have hl := initAssociated_eq_ok h₄
  have hconfigs : B₄.configs = B.configs :=
    hl.configs.trans (hy.configs.trans (hx.configs.trans hc₁))
  have he₁ := hp₁.evolves
  have he₂ := he₁.trans hx.posts.evolves
  have he₃ := he₂.trans hy.posts.evolves
  have heX := hx.posts.evolves.trans (hy.posts.evolves.trans hl.posts.evolves)
  have heY := hy.posts.evolves.trans hl.posts.evolves
  have hvX := he₁.accounts_eq_none (Bank.vacant_iff.mp hx.vacant).2.2
  have hvY := he₂.accounts_eq_none (Bank.vacant_iff.mp hy.vacant).2.2
  have hvL := he₃.accounts_eq_none (Bank.vacant_iff.mp hl.vacant).2.2
  rw [hx.address] at hvX
  rw [hy.address] at hvY
  rw [hl.address] at hvL
  exact
    { fee_lt := hfee
      vacant := by
        rw [← hconfigs]
        exact (Bank.vacant_iff.mp hvac).1
      configs := by
        show Function.update _ _ _ = Function.update _ _ _
        rw [hconfigs]
        rfl
      address := hseed ▸ A.create_find (.config seed)
      lpAddress := hlp ▸ A.create_find (.lpMint self.config)
      mintX := by simp [hmx]
      mintY := by simp [hmy]
      mintLp := hnew
      mintX_ne_mintY := by
        -- the second vault would have the address of the first, which is taken
        intro hxy
        obtain ⟨a, ha⟩ := hx.holds
        rw [hx.address, hxy, ← hy.address, (Bank.vacant_iff.mp hy.vacant).2.2] at ha
        cases ha
      lpIsMint := heX.isMint hm₁
      holdsX := hx.address ▸ heY.holds hx.holds
      holdsY := hy.address ▸ hl.posts.evolves.holds hy.holds
      holdsLp := hl.address ▸ hl.holds
      emptyX := hvX
      emptyY := hvY
      emptyLp := hvL
      confined := (hp₁.confined_zero.trans hx.posts.confined_zero).trans
        (hy.posts.confined_zero.trans hl.posts.confined_zero)
      balance := fun m k =>
        calc B₄.tokens.balance m k
            = B₃.tokens.balance m k := hl.posts.balance_eq m k
          _ = B₂.tokens.balance m k := hy.posts.balance_eq m k
          _ = B₁.tokens.balance m k := hx.posts.balance_eq m k
          _ = B.tokens.balance m k := hp₁.balance_eq m k
      supply := fun m =>
        calc B₄.tokens.supply m
            = B₃.tokens.supply m := hl.posts.supply_eq m
          _ = B₂.tokens.supply m := hy.posts.supply_eq m
          _ = B₁.tokens.supply m := hx.posts.supply_eq m
          _ = B.tokens.supply m := hp₁.supply_eq m }

end Amm
