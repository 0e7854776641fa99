import ToyAmm.Isolation
import ToyAmm.Observation
import ToyAmm.TradeErrors

/-!
# The two tokens of a pool are interchangeable

`Bank.mirror` exchanges which token of a pool is called X and which Y, and with them the vaults and
the accounts that users trade with; `Call.mirror` exchanges them in a call. A mirrored call on a
mirrored bank does what the call does on the bank (`exec_mirror`), and so does a mirrored run
(`mirror_symmetry`): the states are mirror images of each other, each step succeeds in both or fails
in both, and with the same `AmmError` if with any. The errors of the account checks and of the token
program are not compared, as the checks of X come before those of Y.
-/

open Checked AmmMath Token Ledger Transition

/-! ## Quotes -/

namespace AmmMath

/-- A machine quote is determined by what it matches, so a map of the latter is one of the quote. -/
theorem Matches.map_eq {Q R : Type} {read : Q → R} {fits : R → Prop} [DecidablePred fits]
    {run run' : Result Q} {ref ref' : Except AmmMathError R} (h : Matches read fits run ref)
    (h' : Matches read fits run' ref') (hread : Function.Injective read) {f : Q → Q} {g : R → R}
    (hfg : ∀ q, read (f q) = g (read q)) (hfits : ∀ r, fits (g r) ↔ fits r)
    (href : ref' = ref.map g) : run' = run.map f := by
  refine Outcome.map_injective hread ?_
  have hmap : (run.map f).map read = (run.map read).map g := by
    cases run with
    | ok q => exact congrArg Outcome.ok (hfg q)
    | err e => rfl
    | panic => rfl
  rw [hmap, h', h, href]
  rcases ref with e | r
  · rfl
  · show (if fits (g r) then .ok (g r) else .err .overflow : Result R) =
      Outcome.map g (if fits r then .ok r else .err .overflow)
    by_cases hf : fits r
    · rw [if_pos hf, if_pos ((hfits r).mpr hf)]
      rfl
    · rw [if_neg hf, if_neg fun hg => hf ((hfits r).mp hg)]
      rfl

/-- The quote with its two amounts exchanged. -/
def LiquidityQuote.mirror {R : Type} (q : LiquidityQuote R) : LiquidityQuote R :=
  { q with amountA := q.amountB, amountB := q.amountA }

theorem LiquidityQuote.toNat_injective : Function.Injective LiquidityQuote.toNat := by
  rintro ⟨l, a, b⟩ ⟨l', a', b'⟩ h
  simp only [LiquidityQuote.toNat, LiquidityQuote.mk.injEq] at h
  obtain ⟨hl, ha, hb⟩ := h
  rw [BitVec.eq_of_toNat_eq hl, BitVec.eq_of_toNat_eq ha, BitVec.eq_of_toNat_eq hb]

section Quotes

variable (x y s a b l : U64)

theorem initialLiquidity_mirror :
    initialLiquidity b a = (initialLiquidity a b).map LiquidityQuote.mirror := by
  refine initialLiquidity_matches.map_eq initialLiquidity_matches LiquidityQuote.toNat_injective
    (g := LiquidityQuote.mirror) (fun _ => rfl) (fun _ => Iff.rfl) ?_
  unfold Reference.initialLiquidity
  simp only [or_comm (a := b.toNat = 0) (b := a.toNat = 0), Nat.mul_comm b.toNat]
  split_ifs <;> rfl

theorem addLiquidity_mirror :
    addLiquidity y x s b a = (addLiquidity x y s a b).map LiquidityQuote.mirror := by
  refine addLiquidity_matches.map_eq addLiquidity_matches LiquidityQuote.toNat_injective
    (g := LiquidityQuote.mirror) (fun _ => rfl) (fun _ => Iff.rfl) ?_
  have hmin : Reference.mintedShares y.toNat x.toNat s.toNat b.toNat a.toNat =
      Reference.mintedShares x.toNat y.toNat s.toNat a.toNat b.toNat := Nat.min_comm _ _
  unfold Reference.addLiquidity
  simp only [hmin, or_comm (a := b.toNat = 0) (b := a.toNat = 0),
    or_comm (a := y.toNat = 0) (b := x.toNat = 0)]
  split_ifs <;> rfl

theorem removeLiquidity_mirror :
    removeLiquidity y x s l = (removeLiquidity x y s l).map LiquidityQuote.mirror := by
  refine removeLiquidity_matches.map_eq removeLiquidity_matches LiquidityQuote.toNat_injective
    (g := LiquidityQuote.mirror) (fun _ => rfl) (fun _ => Iff.rfl) ?_
  unfold Reference.removeLiquidity
  simp only [or_comm (a := y.toNat = 0) (b := x.toNat = 0),
    or_comm (a := l.toNat * y.toNat / s.toNat = 0)]
  split_ifs <;> rfl

end Quotes

end AmmMath

namespace Amm

variable {Key : Type}

/-! ## Mirror images -/

/-- The config of the pool with X and Y exchanged. -/
def Config.mirror (cfg : Config Key) : Config Key :=
  { cfg with mintX := cfg.mintY, mintY := cfg.mintX }

def Loaded.mirror (l : Loaded Key) : Loaded Key where
  config := l.config.mirror
  mintX := l.mintY
  mintY := l.mintX
  vaultX := l.vaultY
  vaultY := l.vaultX

def LoadedLp.mirror (l : LoadedLp Key) : LoadedLp Key where
  toLoaded := l.toLoaded.mirror
  mintLp := l.mintLp

def Swap.mirror (self : Swap Key) : Swap Key :=
  { self with
    mintX := self.mintY
    mintY := self.mintX
    vaultX := self.vaultY
    vaultY := self.vaultX
    userX := self.userY
    userY := self.userX }

def AddLiquidity.mirror (self : AddLiquidity Key) : AddLiquidity Key :=
  { self with
    mintX := self.mintY
    mintY := self.mintX
    vaultX := self.vaultY
    vaultY := self.vaultX
    userX := self.userY
    userY := self.userX }

def RemoveLiquidity.mirror (self : RemoveLiquidity Key) : RemoveLiquidity Key :=
  { self with
    mintX := self.mintY
    mintY := self.mintX
    vaultX := self.vaultY
    vaultY := self.vaultX
    userX := self.userY
    userY := self.userX }

/-- An instruction on the mirror image of its pool. -/
def Instruction.mirror : Instruction Key → Instruction Key
  | .swap accs kind aToB => .swap accs.mirror kind (!aToB)
  | .addLiquidity accs a b minLp => .addLiquidity accs.mirror b a minLp
  | .removeLiquidity accs lpBurn minA minB => .removeLiquidity accs.mirror lpBurn minB minA
  | ix => ix

/-- A pool with X and Y exchanged. -/
def PoolState.mirror (p : PoolState Key) : PoolState Key where
  config := p.config.mirror
  vaultX := p.vaultY
  vaultY := p.vaultX
  supply := p.supply
  lpVault := p.lpVault

variable [DecidableEq Key]

/-- A call, if it is one on the pool of `c`, on the mirror image of the pool. -/
def Call.mirror (c : Key) (call : Call Key) : Call Key :=
  match call.op with
  | .amm ix => if ix.config = c then { call with op := .amm ix.mirror } else call
  | .token _ => call

/-- The bank with X and Y exchanged in the pool of `c`. The tokens stay where they are: what was a
vault for X, and a user's account for X, is now one for Y. -/
def Bank.mirror (c : Key) (B : Bank Key) : Bank Key :=
  { B with configs := Function.update B.configs c ((B.configs c).map Config.mirror) }

variable {A : AddressScheme Key} {B B' : Bank Key} {c k lp : Key} {cfg : Config Key}
  {signers : List Key}

namespace Bank

@[simp] theorem tokens_mirror : (B.mirror c).tokens = B.tokens := rfl

@[simp] theorem configs_mirror_self :
    (B.mirror c).configs c = (B.configs c).map Config.mirror := Function.update_self ..

theorem configs_mirror_of_ne (h : k ≠ c) : (B.mirror c).configs k = B.configs k :=
  Function.update_of_ne h ..

@[simp] theorem mirror_mirror (c : Key) (B : Bank Key) : (B.mirror c).mirror c = B := by
  have hconfigs : ((B.mirror c).mirror c).configs = B.configs := by
    funext k
    by_cases hk : k = c
    · subst hk
      rw [configs_mirror_self, configs_mirror_self]
      cases B.configs k <;> rfl
    · rw [configs_mirror_of_ne hk, configs_mirror_of_ne hk]
  obtain ⟨configs, tokens⟩ := B
  exact congrArg (Bank.mk · tokens) hconfigs

theorem isNone_mirror : ((B.mirror c).configs k).isNone = (B.configs k).isNone := by
  by_cases hk : k = c
  · subst hk
    rw [configs_mirror_self, Option.isNone_map]
  · rw [configs_mirror_of_ne hk]

theorem vacant_mirror : (B.mirror c).vacant k = B.vacant k := by
  unfold vacant
  rw [isNone_mirror, tokens_mirror]

theorem setConfig_mirror_self :
    (B.mirror c).setConfig c cfg.mirror = (B.setConfig c cfg).mirror c := by
  unfold setConfig mirror
  simp

theorem setConfig_mirror_of_ne (h : k ≠ c) :
    (B.mirror c).setConfig k cfg = (B.setConfig k cfg).mirror c := by
  unfold mirror
  rw [configs_setConfig_of_ne h.symm]
  unfold setConfig
  rw [Function.update_comm h]

theorem cpi_mirror (r : Token.Result (Ledger Key)) :
    (B.mirror c).cpi r = (B.cpi r).map (mirror c) := by
  unfold cpi
  rw [Outcome.map_bind]
  rfl

end Bank

theorem initAssociated_mirror {mint authority : Key} :
    initAssociated A (B.mirror c) k mint authority =
      (initAssociated A B k mint authority).map (Bank.mirror c) := by
  unfold initAssociated
  rw [Outcome.map_bind]
  simp only [Bank.isNone_mirror, Bank.tokens_mirror, Bank.cpi_mirror]

theorem initAssociatedIfNeeded_mirror {mint authority : Key} :
    initAssociatedIfNeeded A (B.mirror c) k mint authority =
      (initAssociatedIfNeeded A B k mint authority).map (Bank.mirror c) := by
  unfold initAssociatedIfNeeded loadAccount
  rw [Bank.vacant_mirror, initAssociated_mirror]
  split_ifs with hv
  · rfl
  · simp only [Outcome.map_bind, Outcome.map_ok, Bank.tokens_mirror]

/-! ## Handlers read no config from the bank -/

theorem Swap.swap_mirror_bank (self : Swap Key) (l : Loaded Key) (kind : SwapKind) (aToB : Bool) :
    self.swap A (B.mirror c) signers l kind aToB =
      (self.swap A B signers l kind aToB).map (Bank.mirror c) := by
  unfold Swap.swap
  simp only [Outcome.map_bind, Outcome.bind_map, Bank.cpi_mirror, Bank.tokens_mirror]

theorem AddLiquidity.handle_mirror_bank (self : AddLiquidity Key) (l : LoadedLp Key)
    (a b minLp : U64) :
    self.handle A (B.mirror c) signers l a b minLp =
      (self.handle A B signers l a b minLp).map (Bank.mirror c) := by
  unfold AddLiquidity.handle
  simp only [Outcome.map_bind, Outcome.bind_map, Bank.cpi_mirror, Bank.tokens_mirror,
    apply_ite (Outcome.map (Bank.mirror c)), Outcome.map_ok]

theorem RemoveLiquidity.handle_mirror_bank (self : RemoveLiquidity Key) (l : LoadedLp Key)
    (lpBurn minA minB : U64) :
    self.handle A (B.mirror c) signers l lpBurn minA minB =
      (self.handle A B signers l lpBurn minA minB).map (Bank.mirror c) := by
  unfold RemoveLiquidity.handle
  simp only [Outcome.map_bind, Outcome.bind_map, Bank.cpi_mirror, Bank.tokens_mirror]

/-! ## Account checks -/

/-- The error of the program itself, if it is one. -/
def ProgramError.ammError : ProgramError → Option AmmError
  | .amm e => some e
  | .anchor _ => none
  | .token _ => none

omit [DecidableEq Key] in
theorem unseen_of_ne_amm {α : Type} {x : Result α} (h : ∀ e, x ≠ .err (.amm e)) :
    x.Unseen ProgramError.ammError := by
  intro e he
  cases e with
  | amm e => exact absurd he (h e)
  | anchor e => rfl
  | token e => rfl

theorem Swap.Checked.mirror {self : Swap Key} {l : Loaded Key} (h : self.Checked A B signers l) :
    self.mirror.Checked A (B.mirror self.config) signers l.mirror where
  signed := h.signed
  mintX := h.mintY
  mintY := h.mintX
  config := by
    show (B.mirror self.config).configs self.config = some l.config.mirror
    rw [Bank.configs_mirror_self, h.config]
    rfl
  vaultX := h.vaultY
  vaultY := h.vaultX
  userX := h.userY
  userY := h.userX
  mintX_eq := h.mintY_eq
  mintY_eq := h.mintX_eq
  address := h.address
  vaultX_owner := h.vaultY_owner
  vaultY_owner := h.vaultX_owner
  vaultX_eq := h.vaultY_eq
  vaultY_eq := h.vaultX_eq
  userX_eq := h.userY_eq
  userY_eq := h.userX_eq

theorem AddLiquidity.Checked.mirror {self : AddLiquidity Key} {B₁ : Bank Key} {l : LoadedLp Key}
    (h : self.Checked A B signers B₁ l) :
    self.mirror.Checked A (B.mirror self.config) signers (B₁.mirror self.config) l.mirror where
  toSwap := h.toSwap.mirror
  mintLp := h.mintLp
  lpVault := h.lpVault
  userLp := by
    show initAssociatedIfNeeded A (B.mirror self.config) self.userLp self.mintLp self.user = _
    rw [initAssociatedIfNeeded_mirror, h.userLp]
    rfl
  lpAddress := h.lpAddress
  lpVault_eq := h.lpVault_eq

theorem RemoveLiquidity.Checked.mirror {self : RemoveLiquidity Key} {l : LoadedLp Key}
    (h : self.Checked A B signers l) :
    self.mirror.Checked A (B.mirror self.config) signers l.mirror where
  toSwap := h.toSwap.mirror
  mintLp := h.mintLp
  userLp := h.userLp
  lpAddress := h.lpAddress
  userLp_eq := h.userLp_eq

theorem Swap.tryAccounts_mirror (self : Swap Key) :
    Outcome.Agree ProgramError.ammError Loaded.mirror (self.tryAccounts A B signers)
      (self.mirror.tryAccounts A (B.mirror self.config) signers) := by
  refine .of_involution (fun i : Swap Key × Bank Key => i.1.tryAccounts A i.2 signers)
    (fun i => (i.1.mirror, i.2.mirror i.1.config)) (fun _ => Loaded.mirror) ?_ ?_ ?_ (self, B)
  · intro i
    exact Prod.ext rfl (Bank.mirror_mirror _ _)
  · intro i
    exact unseen_of_ne_amm fun e => Swap.tryAccounts_ne_amm
  · intro i l h
    exact Swap.tryAccounts_eq_ok.mpr (Swap.tryAccounts_eq_ok.mp h).mirror

theorem AddLiquidity.tryAccounts_mirror (self : AddLiquidity Key) :
    Outcome.Agree ProgramError.ammError (Prod.map (Bank.mirror self.config) LoadedLp.mirror)
      (self.tryAccounts A B signers)
      (self.mirror.tryAccounts A (B.mirror self.config) signers) := by
  refine .of_involution (fun i : AddLiquidity Key × Bank Key => i.1.tryAccounts A i.2 signers)
    (fun i => (i.1.mirror, i.2.mirror i.1.config))
    (fun i => Prod.map (Bank.mirror i.1.config) LoadedLp.mirror) ?_ ?_ ?_ (self, B)
  · intro i
    exact Prod.ext rfl (Bank.mirror_mirror _ _)
  · intro i
    exact unseen_of_ne_amm fun e => AddLiquidity.tryAccounts_ne_amm
  · rintro i ⟨B₁, l⟩ h
    exact AddLiquidity.tryAccounts_eq_ok.mpr (AddLiquidity.tryAccounts_eq_ok.mp h).mirror

theorem RemoveLiquidity.tryAccounts_mirror (self : RemoveLiquidity Key) :
    Outcome.Agree ProgramError.ammError LoadedLp.mirror (self.tryAccounts A B signers)
      (self.mirror.tryAccounts A (B.mirror self.config) signers) := by
  refine .of_involution (fun i : RemoveLiquidity Key × Bank Key => i.1.tryAccounts A i.2 signers)
    (fun i => (i.1.mirror, i.2.mirror i.1.config)) (fun _ => LoadedLp.mirror) ?_ ?_ ?_ (self, B)
  · intro i
    exact Prod.ext rfl (Bank.mirror_mirror _ _)
  · intro i
    exact unseen_of_ne_amm fun e => RemoveLiquidity.tryAccounts_ne_amm
  · intro i l h
    exact RemoveLiquidity.tryAccounts_eq_ok.mpr (RemoveLiquidity.tryAccounts_eq_ok.mp h).mirror

/-! ## Handlers -/

/-- The accounts that a trade moves tokens between are four. -/
structure Swap.Distinct (accs : Swap Key) : Prop where
  userX_vaultX : accs.userX ≠ accs.vaultX
  userY_vaultY : accs.userY ≠ accs.vaultY
  userX_userY : accs.userX ≠ accs.userY
  userX_vaultY : accs.userX ≠ accs.vaultY
  userY_vaultX : accs.userY ≠ accs.vaultX
  vaultX_vaultY : accs.vaultX ≠ accs.vaultY

omit [DecidableEq Key] in
theorem Swap.Checked.distinct {self : Swap Key} {l : Loaded Key} (h : self.Checked A B signers l)
    (hxy : l.config.mintX ≠ l.config.mintY) (hu : self.user ≠ self.config) : self.Distinct := by
  have hm : self.mintX ≠ self.mintY := by
    rw [← h.mintX_eq, ← h.mintY_eq]
    exact hxy
  have hmint : ∀ o, A.associatedAddress o self.mintX ≠ A.associatedAddress o self.mintY :=
    fun o he => hm (A.associated_injective he).2
  constructor
  · rw [h.userX_eq, h.vaultX_eq]
    exact A.associated_ne_of_owner hu
  · rw [h.userY_eq, h.vaultY_eq]
    exact A.associated_ne_of_owner hu
  · rw [h.userX_eq, h.userY_eq]
    exact hmint _
  · rw [h.userX_eq, h.vaultY_eq]
    exact A.associated_ne_of_owner hu
  · rw [h.userY_eq, h.vaultX_eq]
    exact A.associated_ne_of_owner hu
  · rw [h.vaultX_eq, h.vaultY_eq]
    exact hmint _

/-- A swap of the mirror image moves the same tokens between the same accounts. -/
theorem Swap.swap_mirror (self : Swap Key) (l : Loaded Key) (kind : SwapKind) (aToB : Bool) :
    self.mirror.swap A B signers l.mirror kind (!aToB) = self.swap A B signers l kind aToB := by
  cases aToB <;> rfl

/-- Two transfers one after the other. -/
def Bank.twoTransfers (B : Bank Key) (signers : List Key) (s₁ m₁ d₁ a₁ : Key) (n₁ : U64) (e₁ : U8)
    (s₂ m₂ d₂ a₂ : Key) (n₂ : U64) (e₂ : U8) : Result (Bank Key) := do
  let B ← B.cpi (B.tokens.transferChecked signers s₁ m₁ d₁ a₁ n₁ e₁)
  B.cpi (B.tokens.transferChecked signers s₂ m₂ d₂ a₂ n₂ e₂)

section Exchange

variable {s₁ m₁ d₁ a₁ s₂ m₂ d₂ a₂ : Key} {n₁ n₂ : U64} {e₁ e₂ : U8}

theorem Bank.twoTransfers_comm (h₁ : s₁ ≠ d₁) (h₂ : s₂ ≠ d₂) (hss : s₁ ≠ s₂) (hsd : s₁ ≠ d₂)
    (hds : d₁ ≠ s₂) (hdd : d₁ ≠ d₂)
    (h : B.twoTransfers signers s₁ m₁ d₁ a₁ n₁ e₁ s₂ m₂ d₂ a₂ n₂ e₂ = .ok B') :
    B.twoTransfers signers s₂ m₂ d₂ a₂ n₂ e₂ s₁ m₁ d₁ a₁ n₁ e₁ = .ok B' := by
  unfold Bank.twoTransfers at *
  simp only [Outcome.bind_eq_ok, Bank.cpi_eq_ok] at *
  obtain ⟨B₁, ⟨ht₁, hc₁⟩, ht₂, hc₂⟩ := h
  obtain ⟨L₂, hL₂, hL₁⟩ := transferChecked_comm h₁ h₂ hss hsd hds hdd ht₁ ht₂
  exact ⟨{ B with tokens := L₂ }, ⟨hL₂, rfl⟩, hL₁, hc₂.trans hc₁⟩

theorem Bank.twoTransfers_agree (h₁ : s₁ ≠ d₁) (h₂ : s₂ ≠ d₂) (hss : s₁ ≠ s₂) (hsd : s₁ ≠ d₂)
    (hds : d₁ ≠ s₂) (hdd : d₁ ≠ d₂) :
    Outcome.Agree ProgramError.ammError id
      (B.twoTransfers signers s₁ m₁ d₁ a₁ n₁ e₁ s₂ m₂ d₂ a₂ n₂ e₂)
      (B.twoTransfers signers s₂ m₂ d₂ a₂ n₂ e₂ s₁ m₁ d₁ a₁ n₁ e₁) := by
  have hne : ∀ {s₁ m₁ d₁ a₁ s₂ m₂ d₂ a₂ : Key} {n₁ n₂ : U64} {e₁ e₂ : U8} (e : AmmError),
      B.twoTransfers signers s₁ m₁ d₁ a₁ n₁ e₁ s₂ m₂ d₂ a₂ n₂ e₂ ≠ .err (.amm e) := by
    intro s₁ m₁ d₁ a₁ s₂ m₂ d₂ a₂ n₁ n₂ e₁ e₂ e h
    rcases Outcome.bind_eq_err.mp h with h | ⟨B₁, -, h⟩
    · exact cpi_ne_amm h
    · exact cpi_ne_amm h
  refine .of_unseen (unseen_of_ne_amm hne) (unseen_of_ne_amm hne) ?_ ?_
  · intro B' h
    exact Bank.twoTransfers_comm h₁ h₂ hss hsd hds hdd h
  · intro B' h
    exact ⟨B', Bank.twoTransfers_comm h₂ h₁ hss.symm hds.symm hsd.symm hdd.symm h⟩

end Exchange

omit [DecidableEq Key] in
theorem AddLiquidity.quote_mirror (l : LoadedLp Key) (a b : U64) :
    AddLiquidity.quote l.mirror b a = (AddLiquidity.quote l a b).map LiquidityQuote.mirror := by
  unfold AddLiquidity.quote quoted
  show (if l.mintLp.supply = 0 then (initialLiquidity b a).mapErr _
    else (AmmMath.addLiquidity l.vaultY.amount l.vaultX.amount l.mintLp.supply b a).mapErr _) = _
  rw [initialLiquidity_mirror, addLiquidity_mirror, apply_ite (Outcome.map _), Outcome.map_mapErr,
    Outcome.map_mapErr]

theorem AddLiquidity.handle_mirror {self : AddLiquidity Key} {l : LoadedLp Key}
    (hd : self.toSwap.Distinct) (a b minLp : U64) :
    Outcome.Agree ProgramError.ammError id (self.handle A B signers l a b minLp)
      (self.mirror.handle A B signers l.mirror b a minLp) := by
  unfold AddLiquidity.handle
  rw [AddLiquidity.quote_mirror]
  refine .bind (.refl _) fun _ _ => .bind (.of_map _) fun q _ => .bind (.refl _) fun _ _ =>
    .bind_pair (Bank.twoTransfers_agree hd.userX_vaultX hd.userY_vaultY hd.userX_userY
      hd.userX_vaultY hd.userY_vaultX.symm hd.vaultX_vaultY) fun B₂ => .refl _

theorem RemoveLiquidity.handle_mirror {self : RemoveLiquidity Key} {l : LoadedLp Key}
    (hd : self.toSwap.Distinct) (lpBurn minA minB : U64) :
    Outcome.Agree ProgramError.ammError id (self.handle A B signers l lpBurn minA minB)
      (self.mirror.handle A B signers l.mirror lpBurn minB minA) := by
  have hquote : quoted (AmmMath.removeLiquidity l.mirror.vaultX.amount l.mirror.vaultY.amount
      l.mirror.mintLp.supply lpBurn) =
      (quoted (AmmMath.removeLiquidity l.vaultX.amount l.vaultY.amount l.mintLp.supply
        lpBurn)).map LiquidityQuote.mirror := by
    unfold quoted
    rw [Outcome.map_mapErr, ← removeLiquidity_mirror]
    rfl
  unfold RemoveLiquidity.handle
  rw [hquote]
  refine .bind (.refl _) fun _ _ => .bind (.of_map _) fun q _ => ?_
  rw [Outcome.require_comm]
  refine .bind (.refl _) fun _ _ => .bind (.refl _) fun _ _ => .bind (.refl _) fun B₁ _ => ?_
  exact Bank.twoTransfers_agree hd.userX_vaultX.symm hd.userY_vaultY.symm hd.vaultX_vaultY
    hd.userY_vaultX.symm hd.userX_vaultY hd.userX_userY

/-! ## Instructions on the pool -/

/-- A mirrored trade in the mirror image of its pool does what the trade does in the pool. -/
theorem trade_mirror {ix : Instruction Key} (ht : ix.IsTrade) (hp : PoolAt A B ix.config cfg lp)
    (hadm : ∀ k ∈ signers, ¬ A.IsProgramAddress k) :
    Outcome.Agree ProgramError.ammError (Bank.mirror ix.config) (ix.process A B signers)
      (ix.mirror.process A (B.mirror ix.config) signers) := by
  have hdistinct : ∀ {accs : Swap Key} {l : Loaded Key}, accs.config = ix.config →
      accs.Checked A B signers l → accs.Distinct := by
    intro accs l hc h
    refine h.distinct ?_ fun hu => hadm _ h.signed (hu ▸ hc ▸ hp.isProgramAddress)
    rw [Option.some.inj (h.config.symm.trans (hc ▸ hp.config))]
    exact hp.mintX_ne_mintY
  cases ix with
  | init | updateFee | setLocked | updateAuthority => exact ht.elim
  | swap accs kind aToB =>
    refine accs.tryAccounts_mirror.bind fun l _ => ?_
    rw [Swap.swap_mirror, Swap.swap_mirror_bank]
    exact .of_map _
  | addLiquidity accs a b minLp =>
    refine accs.tryAccounts_mirror.bind fun ⟨B₁, l⟩ h => ?_
    show Outcome.Agree _ _ (accs.handle A B₁ signers l a b minLp)
      (accs.mirror.handle A (B₁.mirror accs.config) signers l.mirror b a minLp)
    rw [AddLiquidity.handle_mirror_bank]
    have hch := (AddLiquidity.tryAccounts_eq_ok.mp h).toSwap
    exact (AddLiquidity.handle_mirror (hdistinct rfl hch) a b minLp).map _
  | removeLiquidity accs lpBurn minA minB =>
    refine accs.tryAccounts_mirror.bind fun l h => ?_
    show Outcome.Agree _ _ (accs.handle A B signers l lpBurn minA minB)
      (accs.mirror.handle A (B.mirror accs.config) signers l.mirror lpBurn minB minA)
    rw [RemoveLiquidity.handle_mirror_bank]
    have hch := (RemoveLiquidity.tryAccounts_eq_ok.mp h).toSwap
    exact (RemoveLiquidity.handle_mirror (hdistinct rfl hch) lpBurn minA minB).map _

theorem loadConfig_mirror_self :
    loadConfig (B.mirror c) c = (loadConfig B c).map Config.mirror := by
  unfold loadConfig
  rw [Bank.configs_mirror_self]
  cases B.configs c <;> rfl

theorem Admin.tryAccounts_mirror (self : Admin Key) :
    self.tryAccounts A (B.mirror self.config) signers =
      (self.tryAccounts A B signers).map Config.mirror := by
  unfold Admin.tryAccounts
  rw [loadConfig_mirror_self]
  simp only [Outcome.map_bind, Outcome.bind_map, Outcome.map_ok]
  rfl

theorem UpdateFee.updateFee_mirror (self : UpdateFee Key) (newFeeBps : U16) :
    UpdateFee.updateFee self (B.mirror self.config) cfg.mirror newFeeBps =
      (UpdateFee.updateFee self B cfg newFeeBps).map (Bank.mirror self.config) := by
  unfold UpdateFee.updateFee
  simp only [Outcome.map_bind, Outcome.map_ok, ← Bank.setConfig_mirror_self]
  rfl

theorem SetLocked.setLocked_mirror (self : SetLocked Key) (locked : Bool) :
    SetLocked.setLocked self (B.mirror self.config) cfg.mirror locked =
      (SetLocked.setLocked self B cfg locked).map (Bank.mirror self.config) := by
  unfold SetLocked.setLocked
  simp only [Outcome.map_bind, Outcome.map_ok, ← Bank.setConfig_mirror_self]
  rfl

theorem UpdateAuthority.updateAuthority_mirror (self : UpdateAuthority Key)
    (newAuthority : Option Key) :
    UpdateAuthority.updateAuthority self (B.mirror self.config) cfg.mirror newAuthority =
      (UpdateAuthority.updateAuthority self B cfg newAuthority).map
        (Bank.mirror self.config) := by
  unfold UpdateAuthority.updateAuthority
  simp only [Outcome.map_bind, Outcome.map_ok, ← Bank.setConfig_mirror_self]
  rfl

/-- An admin instruction does not read which token is which. -/
theorem admin_mirror (ix : Instruction Key) (ha : ix.IsAdmin) :
    Outcome.Agree ProgramError.ammError (Bank.mirror ix.config) (ix.process A B signers)
      (ix.mirror.process A (B.mirror ix.config) signers) := by
  have hcheck : ∀ (self : Admin Key) (handler handler' : Config Key → Result (Bank Key)),
      (∀ cfg : Config Key, handler' cfg.mirror = (handler cfg).map (Bank.mirror self.config)) →
      Outcome.Agree ProgramError.ammError (Bank.mirror self.config)
        (self.tryAccounts A B signers >>= handler)
        (self.tryAccounts A (B.mirror self.config) signers >>= handler') := by
    intro self handler handler' hh
    rw [Admin.tryAccounts_mirror]
    refine (Outcome.Agree.of_map _).bind fun cfg _ => ?_
    rw [hh]
    exact .of_map _
  cases ix with
  | init | swap | addLiquidity | removeLiquidity => exact ha.elim
  | updateFee accs newFeeBps =>
    exact hcheck accs _ _ fun cfg => UpdateFee.updateFee_mirror accs newFeeBps
  | setLocked accs locked => exact hcheck accs _ _ fun cfg => SetLocked.setLocked_mirror accs locked
  | updateAuthority accs newAuthority =>
    exact hcheck accs _ _ fun cfg => UpdateAuthority.updateAuthority_mirror accs newAuthority

/-! ## All else -/

theorem initMint_mirror {seeds : Seeds Key} {d : U8} {authority : Key} :
    initMint A (B.mirror c) signers k seeds d authority =
      (initMint A B signers k seeds d authority).map (Bank.mirror c) := by
  unfold initMint
  simp only [Outcome.map_bind, Bank.isNone_mirror, Bank.tokens_mirror, Bank.cpi_mirror]

theorem Initialize.tryAccounts_mirror (self : Initialize Key) (seed : U64) :
    self.tryAccounts A (B.mirror c) signers seed =
      (self.tryAccounts A B signers seed).map (Bank.mirror c) := by
  unfold Initialize.tryAccounts loadMint
  simp only [Outcome.map_bind, Outcome.bind_map, initMint_mirror, initAssociated_mirror,
    Bank.vacant_mirror, Bank.tokens_mirror, Outcome.map_ok]

/-- `init` creates its config, so it fails where there is one. -/
theorem Initialize.tryAccounts_ne_ok {self : Initialize Key} {seed : U64}
    (hc : B.configs self.config = some cfg) : self.tryAccounts A B signers seed ≠ .ok B' := by
  intro h
  have hinit : (Instruction.init self seed 0 none).process A B signers =
      .ok (B'.setConfig self.config _) := Outcome.bind_eq_ok.mpr ⟨B', h, rfl⟩
  cases (init_spec hinit).vacant.symm.trans hc

theorem loadMint_mirror : loadMint (B.mirror c) k = loadMint B k := rfl

theorem loadAccount_mirror : loadAccount (B.mirror c) k = loadAccount B k := rfl

theorem loadConfig_mirror_of_ne (h : k ≠ c) : loadConfig (B.mirror c) k = loadConfig B k := by
  unfold loadConfig
  rw [Bank.configs_mirror_of_ne h]

theorem Swap.tryAccounts_mirror_of_ne {self : Swap Key} (h : self.config ≠ c) :
    self.tryAccounts A (B.mirror c) signers = self.tryAccounts A B signers := by
  unfold Swap.tryAccounts
  rw [loadConfig_mirror_of_ne h]
  rfl

theorem AddLiquidity.tryAccounts_mirror_of_ne {self : AddLiquidity Key} (h : self.config ≠ c) :
    self.tryAccounts A (B.mirror c) signers =
      (self.tryAccounts A B signers).map (Prod.map (Bank.mirror c) id) := by
  unfold AddLiquidity.tryAccounts
  rw [loadConfig_mirror_of_ne h]
  simp only [Outcome.map_bind, Outcome.bind_map, initAssociatedIfNeeded_mirror, loadMint_mirror,
    loadAccount_mirror, Outcome.map_ok, Prod.map, id]

theorem RemoveLiquidity.tryAccounts_mirror_of_ne {self : RemoveLiquidity Key}
    (h : self.config ≠ c) :
    self.tryAccounts A (B.mirror c) signers = self.tryAccounts A B signers := by
  unfold RemoveLiquidity.tryAccounts
  rw [loadConfig_mirror_of_ne h]
  rfl

theorem Admin.tryAccounts_mirror_of_ne {self : Admin Key} (h : self.config ≠ c) :
    self.tryAccounts A (B.mirror c) signers = self.tryAccounts A B signers := by
  unfold Admin.tryAccounts
  rw [loadConfig_mirror_of_ne h]

/-- An instruction on another pool does not see the exchange. -/
theorem process_mirror_of_ne {ix : Instruction Key} (hne : ix.config ≠ c) :
    ix.process A (B.mirror c) signers = (ix.process A B signers).map (Bank.mirror c) := by
  cases ix with
  | init accs seed feeBps authority =>
    have hc : accs.config ≠ c := hne
    simp only [Instruction.process, Initialize.tryAccounts_mirror, Initialize.init,
      Outcome.bind_map, Outcome.map_bind, Outcome.map_ok, Bank.setConfig_mirror_of_ne hc]
  | swap accs kind aToB =>
    simp only [Instruction.process, Swap.tryAccounts_mirror_of_ne hne, Outcome.map_bind,
      Swap.swap_mirror_bank]
  | addLiquidity accs a b minLp =>
    simp only [Instruction.process, AddLiquidity.tryAccounts_mirror_of_ne hne, Outcome.bind_map,
      Outcome.map_bind, Prod.map, id, AddLiquidity.handle_mirror_bank]
  | removeLiquidity accs lpBurn minA minB =>
    simp only [Instruction.process, RemoveLiquidity.tryAccounts_mirror_of_ne hne,
      Outcome.map_bind, RemoveLiquidity.handle_mirror_bank]
  | updateFee accs newFeeBps =>
    have hc : accs.config ≠ c := hne
    simp only [Instruction.process, Admin.tryAccounts_mirror_of_ne hc, UpdateFee.updateFee,
      Outcome.map_bind, Outcome.map_ok, Bank.setConfig_mirror_of_ne hc]
  | setLocked accs locked =>
    have hc : accs.config ≠ c := hne
    simp only [Instruction.process, Admin.tryAccounts_mirror_of_ne hc, SetLocked.setLocked,
      Outcome.map_bind, Outcome.map_ok, Bank.setConfig_mirror_of_ne hc]
  | updateAuthority accs newAuthority =>
    have hc : accs.config ≠ c := hne
    simp only [Instruction.process, Admin.tryAccounts_mirror_of_ne hc,
      UpdateAuthority.updateAuthority, Outcome.map_bind, Outcome.map_ok,
      Bank.setConfig_mirror_of_ne hc]

theorem token_mirror {ix : TokenInstruction Key} :
    ix.process A (B.mirror c) signers = (ix.process A B signers).map (Bank.mirror c) := by
  cases ix with
  | transferChecked | mintTo | burn => exact Bank.cpi_mirror _
  | initializeMint | createAssociated =>
    simp only [TokenInstruction.process, Outcome.map_bind, Bank.isNone_mirror,
      Bank.tokens_mirror, Bank.cpi_mirror]

/-! ## Runs -/

theorem exec_mirror {call : Call Key} (hp : PoolAt A B c cfg lp) (hadm : call.Admissible A) :
    Outcome.Agree ProgramError.ammError (Bank.mirror c) (exec A B call)
      (exec A (B.mirror c) (call.mirror c)) := by
  obtain ⟨signers, op⟩ := call
  cases op with
  | token ix =>
    show Outcome.Agree _ _ (ix.process A B signers) (ix.process A (B.mirror c) signers)
    rw [token_mirror]
    exact .of_map _
  | amm ix =>
    by_cases hc : ix.config = c
    · subst hc
      have hcall : Call.mirror ix.config ⟨signers, .amm ix⟩ = ⟨signers, .amm ix.mirror⟩ :=
        if_pos rfl
      rw [hcall]
      show Outcome.Agree _ _ (ix.process A B signers)
        (ix.mirror.process A (B.mirror ix.config) signers)
      cases ix with
      | swap | addLiquidity | removeLiquidity => exact trade_mirror trivial hp hadm
      | updateFee accs newFeeBps => exact admin_mirror (.updateFee accs newFeeBps) trivial
      | setLocked accs locked => exact admin_mirror (.setLocked accs locked) trivial
      | updateAuthority accs newAuthority =>
        exact admin_mirror (.updateAuthority accs newAuthority) trivial
      | init accs seed feeBps authority =>
        show Outcome.Agree _ _ (accs.tryAccounts A B signers seed >>= _)
          (accs.tryAccounts A (B.mirror accs.config) signers seed >>= _)
        rw [Initialize.tryAccounts_mirror]
        exact (Outcome.Agree.of_map _).bind fun B₁ h =>
          absurd h (Initialize.tryAccounts_ne_ok hp.config)
    · have hcall : Call.mirror c ⟨signers, .amm ix⟩ = ⟨signers, .amm ix⟩ := if_neg hc
      rw [hcall]
      show Outcome.Agree _ _ (ix.process A B signers) (ix.process A (B.mirror c) signers)
      rw [process_mirror_of_ne hc]
      exact .of_map _

/-- The mirror image of a pool has its vaults exchanged. -/
theorem Bank.pool_mirror : (B.mirror c).pool A c = (B.pool A c).map PoolState.mirror := by
  unfold Bank.pool
  rw [Bank.configs_mirror_self, Bank.tokens_mirror]
  cases B.configs c with
  | none => rfl
  | some cfg =>
    simp only [Option.map_some, Option.bind_eq_bind, Option.bind_some, Config.mirror]
    cases A.createProgramAddress (.lpMint c) cfg.lpBump with
    | none => rfl
    | some mintLp =>
      simp only [Option.bind_some]
      cases B.tokens.accounts (A.associatedAddress c cfg.mintX) <;>
        cases B.tokens.accounts (A.associatedAddress c cfg.mintY) <;>
        cases B.tokens.accounts (A.associatedAddress c mintLp) <;>
        cases B.tokens.mints mintLp <;> rfl

/-- **X and Y are interchangeable.** -/
theorem mirror_symmetry (A : AddressScheme Key) (B : Bank Key) (c : Key)
    (hp : ∃ cfg lp, PoolAt A B c cfg lp) (calls : List (Call Key))
    (hadm : ∀ call ∈ calls, call.Admissible A) :
    run (exec A) (B.mirror c) (calls.map (Call.mirror c)) = (run (exec A) B calls).mirror c ∧
      trace ProgramError.ammError (exec A) (B.mirror c) (calls.map (Call.mirror c)) =
        (trace ProgramError.ammError (exec A) B calls).map (Outcome.map (Bank.mirror c)) ∧
      ((run (exec A) B calls).mirror c).pool A c =
        ((run (exec A) B calls).pool A c).map PoolState.mirror := by
  have hkept : ∀ B₁ call B₂, (∃ cfg lp, PoolAt A B₁ c cfg lp) → call.Admissible A →
      exec A B₁ call = .ok B₂ → ∃ cfg lp, PoolAt A B₂ c cfg lp := by
    rintro B₁ call B₂ ⟨cfg, lp, hp⟩ - h
    obtain ⟨cfg', hp', -⟩ := hp.kept h
    exact ⟨cfg', lp, hp'⟩
  have hstep : ∀ B₁ (call : Call Key), (∃ cfg lp, PoolAt A B₁ c cfg lp) → call.Admissible A →
      Outcome.Agree ProgramError.ammError (Bank.mirror c) (exec A B₁ call)
        (exec A (B₁.mirror c) (call.mirror c)) := by
    rintro B₁ call ⟨cfg, lp, hp⟩ hadm
    exact exec_mirror hp hadm
  exact ⟨run_commutes hkept hstep hp hadm, trace_commutes hkept hstep hp hadm, Bank.pool_mirror⟩

theorem mirror_symmetry_roundTrip :
    run (exec Addr.scheme) (Demo.bank.mirror Demo.pool)
        (Demo.roundTrip.map (Call.mirror Demo.pool)) =
        (run (exec Addr.scheme) Demo.bank Demo.roundTrip).mirror Demo.pool ∧
      trace ProgramError.ammError (exec Addr.scheme) (Demo.bank.mirror Demo.pool)
          (Demo.roundTrip.map (Call.mirror Demo.pool)) =
        (trace ProgramError.ammError (exec Addr.scheme) Demo.bank Demo.roundTrip).map
          (Outcome.map (Bank.mirror Demo.pool)) ∧
      ((run (exec Addr.scheme) Demo.bank Demo.roundTrip).mirror Demo.pool).pool Addr.scheme
          Demo.pool =
        ((run (exec Addr.scheme) Demo.bank Demo.roundTrip).pool Addr.scheme Demo.pool).map
          PoolState.mirror := by
  refine mirror_symmetry Addr.scheme Demo.bank Demo.pool
    ⟨_, Demo.bank_reachable.inPlace _ _ (config_of_pool Demo.bank_pool)⟩ Demo.roundTrip ?_
  intro call hcall
  simp only [Demo.roundTrip, List.mem_cons, List.not_mem_nil, or_false] at hcall
  rcases hcall with rfl | rfl | rfl <;> exact Demo.byAlice_admissible _

end Amm
