import ToyAmm.Conservation
import ToyAmm.LedgerEffect
import ToyAmm.ShareValue

/-!
# What a trade accepts

Every trade names limits. `Instruction.deal` reads them as the worst change of the pool that the
user is ready to accept: the most that is paid in of either token, and the least that is issued of
shares. A trade that succeeds is no worse for its user, and moves nothing but the accounts of the
user in the mints of the deal and the two vaults (`dealt_of_exec`).
-/

open Checked AmmMath Token Ledger ConstantProduct Transition

namespace Amm

variable {Key : Type} [DecidableEq Key] {A : AddressScheme Key} {B B' : Bank Key} {c lp u : Key}
  {cfg cfg' : Config Key} {signers : List Key}

/-! ## Deals -/

/-- The most that is paid into a pool, and the least that is issued of its shares; negative for what
is paid out and redeemed. -/
structure Terms where
  x : ℤ
  y : ℤ
  shares : ℤ
  deriving DecidableEq, Repr

/-- A trade as its user sees it. -/
structure Deal (Key : Type) where
  user : Key
  /-- The trade issues or redeems shares. -/
  liquidity : Bool
  terms : Terms
  deriving DecidableEq, Repr

/-- The most that a swap spends. -/
def SwapKind.maxIn : SwapKind → U64
  | .exactInput amountIn _ => amountIn
  | .exactOutput _ maxAmountIn => maxAmountIn

/-- The least that a swap accepts. -/
def SwapKind.minOut : SwapKind → U64
  | .exactInput _ minAmountOut => minAmountOut
  | .exactOutput amountOut _ => amountOut

def SwapKind.terms (kind : SwapKind) (aToB : Bool) : Terms :=
  if aToB then ⟨kind.maxIn.toNat, -kind.minOut.toNat, 0⟩
  else ⟨-kind.minOut.toNat, kind.maxIn.toNat, 0⟩

def Instruction.deal : Instruction Key → Option (Deal Key)
  | .swap accs kind aToB => some ⟨accs.user, false, kind.terms aToB⟩
  | .addLiquidity accs amountA amountB minLpTokens =>
    some ⟨accs.user, true, ⟨amountA.toNat, amountB.toNat, minLpTokens.toNat⟩⟩
  | .removeLiquidity accs lpBurn minA minB =>
    some ⟨accs.user, true, ⟨-minA.toNat, -minB.toNat, -lpBurn.toNat⟩⟩
  | _ => none

/-- The two mints that a config trades. -/
def Config.mints (cfg : Config Key) : Finset Key := {cfg.mintX, cfg.mintY}

/-- The mints in which a deal moves tokens of its user. -/
def Deal.mints (d : Deal Key) (cfg : Config Key) (lp : Key) : Finset Key :=
  if d.liquidity then insert lp cfg.mints else cfg.mints

/-- What `u` has of a token in the associated account. -/
def Bank.purse (B : Bank Key) (A : AddressScheme Key) (u m : Key) : ℕ :=
  B.tokens.balance m (A.associatedAddress u m)

/-- From `B` to `B'` the user of a deal has come off no worse than its terms, and nothing has moved
but the accounts of the user and the vaults. -/
structure Dealt (A : AddressScheme Key) (cfg : Config Key) (c lp : Key) (d : Deal Key)
    (B B' : Bank Key) : Prop where
  evolves : Evolves B.tokens B'.tokens
  tallies : Tallies B.tokens B'.tokens
  holds : ∀ M ∈ d.mints cfg lp, B'.tokens.Holds (A.associatedAddress d.user M) M d.user
  frame : ∀ k, k ∉ (d.mints cfg lp).image (A.associatedAddress d.user) →
    k ∉ cfg.mints.image (A.associatedAddress c) → ∀ m, B'.tokens.balance m k = B.tokens.balance m k
  x : (B.purse A d.user cfg.mintX : ℤ) ≤ B'.purse A d.user cfg.mintX + d.terms.x
  y : (B.purse A d.user cfg.mintY : ℤ) ≤ B'.purse A d.user cfg.mintY + d.terms.y
  shares : B.purse A d.user lp + d.terms.shares ≤ B'.purse A d.user lp

/-! ## Where the tokens are -/

omit [DecidableEq Key] in
/-- An account that a trade found to be the user's, and that takes tokens of `m`, is for `m`. -/
theorem holds_of_dest {L L' : Ledger Key} {k m o : Key}
    (hk : ∃ t, L.accounts k = some t ∧ t.owner = u) (he : Evolves L L') (h : L'.Holds k m o) :
    L.Holds k m u := by
  obtain ⟨t, ht, rfl⟩ := hk
  have hold := he.holds_of_account ht h
  rw [hold.owner_eq ⟨t.amount, ht⟩] at hold
  exact hold

theorem swap_holds {self : Swap Key} {kind : SwapKind} {aToB : Bool}
    (h : (Instruction.swap self kind aToB).process A B signers = .ok B')
    (hc : B.configs self.config = some cfg) :
    ∀ M ∈ cfg.mints, B.tokens.Holds (A.associatedAddress self.user M) M self.user := by
  obtain ⟨l, hl, h⟩ := Outcome.bind_eq_ok.mp h
  have hch := Swap.tryAccounts_eq_ok.mp hl
  obtain rfl := Option.some.inj (hch.config.symm.trans hc)
  unfold Swap.swap at h
  simp only [Outcome.bind_eq_ok, Outcome.require_eq_ok, Bank.cpi_eq_ok, exists_and_left,
    exists_const] at h
  obtain ⟨-, q, -, B₁, ⟨h₁, -⟩, h₂, -⟩ := h
  obtain ⟨e1, e2, -, -, e5, e6⟩ := hch.legs aToB
  have ht₁ := transferChecked_posts h₁
  obtain ⟨o, ho⟩ := (transferChecked_posts h₂).dest
  have hin := ht₁.holds
  have hout : B.tokens.Holds (self.legs l aToB).userOut (self.legs l aToB).mintOut self.user := by
    refine holds_of_dest ?_ ht₁.posts.evolves ho
    cases aToB with
    | true => exact hch.userY
    | false => exact hch.userX
  rw [e1, e5] at hin
  rw [e2, e6] at hout
  simp only [Config.mints, Finset.forall_mem_insert, Finset.mem_singleton, forall_eq]
  cases aToB with
  | true => exact ⟨hin, hout⟩
  | false => exact ⟨hout, hin⟩

/-- After a deposit the user has an account for either token and for the shares. -/
theorem add_holds {self : AddLiquidity Key} {a b minLp : U64}
    (h : (Instruction.addLiquidity self a b minLp).process A B signers = .ok B')
    (hc : B.configs self.config = some cfg)
    (hlp : A.createProgramAddress (.lpMint self.config) cfg.lpBump = some lp) :
    ∀ M ∈ insert lp cfg.mints, B'.tokens.Holds (A.associatedAddress self.user M) M self.user := by
  obtain ⟨⟨B₁, l⟩, hl, h⟩ := Outcome.bind_eq_ok.mp h
  have hch := AddLiquidity.tryAccounts_eq_ok.mp hl
  have hsw := hch.toSwap
  obtain rfl := Option.some.inj (hsw.config.symm.trans hc)
  obtain rfl := Option.some.inj (hch.lpAddress.symm.trans hlp)
  have hE := initAssociatedIfNeeded_eq_ok hch.userLp
  unfold AddLiquidity.handle at h
  simp only [Outcome.bind_eq_ok, Outcome.require_eq_ok, Bank.cpi_eq_ok, exists_and_left,
    exists_const] at h
  obtain ⟨-, q, -, -, B₂, ⟨h₂, -⟩, B₃, ⟨h₃, -⟩, B₄, ⟨h₄, -⟩, h⟩ := h
  have ht₂ := transferChecked_posts h₂
  have ht₃ := transferChecked_posts h₃
  have hm₄ := mintTo_posts h₄
  obtain ⟨hlock, -, -⟩ := lock_posts h
  have he₄ := hm₄.posts.evolves.trans hlock.evolves
  have he₃ := ht₃.posts.evolves.trans he₄
  have hX := (ht₂.posts.evolves.trans he₃).holds ht₂.holds
  have hY := he₃.holds ht₃.holds
  have hL := (ht₂.posts.evolves.trans he₃).holds hE.holds
  rw [show self.userX = A.associatedAddress self.user self.mintX from hsw.userX_eq,
    show self.mintX = l.config.mintX from hsw.mintX_eq.symm] at hX
  rw [show self.userY = A.associatedAddress self.user self.mintY from hsw.userY_eq,
    show self.mintY = l.config.mintY from hsw.mintY_eq.symm] at hY
  rw [hE.address] at hL
  simp only [Config.mints, Finset.forall_mem_insert, Finset.mem_singleton, forall_eq]
  exact ⟨hL, hX, hY⟩

theorem remove_holds {self : RemoveLiquidity Key} {n minA minB : U64}
    (h : (Instruction.removeLiquidity self n minA minB).process A B signers = .ok B')
    (hc : B.configs self.config = some cfg)
    (hlp : A.createProgramAddress (.lpMint self.config) cfg.lpBump = some lp) :
    ∀ M ∈ insert lp cfg.mints, B.tokens.Holds (A.associatedAddress self.user M) M self.user := by
  obtain ⟨l, hl, h⟩ := Outcome.bind_eq_ok.mp h
  have hch := RemoveLiquidity.tryAccounts_eq_ok.mp hl
  have hsw := hch.toSwap
  obtain rfl := Option.some.inj (hsw.config.symm.trans hc)
  obtain rfl := Option.some.inj (hch.lpAddress.symm.trans hlp)
  unfold RemoveLiquidity.handle at h
  simp only [Outcome.bind_eq_ok, Outcome.require_eq_ok, Bank.cpi_eq_ok, exists_and_left,
    exists_const] at h
  obtain ⟨-, q, -, -, -, B₁, ⟨h₁, -⟩, B₂, ⟨h₂, -⟩, h₃, -⟩ := h
  have hb₁ := burn_posts h₁
  have ht₂ := transferChecked_posts h₂
  obtain ⟨o, ho⟩ := ht₂.dest
  obtain ⟨o', ho'⟩ := (transferChecked_posts h₃).dest
  have hX : B.tokens.Holds self.userX self.mintX self.user :=
    holds_of_dest hsw.userX hb₁.posts.evolves ho
  have hY : B.tokens.Holds self.userY self.mintY self.user :=
    holds_of_dest hsw.userY (hb₁.posts.evolves.trans ht₂.posts.evolves) ho'
  have hL := hb₁.holds
  rw [show self.userX = A.associatedAddress self.user self.mintX from hsw.userX_eq,
    show self.mintX = l.config.mintX from hsw.mintX_eq.symm] at hX
  rw [show self.userY = A.associatedAddress self.user self.mintY from hsw.userY_eq,
    show self.mintY = l.config.mintY from hsw.mintY_eq.symm] at hY
  rw [hch.userLp_eq] at hL
  simp only [Config.mints, Finset.forall_mem_insert, Finset.mem_singleton, forall_eq]
  exact ⟨hL, hX, hY⟩

/-! ## What a trade moves -/

theorem SwapKind.quote_limits {kind : SwapKind} {rIn rOut : U64} {f : U16} {q : SwapAmounts}
    (h : kind.quote rIn rOut f = .ok q) :
    q.amountIn.toNat ≤ kind.maxIn.toNat ∧ kind.minOut.toNat ≤ q.amountOut.toNat := by
  obtain ⟨n, hn, hin, hout, -, -⟩ := SwapKind.quoted_of_quote h
  rw [← hin, ← hout]
  cases hn with
  | exactInput quote spent limit => exact ⟨(congrArg BitVec.toNat spent).le, limit⟩
  | exactOutput quote paid limit => exact ⟨limit, (congrArg BitVec.toNat paid).ge⟩

theorem held_singleton (m : Key) : held A B {u} m = B.purse A u m := Finset.sum_singleton _ _

omit [DecidableEq Key] in
theorem Config.mem_mints [DecidableEq Key] (cfg : Config Key) (aToB : Bool) :
    cfg.mintIn aToB ∈ cfg.mints ∧ cfg.mintOut aToB ∈ cfg.mints := by
  cases aToB <;> simp [Config.mints]

/-- What a trade moves out of and into the accounts of its user. -/
theorem SwapSpec.purse {kind : SwapKind} {aToB : Bool} {rIn rOut : U64} {q : SwapAmounts}
    (h : SwapSpec A B B' signers c u kind aToB cfg rIn rOut q) (hu : u ≠ c) (m : Key) :
    B'.purse A u m + (if m = cfg.mintIn aToB then q.amountIn.toNat else 0) =
      B.purse A u m + if m = cfg.mintOut aToB then q.amountOut.toNat else 0 := by
  rw [← held_singleton, ← held_singleton]
  exact h.held (Finset.mem_singleton_self u) (fun hc => hu (Finset.mem_singleton.mp hc).symm) m

theorem AddSpec.purse {a b minLp rX rY s : U64} {q : LiquidityQuote U64}
    (h : AddSpec A B B' signers c u a b minLp cfg lp rX rY s q) (hu : u ≠ c) (m : Key) :
    B'.purse A u m + (if m = cfg.mintX then q.amountA.toNat else 0) +
        (if m = cfg.mintY then q.amountB.toNat else 0) =
      B.purse A u m + if m = lp then q.lpTokens.toNat else 0 := by
  rw [← held_singleton, ← held_singleton]
  exact h.held (Finset.mem_singleton_self u) (fun hc => hu (Finset.mem_singleton.mp hc).symm) m

theorem RemoveSpec.purse {n minA minB rX rY s : U64} {q : LiquidityQuote U64}
    (h : RemoveSpec A B B' signers c u n minA minB cfg lp rX rY s q) (hu : u ≠ c) (m : Key) :
    B'.purse A u m + (if m = lp then q.lpTokens.toNat else 0) =
      B.purse A u m + (if m = cfg.mintX then q.amountA.toNat else 0) +
        if m = cfg.mintY then q.amountB.toNat else 0 := by
  rw [← held_singleton, ← held_singleton]
  exact h.held (Finset.mem_singleton_self u) (fun hc => hu (Finset.mem_singleton.mp hc).symm) m

/-- The same for a swap, in its direction. -/
theorem SwapSpec.purse_legs {kind : SwapKind} {aToB : Bool} {rIn rOut : U64} {q : SwapAmounts}
    (h : SwapSpec A B B' signers c u kind aToB cfg rIn rOut q) (hp : PoolAt A B c cfg lp)
    (hu : u ≠ c) :
    B'.purse A u (cfg.mintIn aToB) + q.amountIn.toNat = B.purse A u (cfg.mintIn aToB) ∧
      B'.purse A u (cfg.mintOut aToB) = B.purse A u (cfg.mintOut aToB) + q.amountOut.toNat := by
  have hio := hp.mintIn_ne_mintOut aToB
  have hin := h.purse hu (cfg.mintIn aToB)
  have hout := h.purse hu (cfg.mintOut aToB)
  rw [if_pos rfl, if_neg hio.symm, Nat.add_zero] at hin
  rw [if_neg hio, if_pos rfl, Nat.add_zero] at hout
  exact ⟨hin, hout⟩

/-- The user of a swap comes off no worse than its terms. -/
theorem SwapSpec.terms {kind : SwapKind} {aToB : Bool} {rIn rOut : U64} {q : SwapAmounts}
    (h : SwapSpec A B B' signers c u kind aToB cfg rIn rOut q) (hp : PoolAt A B c cfg lp)
    (hu : u ≠ c) :
    (B.purse A u cfg.mintX : ℤ) ≤ B'.purse A u cfg.mintX + (kind.terms aToB).x ∧
      (B.purse A u cfg.mintY : ℤ) ≤ B'.purse A u cfg.mintY + (kind.terms aToB).y ∧
      B.purse A u lp + (kind.terms aToB).shares ≤ B'.purse A u lp := by
  obtain ⟨hspent, hgot⟩ := SwapKind.quote_limits h.quote
  obtain ⟨hin, hout⟩ := h.purse_legs hp hu
  have hL := h.purse hu lp
  rw [if_neg (hp.mintIn_ne_lp aToB), if_neg (hp.mintOut_ne_lp aToB)] at hL
  cases aToB with
  | true =>
    simp only [Config.mintIn_true, Config.mintOut_true] at hin hout
    simp only [SwapKind.terms, if_true]
    exact ⟨by omega, by omega, by omega⟩
  | false =>
    simp only [Config.mintIn_false, Config.mintOut_false] at hin hout
    simp only [SwapKind.terms, if_false, Bool.false_eq_true]
    exact ⟨by omega, by omega, by omega⟩

omit [DecidableEq Key] in
/-- What is none of the associated accounts of `o` is different from each of them. -/
theorem ne_of_not_mem_image [DecidableEq Key] {ms : Finset Key} {k o M : Key}
    (hk : k ∉ ms.image (A.associatedAddress o)) (hM : M ∈ ms) : k ≠ A.associatedAddress o M := by
  rintro rfl
  exact hk (Finset.mem_image_of_mem _ hM)

theorem SwapSpec.dealt {kind : SwapKind} {aToB : Bool} {rIn rOut : U64} {q : SwapAmounts}
    (h : SwapSpec A B B' signers c u kind aToB cfg rIn rOut q) (hp : PoolAt A B c cfg lp)
    (hu : u ≠ c) (hholds : ∀ M ∈ cfg.mints, B.tokens.Holds (A.associatedAddress u M) M u) :
    Dealt A cfg c lp ⟨u, false, kind.terms aToB⟩ B B' := by
  obtain ⟨hX, hY, hL⟩ := h.terms hp hu
  refine ⟨h.confined.evolves, h.tallies, fun M hM => h.confined.evolves.holds (hholds M hM), ?_,
    hX, hY, hL⟩
  intro k hku hkc m
  have hb := h.balance m k
  obtain ⟨hin, hout⟩ := cfg.mem_mints aToB
  rw [entry_of_ne (ne_of_not_mem_image hku hin), entry_of_ne (ne_of_not_mem_image hkc hout),
    entry_of_ne (ne_of_not_mem_image hkc hin), entry_of_ne (ne_of_not_mem_image hku hout)] at hb
  omega

theorem AddSpec.dealt {a b minLp rX rY s : U64} {q : LiquidityQuote U64}
    (h : AddSpec A B B' signers c u a b minLp cfg lp rX rY s q) (hp : PoolAt A B c cfg lp)
    (hpos : 0 < s.toNat) (hu : u ≠ c)
    (hholds : ∀ M ∈ insert lp cfg.mints, B'.tokens.Holds (A.associatedAddress u M) M u) :
    Dealt A cfg c lp ⟨u, true, ⟨a.toNat, b.toNat, minLp.toNat⟩⟩ B B' := by
  have hxl := hp.mintX_ne_lp
  have hyl := hp.mintY_ne_lp
  have hxy := hp.mintX_ne_mintY
  have hX := h.purse hu cfg.mintX
  have hY := h.purse hu cfg.mintY
  have hL := h.purse hu lp
  obtain ⟨ha, hb, -⟩ := deposit_amounts h.quote
  have hlock : lockedShares s = 0 := if_neg (toNat_pos.mp hpos)
  simp only [if_true, hxy, hxl, hyl, hxy.symm, hxl.symm, hyl.symm, if_false, ha, hb]
    at hX hY hL
  have hmin := h.slippage
  refine ⟨h.confined.evolves, h.tallies, hholds, ?_, ?_, ?_, ?_⟩
  · intro k hku hkc m
    have hb := h.balance m k
    have hmX : cfg.mintX ∈ cfg.mints := Finset.mem_insert_self _ _
    have hmY : cfg.mintY ∈ cfg.mints := Finset.mem_insert_of_mem (Finset.mem_singleton_self _)
    have hmL : lp ∈ insert lp cfg.mints := Finset.mem_insert_self _ _
    rw [hlock, entry_zero, entry_of_ne (ne_of_not_mem_image hku (Finset.mem_insert_of_mem hmX)),
      entry_of_ne (ne_of_not_mem_image hku (Finset.mem_insert_of_mem hmY)),
      entry_of_ne (ne_of_not_mem_image hkc hmX), entry_of_ne (ne_of_not_mem_image hkc hmY),
      entry_of_ne (ne_of_not_mem_image hku hmL)] at hb
    omega
  · show (B.purse A u cfg.mintX : ℤ) ≤ B'.purse A u cfg.mintX + (a.toNat : ℤ)
    omega
  · show (B.purse A u cfg.mintY : ℤ) ≤ B'.purse A u cfg.mintY + (b.toNat : ℤ)
    omega
  · show (B.purse A u lp : ℤ) + (minLp.toNat : ℤ) ≤ B'.purse A u lp
    omega

theorem RemoveSpec.dealt {n minA minB rX rY s : U64} {q : LiquidityQuote U64}
    (h : RemoveSpec A B B' signers c u n minA minB cfg lp rX rY s q) (hp : PoolAt A B c cfg lp)
    (hu : u ≠ c)
    (hholds : ∀ M ∈ insert lp cfg.mints, B.tokens.Holds (A.associatedAddress u M) M u) :
    Dealt A cfg c lp ⟨u, true, ⟨-minA.toNat, -minB.toNat, -n.toNat⟩⟩ B B' := by
  have hxl := hp.mintX_ne_lp
  have hyl := hp.mintY_ne_lp
  have hxy := hp.mintX_ne_mintY
  have hX := h.purse hu cfg.mintX
  have hY := h.purse hu cfg.mintY
  have hL := h.purse hu lp
  simp only [if_true, hxy, hxl, hyl, hxy.symm, hxl.symm, hyl.symm, if_false,
    (removeLiquidity_spec h.quote).lpTokens] at hX hY hL
  have hminA := h.slippageA
  have hminB := h.slippageB
  refine ⟨h.confined.evolves, h.tallies, fun M hM => h.confined.evolves.holds (hholds M hM), ?_,
    ?_, ?_, ?_⟩
  · intro k hku hkc m
    have hb := h.balance m k
    have hmX : cfg.mintX ∈ cfg.mints := Finset.mem_insert_self _ _
    have hmY : cfg.mintY ∈ cfg.mints := Finset.mem_insert_of_mem (Finset.mem_singleton_self _)
    have hmL : lp ∈ insert lp cfg.mints := Finset.mem_insert_self _ _
    rw [entry_of_ne (ne_of_not_mem_image hku hmL), entry_of_ne (ne_of_not_mem_image hkc hmX),
      entry_of_ne (ne_of_not_mem_image hkc hmY),
      entry_of_ne (ne_of_not_mem_image hku (Finset.mem_insert_of_mem hmX)),
      entry_of_ne (ne_of_not_mem_image hku (Finset.mem_insert_of_mem hmY))] at hb
    omega
  · show (B.purse A u cfg.mintX : ℤ) ≤ B'.purse A u cfg.mintX + -(minA.toNat : ℤ)
    omega
  · show (B.purse A u cfg.mintY : ℤ) ≤ B'.purse A u cfg.mintY + -(minB.toNat : ℤ)
    omega
  · show (B.purse A u lp : ℤ) + -(n.toNat : ℤ) ≤ B'.purse A u lp
    omega

omit [DecidableEq Key] in
theorem Config.SameFixed.mints [DecidableEq Key] (h : cfg.SameFixed cfg') :
    cfg'.mints = cfg.mints := by
  unfold Config.mints
  rw [h.mintX, h.mintY]

theorem Dealt.congr {d : Deal Key} (hfix : cfg.SameFixed cfg') (h : Dealt A cfg' c lp d B B') :
    Dealt A cfg c lp d B B' := by
  obtain ⟨hev, htally, hholds, hframe, hx, hy, hshares⟩ := h
  unfold Deal.mints at hholds hframe
  rw [hfix.mints] at hholds hframe
  rw [hfix.mintX] at hx
  rw [hfix.mintY] at hy
  exact ⟨hev, htally, hholds, hframe, hx, hy, hshares⟩

/-- **A trade that succeeds keeps to its deal**, in a pool that has shares. -/
theorem PoolAt.dealt_of_exec {ix : Instruction Key} {d : Deal Key} (hp : PoolAt A B c cfg lp)
    (hpos : 0 < (view A B c cfg lp).shares) (hd : ix.deal = some d) (hc : ix.config = c)
    (hkeys : ∀ u ∈ signers, ¬ A.IsProgramAddress u) (h : ix.process A B signers = .ok B') :
    d.user ∈ signers ∧ Dealt A cfg c lp d B B' := by
  subst hc
  have hother : ∀ {u}, u ∈ signers → u ≠ ix.config := fun hs he =>
    hkeys _ (he ▸ hs) hp.isProgramAddress
  cases ix with
  | init | updateFee | setLocked | updateAuthority => cases hd
  | swap accs kind aToB =>
    obtain rfl := Option.some.inj hd
    obtain ⟨rIn, rOut, q, hs⟩ := hp.swap_spec rfl h
    exact ⟨hs.signed, hs.dealt hp (hother hs.signed) (swap_holds h hp.config)⟩
  | addLiquidity accs a b m =>
    obtain rfl := Option.some.inj hd
    obtain ⟨rX, rY, s, q, hs⟩ := hp.add_spec rfl h
    have hsup : s.toNat = (view A B accs.config cfg lp).shares := hs.supplyLp
    exact ⟨hs.signed, hs.dealt hp (hsup ▸ hpos) (hother hs.signed)
      (add_holds h hp.config hp.lpAddress)⟩
  | removeLiquidity accs l a b =>
    obtain rfl := Option.some.inj hd
    obtain ⟨rX, rY, s, q, hs⟩ := hp.remove_spec rfl h
    exact ⟨hs.signed, hs.dealt hp (hother hs.signed)
      (remove_holds h hp.config hp.lpAddress)⟩

end Amm
