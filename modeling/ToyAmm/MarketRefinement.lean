import ToyAmm.AssociatedAccounts
import ToyAmm.Market
import ToyAmm.Mirror
import ToyAmm.PoolAddresses
import ToyAmm.TradeSuccess

/-!
# Every pool is its market

`Listing.market` reads the market of a pool off the bank. Every instruction that names the pool,
with whatever accounts, and every payment between associated accounts reads as an order
(`Listing.Reads`), and does to the bank what the order does to the market: over every run the
market follows its orders, and every call ends as its order does (`market_follows`). What the
accounts, the words and the token program add is not seen.
-/

open Checked AmmMath Token Ledger Transition

namespace Amm

variable {Key : Type}

/-! ## Listings -/

/-- Where a pool is and what its assets are. -/
structure Listing (Key : Type) where
  pool : Key
  mint : Asset → Key
  decimals : Asset → U8

/-- Where `u` holds the asset. -/
def Listing.account (P : Listing Key) (A : AddressScheme Key) (u : Key) (a : Asset) : Key :=
  A.associatedAddress u (P.mint a)

/-- The market of the listed pool. -/
def Listing.market [DecidableEq Key] (P : Listing Key) (A : AddressScheme Key) (B : Bank Key) :
    Market Key where
  feeBps := (B.configs P.pool).elim 0 fun cfg => cfg.feeBps.toNat
  locked := (B.configs P.pool).elim true Config.locked
  authority := (B.configs P.pool).bind Config.authority
  shares := B.tokens.supply (P.mint .lp)
  opened u a := (B.tokens.accounts (P.account A u a)).isSome
  holding u a := B.tokens.balance (P.mint a) (P.account A u a)

/-- The listed pool is in place, and its assets are what the listing says. -/
structure Listing.Standing [DecidableEq Key] (P : Listing Key) (A : AddressScheme Key)
    (B : Bank Key) (cfg : Config Key) : Prop where
  pool : PoolAt A B P.pool cfg (P.mint .lp)
  mintX : cfg.mintX = P.mint .x
  mintY : cfg.mintY = P.mint .y
  isMint : ∀ a, ∃ auth, B.tokens.IsMint (P.mint a) auth (P.decimals a)
  genuine : B.Genuine A
  backed : B.tokens.SupplyBacked

variable [DecidableEq Key] {A : AddressScheme Key} {P : Listing Key} {B B' : Bank Key}
  {cfg cfg' : Config Key} {signers : List Key} {u src dst : Key} {a : Asset} {n : U64}

/-- A call that shows on the market, and keeps the pool standing with its config. -/
abbrev Listing.Shows (P : Listing Key) (A : AddressScheme Key) (cfg : Config Key)
    (x : Result (Bank Key)) (y : Shown (Market Key)) : Prop :=
  Outcome.Shows ProgramError.ammError (P.market A) (fun B' => P.Standing A B' cfg) x y

namespace Listing.Standing

variable (h : P.Standing A B cfg)
include h

theorem mint_injective : Function.Injective P.mint := by
  have hxy : P.mint .x ≠ P.mint .y := h.mintX ▸ h.mintY ▸ h.pool.mintX_ne_mintY
  have hxl : P.mint .x ≠ P.mint .lp := h.mintX ▸ h.pool.mintX_ne_lp
  have hyl : P.mint .y ≠ P.mint .lp := h.mintY ▸ h.pool.mintY_ne_lp
  intro a b hab
  cases a <;> cases b <;> first | rfl | exact absurd hab ‹_› | exact absurd hab.symm ‹_›

theorem account_eq_iff {k k' : Key} {a b : Asset} :
    P.account A k b = P.account A k' a ↔ k = k' ∧ b = a := by
  constructor
  · intro hab
    obtain ⟨hk, hm⟩ := A.associated_injective hab
    exact ⟨hk, h.mint_injective hm⟩
  · rintro ⟨rfl, rfl⟩
    rfl

/-- Who has an account for the asset holds some of it, possibly nothing. -/
theorem holds_iff : (P.market A B).opened u a = true ↔
    B.tokens.Holds (P.account A u a) (P.mint a) u := by
  constructor
  · intro ho
    obtain ⟨t, ht⟩ := Option.isSome_iff_exists.mp ho
    obtain ⟨hm, hown⟩ := h.genuine.account ht
    refine ⟨t.amount, ht.trans ?_⟩
    rw [← hm, ← hown]
  · intro hh
    exact hh.isSome

theorem market_feeBps : (P.market A B).feeBps = cfg.feeBps.toNat := by
  unfold Listing.market
  rw [h.pool.config]
  rfl

theorem market_locked : (P.market A B).locked = cfg.locked := by
  unfold Listing.market
  rw [h.pool.config]
  rfl

theorem market_authority : (P.market A B).authority = cfg.authority := by
  unfold Listing.market
  rw [h.pool.config]
  rfl

/-! ## Token operations -/

theorem of_token {mint s d : Key} {p q : ℕ} (hc : B'.configs = B.configs)
    (hd : SameDomain B.tokens B'.tokens) (hp : Posts B.tokens B'.tokens mint s p d q) :
    P.Standing A B' cfg where
  pool := h.pool.evolve hp.evolves (by rw [hc, h.pool.config]) (.refl _) h.pool.fee_lt
  mintX := h.mintX
  mintY := h.mintY
  isMint a := by
    obtain ⟨auth, hM⟩ := h.isMint a
    exact ⟨auth, hp.evolves.isMint hM⟩
  genuine := h.genuine.of_sameDomain hc hd hp.evolves
  backed := hp.supplyBacked h.backed

/-- What a posting does to holdings. -/
theorem holding_of_posts {p q : ℕ}
    (hp : Posts B.tokens B'.tokens (P.mint a) (P.account A src a) p (P.account A dst a) q)
    (k : Key) (b : Asset) :
    (P.market A B').holding k b + (if k = src ∧ b = a then p else 0) =
      (P.market A B).holding k b + (if k = dst ∧ b = a then q else 0) := by
  have hpost := hp.balance (P.mint b) (P.account A k b)
  have hentry : ∀ {k' n}, entry (P.mint a) (P.account A k' a) n (P.mint b) (P.account A k b) =
      if k = k' ∧ b = a then n else 0 := by
    intro k' n
    unfold entry
    refine if_congr ?_ rfl rfl
    rw [h.account_eq_iff]
    constructor
    · exact fun hk => hk.2
    · rintro ⟨rfl, rfl⟩
      exact ⟨rfl, rfl, rfl⟩
  rw [hentry, hentry] at hpost
  exact hpost

/-- A debit and a credit of the market are those of the ledger. -/
theorem holding_eq {p q : ℕ}
    (hp : Posts B.tokens B'.tokens (P.mint a) (P.account A src a) p (P.account A dst a) q) :
    (((P.market A B).debit src a p).credit dst a q).holding = (P.market A B').holding := by
  funext k b
  have hle : p ≤ (P.market A B).holding src a := hp.le
  have hpost := h.holding_of_posts hp k b
  unfold Market.credit Market.debit
  simp only [Market.holding_setHolding]
  by_cases hdst : k = dst ∧ b = a
  · obtain ⟨rfl, rfl⟩ := hdst
    by_cases hsrc : k = src
    · subst hsrc
      simp only [and_self, if_true] at hpost ⊢
      omega
    · simp only [hsrc, false_and, and_self, if_true, if_false] at hpost ⊢
      omega
  · rw [if_neg hdst] at hpost ⊢
    by_cases hsrc : k = src ∧ b = a
    · obtain ⟨rfl, rfl⟩ := hsrc
      simp only [and_self, if_true] at hpost ⊢
      omega
    · rw [if_neg hsrc] at hpost ⊢
      exact hpost.symm

omit h in
/-- A market is known by its holdings, if the rules are as before. -/
theorem market_eq {M : Market Key} (hc : B'.configs = B.configs)
    (hd : SameDomain B.tokens B'.tokens) (hfee : M.feeBps = (P.market A B).feeBps)
    (hlocked : M.locked = (P.market A B).locked)
    (hauth : M.authority = (P.market A B).authority)
    (hopened : M.opened = (P.market A B).opened) (hshares : M.shares = (P.market A B').shares)
    (hholding : M.holding = (P.market A B').holding) : M = P.market A B' := by
  refine Market.ext ?_ ?_ ?_ hshares ?_ hholding
  · rw [hfee]
    unfold Listing.market
    rw [hc]
  · rw [hlocked]
    unfold Listing.market
    rw [hc]
  · rw [hauth]
    unfold Listing.market
    rw [hc]
  · rw [hopened]
    funext k b
    exact (hd.accounts _).symm

theorem pay_ok
    (ht : B.cpi (B.tokens.transferChecked signers (P.account A src a) (P.mint a) (P.account A dst a)
      src n (P.decimals a)) = .ok B') :
    P.Standing A B' cfg ∧ (P.market A B).pay src dst a n.toNat = some (P.market A B') := by
  obtain ⟨ht, hc⟩ := Bank.cpi_eq_ok.mp ht
  have hs := transferChecked_posts ht
  have hd := transferChecked_sameDomain ht
  obtain ⟨o, hdest⟩ := hs.dest
  refine ⟨h.of_token hc hd hs.posts, ?_⟩
  have hle : n.toNat ≤ (P.market A B).holding src a := hs.posts.le
  unfold Market.pay
  rw [if_pos ⟨h.holds_iff.mpr hs.holds, hdest.isSome, hle⟩]
  exact congrArg some (market_eq hc hd rfl rfl rfl rfl (hs.posts.supply_eq _).symm
    (h.holding_eq hs.posts))

omit h [DecidableEq Key] in
theorem cpi_unseen {r : Token.Result (Ledger Key)} : (B.cpi r).Unseen ProgramError.ammError :=
  unseen_of_ne_amm fun _ => cpi_ne_amm

/-- A transfer between associated accounts shows as a payment. -/
theorem pay_shows (hsrc : src ∈ signers) :
    P.Shows A cfg
      (B.cpi (B.tokens.transferChecked signers (P.account A src a) (P.mint a) (P.account A dst a)
        src n (P.decimals a)))
      (.orPanic ((P.market A B).pay src dst a n.toNat)) := by
  refine .of_unseen cpi_unseen (fun B' ht => h.pay_ok ht) fun M hM => ?_
  obtain ⟨hp, -⟩ := Option.ite_none_right_eq_some.mp hM
  obtain ⟨ho, ho', hle⟩ := hp
  obtain ⟨auth, hmint⟩ := h.isMint a
  obtain ⟨L, hL⟩ := transferChecked_ok h.backed (h.holds_iff.mp ho) (h.holds_iff.mp ho') hmint hsrc
    hle
  exact ⟨_, Bank.cpi_ok hL⟩

theorem issue_ok {signers : List Key}
    (ht : B.cpi (B.tokens.mintTo signers (P.mint .lp) (P.account A u .lp) P.pool n) = .ok B') :
    P.Standing A B' cfg ∧ (P.market A B).issue u n.toNat = some (P.market A B') := by
  obtain ⟨ht, hc⟩ := Bank.cpi_eq_ok.mp ht
  have hs := mintTo_posts ht
  have hd := mintTo_sameDomain ht
  obtain ⟨o, hdest⟩ := hs.holds
  have hsup := hs.posts.supply (P.mint .lp)
  rw [if_pos rfl, if_pos rfl] at hsup
  have hlt := supply_lt (L := B'.tokens) (P.mint .lp)
  refine ⟨h.of_token hc hd hs.posts, ?_⟩
  have hfits : (P.market A B).shares + n.toNat < 2 ^ 64 := by
    show B.tokens.supply (P.mint .lp) + n.toNat < 2 ^ 64
    omega
  unfold Market.issue
  rw [if_pos ⟨hdest.isSome, hfits⟩]
  refine congrArg some (market_eq hc hd rfl rfl rfl rfl ?_ ?_)
  · show B.tokens.supply (P.mint .lp) + n.toNat = B'.tokens.supply (P.mint .lp)
    omega
  · rw [← h.holding_eq hs.posts, Market.debit_zero]

/-- A mint signed by the pool shows as an issue of shares. -/
theorem issue_shows (hpool : P.pool ∈ signers) :
    P.Shows A cfg (B.cpi (B.tokens.mintTo signers (P.mint .lp) (P.account A u .lp) P.pool n))
      (.orPanic ((P.market A B).issue u n.toNat)) := by
  refine .of_unseen cpi_unseen (fun B' ht => h.issue_ok ht) fun M hM => ?_
  obtain ⟨hp, -⟩ := Option.ite_none_right_eq_some.mp hM
  obtain ⟨L, hL⟩ := mintTo_ok h.backed (h.holds_iff.mp hp.1) h.pool.mintLp hpool hp.2
  exact ⟨_, Bank.cpi_ok hL⟩

theorem burn_ok
    (ht : B.cpi (B.tokens.burn signers (P.account A u a) (P.mint a) u n) = .ok B') :
    P.Standing A B' cfg ∧ (P.market A B).burn u a n.toNat = some (P.market A B') := by
  obtain ⟨ht, hc⟩ := Bank.cpi_eq_ok.mp ht
  have hs := burn_posts ht
  have hd := burn_sameDomain ht
  refine ⟨h.of_token hc hd hs.posts, ?_⟩
  have hle : n.toNat ≤ (P.market A B).holding u a := hs.posts.le
  unfold Market.burn
  rw [if_pos ⟨h.holds_iff.mpr hs.holds, hle⟩]
  refine congrArg some (market_eq hc hd rfl rfl rfl rfl ?_ ?_)
  · have hsup := hs.posts.supply (P.mint .lp)
    show (if a = .lp then B.tokens.supply (P.mint .lp) - n.toNat else B.tokens.supply (P.mint .lp)) =
      B'.tokens.supply (P.mint .lp)
    by_cases ha : a = .lp
    · subst ha
      rw [if_pos rfl, if_pos rfl] at hsup
      rw [if_pos rfl]
      omega
    · have hne : P.mint .lp ≠ P.mint a := fun he => ha (h.mint_injective he).symm
      rw [if_neg hne, if_neg hne] at hsup
      rw [if_neg ha]
      exact hsup.symm
  · rw [← h.holding_eq hs.posts, Market.credit_zero]

/-- A burn by the holder shows as one of the market. -/
theorem burn_shows (hu : u ∈ signers) :
    P.Shows A cfg (B.cpi (B.tokens.burn signers (P.account A u a) (P.mint a) u n))
      (.orPanic ((P.market A B).burn u a n.toNat)) := by
  refine .of_unseen cpi_unseen (fun B' ht => h.burn_ok ht) fun M hM => ?_
  obtain ⟨hp, -⟩ := Option.ite_none_right_eq_some.mp hM
  obtain ⟨auth, hmint⟩ := h.isMint a
  obtain ⟨L, hL⟩ := Ledger.burn_ok h.backed (h.holds_iff.mp hp.1) hmint hu hp.2
  exact ⟨_, Bank.cpi_ok hL⟩

/-! ## New accounts -/

theorem create_ok (hc : B'.configs = B.configs)
    (ht : createAssociated A.associatedAddress B.tokens (P.account A u a) u (P.mint a) =
      .ok B'.tokens) :
    P.Standing A B' cfg ∧ (P.market A B).openAccount u a = P.market A B' := by
  obtain ⟨-, -, hholds, -, hp⟩ := createAssociated_posts ht
  have hch := createAssociated_changes ht
  refine ⟨⟨?_, h.mintX, h.mintY, ?_, h.genuine.create hc ht, hp.supplyBacked h.backed⟩, ?_⟩
  · exact h.pool.evolve hp.evolves (by rw [hc, h.pool.config]) (.refl _) h.pool.fee_lt
  · intro b
    obtain ⟨auth, hM⟩ := h.isMint b
    exact ⟨auth, hp.evolves.isMint hM⟩
  · refine Market.ext ?_ ?_ ?_ ?_ ?_ ?_
    · unfold Listing.market Market.openAccount
      rw [hc]
    · unfold Listing.market Market.openAccount
      rw [hc]
    · unfold Listing.market Market.openAccount
      rw [hc]
    · exact (hp.supply_eq _).symm
    · funext k b
      rw [Market.opened_openAccount]
      by_cases hk : k = u ∧ b = a
      · obtain ⟨rfl, rfl⟩ := hk
        rw [if_pos ⟨rfl, rfl⟩]
        exact hholds.isSome.symm
      · rw [if_neg hk]
        have hne : P.account A k b ≠ P.account A u a := fun he => hk (h.account_eq_iff.mp he)
        have hacc := hch.accounts fun hmem => hne (List.mem_singleton.mp hmem)
        exact congrArg Option.isSome hacc.symm
    · funext k b
      exact (hp.balance_eq _ _).symm

/-- Who has no account for the asset can be given one. -/
theorem create_exists (ho : (P.market A B).opened u a = false) :
    ∃ L, createAssociated A.associatedAddress B.tokens (P.account A u a) u (P.mint a) = .ok L := by
  obtain ⟨auth, hM⟩ := h.isMint a
  refine createAssociated_ok (Ledger.vacant_iff.mpr ⟨h.genuine.mint _ _, ?_⟩) hM
  exact Option.not_isSome_iff_eq_none.mp (by rw [Bool.not_eq_true]; exact ho)

theorem ensure_ok
    (ht : initAssociatedIfNeeded A B (P.account A u a) (P.mint a) u = .ok B') :
    P.Standing A B' cfg ∧ (P.market A B).openAccount u a = P.market A B' := by
  unfold initAssociatedIfNeeded at ht
  by_cases hv : B.vacant (P.account A u a) = true
  · rw [if_pos hv] at ht
    unfold initAssociated at ht
    obtain ⟨-, -, ht⟩ := Outcome.bind_eq_ok.mp ht
    obtain ⟨ht, hc⟩ := Bank.cpi_eq_ok.mp ht
    exact h.create_ok hc ht
  · rw [if_neg hv] at ht
    simp only [Outcome.bind_eq_ok, Outcome.ok.injEq] at ht
    obtain ⟨t, ht, _, -, _, -, _, -, rfl⟩ := ht
    refine ⟨h, Market.openAccount_of_opened _ ?_⟩
    exact Option.isSome_iff_exists.mpr ⟨t, Outcome.okOr_eq_ok.mp ht⟩

/-- `init_if_needed` finds an account, or room for one. -/
theorem holds_or_vacant : B.tokens.Holds (A.associatedAddress u (P.mint a)) (P.mint a) u ∨
    B.vacant (A.associatedAddress u (P.mint a)) = true := by
  by_cases ho : (P.market A B).opened u a = true
  · exact .inl (h.holds_iff.mp ho)
  · refine .inr (Bank.vacant_iff.mpr ⟨h.genuine.config _ _, h.genuine.mint _ _, ?_⟩)
    exact Option.not_isSome_iff_eq_none.mp ho

end Listing.Standing

/-! ## Quotes -/

theorem require_shows {p q : Prop} [Decidable p] [Decidable q] {e : AmmError} (hpq : p ↔ q) :
    Outcome.Shows ProgramError.ammError id (fun _ => p) (.require p (.amm e) : Result PUnit)
      (.require q e) :=
  .require rfl hpq

/-- A machine quote shows as the reference's, within the words. -/
theorem quoted_shows {Q R : Type} {read : Q → R} {fits : R → Prop} [DecidablePred fits]
    {q : AmmMath.Result Q} {ref : Except AmmMathError R} (h : Matches read fits q ref) :
    Outcome.Shows ProgramError.ammError read (fun _ => True) (quoted q)
      (quotedWithin fits ref) := by
  refine ⟨?_, fun _ _ => trivial⟩
  unfold quotedWithin quoted
  rw [← h]
  cases q <;> rfl

/-- What a swap moves, as numbers. -/
def SwapAmounts.toNat (q : SwapAmounts) : ℕ × ℕ := (q.amountIn.toNat, q.amountOut.toNat)

theorem exactInput_shows (amountIn minAmountOut x y : U64) (f : U16) :
    Outcome.Shows ProgramError.ammError SwapAmounts.toNat (fun _ => True)
      ((SwapKind.exactInput amountIn minAmountOut).quote x y f)
      (exactInputAmounts amountIn.toNat minAmountOut.toNat x.toNat y.toNat f.toNat) := by
  refine (quoted_shows swapExactInput_matches).bind fun q _ => ?_
  exact (require_shows BitVec.le_def).bind fun _ _ => .ok trivial

theorem exactOutput_shows (amountOut maxAmountIn x y : U64) (f : U16) :
    Outcome.Shows ProgramError.ammError SwapAmounts.toNat (fun _ => True)
      ((SwapKind.exactOutput amountOut maxAmountIn).quote x y f)
      (exactOutputAmounts amountOut.toNat maxAmountIn.toNat x.toNat y.toNat f.toNat) := by
  refine (quoted_shows swapExactOutput_matches).bind fun q _ => ?_
  exact (require_shows BitVec.le_def).bind fun _ _ => .ok trivial

/-! ## Swaps -/

def Listing.swapAccounts (P : Listing Key) (A : AddressScheme Key) (u : Key) : Swap Key where
  user := u
  mintX := P.mint .x
  mintY := P.mint .y
  config := P.pool
  vaultX := P.account A P.pool .x
  vaultY := P.account A P.pool .y
  userX := P.account A u .x
  userY := P.account A u .y

namespace Listing.Standing

variable (h : P.Standing A B cfg) {l : Loaded Key}
include h

theorem decimals_eq {M : Mint Key} (hM : B.tokens.mints (P.mint a) = some M) :
    M.decimals = P.decimals a := by
  obtain ⟨auth, s, hM'⟩ := h.isMint a
  obtain rfl := Option.some.inj (hM.symm.trans hM')
  rfl

theorem swapAccounts_eq : P.swapAccounts A u = cfg.swapAccounts A P.pool u := by
  unfold Listing.swapAccounts Config.swapAccounts Listing.account
  rw [h.mintX, h.mintY]

omit h in
/-- The user of a validated trade has signed, and has accounts for both tokens. -/
theorem opened_of_checked (hl : (P.swapAccounts A u).Checked A B signers l) :
    u ∈ signers ∧ (P.market A B).opened u .x = true ∧ (P.market A B).opened u .y = true := by
  obtain ⟨tx, hx, -⟩ := hl.userX
  obtain ⟨ty, hy, -⟩ := hl.userY
  exact ⟨hl.signed, Option.isSome_iff_exists.mpr ⟨tx, hx⟩, Option.isSome_iff_exists.mpr ⟨ty, hy⟩⟩

theorem trader (hu : u ∈ signers) (hx : (P.market A B).opened u .x = true)
    (hy : (P.market A B).opened u .y = true) : Trader A B signers cfg u :=
  ⟨hu, h.mintX ▸ h.holds_iff.mp hx, h.mintY ▸ h.holds_iff.mp hy⟩

/-- The checks on the accounts of a swap show as the demand of the market. -/
theorem swapAccounts_shows :
    Outcome.Shows ProgramError.ammError (fun _ => PUnit.unit)
      (fun l => (P.swapAccounts A u).Checked A B signers l)
      ((P.swapAccounts A u).tryAccounts A B signers)
      (.demand (u ∈ signers ∧ (P.market A B).opened u .x ∧ (P.market A B).opened u .y)) := by
  refine .demand (unseen_of_ne_amm fun _ => Swap.tryAccounts_ne_amm) (fun l hl => ?_) ?_
  · have hl := Swap.tryAccounts_eq_ok.mp hl
    exact ⟨hl, opened_of_checked hl⟩
  · rintro ⟨hu, hx, hy⟩
    obtain ⟨l, hl⟩ := (h.trader hu hx hy).swapChecked h.pool
    rw [h.swapAccounts_eq]
    exact ⟨l, Swap.tryAccounts_eq_ok.mpr hl⟩

/-- What a trade has loaded, in terms of the market. -/
theorem loaded (hl : (P.swapAccounts A u).Checked A B signers l) :
    l.config = cfg ∧ l.vaultX.amount.toNat = (P.market A B).holding P.pool .x ∧
      l.vaultY.amount.toNat = (P.market A B).holding P.pool .y ∧
      l.mintX.decimals = P.decimals .x ∧ l.mintY.decimals = P.decimals .y := by
  have hpool : PoolAt A B (P.swapAccounts A u).config cfg (P.mint .lp) := h.pool
  obtain ⟨hc, hx, hy⟩ := hl.amounts hpool
  refine ⟨hc, ?_, ?_, h.decimals_eq hl.mintX, h.decimals_eq hl.mintY⟩
  · rw [hx]
    unfold view
    rw [h.mintX]
    rfl
  · rw [hy]
    unfold view
    rw [h.mintY]
    rfl

theorem legs_eq (hl : (P.swapAccounts A u).Checked A B signers l) (aToB : Bool) :
    (P.swapAccounts A u).legs l aToB =
      { userIn := P.account A u (.paidIn aToB)
        userOut := P.account A u (.paidOut aToB)
        vaultIn := P.account A P.pool (.paidIn aToB)
        vaultOut := P.account A P.pool (.paidOut aToB)
        mintIn := P.mint (.paidIn aToB)
        mintOut := P.mint (.paidOut aToB)
        decimalsIn := P.decimals (.paidIn aToB)
        decimalsOut := P.decimals (.paidOut aToB) } := by
  obtain ⟨-, -, -, hdx, hdy⟩ := h.loaded hl
  unfold Swap.legs
  rw [hdx, hdy]
  cases aToB <;> rfl

theorem mem_configSigner : P.pool ∈ configSigner A cfg ++ signers := by
  rw [configSigner_eq h.pool.address]
  exact List.mem_cons_self

/-- A swap shows as a swap of the market. -/
theorem swap_shows {kind : SwapKind} {amounts : ℕ → ℕ → ℕ → Shown (ℕ × ℕ)}
    (hq : ∀ x y f, Outcome.Shows ProgramError.ammError SwapAmounts.toNat (fun _ => True)
      (kind.quote x y f) (amounts x.toNat y.toNat f.toNat)) (aToB : Bool) :
    P.Shows A cfg ((Instruction.swap (P.swapAccounts A u) kind aToB).process A B signers)
      ((P.market A B).swap P.pool signers u aToB amounts) := by
  refine h.swapAccounts_shows.bind fun l hl => ?_
  have hlegs := h.legs_eq hl aToB
  obtain ⟨rfl, hx, hy, -, -⟩ := h.loaded hl
  have hu : u ∈ signers := hl.signed
  unfold Swap.swap
  rw [hlegs]
  refine .bind (require_shows (by rw [h.market_locked])) fun _ _ => ?_
  have hquote := hq (if aToB then l.vaultX.amount else l.vaultY.amount)
    (if aToB then l.vaultY.amount else l.vaultX.amount) l.config.feeBps
  have hin : (if aToB then l.vaultX.amount else l.vaultY.amount).toNat =
      (P.market A B).holding P.pool (.paidIn aToB) := by
    cases aToB with
    | true => exact hx
    | false => exact hy
  have hout : (if aToB then l.vaultY.amount else l.vaultX.amount).toNat =
      (P.market A B).holding P.pool (.paidOut aToB) := by
    cases aToB with
    | true => exact hy
    | false => exact hx
  rw [hin, hout, ← h.market_feeBps] at hquote
  refine hquote.bind fun q _ => ?_
  exact (h.pay_shows hu).bind fun B₁ h₁ => h₁.pay_shows h.mem_configSigner

end Listing.Standing

/-! ## Liquidity -/

def Listing.addAccounts (P : Listing Key) (A : AddressScheme Key) (u : Key) : AddLiquidity Key where
  user := u
  mintX := P.mint .x
  mintY := P.mint .y
  config := P.pool
  mintLp := P.mint .lp
  vaultX := P.account A P.pool .x
  vaultY := P.account A P.pool .y
  lpVault := P.account A P.pool .lp
  userX := P.account A u .x
  userY := P.account A u .y
  userLp := P.account A u .lp

def Listing.removeAccounts (P : Listing Key) (A : AddressScheme Key) (u : Key) :
    RemoveLiquidity Key where
  user := u
  mintX := P.mint .x
  mintY := P.mint .y
  config := P.pool
  mintLp := P.mint .lp
  vaultX := P.account A P.pool .x
  vaultY := P.account A P.pool .y
  userX := P.account A u .x
  userY := P.account A u .y
  userLp := P.account A u .lp

namespace Listing.Standing

variable (h : P.Standing A B cfg)
include h

theorem addAccounts_eq : P.addAccounts A u = cfg.addAccounts A P.pool (P.mint .lp) u := by
  unfold Listing.addAccounts Config.addAccounts Listing.account
  rw [h.mintX, h.mintY]

theorem removeAccounts_eq : P.removeAccounts A u = cfg.removeAccounts A P.pool (P.mint .lp) u := by
  unfold Listing.removeAccounts Config.removeAccounts Listing.account
  rw [h.mintX, h.mintY]

/-- The checks on the accounts of a deposit show as the demand of the market; the bank then has an
account for the shares. -/
theorem addAccounts_shows :
    Outcome.Shows ProgramError.ammError (fun _ => PUnit.unit)
      (fun r => (P.addAccounts A u).Checked A B signers r.1 r.2)
      ((P.addAccounts A u).tryAccounts A B signers)
      (.demand (u ∈ signers ∧ (P.market A B).opened u .x ∧ (P.market A B).opened u .y)) := by
  refine .demand (unseen_of_ne_amm fun _ => AddLiquidity.tryAccounts_ne_amm) (fun r hr => ?_) ?_
  · have hr := AddLiquidity.tryAccounts_eq_ok.mp hr
    exact ⟨hr, opened_of_checked hr.toSwap⟩
  · rintro ⟨hu, hx, hy⟩
    obtain ⟨B₁, l, hl⟩ := (h.trader hu hx hy).addChecked h.pool h.holds_or_vacant
    rw [h.addAccounts_eq]
    exact ⟨(B₁, l), AddLiquidity.tryAccounts_eq_ok.mpr hl⟩

omit h in
theorem depositQuote_shows {l : LoadedLp Key} (a b : U64)
    (hx : l.vaultX.amount.toNat = (P.market A B).holding P.pool .x)
    (hy : l.vaultY.amount.toNat = (P.market A B).holding P.pool .y)
    (hs : l.mintLp.supply.toNat = (P.market A B).shares) :
    Outcome.Shows ProgramError.ammError LiquidityQuote.toNat (fun _ => True)
      (AddLiquidity.quote l a b) ((P.market A B).depositQuote P.pool a.toNat b.toNat) := by
  unfold AddLiquidity.quote Market.depositQuote
  by_cases h0 : l.mintLp.supply = 0
  · have hs0 : (P.market A B).shares = 0 := by
      rw [← hs, h0]
      rfl
    rw [if_pos h0, if_pos hs0]
    exact quoted_shows initialLiquidity_matches
  · have hs0 : (P.market A B).shares ≠ 0 := by
      rw [← hs]
      exact fun he => h0 (toNat_eq_zero.mp he)
    rw [if_neg h0, if_neg hs0, ← hx, ← hy, ← hs]
    exact quoted_shows addLiquidity_matches

/-- A deposit shows as one of the market. -/
theorem add_shows (a b minLp : U64) :
    P.Shows A cfg
      ((Instruction.addLiquidity (P.addAccounts A u) a b minLp).process A B signers)
      ((P.market A B).addLiquidity P.pool signers u a.toNat b.toNat minLp.toNat) := by
  refine h.addAccounts_shows.bind fun r hl => ?_
  obtain ⟨B₁, l⟩ := r
  obtain ⟨rfl, hx, hy, hdx, hdy⟩ := h.loaded hl.toSwap
  have hs : l.mintLp.supply.toNat = (P.market A B).shares := (supply_of_mint hl.mintLp).symm
  have hu : u ∈ signers := hl.toSwap.signed
  obtain ⟨h₁, hopen⟩ := h.ensure_ok hl.userLp
  unfold AddLiquidity.handle
  refine .bind (require_shows (by rw [h.market_locked])) fun _ _ => ?_
  refine (depositQuote_shows a b hx hy hs).bind fun q _ => ?_
  refine .bind (require_shows BitVec.le_def) fun _ _ => ?_
  rw [hdx, hdy, hopen]
  refine (h₁.pay_shows hu).bind fun B₂ h₂ => ?_
  refine (h₂.pay_shows hu).bind fun B₃ h₃ => ?_
  refine (h₃.issue_shows h₃.mem_configSigner).bind fun B₄ h₄ => ?_
  by_cases h0 : l.mintLp.supply = 0
  · have hs0 : (P.market A B).shares = 0 := by
      rw [← hs, h0]
      rfl
    rw [if_pos h0, if_pos hs0]
    exact h₄.issue_shows h₄.mem_configSigner
  · have hs0 : (P.market A B).shares ≠ 0 := by
      rw [← hs]
      exact fun he => h0 (toNat_eq_zero.mp he)
    rw [if_neg h0, if_neg hs0]
    exact .ok h₄

theorem removeAccounts_shows :
    Outcome.Shows ProgramError.ammError (fun _ => PUnit.unit)
      (fun l => (P.removeAccounts A u).Checked A B signers l)
      ((P.removeAccounts A u).tryAccounts A B signers)
      (.demand (u ∈ signers ∧ (P.market A B).opened u .x ∧ (P.market A B).opened u .y ∧
        (P.market A B).opened u .lp)) := by
  refine .demand (unseen_of_ne_amm fun _ => RemoveLiquidity.tryAccounts_ne_amm) (fun l hl => ?_) ?_
  · have hl := RemoveLiquidity.tryAccounts_eq_ok.mp hl
    obtain ⟨hu, hx, hy⟩ := opened_of_checked hl.toSwap
    obtain ⟨t, ht, -⟩ := hl.userLp
    exact ⟨hl, hu, hx, hy, Option.isSome_iff_exists.mpr ⟨t, ht⟩⟩
  · rintro ⟨hu, hx, hy, hlp⟩
    obtain ⟨l, hl⟩ := (h.trader hu hx hy).removeChecked h.pool (h.holds_iff.mp hlp)
    rw [h.removeAccounts_eq]
    exact ⟨l, RemoveLiquidity.tryAccounts_eq_ok.mpr hl⟩

/-- A withdrawal shows as one of the market. -/
theorem remove_shows (lpBurn minA minB : U64) :
    P.Shows A cfg
      ((Instruction.removeLiquidity (P.removeAccounts A u) lpBurn minA minB).process A B signers)
      ((P.market A B).removeLiquidity P.pool signers u lpBurn.toNat minA.toNat minB.toNat) := by
  refine h.removeAccounts_shows.bind fun l hl => ?_
  obtain ⟨rfl, hx, hy, hdx, hdy⟩ := h.loaded hl.toSwap
  have hs : l.mintLp.supply.toNat = (P.market A B).shares := (supply_of_mint hl.mintLp).symm
  have hu : u ∈ signers := hl.toSwap.signed
  have hq := quoted_shows (removeLiquidity_matches (x := l.vaultX.amount) (y := l.vaultY.amount)
    (s := l.mintLp.supply) (l := lpBurn))
  rw [hx, hy, hs] at hq
  unfold RemoveLiquidity.handle
  refine .bind (require_shows (by rw [h.market_locked])) fun _ _ => ?_
  refine hq.bind fun q _ => ?_
  refine .bind (require_shows BitVec.le_def) fun _ _ => ?_
  refine .bind (require_shows BitVec.le_def) fun _ _ => ?_
  rw [hdx, hdy]
  refine (h.burn_shows hu).bind fun B₁ h₁ => ?_
  refine (h₁.pay_shows h₁.mem_configSigner).bind fun B₂ h₂ => ?_
  exact h₂.pay_shows h₂.mem_configSigner

/-! ## Administration -/

omit h in
theorem market_setConfig (cfg' : Config Key) :
    P.market A (B.setConfig P.pool cfg') =
      { P.market A B with
        feeBps := cfg'.feeBps.toNat
        locked := cfg'.locked
        authority := cfg'.authority } := by
  unfold Listing.market
  rw [Bank.configs_setConfig_self]
  rfl

theorem setConfig (hfix : cfg.SameFixed cfg') (hfee : cfg'.feeBps.toNat < 10000) :
    P.Standing A (B.setConfig P.pool cfg') cfg' where
  pool := h.pool.evolve (.refl _) Bank.configs_setConfig_self hfix hfee
  mintX := hfix.mintX.trans h.mintX
  mintY := hfix.mintY.trans h.mintY
  isMint := h.isMint
  genuine :=
    { config := by
        intro o m
        have hne : A.associatedAddress o m ≠ P.pool := by
          intro he
          have hnone := h.genuine.config o m
          rw [he, h.pool.config] at hnone
          cases hnone
        rw [Bank.configs_setConfig_of_ne hne, h.genuine.config]
      mint := h.genuine.mint
      account := h.genuine.account }
  backed := h.backed

omit h in
theorem Admin.tryAccounts_ne_amm {self : Admin Key} {e : AmmError} :
    self.tryAccounts A B signers ≠ .err (.amm e) := by
  unfold Admin.tryAccounts requireSigner loadConfig checkSeeds
  simp [Outcome.bind_eq_err, Outcome.require_eq_err, Outcome.okOr_eq_err]

/-- The checks of an admin instruction show as those of the market. -/
theorem admin_shows {self : Admin Key} (hself : self.config = P.pool) {Q : Bank Key → Prop}
    {handle : Config Key → Result (Bank Key)} {handle' : Shown (Market Key)}
    (hhandle : Outcome.Shows ProgramError.ammError (P.market A) Q (handle cfg) handle') :
    Outcome.Shows ProgramError.ammError (P.market A) Q
      (self.tryAccounts A B signers >>= fun config => self.authorize config >>= fun _ =>
        handle config)
      ((P.market A B).authorize signers self.authority >>= fun _ => handle') := by
  have hload : Outcome.Shows ProgramError.ammError (fun _ => PUnit.unit) (fun config => config = cfg)
      (self.tryAccounts A B signers) (.demand (self.authority ∈ signers)) := by
    refine .demand (unseen_of_ne_amm fun _ => Admin.tryAccounts_ne_amm) (fun config hl => ?_) ?_
    · obtain ⟨hsig, hc, -⟩ := Admin.tryAccounts_eq_ok.mp hl
      rw [hself, h.pool.config] at hc
      exact ⟨(Option.some.inj hc).symm, hsig⟩
    · intro hsig
      refine ⟨cfg, Admin.tryAccounts_eq_ok.mpr ⟨hsig, ?_⟩⟩
      rw [hself]
      exact ⟨h.pool.config, h.pool.address⟩
  unfold Market.authorize
  rw [Outcome.bind_assoc, h.market_authority]
  refine hload.bind fun config hconfig => ?_
  subst hconfig
  have hstored : Outcome.Shows ProgramError.ammError id (fun _ => True) (self.authorize config)
      (.okOr .authorityRenounced config.authority >>= fun stored =>
        .require (self.authority = stored) .unauthorized) := by
    refine .bind (.okOr rfl) fun stored _ => ?_
    exact ⟨(require_shows Iff.rfl).eq, fun _ _ => trivial⟩
  exact hstored.bind fun _ _ => hhandle

end Listing.Standing

end Amm
