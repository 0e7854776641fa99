import ToyAmm.Deals
import ToyAmm.Withdrawals

/-!
# What can be extracted around a trade

Others may act before a trade and after it, with any number of calls to either program. Suppose that
all they write, but the accounts of the user and the vaults, are the token accounts `K`, and count
what `K` has gained beyond newly minted tokens. Whatever they do, the pool, together with what the
user has agreed to and without what `K` has gained, is worth no less per share than the pool was at
first (`extraction_frontier`).

For a swap this is a bound by its limit: if `K` ends with no less of the output token and of the
shares, then it has gained at most what the swap was ready to spend, less what the curve asked at
first for the least output that it accepts (`slippage_bounds_extraction`).
-/

open Checked AmmMath Token Ledger ConstantProduct Transition

namespace Token

namespace Ledger

variable {Key : Type} [DecidableEq Key] {L L' L'' : Ledger Key} {k m m' o u : Key}

/-- An account for one mint never held tokens of another one. -/
theorem Evolves.balance_of_mint_ne (he : Evolves L L') (hk : L'.Holds k m o) (hm : m' ≠ m) :
    L.balance m' k = 0 := by
  cases ha : L.accounts k with
  | none => exact balance_of_none ha m'
  | some t =>
    have ht : L.Holds k t.mint t.owner := ⟨t.amount, ha⟩
    obtain rfl := (he.holds ht).mint_eq hk
    exact balance_of_mint_ne ha hm.symm

/-- What is spared has not lost, even if it is opened only later. -/
theorem Spares.balance_of_later (h : Spares u L L') (he : Evolves L' L'') (hk : L''.Holds k m u) :
    L.balance m k ≤ L'.balance m k := by
  cases ha : L.accounts k with
  | none =>
    rw [balance_of_none ha]
    exact Nat.zero_le _
  | some t => exact h.balance ((h.evolves.trans he).holds_of_account ha hk)

end Ledger

end Token

namespace Amm

variable {Key : Type} [DecidableEq Key] {A : AddressScheme Key} {B B' : Bank Key}
  {c lp u o m : Key} {cfg : Config Key} {call : Call Key} {calls : List (Call Key)}
  {K ms : Finset Key} {d : Deal Key}

/-! ## Gains -/

/-- What the accounts `K` have gained of the tokens of `m`, from `B` to `B'`. -/
def gain (K : Finset Key) (B B' : Bank Key) (m : Key) : ℤ :=
  ∑ k ∈ K, ((B'.tokens.balance m k : ℤ) - B.tokens.balance m k)

theorem gain_add (K : Finset Key) (B B₁ B₂ : Bank Key) (m : Key) :
    gain K B B₁ m + gain K B₁ B₂ m = gain K B B₂ m := by
  unfold gain
  rw [← Finset.sum_add_distrib]
  refine Finset.sum_congr rfl ?_
  intro k _
  ring

theorem gain_union {K' : Finset Key} (h : Disjoint K K') :
    gain (K ∪ K') B B' m = gain K B B' m + gain K' B B' m :=
  Finset.sum_union h

/-- Where the books balance, accounts gain what the supply gains. -/
theorem gain_eq_supply
    (h : ∑ k ∈ K, B'.tokens.balance m k + B.tokens.supply m =
      ∑ k ∈ K, B.tokens.balance m k + B'.tokens.supply m) :
    gain K B B' m = (B'.tokens.supply m : ℤ) - B.tokens.supply m := by
  have hcast := congrArg (Nat.cast : ℕ → ℤ) h
  push_cast at hcast
  rw [gain, Finset.sum_sub_distrib]
  linarith

/-- What the accounts `K` have gained beyond what was minted, from `B` to `B'`. -/
def netGain (K : Finset Key) (B B' : Bank Key) (m : Key) : ℤ :=
  gain K B B' m - ((B'.tokens.supply m : ℤ) - B.tokens.supply m)

/-- The associated accounts of `o` for the mints `ms` hold no other tokens. -/
def Separate (A : AddressScheme Key) (B : Bank Key) (o : Key) (ms : Finset Key) : Prop :=
  ∀ M ∈ ms, ∀ m, m ≠ M → B.tokens.balance m (A.associatedAddress o M) = 0

theorem Separate.of_holds (he : Evolves B.tokens B'.tokens)
    (h : ∀ M ∈ ms, B'.tokens.Holds (A.associatedAddress o M) M o) : Separate A B o ms :=
  fun M hM _ hm => he.balance_of_mint_ne (h M hM) hm

/-- Of each mint there is one account, so that a purse is all there is. -/
theorem gain_associated (h : Separate A B o ms) (h' : Separate A B' o ms) (m : Key) :
    gain (ms.image (A.associatedAddress o)) B B' m =
      if m ∈ ms then (B'.purse A o m : ℤ) - B.purse A o m else 0 := by
  have hinj : Set.InjOn (A.associatedAddress o) ms := fun _ _ _ _ he =>
    (A.associated_injective he).2
  have hzero : ∀ M ∈ ms, M ≠ m → ((B'.tokens.balance m (A.associatedAddress o M) : ℤ) -
      B.tokens.balance m (A.associatedAddress o M)) = 0 := by
    intro M hM hne
    rw [h M hM m hne.symm, h' M hM m hne.symm]
    rfl
  rw [gain, Finset.sum_image hinj]
  by_cases hm : m ∈ ms
  · rw [if_pos hm]
    exact Finset.sum_eq_single_of_mem m hm hzero
  · rw [if_neg hm]
    refine Finset.sum_eq_zero ?_
    intro M hM
    exact hzero M hM fun he => hm (he ▸ hM)

/-! ## The others -/

/-- The accounts `K` with those of the user `u` for the mints `ms`, and the vaults. -/
def around (A : AddressScheme Key) (cfg : Config Key) (c u : Key) (ms K : Finset Key) :
    Finset Key :=
  K ∪ (ms.image (A.associatedAddress u) ∪ cfg.mints.image (A.associatedAddress c))

/-- Those who act besides the user `u`: all that their calls write, but the accounts of the user for
the mints `ms` and the vaults of the pool, are the accounts `K`. -/
structure Outsiders (A : AddressScheme Key) (cfg : Config Key) (c u : Key) (ms K : Finset Key)
    (calls : List (Call Key)) : Prop where
  admissible : ∀ call ∈ calls, call.Admissible A
  unsigned : ∀ call ∈ calls, u ∉ call.signers
  covered : ∀ call ∈ calls, ∀ k ∈ (accountLocks Key).writable call, k ∈ around A cfg c u ms K
  user : Disjoint K (ms.image (A.associatedAddress u))
  vaults : Disjoint K (cfg.mints.image (A.associatedAddress c))

theorem Outsiders.mono {calls' : List (Call Key)} (h : Outsiders A cfg c u ms K calls)
    (hsub : calls' ⊆ calls) : Outsiders A cfg c u ms K calls' where
  admissible call hcall := h.admissible call (hsub hcall)
  unsigned call hcall := h.unsigned call (hsub hcall)
  covered call hcall := h.covered call (hsub hcall)
  user := h.user
  vaults := h.vaults

/-- Whoever signs none of the calls has not lost by them. -/
theorem Inv.spares_of_run (hI : Inv A B) (hu : ¬ A.IsProgramAddress u)
    (hcalls : ∀ call ∈ calls, call.Admissible A ∧ u ∉ call.signers) :
    Spares u B.tokens (run (exec A) B calls).tokens := by
  have hstep : ∀ B₁ call B₂, Inv A B₁ ∧ Spares u B.tokens B₁.tokens →
      call.Admissible A ∧ u ∉ call.signers → exec A B₁ call = .ok B₂ →
      Inv A B₂ ∧ Spares u B.tokens B₂.tokens := by
    rintro B₁ call B₂ ⟨hI₁, hs⟩ ⟨hadm, hns⟩ h
    exact ⟨hI₁.of_exec hadm h, hs.trans (hI₁.spares_of_exec h hu hns)⟩
  exact (run_induction hstep ⟨hI, .refl _ _⟩ hcalls).2

theorem Outsiders.spares (h : Outsiders A cfg c u ms K calls) (hI : Inv A B)
    (hu : ¬ A.IsProgramAddress u) : Spares u B.tokens (run (exec A) B calls).tokens :=
  hI.spares_of_run hu fun call hcall => ⟨h.admissible call hcall, h.unsigned call hcall⟩

theorem Outsiders.gain_eq (h : Outsiders A cfg c u ms K calls) (m : Key) :
    gain (around A cfg c u ms K) B (run (exec A) B calls) m =
      ((run (exec A) B calls).tokens.supply m : ℤ) - B.tokens.supply m :=
  gain_eq_supply (run_sum_eq h.covered m)

/-- A deal writes only accounts of its user and the vaults. -/
theorem Dealt.gain_eq (h : Dealt A cfg c lp d B B') (K : Finset Key) (m : Key) :
    gain (around A cfg c d.user (d.mints cfg lp) K) B B' m =
      (B'.tokens.supply m : ℤ) - B.tokens.supply m := by
  refine gain_eq_supply (h.tallies.sum_eq ?_)
  intro k hk
  rw [around, Finset.mem_union, Finset.mem_union, not_or, not_or] at hk
  exact h.frame k hk.2.1 hk.2.2 m

/-- The gain of all accounts involved, part by part. -/
theorem gain_around (huser : Disjoint K (ms.image (A.associatedAddress u)))
    (hvaults : Disjoint K (cfg.mints.image (A.associatedAddress c))) (huc : u ≠ c)
    (hu : Separate A B u ms) (hu' : Separate A B' u ms) (hc : Separate A B c cfg.mints)
    (hc' : Separate A B' c cfg.mints) (m : Key) :
    gain (around A cfg c u ms K) B B' m = gain K B B' m +
      ((if m ∈ ms then (B'.purse A u m : ℤ) - B.purse A u m else 0) +
        if m ∈ cfg.mints then (B'.purse A c m : ℤ) - B.purse A c m else 0) := by
  have hapart : Disjoint (ms.image (A.associatedAddress u))
      (cfg.mints.image (A.associatedAddress c)) := by
    rw [Finset.disjoint_left]
    intro k hku hkc
    obtain ⟨M, -, rfl⟩ := Finset.mem_image.mp hku
    obtain ⟨M', -, he⟩ := Finset.mem_image.mp hkc
    exact huc (A.associated_injective he).1.symm
  rw [around, gain_union (Finset.disjoint_union_right.mpr ⟨huser, hvaults⟩), gain_union hapart,
    gain_associated hu hu', gain_associated hc hc']

/-! ## What moves -/

/-- From `B` to `B'` the pool has taken at most the terms `t` less what `K` has gained, and issued
no fewer shares. -/
structure Flows (A : AddressScheme Key) (cfg : Config Key) (c lp : Key) (K : Finset Key) (t : Terms)
    (B B' : Bank Key) : Prop where
  x : (B'.purse A c cfg.mintX : ℤ) + netGain K B B' cfg.mintX ≤ B.purse A c cfg.mintX + t.x
  y : (B'.purse A c cfg.mintY : ℤ) + netGain K B B' cfg.mintY ≤ B.purse A c cfg.mintY + t.y
  shares : (B.tokens.supply lp : ℤ) + t.shares + gain K B B' lp ≤ B'.tokens.supply lp

omit [DecidableEq Key] in
theorem PoolAt.holds_vault [DecidableEq Key] (hp : PoolAt A B c cfg lp) :
    ∀ M ∈ cfg.mints, B.tokens.Holds (A.associatedAddress c M) M c := by
  simp only [Config.mints, Finset.forall_mem_insert, Finset.mem_singleton, forall_eq]
  exact ⟨hp.vaultX, hp.vaultY⟩

omit [DecidableEq Key] in
theorem PoolAt.lp_not_mem_mints [DecidableEq Key] (hp : PoolAt A B c cfg lp) :
    lp ∉ cfg.mints := by
  rw [Config.mints, Finset.mem_insert, Finset.mem_singleton, not_or]
  exact ⟨hp.mintX_ne_lp.symm, hp.mintY_ne_lp.symm⟩

omit [DecidableEq Key] in
theorem Deal.mints_subset [DecidableEq Key] (d : Deal Key) (cfg : Config Key) (lp : Key) :
    cfg.mints ⊆ d.mints cfg lp := by
  unfold Deal.mints
  split_ifs
  · exact Finset.subset_insert _ _
  · exact Finset.Subset.refl _

/-- A deal about no shares redeems none. -/
theorem Dealt.shares_nonpos (h : Dealt A cfg c lp d B B') (huc : d.user ≠ c)
    (hlp : lp ∉ d.mints cfg lp) : d.terms.shares ≤ 0 := by
  have hsame : B'.purse A d.user lp = B.purse A d.user lp := by
    refine h.frame _ ?_ ?_ lp
    · intro hmem
      obtain ⟨M, hM, he⟩ := Finset.mem_image.mp hmem
      exact hlp ((A.associated_injective he).2 ▸ hM)
    · intro hmem
      obtain ⟨M, -, he⟩ := Finset.mem_image.mp hmem
      exact huc (A.associated_injective he).1.symm
  have hshares := h.shares
  omega

/-- The flows around a deal from `B₁` to `B₂`, since `B₀` and until `B₃`. -/
theorem Dealt.flows {B₀ B₁ B₂ B₃ : Bank Key} (h : Dealt A cfg c lp d B₁ B₂)
    (hp : PoolAt A B₀ c cfg lp) (hbefore : Spares d.user B₀.tokens B₁.tokens)
    (hafter : Spares d.user B₂.tokens B₃.tokens) (huc : d.user ≠ c)
    (huser : Disjoint K ((d.mints cfg lp).image (A.associatedAddress d.user)))
    (hvaults : Disjoint K (cfg.mints.image (A.associatedAddress c)))
    (hbooks : ∀ m, gain (around A cfg c d.user (d.mints cfg lp) K) B₀ B₃ m =
      (B₃.tokens.supply m : ℤ) - B₀.tokens.supply m) :
    Flows A cfg c lp K d.terms B₀ B₃ := by
  -- the accounts have been for their mints all the time
  have hearly := hbefore.evolves.trans h.evolves
  have hlate := hearly.trans hafter.evolves
  have hsum := fun m => gain_around huser hvaults huc (.of_holds hearly h.holds)
    (.of_holds (.refl _) fun M hM => hafter.evolves.holds (h.holds M hM))
    (.of_holds (.refl _) hp.holds_vault)
    (.of_holds (.refl _) fun M hM => hlate.holds (hp.holds_vault M hM)) m
  -- and their user has lost nothing but by the deal
  have h₁ : ∀ M ∈ d.mints cfg lp, B₀.purse A d.user M ≤ B₁.purse A d.user M := fun M hM =>
    hbefore.balance_of_later h.evolves (h.holds M hM)
  have h₃ : ∀ M ∈ d.mints cfg lp, B₂.purse A d.user M ≤ B₃.purse A d.user M := fun M hM =>
    hafter.balance (h.holds M hM)
  have hX : cfg.mintX ∈ cfg.mints := Finset.mem_insert_self _ _
  have hY : cfg.mintY ∈ cfg.mints := Finset.mem_insert_of_mem (Finset.mem_singleton_self _)
  have hsub := d.mints_subset cfg lp
  constructor
  · have hb := hbooks cfg.mintX
    rw [hsum, if_pos (hsub hX), if_pos hX] at hb
    have hdeal := h.x
    have := h₁ _ (hsub hX)
    have := h₃ _ (hsub hX)
    unfold netGain
    omega
  · have hb := hbooks cfg.mintY
    rw [hsum, if_pos (hsub hY), if_pos hY] at hb
    have hdeal := h.y
    have := h₁ _ (hsub hY)
    have := h₃ _ (hsub hY)
    unfold netGain
    omega
  · have hb := hbooks lp
    rw [hsum, if_neg hp.lp_not_mem_mints] at hb
    by_cases hlp : lp ∈ d.mints cfg lp
    · rw [if_pos hlp] at hb
      have hdeal := h.shares
      have := h₁ _ hlp
      have := h₃ _ hlp
      omega
    · rw [if_neg hlp] at hb
      have hdeal := h.shares_nonpos huc hlp
      omega

/-- Over a run a pool keeps its shares and the worth of each. -/
theorem PoolAt.worthLe_of_run (hp : PoolAt A B c cfg lp) (hI : Inv A B)
    (hpos : 0 < (view A B c cfg lp).shares) (hadm : ∀ call ∈ calls, call.Admissible A) :
    ∃ cfg', PoolAt A (run (exec A) B calls) c cfg' lp ∧ cfg.SameFixed cfg' ∧
      0 < (view A (run (exec A) B calls) c cfg lp).shares ∧
      WorthLe (view A B c cfg lp).toPool (view A (run (exec A) B calls) c cfg lp).toPool := by
  obtain ⟨p', hp', hs', hworth⟩ := run_worthLe hI hp.pool_eq hpos hadm
  obtain ⟨cfg', hc', -, hfix⟩ := run_config (A := A) hp.config hp.fee_lt calls
  obtain rfl := Option.some.inj (hc'.symm.trans (config_of_pool hp'))
  obtain ⟨lp', hat', hv', -⟩ := (hI.of_run hadm).poolAt hp'
  obtain rfl := hat'.lp_eq (hfix.lpBump ▸ hp.lpAddress)
  rw [view_congr hfix] at hv'
  refine ⟨p'.config, hat', hfix, ?_, ?_⟩
  · rw [hv']
    exact hs'
  · rw [hv']
    exact hworth

/-- The flows over a run around a deal, from a pool that has shares, and what its shares are worth
then. -/
theorem exists_flows {B₁ : Bank Key} {p : PoolState Key} {signers : List Key} {ix : Instruction Key}
    {before after : List (Call Key)} (hB : Reachable A B) (hp : B.pool A c = some p)
    (hs : 0 < p.supply) (hlp : A.createProgramAddress (.lpMint c) p.config.lpBump = some lp)
    (hd : ix.deal = some d) (hc : ix.config = c)
    (hadm : (⟨signers, .amm ix⟩ : Call Key).Admissible A)
    (hothers : Outsiders A p.config c d.user (d.mints p.config lp) K (before ++ after))
    (hok : exec A (run (exec A) B before) ⟨signers, .amm ix⟩ = .ok B₁) :
    ∃ q : ConstantProduct.Pool ℕ, WorthLe p.toState.toPool q ∧
      (q.x : ℤ) + netGain K B (run (exec A) B₁ after) p.config.mintX ≤ p.vaultX + d.terms.x ∧
      (q.y : ℤ) + netGain K B (run (exec A) B₁ after) p.config.mintY ≤ p.vaultY + d.terms.y ∧
      (p.supply : ℤ) + d.terms.shares + gain K B (run (exec A) B₁ after) lp ≤ q.shares := by
  obtain ⟨lp', hat, hv, -⟩ := hB.inv.poolAt hp
  obtain rfl := hat.lp_eq hlp
  have hpos : 0 < (view A B c p.config lp).shares := hv ▸ hs
  have hbefore := hothers.mono (List.subset_append_left before after)
  have hafter := hothers.mono (List.subset_append_right before after)
  -- the deal
  have hI₁ : Inv A (run (exec A) B before) := hB.inv.of_run hbefore.admissible
  obtain ⟨cfg₁, hat₁, hfix, hpos₁, -⟩ := hat.worthLe_of_run hB.inv hpos hbefore.admissible
  rw [← view_congr hfix] at hpos₁
  obtain ⟨hsigned, hdeal⟩ := hat₁.dealt_of_exec hpos₁ hd hc hadm hok
  have hu : ¬ A.IsProgramAddress d.user := hadm _ hsigned
  have hdeal := hdeal.congr hfix
  -- all that has moved
  obtain ⟨hx, hy, hshares⟩ : Flows A p.config c lp K d.terms B (run (exec A) B₁ after) := by
    refine hdeal.flows hat (hbefore.spares hB.inv hu)
      (hafter.spares (hI₁.of_exec hadm hok) hu) (fun he => hu (he ▸ hat.isProgramAddress))
      hothers.user hothers.vaults ?_
    intro m
    rw [← gain_add _ B (run (exec A) B before), ← gain_add _ (run (exec A) B before) B₁,
      hbefore.gain_eq, hdeal.gain_eq, hafter.gain_eq]
    ring
  -- the pool at the end
  have hall : ∀ call ∈ before ++ (⟨signers, .amm ix⟩ : Call Key) :: after, call.Admissible A := by
    intro call hcall
    rcases List.mem_append.mp hcall with h | h
    · exact hbefore.admissible call h
    · rcases List.mem_cons.mp h with rfl | h
      · exact hadm
      · exact hafter.admissible call h
  obtain ⟨_, -, -, -, hworth⟩ := hat.worthLe_of_run hB.inv hpos hall
  rw [run_append, run_cons, next_of_ok hok, hv] at hworth
  obtain ⟨hX, hY, hS, -⟩ := PoolState.view_fields hv
  rw [← hX, ← hY, ← hS]
  exact ⟨_, hworth, hx, hy, hshares⟩

/-! ## The frontier -/

/-- **What can be extracted around a trade.** However others act before a trade and after it, what
the pool had, with what the user has agreed to and without what they have gained, is worth no less
per share. -/
theorem extraction_frontier (A : AddressScheme Key) (B B₁ : Bank Key) (c lp : Key)
    (p : PoolState Key) (hB : Reachable A B) (hp : B.pool A c = some p) (hs : 0 < p.supply)
    (hlp : A.createProgramAddress (.lpMint c) p.config.lpBump = some lp) (signers : List Key)
    (ix : Instruction Key) (d : Deal Key) (hd : ix.deal = some d) (hc : ix.config = c)
    (hadm : (⟨signers, .amm ix⟩ : Call Key).Admissible A) (before after : List (Call Key))
    (K : Finset Key)
    (hothers : Outsiders A p.config c d.user (d.mints p.config lp) K (before ++ after))
    (hok : exec A (run (exec A) B before) ⟨signers, .amm ix⟩ = .ok B₁) (B₂ : Bank Key)
    (hB₂ : run (exec A) B₁ after = B₂)
    (hleft : 0 ≤ p.supply + d.terms.shares + gain K B B₂ lp) :
    p.vaultX * p.vaultY * (p.supply + d.terms.shares + gain K B B₂ lp) ^ 2 ≤
      (p.vaultX + d.terms.x - netGain K B B₂ p.config.mintX) *
        (p.vaultY + d.terms.y - netGain K B B₂ p.config.mintY) * p.supply ^ 2 := by
  subst hB₂
  obtain ⟨q, hworth, hx, hy, hshares⟩ := exists_flows hB hp hs hlp hd hc hadm hothers hok
  exact hworth.of_bounds (by omega) (by omega) hleft hshares

/-! ## Slippage -/

/-- The reserves of a pool in the direction of a swap. -/
def PoolState.facing (p : PoolState Key) (aToB : Bool) : ConstantProduct.Pool ℕ :=
  if aToB then ⟨p.vaultX, p.vaultY, p.supply⟩ else ⟨p.vaultY, p.vaultX, p.supply⟩

/-- **A limit bounds what can be extracted.** Outsiders who end with no less of the output token and
of the shares have gained at most what the swap was ready to spend, less what the curve asked at
first for the least output that it accepts. -/
theorem slippage_bounds_extraction (A : AddressScheme Key) (B B₁ : Bank Key) (c lp : Key)
    (p : PoolState Key) (hB : Reachable A B) (hp : B.pool A c = some p) (hs : 0 < p.supply)
    (hlp : A.createProgramAddress (.lpMint c) p.config.lpBump = some lp) (signers : List Key)
    (accs : Swap Key) (kind : SwapKind) (aToB : Bool) (hc : accs.config = c)
    (hadm : (⟨signers, .amm (.swap accs kind aToB)⟩ : Call Key).Admissible A)
    (before after : List (Call Key)) (K : Finset Key)
    (hothers : Outsiders A p.config c accs.user p.config.mints K (before ++ after))
    (hok : exec A (run (exec A) B before) ⟨signers, .amm (.swap accs kind aToB)⟩ = .ok B₁)
    (B₂ : Bank Key) (hB₂ : run (exec A) B₁ after = B₂)
    (hout : 0 ≤ netGain K B B₂ (p.config.mintOut aToB)) (hshares : 0 ≤ gain K B B₂ lp) :
    netGain K B B₂ (p.config.mintIn aToB) +
        ceilIn (p.facing aToB).x (p.facing aToB).y kind.minOut.toNat ≤ kind.maxIn.toNat := by
  subst hB₂
  have hdeal : (Instruction.swap accs kind aToB).deal =
      some ⟨accs.user, false, kind.terms aToB⟩ := rfl
  obtain ⟨q, hworth, hx, hy, hissued⟩ :=
    exists_flows hB hp hs hlp hdeal hc hadm hothers hok
  obtain ⟨_, -, -, hsound⟩ := hB.inv.poolAt hp
  obtain ⟨hx0, hy0⟩ := hsound.reserves_pos hs
  cases aToB with
  | true =>
    simp only [SwapKind.terms, if_true, add_zero] at hx hy hissued
    exact hworth.gain_le hx0 hy0 hs (show p.supply ≤ q.shares by omega) hx hy hout
  | false =>
    simp only [SwapKind.terms, if_false, Bool.false_eq_true, add_zero] at hx hy hissued
    exact hworth.flip.gain_le hy0 hx0 hs (show p.supply ≤ q.shares by omega) hy hx hout

/-! ## Bob around Alice -/

namespace Demo

/-- Bob buys before Alice does, and sells again after her. -/
def frontRun : Call Addr := byBob (.amm (.swap (swapBy bob) (.exactInput 200 0) true))

def aliceBuys : Call Addr := byAlice (.amm (.swap (swapBy alice) (.exactInput 500 900) true))

def aliceJoins : Call Addr := byAlice (.amm (.addLiquidity (addBy alice) 400 900 500))

def backRun : Call Addr := byBob (.amm (.swap (swapBy bob) (.exactInput 426 0) false))

/-- The bank after Alice's call. -/
def sandwiched (call : Call Addr) : Bank Addr :=
  next (exec Addr.scheme) (next (exec Addr.scheme) bank frontRun) call

def bobs : Finset Addr := {bob, .associated bob mintX, .associated bob mintY}

theorem bob_outside (liquidity : Bool) :
    Outsiders Addr.scheme poolState.config pool alice
      (Deal.mints ⟨alice, liquidity, ⟨0, 0, 0⟩⟩ poolState.config mintLp) bobs
      [frontRun, backRun] := by
  refine ⟨?_, by decide, ?_, ?_, by decide⟩
  · intro call hcall
    simp only [List.mem_cons, List.not_mem_nil, or_false] at hcall
    rcases hcall with rfl | rfl <;> exact byBob_admissible _
  · cases liquidity <;> decide
  · cases liquidity <;> decide

end Demo

/-- Bob's accounts around Alice's deposit. -/
theorem extraction_frontier_demo :
    4000 * 9000 * (6000 + 500 + gain Demo.bobs Demo.bank
        (run (exec Addr.scheme) (Demo.sandwiched Demo.aliceJoins) [Demo.backRun]) Demo.mintLp) ^ 2 ≤
      (4000 + 400 - netGain Demo.bobs Demo.bank
          (run (exec Addr.scheme) (Demo.sandwiched Demo.aliceJoins) [Demo.backRun]) Demo.mintX) *
        (9000 + 900 - netGain Demo.bobs Demo.bank
          (run (exec Addr.scheme) (Demo.sandwiched Demo.aliceJoins) [Demo.backRun]) Demo.mintY) *
        6000 ^ 2 := by
  refine extraction_frontier Addr.scheme Demo.bank (Demo.sandwiched Demo.aliceJoins) Demo.pool
    Demo.mintLp Demo.poolState Demo.bank_reachable Demo.bank_pool (by decide) (by decide +kernel) _
    (.addLiquidity (Demo.addBy Demo.alice) 400 900 500) ⟨Demo.alice, true, ⟨400, 900, 500⟩⟩
    (by decide) rfl (Demo.byAlice_admissible _) [Demo.frontRun] [Demo.backRun] Demo.bobs
    (Demo.bob_outside true) (eq_ok_next (by decide +kernel)) _ rfl ?_
  decide +kernel

/-- Bob gains 46; Alice was ready to overpay 55. -/
theorem slippage_bounds_extraction_demo :
    netGain Demo.bobs Demo.bank
        (run (exec Addr.scheme) (Demo.sandwiched Demo.aliceBuys) [Demo.backRun]) Demo.mintX +
      ceilIn 4000 9000 900 ≤ 500 := by
  refine slippage_bounds_extraction Addr.scheme Demo.bank (Demo.sandwiched Demo.aliceBuys) Demo.pool
    Demo.mintLp Demo.poolState Demo.bank_reachable Demo.bank_pool (by decide) (by decide +kernel) _
    (Demo.swapBy Demo.alice) (.exactInput 500 900) true rfl (Demo.byAlice_admissible _)
    [Demo.frontRun] [Demo.backRun] Demo.bobs (Demo.bob_outside false)
    (eq_ok_next (by decide +kernel)) _ rfl ?_ (by decide +kernel)
  decide +kernel

end Amm
