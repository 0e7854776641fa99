import Mathlib.Algebra.BigOperators.Group.Finset.Basic
import ToyAmm.Reachable

/-!
# What a share is worth

Along every run the product of the reserves per squared share does not fall
(`share_value_never_falls`). While a coalition acts alone, what its members hold and what the pool
holds add up to the same (`Conserved`); so whoever ends with no less of anything has
changed nothing (`no_self_made_profit`).
-/

open Checked AmmMath Token Ledger ConstantProduct Transition

namespace Amm

variable {Key : Type} [DecidableEq Key] {A : AddressScheme Key} {B B' : Bank Key} {c u lp : Key}
  {cfg : Config Key} {signers : List Key} {p p' : PoolState Key} {call : Call Key}

/-- **Per-share value never falls.** -/
theorem share_value_never_falls (A : AddressScheme Key) (B : Bank Key) (c : Key) (p : PoolState Key)
    (hB : Reachable A B) (hp : B.pool A c = some p) (hs : 0 < p.supply) (calls : List (Call Key))
    (hadm : ∀ call ∈ calls, call.Admissible A) :
    ∃ p', (run (exec A) B calls).pool A c = some p' ∧
      p.vaultX * p.vaultY * p'.supply ^ 2 ≤ p'.vaultX * p'.vaultY * p.supply ^ 2 := by
  obtain ⟨p', hp', -, hw⟩ := run_worthLe hB.inv hp hs hadm
  exact ⟨p', hp', hw⟩

theorem share_value_never_falls_swap :
    ∃ p', (run (exec Addr.scheme) Demo.bank
        [Demo.byAlice (.amm (.swap (Demo.swapBy Demo.alice) (.exactInput 500 0) true))]).pool
          Addr.scheme Demo.pool = some p' ∧
      4000 * 9000 * p'.supply ^ 2 ≤ p'.vaultX * p'.vaultY * 6000 ^ 2 :=
  share_value_never_falls Addr.scheme Demo.bank Demo.pool Demo.poolState Demo.bank_reachable
    Demo.bank_pool (by decide) _ (List.forall_mem_singleton.mpr (Demo.byAlice_admissible _))

/-! ## A coalition that acts alone -/

/-- What the members of `U` hold in tokens of `m`. -/
def held (A : AddressScheme Key) (B : Bank Key) (U : Finset Key) (m : Key) : ℕ :=
  ∑ u ∈ U, B.tokens.balance m (A.associatedAddress u m)

/-- A trade on the pool `c` by a member of `U`, or an admin instruction on any pool. -/
def Call.Solo (U : Finset Key) (c : Key) (call : Call Key) : Prop :=
  match call.op with
  | .amm (.swap accs _ _) => accs.config = c ∧ accs.user ∈ U
  | .amm (.addLiquidity accs _ _ _) => accs.config = c ∧ accs.user ∈ U
  | .amm (.removeLiquidity accs _ _ _) => accs.config = c ∧ accs.user ∈ U
  | .amm (.updateFee _ _) => True
  | .amm (.setLocked _ _) => True
  | .amm (.updateAuthority _ _) => True
  | _ => False

variable {U : Finset Key}

theorem sum_entry_member (hu : u ∈ U) (m : Key) (n : ℕ) (m' : Key) :
    ∑ v ∈ U, entry m (A.associatedAddress u m) n m' (A.associatedAddress v m') =
      if m' = m then n else 0 := by
  by_cases hm : m' = m
  · subst hm
    rw [if_pos rfl, Finset.sum_eq_single_of_mem u hu, entry_self]
    intro v _ hv
    exact entry_of_ne (A.associated_ne_of_owner hv) _ _ _
  · rw [if_neg hm]
    exact Finset.sum_eq_zero fun v _ => entry_of_mint_ne hm _ _ _

theorem sum_entry_vault (hc : c ∉ U) (m : Key) (n : ℕ) (m' m'' : Key) :
    ∑ v ∈ U, entry m (A.associatedAddress c m'') n m' (A.associatedAddress v m') = 0 := by
  refine Finset.sum_eq_zero fun v hv => entry_of_ne (A.associated_ne_of_owner ?_) _ _ _
  rintro rfl
  exact hc hv

theorem SwapSpec.held {kind : SwapKind} {aToB : Bool} {rIn rOut : U64} {q : SwapAmounts}
    (h : SwapSpec A B B' signers c u kind aToB cfg rIn rOut q) (hu : u ∈ U) (hc : c ∉ U) (m : Key) :
    held A B' U m + (if m = cfg.mintIn aToB then q.amountIn.toNat else 0) =
      held A B U m + if m = cfg.mintOut aToB then q.amountOut.toNat else 0 := by
  have hsum := Finset.sum_congr rfl fun v (_ : v ∈ U) => h.balance m (A.associatedAddress v m)
  simp only [Finset.sum_add_distrib, sum_entry_member hu, sum_entry_vault hc, Nat.add_zero] at hsum
  exact hsum

theorem AddSpec.held {a b minLp rX rY s : U64} {q : LiquidityQuote U64}
    (h : AddSpec A B B' signers c u a b minLp cfg lp rX rY s q) (hu : u ∈ U) (hc : c ∉ U)
    (m : Key) :
    held A B' U m + (if m = cfg.mintX then q.amountA.toNat else 0) +
        (if m = cfg.mintY then q.amountB.toNat else 0) =
      held A B U m + if m = lp then q.lpTokens.toNat else 0 := by
  have hsum := Finset.sum_congr rfl fun v (_ : v ∈ U) => h.balance m (A.associatedAddress v m)
  simp only [Finset.sum_add_distrib, sum_entry_member hu, sum_entry_vault hc, Nat.add_zero] at hsum
  exact hsum

theorem RemoveSpec.held {lpBurn minA minB rX rY s : U64} {q : LiquidityQuote U64}
    (h : RemoveSpec A B B' signers c u lpBurn minA minB cfg lp rX rY s q) (hu : u ∈ U)
    (hc : c ∉ U) (m : Key) :
    held A B' U m + (if m = lp then q.lpTokens.toNat else 0) =
      held A B U m + (if m = cfg.mintX then q.amountA.toNat else 0) +
        if m = cfg.mintY then q.amountB.toNat else 0 := by
  have hsum := Finset.sum_congr rfl fun v (_ : v ∈ U) => h.balance m (A.associatedAddress v m)
  simp only [Finset.sum_add_distrib, sum_entry_member hu, sum_entry_vault hc, Nat.add_zero] at hsum
  exact hsum

/-- The pool and the coalition together hold what they did; shares issued are the coalition's. -/
structure Conserved (A : AddressScheme Key) (U : Finset Key) (cfg : Config Key) (lp : Key)
    (B : Bank Key) (p : SharePool.State) (B' : Bank Key) (p' : SharePool.State) : Prop where
  x : p'.x + held A B' U cfg.mintX = p.x + held A B U cfg.mintX
  y : p'.y + held A B' U cfg.mintY = p.y + held A B U cfg.mintY
  shares : p'.shares + held A B U lp = p.shares + held A B' U lp

theorem Conserved.refl (A : AddressScheme Key) (U : Finset Key) (cfg : Config Key) (lp : Key)
    (B : Bank Key) (p : SharePool.State) : Conserved A U cfg lp B p B p := ⟨rfl, rfl, rfl⟩

theorem Conserved.of_tokens (h : B'.tokens = B.tokens) :
    Conserved A U cfg lp B (view A B c cfg lp) B' (view A B' c cfg lp) := by
  unfold view
  constructor <;> simp [Amm.held, h]

theorem Conserved.trans {B₁ B₂ B₃ : Bank Key} {p₁ p₂ p₃ : SharePool.State}
    (h : Conserved A U cfg lp B₁ p₁ B₂ p₂) (h' : Conserved A U cfg lp B₂ p₂ B₃ p₃) :
    Conserved A U cfg lp B₁ p₁ B₃ p₃ := by
  obtain ⟨hx, hy, hs⟩ := h
  obtain ⟨hx', hy', hs'⟩ := h'
  exact ⟨by omega, by omega, by omega⟩

theorem SwapSpec.conserved {kind : SwapKind} {aToB : Bool} {rIn rOut : U64} {q : SwapAmounts}
    (h : SwapSpec A B B' signers c u kind aToB cfg rIn rOut q) (hp : PoolAt A B c cfg lp)
    (hu : u ∈ U) (hc : c ∉ U) :
    Conserved A U cfg lp B (Amm.view A B c cfg lp) B' (Amm.view A B' c cfg lp) := by
  have hxy := hp.mintX_ne_mintY
  have hxl := hp.mintX_ne_lp
  have hyl := hp.mintY_ne_lp
  obtain ⟨hx, hy, hS, -⟩ := h.view hp fun e => hc (e ▸ hu)
  have hX := h.held hu hc cfg.mintX
  have hY := h.held hu hc cfg.mintY
  have hL := h.held hu hc lp
  cases aToB with
  | true =>
    simp only [Config.mintIn_true, Config.mintOut_true, if_true, hxy, hxy.symm, hxl.symm, hyl.symm,
      if_false] at hX hY hL hx hy
    exact ⟨by omega, by omega, by omega⟩
  | false =>
    simp only [Config.mintIn_false, Config.mintOut_false, if_true, hxy, hxy.symm, hxl.symm,
      hyl.symm, if_false, Bool.false_eq_true] at hX hY hL hx hy
    exact ⟨by omega, by omega, by omega⟩

/-- All shares issued go to the depositor, as none are locked after the first deposit. -/
theorem AddSpec.conserved {a b minLp rX rY s : U64} {q : LiquidityQuote U64}
    (h : AddSpec A B B' signers c u a b minLp cfg lp rX rY s q) (hp : PoolAt A B c cfg lp)
    (hpos : 0 < (Amm.view A B c cfg lp).shares) (hu : u ∈ U) (hc : c ∉ U) :
    Conserved A U cfg lp B (Amm.view A B c cfg lp) B' (Amm.view A B' c cfg lp) := by
  have hxy := hp.mintX_ne_mintY
  have hxl := hp.mintX_ne_lp
  have hyl := hp.mintY_ne_lp
  obtain ⟨hx, hy, hS, -⟩ := h.view hp fun e => hc (e ▸ hu)
  have hlock : lockedShares s = 0 := by
    apply if_neg
    intro h0
    have hsup : s.toNat = (Amm.view A B c cfg lp).shares := h.supplyLp
    rw [toNat_eq_zero.mpr h0] at hsup
    omega
  have hX := h.held hu hc cfg.mintX
  have hY := h.held hu hc cfg.mintY
  have hL := h.held hu hc lp
  simp only [if_true, hxy, hxl, hyl, hxy.symm, hxl.symm, hyl.symm, if_false] at hX hY hL
  exact ⟨by omega, by omega, by omega⟩

theorem RemoveSpec.conserved {lpBurn minA minB rX rY s : U64} {q : LiquidityQuote U64}
    (h : RemoveSpec A B B' signers c u lpBurn minA minB cfg lp rX rY s q) (hp : PoolAt A B c cfg lp)
    (hu : u ∈ U) (hc : c ∉ U) :
    Conserved A U cfg lp B (Amm.view A B c cfg lp) B' (Amm.view A B' c cfg lp) := by
  have hxy := hp.mintX_ne_mintY
  have hxl := hp.mintX_ne_lp
  have hyl := hp.mintY_ne_lp
  obtain ⟨hx, hy, hS, -⟩ := h.view hp fun e => hc (e ▸ hu)
  have hX := h.held hu hc cfg.mintX
  have hY := h.held hu hc cfg.mintY
  have hL := h.held hu hc lp
  simp only [if_true, hxy, hxl, hyl, hxy.symm, hxl.symm, hyl.symm, if_false] at hX hY hL
  exact ⟨by omega, by omega, by omega⟩

/-- One call of the coalition conserves, once the pool has shares. -/
theorem PoolAt.conserved_of_exec (hp : PoolAt A B c cfg lp) (hpos : 0 < (view A B c cfg lp).shares)
    (hc : c ∉ U) (hsolo : call.Solo U c) (h : exec A B call = .ok B') :
    Conserved A U cfg lp B (view A B c cfg lp) B' (view A B' c cfg lp) := by
  obtain ⟨signers, op⟩ := call
  cases op with
  | token ix => exact hsolo.elim
  | amm ix =>
    cases ix with
    | init accs seed feeBps authority => exact hsolo.elim
    | addLiquidity accs a b m =>
      obtain ⟨hcc, hu⟩ : accs.config = c ∧ accs.user ∈ U := hsolo
      obtain ⟨rX, rY, s, q, hs⟩ := hp.add_spec hcc h
      exact hs.conserved hp hpos hu hc
    | removeLiquidity accs l a b =>
      obtain ⟨hcc, hu⟩ : accs.config = c ∧ accs.user ∈ U := hsolo
      obtain ⟨rX, rY, s, q, hs⟩ := hp.remove_spec hcc h
      exact hs.conserved hp hu hc
    | swap accs kind aToB =>
      obtain ⟨hcc, hu⟩ : accs.config = c ∧ accs.user ∈ U := hsolo
      obtain ⟨rIn, rOut, q, hs⟩ := hp.swap_spec hcc h
      exact hs.conserved hp hu hc
    | updateFee accs newFeeBps =>
      obtain ⟨_, -, -, rfl⟩ := updateFee_eq_ok.mp h
      exact .of_tokens rfl
    | setLocked accs locked =>
      obtain ⟨_, -, rfl⟩ := setLocked_eq_ok.mp h
      exact .of_tokens rfl
    | updateAuthority accs newAuthority =>
      obtain ⟨_, -, rfl⟩ := updateAuthority_eq_ok.mp h
      exact .of_tokens rfl

theorem Conserved.congr {cfg' : Config Key} {p₁ p₂ : SharePool.State} (hfix : cfg.SameFixed cfg')
    (h : Conserved A U cfg' lp B p₁ B' p₂) : Conserved A U cfg lp B p₁ B' p₂ := by
  obtain ⟨hx, hy, hs⟩ := h
  rw [hfix.mintX] at hx
  rw [hfix.mintY] at hy
  exact ⟨hx, hy, hs⟩

/-- A run of the coalition conserves. -/
theorem run_conserved (hI : Inv A B) (hp : PoolAt A B c cfg lp)
    (hs : SharePool.Sound 1000 (view A B c cfg lp)) (hpos : 0 < (view A B c cfg lp).shares)
    (hc : c ∉ U) {calls : List (Call Key)}
    (hadm : ∀ call ∈ calls, call.Admissible A ∧ call.Solo U c) :
    ∃ cfg', PoolAt A (run (exec A) B calls) c cfg' lp ∧ cfg.SameFixed cfg' ∧
      Conserved A U cfg lp B (view A B c cfg lp) (run (exec A) B calls)
        (view A (run (exec A) B calls) c cfg' lp) := by
  let P : Bank Key → Prop := fun B₁ =>
    Inv A B₁ ∧ ∃ cfg₁, PoolAt A B₁ c cfg₁ lp ∧ cfg.SameFixed cfg₁ ∧
      SharePool.Sound 1000 (view A B₁ c cfg₁ lp) ∧ 0 < (view A B₁ c cfg₁ lp).shares ∧
      Conserved A U cfg lp B (view A B c cfg lp) B₁ (view A B₁ c cfg₁ lp)
  have hstep : ∀ B₁ call B₂, P B₁ → call.Admissible A ∧ call.Solo U c →
      exec A B₁ call = .ok B₂ → P B₂ := by
    rintro B₁ call B₂ ⟨hI₁, cfg₁, hp₁, hfix, hs₁, hpos₁, hcons⟩ ⟨hadm, hsolo⟩ h
    obtain ⟨cfg₂, hp₂, hstep, hs₂, hmove⟩ := hp₁.of_exec hI₁.backed hs₁ hadm h
    have hpos₂ := hs₁.shares_pos_of_move (by norm_num) hmove hs₂.locked_le hpos₁
    have hcons₂ := hcons.trans ((hp₁.conserved_of_exec hpos₁ hc hsolo h).congr hfix)
    rw [← view_congr hstep.sameFixed] at hcons₂
    exact ⟨hI₁.of_exec hadm h, cfg₂, hp₂, hfix.trans hstep.sameFixed, hs₂, hpos₂, hcons₂⟩
  obtain ⟨-, cfg', hp', hfix, -, -, hcons⟩ :=
    run_induction (P := P) hstep ⟨hI, cfg, hp, .refl cfg, hs, hpos, .refl ..⟩ hadm
  exact ⟨cfg', hp', hfix, hcons⟩

/-- **No self-made profit.** However a coalition trades with the pool, and whatever fees are set
between its trades, it does not end with at least what it had of `X`, of `Y` and of the LP token,
and with more of one of them. -/
theorem no_self_made_profit (A : AddressScheme Key) (B : Bank Key) (c : Key) (p : PoolState Key)
    (lp : Key) (hB : Reachable A B) (hp : B.pool A c = some p)
    (hlp : A.createProgramAddress (.lpMint c) p.config.lpBump = some lp) (hs : 0 < p.supply)
    (U : Finset Key) (hU : ∀ u ∈ U, ¬ A.IsProgramAddress u) (calls : List (Call Key))
    (hcalls : ∀ call ∈ calls, call.Admissible A ∧ call.Solo U c) :
    ¬ ((held A B U p.config.mintX ≤ held A (run (exec A) B calls) U p.config.mintX ∧
          held A B U p.config.mintY ≤ held A (run (exec A) B calls) U p.config.mintY ∧
          held A B U lp ≤ held A (run (exec A) B calls) U lp) ∧
        (held A B U p.config.mintX < held A (run (exec A) B calls) U p.config.mintX ∨
          held A B U p.config.mintY < held A (run (exec A) B calls) U p.config.mintY ∨
          held A B U lp < held A (run (exec A) B calls) U lp)) := by
  rintro ⟨⟨hX, hY, hL⟩, hmore⟩
  obtain ⟨lp', hat, hv, hsound⟩ := hB.inv.poolAt hp
  obtain rfl := hat.lp_eq hlp
  have hc : c ∉ U := fun hc => hU c hc hat.isProgramAddress
  have hpos : 0 < (view A B c p.config lp).shares := hv ▸ hs
  obtain ⟨cfg', hat', -, ⟨hx, hy, hshares⟩⟩ :=
    run_conserved hB.inv hat (hv ▸ hsound) hpos hc hcalls
  obtain ⟨p', hp', -, hw⟩ := run_worthLe hB.inv hp hs fun call hcall => (hcalls call hcall).1
  have hw' : WorthLe p.toState.toPool (view A (run (exec A) B calls) c cfg' lp).toPool := by
    rw [hat'.pool_eq] at hp'
    obtain rfl := Option.some.inj hp'
    exact hw
  rw [hv] at hx hy hshares
  obtain ⟨hx0, hy0⟩ := hsound.reserves_pos hs
  -- the pool gave nothing up, so by the worth of its shares nothing moved
  have heq := hw'.antisymm hx0 hy0 hs (by omega) (by omega) (by omega)
  obtain ⟨hx', hy', hs'⟩ := heq
  omega

theorem no_self_made_profit_round_trip :
    ¬ ((held Addr.scheme Demo.bank {Demo.alice} Demo.mintX ≤
            held Addr.scheme (run (exec Addr.scheme) Demo.bank Demo.roundTrip) {Demo.alice}
              Demo.mintX ∧
          held Addr.scheme Demo.bank {Demo.alice} Demo.mintY ≤
            held Addr.scheme (run (exec Addr.scheme) Demo.bank Demo.roundTrip) {Demo.alice}
              Demo.mintY ∧
          held Addr.scheme Demo.bank {Demo.alice} Demo.mintLp ≤
            held Addr.scheme (run (exec Addr.scheme) Demo.bank Demo.roundTrip) {Demo.alice}
              Demo.mintLp) ∧
        (held Addr.scheme Demo.bank {Demo.alice} Demo.mintX <
            held Addr.scheme (run (exec Addr.scheme) Demo.bank Demo.roundTrip) {Demo.alice}
              Demo.mintX ∨
          held Addr.scheme Demo.bank {Demo.alice} Demo.mintY <
            held Addr.scheme (run (exec Addr.scheme) Demo.bank Demo.roundTrip) {Demo.alice}
              Demo.mintY ∨
          held Addr.scheme Demo.bank {Demo.alice} Demo.mintLp <
            held Addr.scheme (run (exec Addr.scheme) Demo.bank Demo.roundTrip) {Demo.alice}
              Demo.mintLp)) := by
  refine no_self_made_profit Addr.scheme Demo.bank Demo.pool Demo.poolState Demo.mintLp
    Demo.bank_reachable Demo.bank_pool (by decide +kernel) (by decide) {Demo.alice} ?_
    Demo.roundTrip ?_
  · intro u hu
    rw [Finset.mem_singleton.mp hu]
    exact Addr.wallet_not_program 0
  · intro call hcall
    simp only [Demo.roundTrip, List.mem_cons, List.not_mem_nil, or_false] at hcall
    rcases hcall with rfl | rfl | rfl <;>
      exact ⟨Demo.byAlice_admissible _, rfl, Finset.mem_singleton_self _⟩

end Amm
