import ToyAmm.QuoteFacts
import ToyAmm.Transition

/-!
# Runs of liquidity quotes

`applyOp` quotes one deposit or withdrawal and updates the reserves and the supply by it. One
operation keeps every share backed on both sides (`applyOp_backed`), hence so does a list of them
(`applyOps_backed`); the totals of a list of deposits or of withdrawals follow by
induction on the list.
-/

open Checked ConstantProduct Transition

namespace AmmMath

/-- Reserves and supply of a pool. -/
structure Reserves where
  reserveA : U64
  reserveB : U64
  supply : U64
  deriving DecidableEq, Repr

def Reserves.pool (r : Reserves) : Pool ℕ := ⟨r.reserveA.toNat, r.reserveB.toNat, r.supply.toNat⟩

/-- One liquidity operation. -/
inductive LiquidityOp where
  | add (amountA amountB : U64)
  | remove (lpTokens : U64)
  deriving DecidableEq, Repr

/-- Quote an operation and update the pool by the quote; every new amount has to fit. -/
def applyOp (r : Reserves) : LiquidityOp → Result Reserves
  | .add amountA amountB => do
    let q ← addLiquidity r.reserveA r.reserveB r.supply amountA amountB
    let reserveA ← .okOr .overflow (checkedAdd r.reserveA q.amountA)
    let reserveB ← .okOr .overflow (checkedAdd r.reserveB q.amountB)
    let supply ← .okOr .overflow (checkedAdd r.supply q.lpTokens)
    .ok { reserveA, reserveB, supply }
  | .remove lpTokens => do
    let q ← removeLiquidity r.reserveA r.reserveB r.supply lpTokens
    let reserveA ← .okOr .underflow (checkedSub r.reserveA q.amountA)
    let reserveB ← .okOr .underflow (checkedSub r.reserveB q.amountB)
    let supply ← .okOr .underflow (checkedSub r.supply q.lpTokens)
    .ok { reserveA, reserveB, supply }

variable {r r' : Reserves} {a b l : U64}

structure AddStep (r r' : Reserves) (a b : U64) (q : LiquidityQuote U64) : Prop where
  spec : q.AddSpec r.reserveA r.reserveB r.supply a b
  reserveA : r'.reserveA.toNat = r.reserveA.toNat + a.toNat
  reserveB : r'.reserveB.toNat = r.reserveB.toNat + b.toNat
  supply : r'.supply.toNat = r.supply.toNat + q.lpTokens.toNat

structure RemoveStep (r r' : Reserves) (l : U64) (q : LiquidityQuote U64) : Prop where
  spec : q.RemoveSpec r.reserveA r.reserveB r.supply l
  reserveA : r'.reserveA.toNat + q.amountA.toNat = r.reserveA.toNat
  reserveB : r'.reserveB.toNat + q.amountB.toNat = r.reserveB.toNat
  supply : r'.supply.toNat + l.toNat = r.supply.toNat

theorem applyOp_add (h : applyOp r (.add a b) = .ok r') : ∃ q, AddStep r r' a b q := by
  obtain ⟨q, hq, h⟩ := Outcome.bind_eq_ok.mp h
  obtain ⟨x, hx, h⟩ := Outcome.bind_eq_ok.mp h
  obtain ⟨y, hy, h⟩ := Outcome.bind_eq_ok.mp h
  obtain ⟨s, hs, ⟨⟩⟩ := Outcome.bind_eq_ok.mp h
  rw [Outcome.okOr_eq_ok, checkedAdd_eq_some] at hx hy hs
  have hspec := addLiquidity_spec hq
  exact ⟨q, hspec, hspec.amountA ▸ hx, hspec.amountB ▸ hy, hs⟩

theorem applyOp_remove (h : applyOp r (.remove l) = .ok r') : ∃ q, RemoveStep r r' l q := by
  obtain ⟨q, hq, h⟩ := Outcome.bind_eq_ok.mp h
  obtain ⟨x, hx, h⟩ := Outcome.bind_eq_ok.mp h
  obtain ⟨y, hy, h⟩ := Outcome.bind_eq_ok.mp h
  obtain ⟨s, hs, ⟨⟩⟩ := Outcome.bind_eq_ok.mp h
  rw [Outcome.okOr_eq_ok, checkedSub_eq_some] at hx hy hs
  have hspec := removeLiquidity_spec hq
  exact ⟨q, hspec, hx, hy, hspec.lpTokens ▸ hs⟩

/-- A deposit is quoted only by a pool that has shares. -/
theorem AddStep.supply_pos {q : LiquidityQuote U64} (h : AddStep r r' a b q) :
    0 < r.supply.toNat := by
  rcases Nat.eq_zero_or_pos r.supply.toNat with h0 | h0
  · have hpos := h.spec.lpTokens_pos
    rw [h.spec.lpTokens, h0, Reference.mintedShares] at hpos
    simp at hpos
  · exact h0

/-- One operation acts on a pool with shares and keeps every share backed. -/
theorem applyOp_backed {op : LiquidityOp} (h : applyOp r op = .ok r') :
    0 < r.supply.toNat ∧ Backed r.pool r'.pool := by
  cases op with
  | add a b =>
    obtain ⟨q, hq⟩ := applyOp_add h
    refine ⟨hq.supply_pos, ?_⟩
    have hb := hq.spec.backed
    rw [← hq.reserveA, ← hq.reserveB, ← hq.supply] at hb
    exact hb
  | remove l =>
    obtain ⟨q, hq⟩ := applyOp_remove h
    have hl := hq.spec.lp_pos
    have hle := hq.spec.lp_le
    refine ⟨by omega, ?_⟩
    have hb := hq.spec.backed
    rw [← hq.reserveA, ← hq.reserveB, ← hq.supply, Nat.add_sub_cancel, Nat.add_sub_cancel,
      Nat.add_sub_cancel] at hb
    rw [Reserves.pool, ← hq.reserveA, ← hq.reserveB, ← hq.supply]
    exact hb

theorem applyOps_backed {ops : List LiquidityOp} (h : applyAll applyOp r ops = .ok r') :
    Backed r.pool r'.pool := by
  have hstep : ∀ t op t', Backed r.pool t.pool → applyOp t op = .ok t' →
      Backed r.pool t'.pool := by
    intro t op t' ht hop
    obtain ⟨hpos, hb⟩ := applyOp_backed hop
    exact ht.trans hpos hb
  exact applyAll_induction (P := fun t => Backed r.pool t.pool) (Backed.refl _) hstep h

/-! ## Splitting a deposit or a withdrawal -/

/-- What a list of deposits adds up to. -/
theorem applyOps_add {deposits : List (U64 × U64)}
    (h : applyAll applyOp r (deposits.map fun d => .add d.1 d.2) = .ok r') :
    r'.reserveA.toNat = r.reserveA.toNat + (deposits.map fun d => d.1.toNat).sum ∧
      r'.reserveB.toNat = r.reserveB.toNat + (deposits.map fun d => d.2.toNat).sum ∧
      r.supply.toNat ≤ r'.supply.toNat := by
  induction deposits generalizing r with
  | nil =>
    obtain rfl := Outcome.ok.inj h
    simp
  | cons d deposits ih =>
    obtain ⟨m, hm, h⟩ := Outcome.bind_eq_ok.mp h
    obtain ⟨q, hq⟩ := applyOp_add hm
    obtain ⟨hA, hB, hS⟩ := ih h
    have := hq.reserveA
    have := hq.reserveB
    have := hq.supply
    simp only [List.map_cons, List.sum_cons]
    omega

/-- What a list of withdrawals adds up to; each one burns something and takes something out of both
reserves. -/
theorem applyOps_remove {burns : List U64}
    (h : applyAll applyOp r (burns.map .remove) = .ok r') :
    r'.supply.toNat + (burns.map BitVec.toNat).sum = r.supply.toNat ∧
      r'.reserveA.toNat + burns.length ≤ r.reserveA.toNat ∧
      r'.reserveB.toNat + burns.length ≤ r.reserveB.toNat ∧
      burns.length ≤ (burns.map BitVec.toNat).sum := by
  induction burns generalizing r with
  | nil =>
    obtain rfl := Outcome.ok.inj h
    simp
  | cons l burns ih =>
    obtain ⟨m, hm, h⟩ := Outcome.bind_eq_ok.mp h
    obtain ⟨q, hq⟩ := applyOp_remove hm
    obtain ⟨hS, hA, hB, hlen⟩ := ih h
    have := hq.reserveA
    have := hq.reserveB
    have := hq.supply
    have := hq.spec.lp_pos
    have := hq.spec.amountA_pos
    have := hq.spec.amountB_pos
    simp only [List.map_cons, List.sum_cons, List.length_cons]
    omega

/-- A side that grew by `t` while backing every share has issued at most its part of `t`. -/
theorem issued_le {x s s' t : ℕ} (hx : 0 < x) (h : x * s' ≤ (x + t) * s) :
    s' - s ≤ t * s / x := by
  rw [Nat.le_div_iff_mul_le hx, Nat.sub_mul, Nat.sub_le_iff_le_add]
  linarith

/-- A side that still backs the shares left after `l` has paid at most `l`'s part. -/
theorem paid_le {x s x' l : ℕ} (hs : 0 < s) (hl : l ≤ s) (h : x * (s - l) ≤ x' * s) :
    x - x' ≤ l * x / s := by
  obtain ⟨k, rfl⟩ := Nat.exists_eq_add_of_le hl
  rw [Nat.add_sub_cancel_left] at h
  rw [Nat.le_div_iff_mul_le hs, Nat.sub_mul, Nat.sub_le_iff_le_add]
  linarith

/-- A payout quoted on one pool is quoted on every pool that backs its shares no worse. -/
theorem removeLiquidity_later {x y s x' y' s' : U64} {q : LiquidityQuote U64} (hs : 0 < s.toNat)
    (hx : x.toNat * s'.toNat ≤ x'.toNat * s.toNat) (hy : y.toNat * s'.toNat ≤ y'.toNat * s.toNat)
    (h : removeLiquidity x y s l = .ok q) (hl : l.toNat ≤ s'.toNat) :
    ∃ q', removeLiquidity x' y' s' l = .ok q' ∧
      q.amountA.toNat ≤ q'.amountA.toNat ∧ q.amountB.toNat ≤ q'.amountB.toNat := by
  have hspec := removeLiquidity_spec h
  have hs' : 0 < s'.toNat := hspec.lp_pos.trans_le hl
  have hA := share_le_share (l := l.toNat) hs hs' hx
  have hB := share_le_share (l := l.toNat) hs hs' hy
  rw [← hspec.amountA] at hA
  rw [← hspec.amountB] at hB
  have hx' : 0 < x'.toNat := by
    have := Nat.mul_pos hspec.reserveA_pos hs'
    exact Nat.pos_of_mul_pos_right (this.trans_le hx)
  have hy' : 0 < y'.toNat := by
    have := Nat.mul_pos hspec.reserveB_pos hs'
    exact Nat.pos_of_mul_pos_right (this.trans_le hy)
  obtain ⟨q', hq'⟩ := removeLiquidity_ok hspec.lp_pos hx' hy' hl
    (hspec.amountA_pos.trans_le hA) (hspec.amountB_pos.trans_le hB)
  have hspec' := removeLiquidity_spec hq'
  exact ⟨q', hq', hspec'.amountA ▸ hA, hspec'.amountB ▸ hB⟩

/-- **No dilution and no overpayment.** After any list of quoted deposits and withdrawals, both
reserves back every share at least as well as before. Hence a list that restores the supply takes
nothing out of either reserve; a deposit made in parts mints no more than the whole would; a
withdrawal made in parts pays no more of either token; and a payout quoted at the start
is quoted at the end as well, for no less, while that many shares are left. -/
theorem liquidity_run_backed (r r' : Reserves) (ops : List LiquidityOp)
    (hx : 1 ≤ r.reserveA.toNat) (hy : 1 ≤ r.reserveB.toNat) (hs : 1 ≤ r.supply.toNat)
    (h : applyAll applyOp r ops = .ok r') :
    (r.reserveA.toNat * r'.supply.toNat ≤ r'.reserveA.toNat * r.supply.toNat ∧
        r.reserveB.toNat * r'.supply.toNat ≤ r'.reserveB.toNat * r.supply.toNat) ∧
      (r'.supply = r.supply →
        r.reserveA.toNat ≤ r'.reserveA.toNat ∧ r.reserveB.toNat ≤ r'.reserveB.toNat) ∧
      (∀ deposits : List (U64 × U64), ops = deposits.map (fun d => .add d.1 d.2) →
        r'.supply.toNat - r.supply.toNat ≤
          Reference.mintedShares r.reserveA.toNat r.reserveB.toNat r.supply.toNat
            (deposits.map fun d => d.1.toNat).sum (deposits.map fun d => d.2.toNat).sum) ∧
      (∀ burns : List U64, ops = burns.map .remove → burns ≠ [] →
        ∃ l q, l.toNat = (burns.map BitVec.toNat).sum ∧
          removeLiquidity r.reserveA r.reserveB r.supply l = .ok q ∧
          r.reserveA.toNat - r'.reserveA.toNat ≤ q.amountA.toNat ∧
          r.reserveB.toNat - r'.reserveB.toNat ≤ q.amountB.toNat) ∧
      ∀ l q, removeLiquidity r.reserveA r.reserveB r.supply l = .ok q →
        l.toNat ≤ r'.supply.toNat →
        ∃ q', removeLiquidity r'.reserveA r'.reserveB r'.supply l = .ok q' ∧
          q.amountA.toNat ≤ q'.amountA.toNat ∧ q.amountB.toNat ≤ q'.amountB.toNat := by
  have hb := applyOps_backed h
  have hbx : r.reserveA.toNat * r'.supply.toNat ≤ r'.reserveA.toNat * r.supply.toNat := hb.x
  have hby : r.reserveB.toNat * r'.supply.toNat ≤ r'.reserveB.toNat * r.supply.toNat := hb.y
  refine ⟨⟨hbx, hby⟩, ?_, ?_, ?_, ?_⟩
  · intro hsup
    rw [hsup] at hbx hby
    exact ⟨Nat.le_of_mul_le_mul_right hbx hs, Nat.le_of_mul_le_mul_right hby hs⟩
  · intro deposits hops
    rw [hops] at h
    obtain ⟨hA, hB, -⟩ := applyOps_add h
    rw [hA] at hbx
    rw [hB] at hby
    exact le_min (issued_le hx hbx) (issued_le hy hby)
  · intro burns hops hne
    rw [hops] at h
    obtain ⟨hS, hA, hB, hsum⟩ := applyOps_remove h
    have hlen := List.length_pos_iff.mpr hne
    have hl : (burns.map BitVec.toNat).sum < 2 ^ 64 := by have := r.supply.isLt; omega
    have hS' : r'.supply.toNat = r.supply.toNat - (burns.map BitVec.toNat).sum := by omega
    have hle : (burns.map BitVec.toNat).sum ≤ r.supply.toNat := by omega
    rw [hS'] at hbx hby
    have hpx := paid_le hs hle hbx
    have hpy := paid_le hs hle hby
    obtain ⟨q, hq⟩ := removeLiquidity_ok (x := r.reserveA) (y := r.reserveB) (s := r.supply)
      (l := BitVec.ofNatLT _ hl) (by rw [BitVec.toNat_ofNatLT]; omega) hx hy hle
      (lt_of_lt_of_le (by omega) hpx) (lt_of_lt_of_le (by omega) hpy)
    have hspec := removeLiquidity_spec hq
    exact ⟨_, q, rfl, hq, hspec.amountA ▸ hpx, hspec.amountB ▸ hpy⟩
  · intro l q hq hle
    exact removeLiquidity_later hs hbx hby hq hle

theorem liquidity_run_backed_mixed :
    ∃ q, removeLiquidity 1051 4204 1051 10 = .ok q ∧ 10 ≤ q.amountA.toNat ∧ 40 ≤ q.amountB.toNat :=
  (liquidity_run_backed ⟨1000, 4000, 1000⟩ ⟨1051, 4204, 1051⟩ [.add 101 404, .remove 50]
    (by decide) (by decide) (by decide) (by decide +kernel)).2.2.2.2 10 ⟨10, 10, 40⟩
    (by decide +kernel) (by decide)

end AmmMath
