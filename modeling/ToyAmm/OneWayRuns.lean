import ToyAmm.Extraction
import ToyAmm.SwapSplitting

/-!
# Runs in one direction

Swaps in one direction, with whatever does not write the vaults between them, make a pool dearer for
the next one in that direction (`Dearer`): whatever a swap gets from a dearer pool, or from one with
a higher fee, it would have got before, for at most the same input and at least the same output
(`SwapKind.quote_dearer`). So the swap of a user who comes after them is one that would have gone
through before them, at no worse a price (`front_running_never_helps`).

On the curve such swaps compose (`Fills`), whoever makes them. So a single swap of either kind could
have moved the pool as far, for no more than they paid together (`one_swap_for_many`).
-/

open Checked AmmMath Token Ledger ConstantProduct Transition

namespace ConstantProduct

/-- `q` has more on the side of the input and less on the side of the output than `p`. -/
structure Dearer (p q : Pool ℕ) : Prop where
  x : p.x ≤ q.x
  y : q.y ≤ p.y

/-- From `p` to `q` goes one trade on the curve, for what is left of the input once the part `k / d`
of it, rounded down, is taken as the net amount. -/
structure Fills (k d : ℕ) (p q : Pool ℕ) : Prop extends Dearer p q where
  curve : ∃ n ≤ floorNet k d (q.x - p.x), Keeps p.x p.y n q.y

variable {k k' d : ℕ} {p q r : Pool ℕ}

theorem Fills.refl (k d : ℕ) (p : Pool ℕ) : Fills k d p p :=
  ⟨⟨le_rfl, le_rfl⟩, 0, Nat.zero_le _, le_rfl⟩

/-- One trade after the other, in the same direction, is one trade. -/
theorem Fills.trans (hk : k ≤ d) (h : Fills k d p q) (h' : Fills k d q r) : Fills k d p r := by
  obtain ⟨⟨hx, hy⟩, n, hn, hkeeps⟩ := h
  obtain ⟨⟨hx', hy'⟩, n', hn', hkeeps'⟩ := h'
  refine ⟨⟨hx.trans hx', hy'.trans hy⟩, n + n', ?_, ?_⟩
  · rw [show r.x - p.x = q.x - p.x + (r.x - q.x) by omega]
    exact (Nat.add_le_add hn hn').trans (floorNet_add_le _ _)
  · -- the second trade starts from the full input, at least what the first one was priced on
    have hnet := hn.trans (floorNet_le hk)
    exact hkeeps.trans (by omega) hkeeps'

/-- A lower fee would have left more. -/
theorem Fills.mono (hk : k ≤ k') (h : Fills k d p q) : Fills k' d p q := by
  obtain ⟨hdear, n, hn, hkeeps⟩ := h
  exact ⟨hdear, n, hn.trans (floorNet_le_of_le hk _), hkeeps⟩

end ConstantProduct

namespace Amm

variable {Key : Type} [DecidableEq Key] {A : AddressScheme Key} {B B' : Bank Key} {c lp u : Key}
  {cfg cfg' : Config Key} {signers : List Key} {call : Call Key} {calls : List (Call Key)}

/-! ## Quotes -/

section Quotes

variable {x y x' y' t : U64} {f f' : U16}

theorem SwapKind.quote_exactInput {a m : U64} {r : SwapQuote U64}
    (hr : swapExactInput x y a f = .ok r) (hmet : m ≤ r.amountOut) :
    (SwapKind.exactInput a m).quote x y f = .ok ⟨r.amountIn, r.amountOut⟩ := by
  unfold SwapKind.quote
  simp only [quoted_eq_ok.mpr hr, Outcome.ok_bind, Outcome.require_pos hmet]

theorem SwapKind.quote_exactOutput {t m : U64} {r : ExactOutputQuote U64}
    (hr : swapExactOutput x y t f = .ok r) (hmet : r.amountIn ≤ m) :
    (SwapKind.exactOutput t m).quote x y f = .ok ⟨r.amountIn, r.amountOut⟩ := by
  unfold SwapKind.quote
  simp only [quoted_eq_ok.mpr hr, Outcome.ok_bind, Outcome.require_pos hmet]

/-- The minimum input for an output rises with the pool and with the fee. -/
theorem minInput_mono (hx : x.toNat ≤ x'.toNat) (hy : y'.toNat ≤ y.toNat)
    (hf : f.toNat ≤ f'.toNat) (hf' : f'.toNat < 10000) (ht : t.toNat < y'.toNat) :
    Reference.grossUp (Reference.curveIn x.toNat y.toNat t.toNat) f.toNat ≤
      Reference.grossUp (Reference.curveIn x'.toNat y'.toNat t.toNat) f'.toNat :=
  ceilGross_mono (by omega) (by norm_num) (by omega) (ceilIn_mono hx hy ht)

/-- A swap that a dearer pool quotes is quoted by the other one, at no worse a price. -/
theorem SwapKind.quote_dearer {kind : SwapKind} {q' : SwapAmounts} (hx0 : 0 < x.toNat)
    (hx : x.toNat ≤ x'.toNat) (hy : y'.toNat ≤ y.toNat) (hf : f.toNat ≤ f'.toNat)
    (h : kind.quote x' y' f' = .ok q') :
    ∃ q, kind.quote x y f = .ok q ∧ q.amountIn.toNat ≤ q'.amountIn.toNat ∧
      q'.amountOut.toNat ≤ q.amountOut.toNat := by
  obtain ⟨n, hn, hin, hout, -, -⟩ := SwapKind.quoted_of_quote h
  rw [← hin, ← hout]
  cases hn with
  | exactInput quote spent limit =>
    have hs := swapExactInput_spec quote
    have hfee := hs.fee_lt
    obtain ⟨hlt, hmin, hfit⟩ :=
      (swapExactInput_pays_iff (by omega) hs.reserveOut_pos hs.amountOut_pos hfee).mp
        ⟨_, quote, le_rfl⟩
    obtain ⟨r, hr, hpaid⟩ :=
      (swapExactInput_pays_iff (f := f) hx0 (by omega) hs.amountOut_pos (by omega)).mpr
        ⟨hlt.trans_le hy, (minInput_mono hx hy hf hfee hlt).trans hmin, by omega⟩
    refine ⟨_, SwapKind.quote_exactInput hr (limit.trans hpaid), ?_, hpaid⟩
    rw [(swapExactInput_spec hr).amountIn, spent]
  | exactOutput quote paid limit =>
    have hs := swapExactOutput_spec quote
    have hfee := hs.fee_lt
    obtain ⟨hlt, hfit⟩ := (swapExactOutput_ok_iff (by omega) hs.amount_pos hfee).mp ⟨_, quote⟩
    have hle := minInput_mono hx hy hf hfee hlt
    obtain ⟨r, hr⟩ := (swapExactOutput_ok_iff (f := f) hx0 hs.amount_pos (by omega)).mpr
      ⟨hlt.trans_le hy, by omega⟩
    have hs' := swapExactOutput_spec hr
    rw [← hs.amountIn, ← hs'.amountIn] at hle
    refine ⟨_, SwapKind.quote_exactOutput hr (hle.trans limit), hle, ?_⟩
    rw [hs'.amountOut, paid]

variable {p p' : ConstantProduct.Pool ℕ}

/-- A quote is a trade on the curve. -/
theorem SwapKind.quote_fills {kind : SwapKind} {q : SwapAmounts} (h : kind.quote x y f = .ok q)
    (hx : x.toNat = p.x) (hy : y.toNat = p.y) (hx' : p'.x = p.x + q.amountIn.toNat)
    (hy' : p'.y + q.amountOut.toNat = p.y) : Fills (10000 - f.toNat) 10000 p p' := by
  obtain ⟨leg, r, hr, hin, hout⟩ : ∃ leg r, fillLeg f x y leg = .ok r ∧
      r.totalIn = q.amountIn.toNat ∧ r.totalOut = q.amountOut.toNat := by
    obtain ⟨n, hn, hin, hout, -, -⟩ := SwapKind.quoted_of_quote h
    rw [← hin, ← hout]
    cases hn with
    | exactInput quote => exact ⟨.exactInput _, _, Outcome.bind_eq_ok.mpr ⟨_, quote, rfl⟩, rfl, rfl⟩
    | exactOutput quote =>
      exact ⟨.exactOutput _, _, Outcome.bind_eq_ok.mpr ⟨_, quote, rfl⟩, rfl, rfl⟩
  obtain ⟨-, hleft, n, hn, hkeeps⟩ := fillLeg_keeps hr
  rw [hx, hy, show r.reserveOut.toNat = p'.y by omega] at hkeeps
  refine ⟨⟨by omega, by omega⟩, n, ?_, hkeeps⟩
  rw [show p'.x - p.x = r.totalIn by omega]
  exact hn

/-- A trade on the curve is quoted, as a swap of either kind, with its amounts as limits. -/
theorem quote_of_fills (h : Fills (10000 - f.toNat) 10000 p p') (hx : x.toNat = p.x)
    (hy : y.toNat = p.y) (hx0 : 0 < x.toNat) (hf : f.toNat < 10000) {a : U64}
    (ha : a.toNat + p.x = p'.x) (ht : t.toNat + p'.y = p.y) (hpos : 0 < t.toNat)
    (hfit : p'.x < 2 ^ 64) : (∃ q, (SwapKind.exactInput a t).quote x y f = .ok q) ∧
      ∃ q, (SwapKind.exactOutput t a).quote x y f = .ok q := by
  obtain ⟨-, n, hn, hkeeps⟩ := h
  have hy' : 0 < p'.y := hkeeps.pos (by omega) (by omega)
  have hty : t.toNat < y.toNat := by omega
  have hmin : Reference.grossUp (Reference.curveIn x.toNat y.toNat t.toNat) f.toNat ≤ a.toNat := by
    rw [ceilGross_le_iff (by omega) (by norm_num), ceilIn_le_iff hty, hx, hy,
      show p.y - t.toNat = p'.y by omega, show a.toNat = p'.x - p.x by omega]
    exact hkeeps.mono hn
  constructor
  · obtain ⟨r, hr, hpaid⟩ := (swapExactInput_pays_iff (a := a) hx0 (by omega) hpos hf).mpr
      ⟨hty, hmin, by omega⟩
    exact ⟨_, SwapKind.quote_exactInput hr hpaid⟩
  · obtain ⟨r, hr⟩ := (swapExactOutput_ok_iff (y := y) hx0 hpos hf).mpr ⟨hty, by omega⟩
    exact ⟨_, SwapKind.quote_exactOutput hr ((swapExactOutput_spec hr).amountIn.le.trans hmin)⟩

end Quotes

/-! ## A pool as a swap sees it -/

/-- The reserves in the direction of a swap, read from the accounts. -/
def Bank.facing (B : Bank Key) (A : AddressScheme Key) (c : Key) (cfg : Config Key) (lp : Key)
    (aToB : Bool) : ConstantProduct.Pool ℕ where
  x := B.purse A c (cfg.mintIn aToB)
  y := B.purse A c (cfg.mintOut aToB)
  shares := B.tokens.supply lp

theorem PoolState.facing_eq {p : PoolState Key} (hv : view A B c p.config lp = p.toState)
    (aToB : Bool) : B.facing A c p.config lp aToB = p.facing aToB := by
  obtain ⟨hX, hY, hS, -⟩ := PoolState.view_fields hv
  unfold facing
  rw [← hX, ← hY, ← hS]
  cases aToB <;> rfl

omit [DecidableEq Key] in
theorem Config.SameFixed.mintOut (h : cfg.SameFixed cfg') (aToB : Bool) :
    cfg'.mintOut aToB = cfg.mintOut aToB := by
  cases aToB with
  | true => exact h.mintY
  | false => exact h.mintX

theorem Bank.facing_congr (h : cfg.SameFixed cfg') (aToB : Bool) :
    B.facing A c cfg' lp aToB = B.facing A c cfg lp aToB := by
  unfold Bank.facing
  rw [h.mintIn, h.mintOut]

omit [DecidableEq Key] in
theorem PoolState.facing_x_pos {p : PoolState Key} (h : SharePool.Sound 1000 p.toState)
    (hs : 0 < p.supply) (aToB : Bool) : 0 < (p.facing aToB).x := by
  obtain ⟨hx, hy⟩ := h.reserves_pos hs
  cases aToB with
  | true => exact hx
  | false => exact hy

/-! ## Runs -/

omit [DecidableEq Key] in
theorem Config.SameFixed.accountsOf (h : cfg.SameFixed cfg') (o : Key) :
    cfg'.accountsOf A o = cfg.accountsOf A o := by
  unfold Config.accountsOf
  rw [h.mintX, h.mintY]

/-- The call is a swap of the pool in this direction, or does not write its vaults. -/
def Call.Worsens (call : Call Key) (A : AddressScheme Key) (cfg : Config Key) (c : Key)
    (aToB : Bool) : Prop :=
  (∃ accs kind, call.op = .amm (.swap accs kind aToB) ∧ accs.config = c) ∨
    ∀ k ∈ cfg.accountsOf A c, k ∉ (accountLocks Key).writable call

/-- What a swap moves into and out of the vaults. -/
theorem SwapSpec.facing {kind : SwapKind} {aToB : Bool} {rIn rOut : U64} {q : SwapAmounts}
    (h : SwapSpec A B B' signers c u kind aToB cfg rIn rOut q) (hp : PoolAt A B c cfg lp)
    (hu : u ≠ c) :
    (B'.facing A c cfg lp aToB).x = (B.facing A c cfg lp aToB).x + q.amountIn.toNat ∧
      (B'.facing A c cfg lp aToB).y + q.amountOut.toNat = (B.facing A c cfg lp aToB).y := by
  have hio := hp.mintIn_ne_mintOut aToB
  have hne : ∀ M, A.associatedAddress c M ≠ A.associatedAddress u M := fun M =>
    A.associated_ne_of_owner hu.symm
  have hin := h.balance (cfg.mintIn aToB) (A.associatedAddress c (cfg.mintIn aToB))
  have hout := h.balance (cfg.mintOut aToB) (A.associatedAddress c (cfg.mintOut aToB))
  rw [entry_of_ne (hne _), entry_of_mint_ne hio.symm, entry_self, entry_of_mint_ne hio.symm] at hin
  rw [entry_of_mint_ne hio, entry_self, entry_of_mint_ne hio, entry_of_ne (hne _)] at hout
  exact ⟨hin, hout⟩

/-- A swap at no lower a fee is a trade on the curve. -/
theorem SwapSpec.fills {kind : SwapKind} {aToB : Bool} {rIn rOut : U64} {q : SwapAmounts} {f : ℕ}
    (h : SwapSpec A B B' signers c u kind aToB cfg rIn rOut q) (hp : PoolAt A B c cfg lp)
    (hu : u ≠ c) (hf : f ≤ cfg.feeBps.toNat) :
    Fills (10000 - f) 10000 (B.facing A c cfg lp aToB) (B'.facing A c cfg lp aToB) := by
  obtain ⟨hx, hy⟩ := h.facing hp hu
  have hfills := SwapKind.quote_fills h.quote h.reserveIn h.reserveOut hx hy
  exact hfills.mono (Nat.sub_le_sub_left hf 10000)

/-- One call. -/
theorem PoolAt.fills_of_exec {aToB : Bool} {f : ℕ} (hp : PoolAt A B c cfg lp)
    (hadm : call.Admissible A) (hw : call.Worsens A cfg c aToB) (hf : f ≤ cfg.feeBps.toNat)
    (h : exec A B call = .ok B') :
    Fills (10000 - f) 10000 (B.facing A c cfg lp aToB) (B'.facing A c cfg lp aToB) := by
  obtain ⟨signers, op⟩ := call
  rcases hw with ⟨accs, kind, rfl, hc⟩ | hspared
  · obtain ⟨rIn, rOut, q, hs⟩ := hp.swap_spec hc h
    exact hs.fills hp (fun hu => hadm c (hu ▸ hs.signed) hp.isProgramAddress) hf
  · obtain ⟨hin, hout⟩ := cfg.mem_accountsOf A c aToB
    have hx : (B'.facing A c cfg lp aToB).x = (B.facing A c cfg lp aToB).x :=
      balance_frame h (hspared _ hin) _
    have hy : (B'.facing A c cfg lp aToB).y = (B.facing A c cfg lp aToB).y :=
      balance_frame h (hspared _ hout) _
    refine ⟨⟨hx.ge, hy.le⟩, 0, Nat.zero_le _, ?_⟩
    rw [hy]
    exact le_rfl

omit [DecidableEq Key] in
theorem Call.Worsens.congr {aToB : Bool} (h : call.Worsens A cfg c aToB)
    (hfix : cfg.SameFixed cfg') : call.Worsens A cfg' c aToB := by
  unfold Call.Worsens
  rw [hfix.accountsOf]
  exact h

/-- A run during which the fee is never below `f`, by induction from its end. -/
theorem PoolAt.fills_of_run {aToB : Bool} {f : ℕ} (hp : PoolAt A B c cfg lp)
    (hcalls : ∀ call ∈ calls, call.Admissible A ∧ call.Worsens A cfg c aToB)
    (hfee : ∀ before cfg', before <+: calls → (run (exec A) B before).configs c = some cfg' →
      f ≤ cfg'.feeBps.toNat) :
    ∃ cfg', PoolAt A (run (exec A) B calls) c cfg' lp ∧ cfg.SameFixed cfg' ∧
      Fills (10000 - f) 10000 (B.facing A c cfg lp aToB)
        ((run (exec A) B calls).facing A c cfg lp aToB) := by
  induction calls using List.reverseRecOn with
  | nil => exact ⟨cfg, hp, .refl cfg, .refl ..⟩
  | append_singleton calls call ih =>
    have hprefix : calls <+: calls ++ [call] := List.prefix_append _ _
    obtain ⟨cfg₁, hp₁, hfix, hfills⟩ := ih
      (fun call hcall => hcalls call (List.mem_append_left _ hcall))
      (fun before cfg' hb => hfee before cfg' (hb.trans hprefix))
    obtain ⟨hadm, hw⟩ := hcalls call (List.mem_append_right _ (List.mem_singleton_self _))
    let P : Bank Key → Prop := fun B₂ => ∃ cfg₂, PoolAt A B₂ c cfg₂ lp ∧ cfg.SameFixed cfg₂ ∧
      Fills (10000 - f) 10000 (B.facing A c cfg lp aToB) (B₂.facing A c cfg lp aToB)
    rw [run_append, run_cons, run_nil]
    refine next_induction (P := P) ⟨cfg₁, hp₁, hfix, hfills⟩ ?_
    intro B₂ h
    obtain ⟨cfg₂, hp₂, hs⟩ := hp₁.kept h
    have hnext := hp₁.fills_of_exec hadm (hw.congr hfix) (hfee calls cfg₁ hprefix hp₁.config) h
    rw [Bank.facing_congr hfix, Bank.facing_congr hfix] at hnext
    exact ⟨cfg₂, hp₂, hfix.trans hs.sameFixed, hfills.trans (Nat.sub_le _ _) hnext⟩

/-! ## Coming after -/

/-- A swap that the pool quotes goes through, and moves what was quoted. -/
theorem swap_of_quote {kind : SwapKind} {aToB : Bool} {rIn rOut : U64} {q : SwapAmounts}
    (hb : B.tokens.SupplyBacked) (hp : PoolAt A B c cfg lp) (hu : Trader A B signers cfg u)
    (hunlocked : cfg.locked = false) (hin : rIn.toNat = (B.facing A c cfg lp aToB).x)
    (hout : rOut.toNat = (B.facing A c cfg lp aToB).y)
    (hq : kind.quote rIn rOut cfg.feeBps = .ok q)
    (hheld : kind.maxIn.toNat ≤ B.purse A u (cfg.mintIn aToB)) :
    ∃ B', exec A B ⟨signers, .amm (.swap (cfg.swapAccounts A c u) kind aToB)⟩ = .ok B' ∧
      SwapSpec A B B' signers c u kind aToB cfg rIn rOut q := by
  obtain ⟨l, hl⟩ := hu.swapChecked hp
  obtain ⟨hri, hro⟩ := hl.reserve_eq hp aToB
  obtain rfl : l.reserveIn aToB = rIn := BitVec.eq_of_toNat_eq (hri.trans hin.symm)
  obtain rfl : l.reserveOut aToB = rOut := BitVec.eq_of_toNat_eq (hro.trans hout.symm)
  obtain ⟨hspent, -⟩ := SwapKind.quote_limits hq
  obtain ⟨B', h⟩ := swap_goes_through hb hp hu hl hunlocked hq (hspent.trans hheld)
  refine ⟨B', h, ?_⟩
  obtain ⟨rIn, rOut, q', hs⟩ := hp.swap_spec rfl h
  obtain rfl : l.reserveIn aToB = rIn := BitVec.eq_of_toNat_eq (hri.trans hs.reserveIn.symm)
  obtain rfl : l.reserveOut aToB = rOut := BitVec.eq_of_toNat_eq (hro.trans hs.reserveOut.symm)
  obtain rfl : q' = q := by
    have hq' := hs.quote
    rw [hq] at hq'
    exact (Outcome.ok.inj hq').symm
  exact hs

/-- **Those who come first in one's own direction never help.** A swap that goes through after a run
of swaps in its direction, and of calls that spare the vaults, would have gone through before it:
for at most the same input, and at least the same output. -/
theorem front_running_never_helps (A : AddressScheme Key) (B B₂ : Bank Key) (c u : Key)
    (p : PoolState Key) (hB : Reachable A B) (hp : B.pool A c = some p) (hs : 0 < p.supply)
    (hunlocked : p.config.locked = false) (signers : List Key)
    (hu : Trader A B signers p.config u) (kind : SwapKind) (aToB : Bool)
    (hheld : kind.maxIn.toNat ≤ B.purse A u (p.config.mintIn aToB)) (calls : List (Call Key))
    (hcalls : ∀ call ∈ calls, call.Admissible A ∧ call.Worsens A p.config c aToB)
    (hfee : ∀ cfg, (run (exec A) B calls).configs c = some cfg →
      p.config.feeBps.toNat ≤ cfg.feeBps.toNat)
    (hadm : (⟨signers, .amm (.swap (p.config.swapAccounts A c u) kind aToB)⟩ :
      Call Key).Admissible A)
    (h : exec A (run (exec A) B calls)
      ⟨signers, .amm (.swap (p.config.swapAccounts A c u) kind aToB)⟩ = .ok B₂) :
    ∃ B₁, exec A B ⟨signers, .amm (.swap (p.config.swapAccounts A c u) kind aToB)⟩ = .ok B₁ ∧
      B.purse A u (p.config.mintIn aToB) + B₂.purse A u (p.config.mintIn aToB) ≤
        B₁.purse A u (p.config.mintIn aToB) +
          (run (exec A) B calls).purse A u (p.config.mintIn aToB) ∧
      B.purse A u (p.config.mintOut aToB) + B₂.purse A u (p.config.mintOut aToB) ≤
        B₁.purse A u (p.config.mintOut aToB) +
          (run (exec A) B calls).purse A u (p.config.mintOut aToB) := by
  obtain ⟨lp, hat, hv, hsound⟩ := hB.inv.poolAt hp
  have huc : u ≠ c := fun he => hadm c (he ▸ hu.signed) hat.isProgramAddress
  obtain ⟨cfg', hat', hfix, hfills⟩ := hat.fills_of_run hcalls fun _ _ _ _ => Nat.zero_le _
  have hdear := hfills.toDearer
  -- the swap after the run
  obtain ⟨rIn', rOut', q', hs'⟩ : ∃ rIn rOut q,
      SwapSpec A (run (exec A) B calls) B₂ signers c u kind aToB cfg' rIn rOut q :=
    hat'.swap_spec rfl h
  have hri' : rIn'.toNat = ((run (exec A) B calls).facing A c cfg' lp aToB).x := hs'.reserveIn
  have hro' : rOut'.toNat = ((run (exec A) B calls).facing A c cfg' lp aToB).y := hs'.reserveOut
  obtain ⟨hpaid', hgot'⟩ := hs'.purse_legs hat' huc
  rw [Bank.facing_congr hfix] at hri' hro'
  rw [hfix.mintIn aToB] at hpaid'
  rw [hfix.mintOut aToB] at hgot'
  -- the swap before it
  obtain ⟨rIn, -, hri⟩ := (hat.vaultIn aToB).account
  obtain ⟨rOut, -, hro⟩ := (hat.vaultOut aToB).account
  have hpos : 0 < (B.facing A c p.config lp aToB).x := by
    rw [PoolState.facing_eq hv]
    exact PoolState.facing_x_pos hsound hs aToB
  have hx : rIn.toNat ≤ rIn'.toNat := hri.le.trans (hdear.x.trans hri'.ge)
  have hy : rOut'.toNat ≤ rOut.toNat := hro'.le.trans (hdear.y.trans hro.ge)
  obtain ⟨q, hq, hin, hout⟩ := SwapKind.quote_dearer (hpos.trans_eq hri.symm) hx hy
    (hfee cfg' hat'.config) hs'.quote
  obtain ⟨B₁, h₁, hs₁⟩ := swap_of_quote hB.inv.backed hat hu hunlocked hri hro hq hheld
  obtain ⟨hpaid, hgot⟩ := hs₁.purse_legs hat huc
  exact ⟨B₁, h₁, by omega, by omega⟩

/-- Alice's swap after Bob's, and without it. -/
theorem front_running_never_helps_demo :
    ∃ B, exec Addr.scheme Demo.bank Demo.aliceBuys = .ok B ∧
      Demo.bank.purse Addr.scheme Demo.alice Demo.mintX +
          (Demo.sandwiched Demo.aliceBuys).purse Addr.scheme Demo.alice Demo.mintX ≤
        B.purse Addr.scheme Demo.alice Demo.mintX +
          (run (exec Addr.scheme) Demo.bank [Demo.frontRun]).purse Addr.scheme Demo.alice
            Demo.mintX ∧
      Demo.bank.purse Addr.scheme Demo.alice Demo.mintY +
          (Demo.sandwiched Demo.aliceBuys).purse Addr.scheme Demo.alice Demo.mintY ≤
        B.purse Addr.scheme Demo.alice Demo.mintY +
          (run (exec Addr.scheme) Demo.bank [Demo.frontRun]).purse Addr.scheme Demo.alice
            Demo.mintY := by
  refine front_running_never_helps Addr.scheme Demo.bank (Demo.sandwiched Demo.aliceBuys)
    Demo.pool Demo.alice Demo.poolState Demo.bank_reachable Demo.bank_pool (by decide) rfl
    [Demo.alice, Demo.mintX, Demo.mintY] ?_ (.exactInput 500 900) true (by decide +kernel)
    [Demo.frontRun] ?_ ?_ (Demo.byAlice_admissible _) (eq_ok_next (by decide +kernel))
  · exact ⟨List.mem_cons_self, ⟨996000, by decide +kernel⟩, ⟨991000, by decide +kernel⟩⟩
  · intro call hcall
    obtain rfl := List.mem_singleton.mp hcall
    exact ⟨Demo.byBob_admissible _, .inl ⟨_, _, rfl, rfl⟩⟩
  · intro cfg hc
    have hstored : (run (exec Addr.scheme) Demo.bank [Demo.frontRun]).configs Demo.pool =
        some Demo.poolState.config := by decide +kernel
    obtain rfl := Option.some.inj (hstored.symm.trans hc)
    exact le_rfl

/-! ## In place of many -/

/-- **One swap for many.** However far a run of swaps in one direction has moved a pool, whoever
made them, a single swap of either kind could have moved it as far, for no more than they paid in and
no less than they were paid, if the fee was never lower in between. -/
theorem one_swap_for_many (A : AddressScheme Key) (B : Bank Key) (c u : Key) (p p' : PoolState Key)
    (hB : Reachable A B) (hp : B.pool A c = some p) (hs : 0 < p.supply)
    (hunlocked : p.config.locked = false) (aToB : Bool) (calls : List (Call Key))
    (hcalls : ∀ call ∈ calls, call.Admissible A ∧ call.Worsens A p.config c aToB)
    (hfee : ∀ before cfg, before <+: calls → (run (exec A) B before).configs c = some cfg →
      p.config.feeBps.toNat ≤ cfg.feeBps.toNat)
    (hp' : (run (exec A) B calls).pool A c = some p') (a t : U64)
    (ha : a.toNat + (p.facing aToB).x = (p'.facing aToB).x)
    (ht : t.toNat + (p'.facing aToB).y = (p.facing aToB).y) (hpos : 0 < t.toNat)
    (signers : List Key) (hu : Trader A B signers p.config u)
    (hheld : a.toNat ≤ B.purse A u (p.config.mintIn aToB)) (kind : SwapKind)
    (hkind : kind = .exactInput a t ∨ kind = .exactOutput t a) :
    ∃ B', exec A B ⟨signers, .amm (.swap (p.config.swapAccounts A c u) kind aToB)⟩ = .ok B' := by
  obtain ⟨lp, hat, hv, hsound⟩ := hB.inv.poolAt hp
  obtain ⟨cfg', hat', hfix, hfills⟩ := hat.fills_of_run hcalls hfee
  -- the pool at the end
  obtain ⟨lp', hat'', hv', -⟩ := (hB.inv.of_run fun call hcall => (hcalls call hcall).1).poolAt hp'
  obtain rfl := Option.some.inj (hat'.config.symm.trans hat''.config)
  obtain rfl := hat'.lp_eq hat''.lpAddress
  have hend : (run (exec A) B calls).facing A c p.config lp' aToB = p'.facing aToB := by
    rw [← Bank.facing_congr hfix]
    exact PoolState.facing_eq hv' aToB
  have hstart := PoolState.facing_eq hv aToB
  rw [← hstart] at ha ht
  rw [← hend] at ha ht
  -- its reserves are words
  obtain ⟨rIn, -, hri⟩ := (hat.vaultIn aToB).account
  obtain ⟨rOut, -, hro⟩ := (hat.vaultOut aToB).account
  obtain ⟨rIn', -, hri'⟩ := (hat'.vaultIn aToB).account
  rw [hfix.mintIn aToB] at hri'
  have hfit : ((run (exec A) B calls).facing A c p.config lp' aToB).x < 2 ^ 64 :=
    hri'.symm.trans_lt rIn'.isLt
  have hx0 : 0 < (B.facing A c p.config lp' aToB).x := by
    rw [hstart]
    exact PoolState.facing_x_pos hsound hs aToB
  obtain ⟨⟨q, hq⟩, q', hq'⟩ := quote_of_fills hfills hri hro (hx0.trans_eq hri.symm)
    hat.fee_lt ha ht hpos hfit
  rcases hkind with rfl | rfl
  · obtain ⟨B', h, -⟩ := swap_of_quote hB.inv.backed hat hu hunlocked hri hro hq hheld
    exact ⟨B', h⟩
  · obtain ⟨B', h, -⟩ := swap_of_quote hB.inv.backed hat hu hunlocked hri hro hq' hheld
    exact ⟨B', h⟩

namespace Demo

/-- Two swaps of Bob, one of either kind. -/
def twoSwaps : List (Call Addr) :=
  [frontRun, byBob (.amm (.swap (swapBy bob) (.exactOutput 400 500) true))]

end Demo

/-- Alice takes at once what Bob took in two swaps. -/
theorem one_swap_for_many_demo :
    ∃ B, exec Addr.scheme Demo.bank
      (Demo.byAlice (.amm (.swap (Demo.swapBy Demo.alice) (.exactOutput 826 407) true))) =
        .ok B := by
  refine one_swap_for_many Addr.scheme Demo.bank Demo.pool Demo.alice Demo.poolState
    { Demo.poolState with vaultX := 4407, vaultY := 8174 } Demo.bank_reachable Demo.bank_pool
    (by decide) rfl true Demo.twoSwaps ?_ ?_ (by decide +kernel) 407 826 rfl rfl (by decide)
    [Demo.alice, Demo.mintX, Demo.mintY] ?_ (by decide +kernel) _ (.inr rfl)
  · intro call hcall
    simp only [Demo.twoSwaps, List.mem_cons, List.not_mem_nil, or_false] at hcall
    rcases hcall with rfl | rfl <;> exact ⟨Demo.byBob_admissible _, .inl ⟨_, _, rfl, rfl⟩⟩
  · intro before cfg hb hc
    have hstored : ∀ calls ∈ Demo.twoSwaps.inits,
        (run (exec Addr.scheme) Demo.bank calls).configs Demo.pool =
          some Demo.poolState.config := by decide +kernel
    rw [hstored before ((List.mem_inits _ _).mpr hb)] at hc
    obtain rfl := Option.some.inj hc
    exact le_rfl
  · exact ⟨List.mem_cons_self, ⟨996000, by decide +kernel⟩, ⟨991000, by decide +kernel⟩⟩

end Amm
