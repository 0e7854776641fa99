import ToyAmm.TradeErrors

/-!
# A pool is bootstrapped once and never emptied

From the moment of its initialisation a pool either has had no accepted deposit and has no shares,
or it is funded for good: the lockup is in place and the product of the reserves covers the square
of the supply. So only one deposit is ever quoted as the first one, and after it no trade finds a
reserve empty.
-/

open Checked AmmMath Token Ledger Transition

namespace Amm

variable {Key : Type} [DecidableEq Key] {A : AddressScheme Key} {B B' : Bank Key} {c lp : Key}
  {cfg : Config Key} {p : PoolState Key} {call : Call Key} {calls : List (Call Key)}

/-- A deposit into the pool `c`. -/
def Call.deposits (c : Key) (call : Call Key) : Bool :=
  match call.op with
  | .amm (.addLiquidity accs _ _ _) => accs.config = c
  | _ => false

/-- A deposit into the pool `c` that finds it without shares, so it is quoted by
`initialLiquidity`. -/
def bootstraps (A : AddressScheme Key) (c : Key) (B : Bank Key) (call : Call Key) : Bool :=
  call.deposits c && (B.pool A c).any fun p => p.supply = 0

theorem Call.deposits_eq_true (h : call.deposits c = true) :
    ∃ accs a b minLp, call.op = .amm (.addLiquidity accs a b minLp) ∧ accs.config = c := by
  unfold Call.deposits at h
  split at h
  · rename_i accs a b minLp hop
    exact ⟨accs, a, b, minLp, hop, of_decide_eq_true h⟩
  · cases h

/-- After a deposit the pool has shares. -/
theorem AddSpec.shares_pos {u : Key} {signers : List Key} {a b minLp rX rY s : U64}
    {q : LiquidityQuote U64} (h : AddSpec A B B' signers c u a b minLp cfg lp rX rY s q)
    (hp : PoolAt A B c cfg lp) (hu : u ≠ c) : 0 < (Amm.view A B' c cfg lp).shares := by
  obtain ⟨-, -, hshares, -⟩ := h.view hp hu
  have hquote := h.quote
  have hq : 0 < q.lpTokens.toNat := by
    split_ifs at hquote
    · exact (initialLiquidity_spec hquote).lpTokens_pos
    · exact (addLiquidity_spec hquote).lpTokens_pos
  omega

/-- One call: a pool with shares keeps some, and a pool that takes a deposit gets some. -/
theorem Inv.supply_pos_of_exec (hI : Inv A B) (hadm : call.Admissible A)
    (h : exec A B call = .ok B') (hp : B.pool A c = some p) :
    ∃ p', B'.pool A c = some p' ∧ (p'.supply = 0 → p.supply = 0 ∧ call.deposits c = false) := by
  obtain ⟨lp, hat, hv, hs⟩ := hI.poolAt hp
  obtain ⟨cfg', hat', hstep, hs', hmove⟩ := hat.of_exec hI.backed (hv ▸ hs) hadm h
  refine ⟨_, hat'.pool_eq, fun h0 => ⟨?_, ?_⟩⟩
  · by_contra hne
    have hpos : 0 < (view A B c p.config lp).shares := hv ▸ Nat.pos_of_ne_zero hne
    have := (hv ▸ hs : SharePool.Sound 1000 (view A B c p.config lp)).shares_pos_of_move
      (by norm_num) hmove hs'.locked_le hpos
    exact this.ne' h0
  · rw [Bool.eq_false_iff]
    intro hd
    obtain ⟨accs, a, b, minLp, hop, rfl⟩ := Call.deposits_eq_true hd
    have hns : accs.config ∉ call.signers := fun hc => hadm _ hc hat.isProgramAddress
    rw [exec_amm hop] at h
    obtain ⟨rX, rY, s, q, hadd⟩ := hat.add_spec rfl h
    have hpos := hadd.shares_pos hat fun hu => hns (hu ▸ hadd.signed)
    rw [← view_congr hstep.sameFixed] at hpos
    exact hpos.ne' h0

/-- A pool without shares has had no deposit. -/
theorem Inv.deposits_of_run (hI : Inv A B) (hp : B.pool A c = some p)
    (hadm : ∀ call ∈ calls, call.Admissible A) :
    ∃ p', (run (exec A) B calls).pool A c = some p' ∧
      (p'.supply = 0 → accepted (exec A) (fun _ call => call.deposits c) B calls = 0) := by
  let P : Bank Key → ℕ → Prop := fun B₁ n =>
    Inv A B₁ ∧ ∃ p₁, B₁.pool A c = some p₁ ∧ (p₁.supply = 0 → n = 0)
  have hstep : ∀ B₁ call B₂ n, P B₁ n → call.Admissible A → exec A B₁ call = .ok B₂ →
      P B₂ (n + (call.deposits c).toNat) := by
    rintro B₁ call B₂ n ⟨hI₁, p₁, hp₁, hn⟩ hadm h
    obtain ⟨p₂, hp₂, hzero⟩ := hI₁.supply_pos_of_exec hadm h hp₁
    refine ⟨hI₁.of_exec hadm h, p₂, hp₂, fun h0 => ?_⟩
    obtain ⟨h0₁, hd⟩ := hzero h0
    rw [hn h0₁, hd]
    rfl
  have hrun := accepted_induction (P := P) hstep (n := 0) ⟨hI, p, hp, fun _ => rfl⟩ hadm
  rw [Nat.zero_add] at hrun
  exact hrun.2

/-- A pool is bootstrapped at most once. -/
theorem Inv.bootstraps_of_run (hI : Inv A B) (hp : B.pool A c = some p)
    (hadm : ∀ call ∈ calls, call.Admissible A) :
    accepted (exec A) (bootstraps A c) B calls ≤ 1 := by
  let P : Bank Key → ℕ → Prop := fun B₁ n =>
    Inv A B₁ ∧ ∃ p₁, B₁.pool A c = some p₁ ∧ (p₁.supply = 0 → n = 0) ∧ n ≤ 1
  have hstep : ∀ B₁ call B₂ n, P B₁ n → call.Admissible A → exec A B₁ call = .ok B₂ →
      P B₂ (n + (bootstraps A c B₁ call).toNat) := by
    rintro B₁ call B₂ n ⟨hI₁, p₁, hp₁, hn, hle⟩ hadm h
    obtain ⟨p₂, hp₂, hzero⟩ := hI₁.supply_pos_of_exec hadm h hp₁
    refine ⟨hI₁.of_exec hadm h, p₂, hp₂, ?_⟩
    unfold bootstraps
    rw [hp₁, Option.any_some]
    by_cases h0 : p₁.supply = 0
    · -- no bootstrap so far; if this call is one, the pool has shares from now on
      rw [hn h0, Nat.zero_add]
      refine ⟨fun h0₂ => ?_, Bool.toNat_le _⟩
      rw [(hzero h0₂).2, Bool.false_and]
      rfl
    · rw [decide_eq_false h0, Bool.and_false]
      exact ⟨fun h0₂ => absurd (hzero h0₂).1 h0, hle⟩
  have hrun := accepted_induction (P := P) hstep (n := 0)
    ⟨hI, p, hp, fun _ => rfl, Nat.zero_le _⟩ hadm
  rw [Nat.zero_add] at hrun
  obtain ⟨-, _, -, -, hle⟩ := hrun
  exact hle

/-- **A bootstrapped pool can never be emptied or bootstrapped again.** -/
theorem bootstrapped_once (A : AddressScheme Key) (B₀ B₁ : Bank Key) (signers : List Key)
    (accs : Initialize Key) (seed : U64) (feeBps : U16) (authority : Option Key)
    (h₀ : Reachable A B₀) (hsigners : ∀ k ∈ signers, ¬ A.IsProgramAddress k)
    (hinit : exec A B₀ ⟨signers, .amm (.init accs seed feeBps authority)⟩ = .ok B₁)
    (calls : List (Call Key)) (hadm : ∀ call ∈ calls, call.Admissible A) :
    ∃ p, (run (exec A) B₁ calls).pool A accs.config = some p ∧
      (p.supply = 0 ∧
          accepted (exec A) (fun _ call => call.deposits accs.config) B₁ calls = 0 ∨
        1000 ≤ p.supply ∧ 1000 ≤ p.lpVault ∧ p.supply ^ 2 ≤ p.vaultX * p.vaultY ∧
          1 ≤ p.vaultX ∧ 1 ≤ p.vaultY) ∧
      (0 < accepted (exec A) (fun _ call => call.deposits accs.config) B₁ calls →
        ∀ signers' (ix : Instruction Key), ix.IsTrade → ix.config = accs.config →
          exec A (run (exec A) B₁ calls) ⟨signers', .amm ix⟩ ≠ .err (.amm .zeroReserve)) ∧
      accepted (exec A) (bootstraps A accs.config) B₁ calls ≤ 1 := by
  have hadm₀ : Call.Admissible A ⟨signers, .amm (.init accs seed feeBps authority)⟩ := hsigners
  have hI₁ := h₀.inv.of_exec hadm₀ hinit
  obtain ⟨hat, -⟩ := (init_spec hinit).pool
  have hI := hI₁.of_run hadm
  obtain ⟨p, hp, hdep⟩ := hI₁.deposits_of_run hat.pool_eq hadm
  obtain ⟨-, -, -, hs⟩ := hI.poolAt hp
  refine ⟨p, hp, ?_, ?_, hI₁.bootstraps_of_run hat.pool_eq hadm⟩
  · rcases Nat.eq_zero_or_pos p.supply with h0 | hpos
    · exact .inl ⟨h0, hdep h0⟩
    · obtain ⟨hlock, hk⟩ := hs.of_pos hpos
      obtain ⟨hx, hy⟩ := hs.reserves_pos hpos
      exact .inr ⟨hs.lockup_le hpos, hlock, hk, hx, hy⟩
  · intro hpos signers' ix ht hc
    have hsup : 0 < p.supply := Nat.pos_of_ne_zero fun h0 => hpos.ne' (hdep h0)
    exact hI.trade_ne_zeroReserve hp hsup ht hc

theorem bootstrapped_once_demo :
    ∃ p, (run (exec Addr.scheme) Demo.fresh [Demo.firstDeposit]).pool Addr.scheme Demo.pool =
        some p ∧
      (p.supply = 0 ∧
          accepted (exec Addr.scheme) (fun _ call => call.deposits Demo.pool) Demo.fresh
            [Demo.firstDeposit] = 0 ∨
        1000 ≤ p.supply ∧ 1000 ≤ p.lpVault ∧ p.supply ^ 2 ≤ p.vaultX * p.vaultY ∧
          1 ≤ p.vaultX ∧ 1 ≤ p.vaultY) ∧
      (0 < accepted (exec Addr.scheme) (fun _ call => call.deposits Demo.pool) Demo.fresh
          [Demo.firstDeposit] →
        ∀ signers' (ix : Instruction Addr), ix.IsTrade → ix.config = Demo.pool →
          exec Addr.scheme (run (exec Addr.scheme) Demo.fresh [Demo.firstDeposit])
            ⟨signers', .amm ix⟩ ≠ .err (.amm .zeroReserve)) ∧
      accepted (exec Addr.scheme) (bootstraps Addr.scheme Demo.pool) Demo.fresh
        [Demo.firstDeposit] ≤ 1 :=
  bootstrapped_once Addr.scheme Demo.funded Demo.fresh [Demo.alice, Demo.mintX, Demo.mintY]
    (Demo.initBy Demo.alice) 7 30 (some Demo.alice) Demo.funded_reachable
    (Demo.byAlice_admissible Demo.firstDeposit.op) (eq_ok_next (by decide +kernel))
    [Demo.firstDeposit] (List.forall_mem_singleton.mpr (Demo.byAlice_admissible _))

end Amm
