import ToyAmm.AccessControl

/-!
# Governed and stuck pools

The config of a pool is a state machine of its own. While its authority is a key that can sign it is
`Governed`, and can be given any valid fee, lock and authority; otherwise it never changes.
`config_reachable_iff` says that these are all the configs that runs lead to. A pool that is locked
and not governed is stuck: nothing leaves its vaults any more.
-/

open Checked AmmMath Token Ledger Transition

namespace Amm

variable {Key : Type} [DecidableEq Key] {A : AddressScheme Key} {B B' : Bank Key} {a c lp : Key}
  {cfg cfg' : Config Key} {p : PoolState Key} {signers : List Key} {call : Call Key}
  {calls : List (Call Key)}

/-! ## Governed configs -/

/-- The stored authority is a key, not an address of the program, so it can sign. -/
def Config.Governed (cfg : Config Key) (A : AddressScheme Key) : Prop :=
  ∃ a, cfg.authority = some a ∧ ¬ A.IsProgramAddress a

omit [DecidableEq Key] in
theorem ConfigStep.eq_of_not_governed (h : ConfigStep call c cfg cfg') (hadm : call.Admissible A)
    (hn : ¬ cfg.Governed A) : cfg' = cfg := by
  cases h with
  | same => rfl
  | updateFee op config stored signed => exact absurd ⟨_, stored, hadm _ signed⟩ hn
  | setLocked op config stored signed => exact absurd ⟨_, stored, hadm _ signed⟩ hn
  | updateAuthority op config stored signed => exact absurd ⟨_, stored, hadm _ signed⟩ hn

theorem run_config_of_not_governed (hc : B.configs c = some cfg) (hn : ¬ cfg.Governed A)
    (hadm : ∀ call ∈ calls, call.Admissible A) : (run (exec A) B calls).configs c = some cfg := by
  have hstep : ∀ B₁ call B₂, B₁.configs c = some cfg → call.Admissible A →
      exec A B₁ call = .ok B₂ → B₂.configs c = some cfg := by
    intro B₁ call B₂ hc₁ hadm h
    obtain ⟨cfg₂, hc₂, hs⟩ := exec_config h hc₁
    rw [hc₂, hs.eq_of_not_governed hadm hn]
  exact run_induction hstep hc hadm

/-- The authority `a` gives the pool the fee, lock and authority of `cfg'`; its own last. -/
def administer (a c : Key) (cfg' : Config Key) : List (Call Key) :=
  [ ⟨[a], .amm (.updateFee ⟨a, c⟩ cfg'.feeBps)⟩,
    ⟨[a], .amm (.setLocked ⟨a, c⟩ cfg'.locked)⟩,
    ⟨[a], .amm (.updateAuthority ⟨a, c⟩ cfg'.authority)⟩ ]

theorem run_administer (hc : B.configs c = some cfg)
    (haddr : A.createProgramAddress (.config cfg.seed) cfg.configBump = some c)
    (ha : cfg.authority = some a) (hfix : cfg.SameFixed cfg') (hfee : cfg'.feeBps.toNat < 10000) :
    (run (exec A) B (administer a c cfg')).configs c = some cfg' := by
  let cfg₁ : Config Key := { cfg with feeBps := cfg'.feeBps }
  let cfg₂ : Config Key := { cfg₁ with locked := cfg'.locked }
  have hsigned : a ∈ [a] := List.mem_singleton_self a
  have h₀ : Admin.Authorized ⟨a, c⟩ A B [a] cfg := .of_stored hc haddr ha hsigned
  have h₁ : Admin.Authorized ⟨a, c⟩ A (B.setConfig c cfg₁) [a] cfg₁ :=
    .of_stored Bank.configs_setConfig_self haddr ha hsigned
  have h₂ : Admin.Authorized ⟨a, c⟩ A ((B.setConfig c cfg₁).setConfig c cfg₂) [a] cfg₂ :=
    .of_stored Bank.configs_setConfig_self haddr ha hsigned
  rw [administer, run_cons, next_of_ok ((h₀.governs.updateFee _ _).mpr ⟨hfee, rfl⟩), run_cons,
    next_of_ok (h₁.governs.setLocked _), run_cons, next_of_ok (h₂.governs.updateAuthority _),
    run_nil, Bank.configs_setConfig_self]
  obtain ⟨hseed, hmX, hmY, hbump, hlp⟩ := hfix
  cases cfg'
  simp only at hseed hmX hmY hbump hlp
  subst hseed hmX hmY hbump hlp
  rfl

/-- **The configs that runs lead to.** -/
theorem config_reachable_iff (A : AddressScheme Key) (B : Bank Key) (c : Key) (cfg cfg' : Config Key)
    (hB : Reachable A B) (hc : B.configs c = some cfg) :
    (∃ calls, (∀ call ∈ calls, call.Admissible A) ∧
        (run (exec A) B calls).configs c = some cfg') ↔
      cfg' = cfg ∨ cfg.Governed A ∧ cfg.SameFixed cfg' ∧ cfg'.feeBps.toNat < 10000 := by
  obtain ⟨lp, hp, -⟩ := hB.inv.pool hc
  constructor
  · rintro ⟨calls, hadm, hc'⟩
    by_cases hg : cfg.Governed A
    · obtain ⟨cfg₁, hc₁, hfee, hfix⟩ := run_config (A := A) hc hp.fee_lt calls
      obtain rfl := Option.some.inj (hc₁.symm.trans hc')
      exact .inr ⟨hg, hfix, hfee⟩
    · exact .inl (Option.some.inj (hc'.symm.trans (run_config_of_not_governed hc hg hadm)))
  · rintro (rfl | ⟨⟨a, ha, hkey⟩, hfix, hfee⟩)
    · exact ⟨[], by simp, hc⟩
    · refine ⟨administer a c cfg', ?_, run_administer hc hp.address ha hfix hfee⟩
      intro call hcall
      simp only [administer, List.mem_cons, List.not_mem_nil, or_false] at hcall
      rcases hcall with rfl | rfl | rfl <;> exact List.forall_mem_singleton.mpr hkey

/-- Alice's pool can be given a fee of one percent, and to Bob. -/
theorem config_reachable_demo :
    ∃ calls, (∀ call ∈ calls, call.Admissible Addr.scheme) ∧
      (run (exec Addr.scheme) Demo.bank calls).configs Demo.pool =
        some { Demo.poolState.config with feeBps := 100, authority := some Demo.bob } := by
  refine (config_reachable_iff Addr.scheme Demo.bank Demo.pool Demo.poolState.config _
    Demo.bank_reachable (config_of_pool Demo.bank_pool)).mpr (.inr ⟨?_, ?_, ?_⟩)
  · exact ⟨Demo.alice, rfl, Addr.wallet_not_program _⟩
  · exact ⟨rfl, rfl, rfl, rfl, rfl⟩
  · decide

/-! ## What a call can do to a pool -/

/-- A successful call trades in the pool, or takes nothing out of it and issues no shares. -/
theorem spares_or_trade (h : exec A B call = .ok B') (hadm : call.Admissible A)
    (hp : PoolAt A B c cfg lp) :
    Spares c B.tokens B'.tokens ∨
      ∃ ix, call.op = .amm ix ∧ ix.IsTrade ∧ ix.config = c := by
  have hns : c ∉ call.signers := fun hc => hadm c hc hp.isProgramAddress
  have hconf := exec_confined h
  obtain ⟨signers, op⟩ := call
  cases op with
  | token ix => exact .inl (hconf.spares hns)
  | amm ix =>
    by_cases hcc : ix.config = c
    · cases ix with
      | init accs seed feeBps authority =>
        have hfree : B.configs accs.config = none := (init_spec h).vacant
        rw [show accs.config = c from hcc, hp.config] at hfree
        cases hfree
      | addLiquidity | removeLiquidity | swap => exact .inr ⟨_, rfl, trivial, hcc⟩
      | updateFee accs newFeeBps =>
        obtain ⟨_, -, -, rfl⟩ := updateFee_eq_ok.mp h
        exact .inl (.refl _ _)
      | setLocked accs locked =>
        obtain ⟨_, -, rfl⟩ := setLocked_eq_ok.mp h
        exact .inl (.refl _ _)
      | updateAuthority accs newAuthority =>
        obtain ⟨_, -, rfl⟩ := updateAuthority_eq_ok.mp h
        exact .inl (.refl _ _)
    · refine .inl (hconf.spares ?_)
      rw [Call.authorities, List.mem_cons, not_or]
      exact ⟨Ne.symm hcc, hns⟩

theorem spares_of_locked (h : exec A B call = .ok B') (hadm : call.Admissible A)
    (hp : PoolAt A B c cfg lp) (hl : cfg.locked = true) : Spares c B.tokens B'.tokens := by
  rcases spares_or_trade h hadm hp with hspares | ⟨ix, hop, ht, rfl⟩
  · exact hspares
  · rw [exec_amm hop] at h
    exact absurd h (trade_of_locked ht hp.config hl)

/-! ## Stuck pools -/

/-- **A stuck pool keeps what it has.** -/
theorem stuck_pool_keeps_reserves (A : AddressScheme Key) (B : Bank Key) (c : Key)
    (p : PoolState Key) (hB : Reachable A B) (hp : B.pool A c = some p)
    (hl : p.config.locked = true) (hn : ¬ p.config.Governed A) (calls : List (Call Key))
    (hadm : ∀ call ∈ calls, call.Admissible A) :
    ∃ p', (run (exec A) B calls).pool A c = some p' ∧ p'.config = p.config ∧
      p.vaultX ≤ p'.vaultX ∧ p.vaultY ≤ p'.vaultY ∧ p.lpVault ≤ p'.lpVault ∧
      p'.supply ≤ p.supply := by
  obtain ⟨lp, hat, hv, -⟩ := hB.inv.poolAt hp
  have hstep : ∀ B₁ call B₂, PoolAt A B₁ c p.config lp ∧ Spares c B.tokens B₁.tokens →
      call.Admissible A → exec A B₁ call = .ok B₂ →
      PoolAt A B₂ c p.config lp ∧ Spares c B.tokens B₂.tokens := by
    rintro B₁ call B₂ ⟨hat₁, hspares⟩ hadm h
    obtain ⟨cfg₂, hat₂, hs⟩ := hat₁.kept h
    obtain rfl := hs.eq_of_not_governed hadm hn
    exact ⟨hat₂, hspares.trans (spares_of_locked h hadm hat₁ hl)⟩
  obtain ⟨hat', hspares⟩ := run_induction hstep ⟨hat, .refl _ _⟩ hadm
  refine ⟨_, hat'.pool_eq, rfl, ?_⟩
  obtain ⟨hX, hY, hS, hL⟩ := PoolState.view_fields hv
  rw [← hX, ← hY, ← hS, ← hL]
  exact ⟨hspares.balance hat.vaultX, hspares.balance hat.vaultY, hspares.balance hat.lpVault,
    hspares.supply hat.mintLp⟩

namespace Demo

/-- The bank in which the pool is stuck. -/
def stuck : Bank Addr := run (exec Addr.scheme) bank renounceLocked

def stuckPool : PoolState Addr :=
  { poolState with config := { poolState.config with locked := true, authority := none } }

theorem stuck_reachable : Reachable Addr.scheme stuck := by
  apply bank_reachable.of_run
  intro call hcall
  simp only [renounceLocked, List.mem_cons, List.not_mem_nil, or_false] at hcall
  rcases hcall with rfl | rfl <;> exact byAlice_admissible _

theorem stuck_pool : stuck.pool Addr.scheme pool = some stuckPool := by decide +kernel

end Demo

theorem stuck_pool_keeps_reserves_demo :
    ∃ p', (run (exec Addr.scheme) Demo.stuck
        [Demo.byAlice (.amm (.setLocked ⟨Demo.alice, Demo.pool⟩ false)),
          Demo.byAlice (.amm (.removeLiquidity (Demo.removeBy Demo.alice) 5000 0 0))]).pool
        Addr.scheme Demo.pool = some p' ∧
      p'.config = Demo.stuckPool.config ∧ 4000 ≤ p'.vaultX ∧ 9000 ≤ p'.vaultY ∧
      1000 ≤ p'.lpVault ∧ p'.supply ≤ 6000 := by
  refine stuck_pool_keeps_reserves Addr.scheme Demo.stuck Demo.pool Demo.stuckPool
    Demo.stuck_reachable Demo.stuck_pool rfl ?_ _ ?_
  · rintro ⟨a, ha, -⟩
    cases ha
  · intro call hcall
    simp only [List.mem_cons, List.not_mem_nil, or_false] at hcall
    rcases hcall with rfl | rfl <;> exact Demo.byAlice_admissible _

end Amm
