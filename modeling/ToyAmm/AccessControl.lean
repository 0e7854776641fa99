import ToyAmm.Reachable

/-!
# Who may change a config

A config is written once by `init` and then only by its stored authority, one field at a time
(`ConfigStep`). These are statements about every run: what the fields are in each state reached, how
each step changes them, that the stored authority is never refused, and that without one the config
stays as it is for good.
-/

open Checked AmmMath Token Transition

namespace Amm

variable {Key : Type} [DecidableEq Key] {A : AddressScheme Key} {B B' : Bank Key} {c k : Key}
  {cfg cfg' : Config Key} {signers : List Key}

/-! ## Steps -/

/-- A call, successful or not, changes a config by one step. -/
theorem next_config (hc : B.configs c = some cfg) (call : Call Key) :
    ∃ cfg', (next (exec A) B call).configs c = some cfg' ∧ ConfigStep call c cfg cfg' := by
  refine next_induction (P := fun B₁ : Bank Key =>
    ∃ cfg', B₁.configs c = some cfg' ∧ ConfigStep call c cfg cfg') ⟨cfg, hc, .same⟩ ?_
  intro B' h
  exact exec_config h hc

omit [DecidableEq Key] in
theorem ConfigStep.eq_of_renounced {call : Call Key} (h : ConfigStep call c cfg cfg')
    (hn : cfg.authority = none) : cfg' = cfg := by
  cases h with
  | same => rfl
  | updateFee op config stored => cases hn.symm.trans stored
  | setLocked op config stored => cases hn.symm.trans stored
  | updateAuthority op config stored => cases hn.symm.trans stored

/-! ## Runs -/

/-- The fee stays valid and the fixed fields stay the same, whoever calls. -/
theorem run_config (hc : B.configs c = some cfg) (hfee : cfg.feeBps.toNat < 10000)
    (calls : List (Call Key)) :
    ∃ cfg', (run (exec A) B calls).configs c = some cfg' ∧ cfg'.feeBps.toNat < 10000 ∧
      cfg.SameFixed cfg' := by
  have hstep : ∀ B₁ call B₂,
      (∃ cfg₁, B₁.configs c = some cfg₁ ∧ cfg₁.feeBps.toNat < 10000 ∧ cfg.SameFixed cfg₁) → True →
      exec A B₁ call = .ok B₂ →
      ∃ cfg₂, B₂.configs c = some cfg₂ ∧ cfg₂.feeBps.toNat < 10000 ∧ cfg.SameFixed cfg₂ := by
    rintro B₁ call B₂ ⟨cfg₁, hc₁, hfee₁, hfix⟩ - h
    obtain ⟨cfg₂, hc₂, hs⟩ := exec_config h hc₁
    exact ⟨cfg₂, hc₂, hs.fee_lt hfee₁, hfix.trans hs.sameFixed⟩
  exact run_induction hstep ⟨cfg, hc, hfee, .refl cfg⟩ fun _ _ => trivial

/-- A renounced config never changes again. -/
theorem run_config_of_renounced (hc : B.configs c = some cfg) (hn : cfg.authority = none)
    (calls : List (Call Key)) : (run (exec A) B calls).configs c = some cfg := by
  have hstep : ∀ B₁ call B₂, B₁.configs c = some cfg → True → exec A B₁ call = .ok B₂ →
      B₂.configs c = some cfg := by
    intro B₁ call B₂ hc₁ _ h
    obtain ⟨cfg₂, hc₂, hs⟩ := exec_config h hc₁
    rw [hc₂, hs.eq_of_renounced hn]
  exact run_induction hstep hc fun _ _ => trivial

/-- A locked pool admits no trade. -/
theorem trade_of_locked {ix : Instruction Key} (ht : ix.IsTrade)
    (hc : B.configs ix.config = some cfg) (hl : cfg.locked = true) :
    ix.process A B signers ≠ .ok B' := by
  intro h
  obtain ⟨cfg₁, hc₁, hl₁⟩ := trade_config ht h
  rw [hc] at hc₁
  obtain rfl := Option.some.inj hc₁
  rw [hl] at hl₁
  cases hl₁

/-! ## The stored authority -/

omit [DecidableEq Key] in
theorem Admin.Authorized.of_stored (hc : B.configs c = some cfg)
    (ha : A.createProgramAddress (.config cfg.seed) cfg.configBump = some c)
    (hk : cfg.authority = some k) (hs : k ∈ signers) :
    Admin.Authorized ⟨k, c⟩ A B signers cfg :=
  ⟨hs, hc, ha, hk⟩

omit [DecidableEq Key] in
theorem Admin.Authorized.cfg_eq (h : Admin.Authorized ⟨k, c⟩ A B signers cfg)
    (h' : Admin.Authorized ⟨k, c⟩ A B signers cfg') : cfg' = cfg :=
  Option.some.inj (h'.config.symm.trans h.config)

/-- The stored authority can do all of this, and nothing of it is refused but an invalid fee. -/
structure Governs (A : AddressScheme Key) (B : Bank Key) (signers : List Key) (c k : Key)
    (cfg : Config Key) : Prop where
  updateFee : ∀ newFeeBps B', exec A B ⟨signers, .amm (.updateFee ⟨k, c⟩ newFeeBps)⟩ = .ok B' ↔
    newFeeBps.toNat < 10000 ∧ B' = B.setConfig c { cfg with feeBps := newFeeBps }
  setLocked : ∀ locked, exec A B ⟨signers, .amm (.setLocked ⟨k, c⟩ locked)⟩ =
    .ok (B.setConfig c { cfg with locked })
  updateAuthority : ∀ newAuthority,
    exec A B ⟨signers, .amm (.updateAuthority ⟨k, c⟩ newAuthority)⟩ =
      .ok (B.setConfig c { cfg with authority := newAuthority })

theorem Admin.Authorized.governs (h : Admin.Authorized ⟨k, c⟩ A B signers cfg) :
    Governs A B signers c k cfg := by
  refine ⟨?_, ?_, ?_⟩
  · intro newFeeBps B'
    refine updateFee_eq_ok.trans ⟨?_, ?_⟩
    · rintro ⟨cfg₁, h₁, hfee, rfl⟩
      obtain rfl := h.cfg_eq h₁
      exact ⟨hfee, rfl⟩
    · rintro ⟨hfee, rfl⟩
      exact ⟨cfg, h, hfee, rfl⟩
  · intro locked
    exact setLocked_eq_ok.mpr ⟨cfg, h, rfl⟩
  · intro newAuthority
    exact updateAuthority_eq_ok.mpr ⟨cfg, h, rfl⟩

/-- **Access control of a config over whole runs.** -/
theorem config_access_control (A : AddressScheme Key) (B : Bank Key) (c : Key) (cfg : Config Key)
    (hB : Reachable A B) (hc : B.configs c = some cfg) (calls : List (Call Key)) :
    ∃ cfg', (run (exec A) B calls).configs c = some cfg' ∧ cfg'.feeBps.toNat < 10000 ∧
      cfg.SameFixed cfg' ∧
      (∀ call, ∃ cfg'', (next (exec A) (run (exec A) B calls) call).configs c = some cfg'' ∧
        ConfigStep call c cfg' cfg'') ∧
      (∀ k signers, cfg'.authority = some k → k ∈ signers →
        Governs A (run (exec A) B calls) signers c k cfg') ∧
      (cfg'.authority = none → ∀ later,
        (run (exec A) (run (exec A) B calls) later).configs c = some cfg' ∧
        (cfg'.locked = true → ∀ signers (ix : Instruction Key) B', ix.IsTrade → ix.config = c →
          exec A (run (exec A) (run (exec A) B calls) later) ⟨signers, .amm ix⟩ ≠ .ok B')) := by
  obtain ⟨lp, hp, -⟩ := hB.inv.pool hc
  obtain ⟨cfg', hc', hfee, hfix⟩ := run_config (A := A) hc hp.fee_lt calls
  refine ⟨cfg', hc', hfee, hfix, next_config hc', ?_, ?_⟩
  · intro k signers hk hs
    have haddr : A.createProgramAddress (.config cfg'.seed) cfg'.configBump = some c := by
      rw [hfix.seed, hfix.configBump]
      exact hp.address
    exact (Admin.Authorized.of_stored hc' haddr hk hs).governs
  · intro hn later
    have hlater := run_config_of_renounced (A := A) hc' hn later
    refine ⟨hlater, ?_⟩
    rintro hl signers ix B' ht rfl
    exact trade_of_locked ht hlater hl

theorem config_access_control_renounced :
    ∃ cfg', (run (exec Addr.scheme) Demo.bank Demo.renounceLocked).configs Demo.pool = some cfg' ∧
      cfg'.feeBps.toNat < 10000 ∧ Demo.poolState.config.SameFixed cfg' ∧
      (∀ call, ∃ cfg'',
        (next (exec Addr.scheme) (run (exec Addr.scheme) Demo.bank Demo.renounceLocked)
          call).configs Demo.pool = some cfg'' ∧ ConfigStep call Demo.pool cfg' cfg'') ∧
      (∀ k signers, cfg'.authority = some k → k ∈ signers →
        Governs Addr.scheme (run (exec Addr.scheme) Demo.bank Demo.renounceLocked) signers
          Demo.pool k cfg') ∧
      (cfg'.authority = none → ∀ later,
        (run (exec Addr.scheme) (run (exec Addr.scheme) Demo.bank Demo.renounceLocked)
          later).configs Demo.pool = some cfg' ∧
        (cfg'.locked = true → ∀ signers (ix : Instruction Addr) B', ix.IsTrade →
          ix.config = Demo.pool →
          exec Addr.scheme (run (exec Addr.scheme) (run (exec Addr.scheme) Demo.bank
            Demo.renounceLocked) later) ⟨signers, .amm ix⟩ ≠ .ok B')) :=
  config_access_control Addr.scheme Demo.bank Demo.pool Demo.poolState.config Demo.bank_reachable
    (config_of_pool Demo.bank_pool) Demo.renounceLocked

end Amm
