import ToyAmm.Reachable
import ToyAmm.TokenFrame

/-!
# Pools do not touch each other

The caller chooses every account of an instruction, and the checks leave it no choice:
`swap_changes`, `add_changes`, `remove_changes` and `init_changes` say which addresses an
instruction may change, in terms of its user and the config it names. None of them belongs to
another pool, so an instruction leaves every other pool as it is (`Bank.InPlace.pool_of_other`),
and so do many of them in the middle of a run (`Bank.InPlace.pool_of_others`).
-/

open Checked AmmMath Token Ledger Transition

namespace Amm

variable {Key : Type}

/-- The token accounts of an owner in the two mints of a config. -/
def Config.accountsOf (cfg : Config Key) (A : AddressScheme Key) (owner : Key) : List Key :=
  [A.associatedAddress owner cfg.mintX, A.associatedAddress owner cfg.mintY]

variable [DecidableEq Key] {A : AddressScheme Key} {B B' : Bank Key} {c lp u : Key}
  {cfg : Config Key} {signers : List Key} {call : Call Key} {calls : List (Call Key)}

/-! ## What an instruction changes -/

omit [DecidableEq Key] in
/-- The accounts of a validated trade are those of its user and its config. -/
theorem Swap.Checked.accountsOf {self : Swap Key} {l : Loaded Key}
    (h : self.Checked A B signers l) :
    l.config.accountsOf A self.user = [self.userX, self.userY] ∧
      l.config.accountsOf A self.config = [self.vaultX, self.vaultY] := by
  unfold Config.accountsOf
  rw [h.mintX_eq, h.mintY_eq, h.userX_eq, h.userY_eq, h.vaultX_eq, h.vaultY_eq]
  exact ⟨rfl, rfl⟩

theorem swap_changes {self : Swap Key} {kind : SwapKind} {aToB : Bool}
    (h : (Instruction.swap self kind aToB).process A B signers = .ok B')
    (hc : B.configs self.config = some cfg) :
    ChangesOnly (cfg.accountsOf A self.user ++ cfg.accountsOf A self.config) []
      B.tokens B'.tokens := by
  obtain ⟨l, hl, h⟩ := Outcome.bind_eq_ok.mp h
  have hch := Swap.tryAccounts_eq_ok.mp hl
  obtain rfl := Option.some.inj (hch.config.symm.trans hc)
  obtain ⟨hu, hv⟩ := hch.accountsOf
  unfold Swap.swap at h
  simp only [Outcome.bind_eq_ok, Outcome.require_eq_ok, Bank.cpi_eq_ok, exists_and_left,
    exists_const] at h
  obtain ⟨-, q, -, B₁, ⟨h₁, -⟩, h₂, -⟩ := h
  rw [hu, hv]
  have hc₁ := transferChecked_changes h₁
  have hc₂ := transferChecked_changes h₂
  cases aToB <;>
    exact (hc₁.mono (by simp [Swap.legs]) (by simp)).trans
      (hc₂.mono (by simp [Swap.legs]) (by simp))

theorem initAssociated_changes {k mint authority : Key}
    (h : initAssociated A B k mint authority = .ok B') :
    ChangesOnly [k] [] B.tokens B'.tokens := by
  unfold initAssociated at h
  simp only [Outcome.bind_eq_ok, Outcome.require_eq_ok, Bank.cpi_eq_ok, exists_and_left,
    exists_const] at h
  obtain ⟨-, h, -⟩ := h
  exact createAssociated_changes h

theorem initAssociatedIfNeeded_changes {k mint authority : Key}
    (h : initAssociatedIfNeeded A B k mint authority = .ok B') :
    ChangesOnly [k] [] B.tokens B'.tokens := by
  unfold initAssociatedIfNeeded at h
  split_ifs at h
  · exact initAssociated_changes h
  · simp only [Outcome.bind_eq_ok, Outcome.ok.injEq] at h
    obtain ⟨_, -, _, -, _, -, _, -, rfl⟩ := h
    exact .refl _ _ _

/-- The locked shares of a first deposit go to the LP vault; a later one leaves it alone. -/
def lockAccounts (A : AddressScheme Key) (L : Ledger Key) (c lp : Key) : List Key :=
  if L.supply lp = 0 then [A.associatedAddress c lp] else []

theorem add_changes {self : AddLiquidity Key} {a b minLp : U64}
    (h : (Instruction.addLiquidity self a b minLp).process A B signers = .ok B')
    (hc : B.configs self.config = some cfg)
    (hlp : A.createProgramAddress (.lpMint self.config) cfg.lpBump = some lp) :
    ChangesOnly (A.associatedAddress self.user lp :: (cfg.accountsOf A self.user ++
      cfg.accountsOf A self.config ++ lockAccounts A B.tokens self.config lp)) [lp]
      B.tokens B'.tokens := by
  obtain ⟨⟨B₁, l⟩, hl, h⟩ := Outcome.bind_eq_ok.mp h
  have hch := AddLiquidity.tryAccounts_eq_ok.mp hl
  obtain rfl := Option.some.inj (hch.toSwap.config.symm.trans hc)
  obtain rfl := Option.some.inj (hch.lpAddress.symm.trans hlp)
  obtain ⟨hu, hv⟩ := hch.toSwap.accountsOf
  have hsup : B.tokens.supply self.mintLp = l.mintLp.supply.toNat := supply_of_mint hch.mintLp
  have hE := initAssociatedIfNeeded_changes hch.userLp
  unfold AddLiquidity.handle at h
  simp only [Outcome.bind_eq_ok, Outcome.require_eq_ok, Bank.cpi_eq_ok, exists_and_left,
    exists_const] at h
  obtain ⟨-, q, -, -, B₂, ⟨h₂, -⟩, B₃, ⟨h₃, -⟩, B₄, ⟨h₄, -⟩, h⟩ := h
  rw [show l.config.accountsOf A self.user = [self.userX, self.userY] from hu,
    show l.config.accountsOf A self.config = [self.vaultX, self.vaultY] from hv,
    ← (initAssociatedIfNeeded_eq_ok hch.userLp).address]
  have hsub : ∀ {K}, ChangesOnly [self.userLp] [] B.tokens B₁.tokens →
      [self.userLp, self.userX, self.userY, self.vaultX, self.vaultY] ⊆ K →
      ChangesOnly K [self.mintLp] B.tokens B₄.tokens := by
    intro K hE hK
    have hx := transferChecked_changes h₂
    have hy := transferChecked_changes h₃
    have hm := mintTo_changes h₄
    refine ((hE.mono (fun _ hk => hK ?_) (by simp)).trans
      (hx.mono (fun _ hk => hK ?_) (by simp))).trans
      ((hy.mono (fun _ hk => hK ?_) (by simp)).trans (hm.mono (fun _ hk => hK ?_) (by simp)))
    all_goals
      simp only [List.mem_cons, List.not_mem_nil, or_false] at hk ⊢
      tauto
  by_cases h0 : l.mintLp.supply = 0
  · rw [if_pos h0, Bank.cpi_eq_ok] at h
    rw [lockAccounts, if_pos (by rw [hsup, toNat_eq_zero, h0]), ← hch.lpVault_eq]
    exact (hsub hE (by simp)).trans ((mintTo_changes h.1).mono (by simp) (by simp))
  · rw [if_neg h0] at h
    obtain rfl := Outcome.ok.inj h
    exact hsub hE (by simp)

theorem remove_changes {self : RemoveLiquidity Key} {lpBurn minA minB : U64}
    (h : (Instruction.removeLiquidity self lpBurn minA minB).process A B signers = .ok B')
    (hc : B.configs self.config = some cfg)
    (hlp : A.createProgramAddress (.lpMint self.config) cfg.lpBump = some lp) :
    ChangesOnly (A.associatedAddress self.user lp ::
      (cfg.accountsOf A self.user ++ cfg.accountsOf A self.config)) [lp]
      B.tokens B'.tokens := by
  obtain ⟨l, hl, h⟩ := Outcome.bind_eq_ok.mp h
  have hch := RemoveLiquidity.tryAccounts_eq_ok.mp hl
  obtain rfl := Option.some.inj (hch.toSwap.config.symm.trans hc)
  obtain rfl := Option.some.inj (hch.lpAddress.symm.trans hlp)
  obtain ⟨hu, hv⟩ := hch.toSwap.accountsOf
  unfold RemoveLiquidity.handle at h
  simp only [Outcome.bind_eq_ok, Outcome.require_eq_ok, Bank.cpi_eq_ok, exists_and_left,
    exists_const] at h
  obtain ⟨-, q, -, -, -, B₁, ⟨h₁, -⟩, B₂, ⟨h₂, -⟩, h₃, -⟩ := h
  rw [show l.config.accountsOf A self.user = [self.userX, self.userY] from hu,
    show l.config.accountsOf A self.config = [self.vaultX, self.vaultY] from hv, ← hch.userLp_eq]
  exact ((burn_changes h₁).mono (by simp) (by simp)).trans
    (((transferChecked_changes h₂).mono (by simp) (by simp)).trans
      ((transferChecked_changes h₃).mono (by simp) (by simp)))

/-- The token accounts of an owner in the three mints of a pool. -/
def ownAccounts (A : AddressScheme Key) (cfg : Config Key) (lp owner : Key) : List Key :=
  A.associatedAddress owner lp :: cfg.accountsOf A owner

/-- A trade changes no accounts but those of its user and of its config in the mints of the pool,
and no mint but the LP mint. -/
theorem trade_changes {ix : Instruction Key} (ht : ix.IsTrade) (hp : PoolAt A B ix.config cfg lp)
    (h : ix.process A B signers = .ok B') :
    ∃ u ∈ signers, ChangesOnly (ownAccounts A cfg lp u ++ ownAccounts A cfg lp ix.config) [lp]
      B.tokens B'.tokens := by
  unfold ownAccounts
  cases ix with
  | init | updateFee | setLocked | updateAuthority => exact ht.elim
  | swap accs kind aToB =>
    obtain ⟨rIn, rOut, q, hs⟩ := hp.swap_spec rfl h
    refine ⟨accs.user, hs.signed, (swap_changes h hp.config).mono ?_ (by simp)⟩
    intro k hk
    simp only [List.mem_append, List.mem_cons] at hk ⊢
    tauto
  | addLiquidity accs a b m =>
    obtain ⟨rX, rY, s, q, hs⟩ := hp.add_spec rfl h
    refine ⟨accs.user, hs.signed, (add_changes h hp.config hp.lpAddress).mono ?_ (by simp)⟩
    have hlock : lockAccounts A B.tokens accs.config lp ⊆ [A.associatedAddress accs.config lp] := by
      unfold lockAccounts
      split_ifs <;> simp
    intro k hk
    simp only [List.mem_append, List.mem_cons] at hk ⊢
    rcases hk with hk | (hk | hk) | hk
    · exact .inl (.inl hk)
    · exact .inl (.inr hk)
    · exact .inr (.inr hk)
    · exact .inr (.inl (List.mem_singleton.mp (hlock hk)))
  | removeLiquidity accs l a b =>
    obtain ⟨rX, rY, s, q, hs⟩ := hp.remove_spec rfl h
    refine ⟨accs.user, hs.signed, (remove_changes h hp.config hp.lpAddress).mono ?_ (by simp)⟩
    intro k hk
    simp only [List.mem_append, List.mem_cons] at hk ⊢
    tauto

theorem init_changes {self : Initialize Key} {seed : U64} {feeBps : U16} {authority : Option Key}
    (h : (Instruction.init self seed feeBps authority).process A B signers = .ok B') :
    ChangesOnly [A.associatedAddress self.config self.mintX,
      A.associatedAddress self.config self.mintY, A.associatedAddress self.config self.mintLp]
      [self.mintLp] B.tokens B'.tokens := by
  unfold Instruction.process Initialize.tryAccounts Initialize.init initMint at h
  simp only [Outcome.bind_eq_ok, Outcome.require_eq_ok, Bank.cpi_eq_ok, exists_and_left,
    exists_const, Outcome.ok.injEq] at h
  obtain ⟨_, ⟨_, -, _, -, _, -, B₁, ⟨-, -, h₁, -⟩, B₂, h₂, B₃, h₃, B₄, h₄, -, -, rfl⟩, -, rfl⟩ := h
  rw [← (initAssociated_eq_ok h₂).address, ← (initAssociated_eq_ok h₃).address,
    ← (initAssociated_eq_ok h₄).address]
  exact ((initializeMint_changes h₁).mono (by simp) (by simp)).trans
    (((initAssociated_changes h₂).mono (by simp) (by simp)).trans
      (((initAssociated_changes h₃).mono (by simp) (by simp)).trans
        ((initAssociated_changes h₄).mono (by simp) (by simp))))

/-! ## Banks whose configs are pools -/

/-- Every config is that of a pool in place, as `Initialize` sets one up. -/
def Bank.InPlace (A : AddressScheme Key) (B : Bank Key) : Prop :=
  ∀ c cfg, B.configs c = some cfg → ∃ lp, PoolAt A B c cfg lp

theorem Reachable.inPlace (h : Reachable A B) : B.InPlace A := by
  intro c cfg hc
  obtain ⟨lp, hp, -⟩ := h.inv.pool hc
  exact ⟨lp, hp⟩

theorem Bank.InPlace.of_exec (hB : B.InPlace A) (h : exec A B call = .ok B') : B'.InPlace A := by
  intro c cfg hc
  cases hc₀ : B.configs c with
  | some cfg₀ =>
    obtain ⟨lp, hp⟩ := hB c cfg₀ hc₀
    obtain ⟨cfg', hp', -⟩ := hp.kept h
    obtain rfl := Option.some.inj (hp'.config.symm.trans hc)
    exact ⟨lp, hp'⟩
  | none =>
    obtain ⟨accs, seed, feeBps, authority, hop, rfl, rfl⟩ := exec_config_new h hc hc₀
    rw [exec_amm hop] at h
    exact ⟨accs.mintLp, (init_spec h).pool.1⟩

theorem Bank.InPlace.of_run (hB : B.InPlace A) (calls : List (Call Key)) :
    (run (exec A) B calls).InPlace A := by
  have hstep : ∀ B₁ call B₂, B₁.InPlace A → True → exec A B₁ call = .ok B₂ → B₂.InPlace A :=
    fun _ _ _ hB _ h => hB.of_exec h
  exact run_induction hstep hB fun _ _ => trivial

/-! ## Other pools -/

/-- An instruction writes no config but the one that it names. -/
theorem config_of_other {ix : Instruction Key} (h : exec A B call = .ok B')
    (hop : call.op = .amm ix) (hne : c ≠ ix.config) : B'.configs c = B.configs c := by
  cases hc : B.configs c with
  | some cfg =>
    obtain ⟨cfg', hc', hstep⟩ := exec_config h hc
    rw [hc']
    cases hstep with
    | same => rfl
    | updateFee op config | setLocked op config | updateAuthority op config =>
      rw [op] at hop
      cases hop
      exact absurd config.symm hne
  | none =>
    cases hc' : B'.configs c with
    | none => rfl
    | some cfg' =>
      obtain ⟨accs, seed, feeBps, authority, op, config, -⟩ := exec_config_new h hc' hc
      rw [op] at hop
      cases hop
      exact absurd config.symm hne

/-- What is `c`'s of the tokens is the same: its associated accounts and its LP mint. -/
structure SameTokens (A : AddressScheme Key) (c lp : Key) (L L' : Ledger Key) : Prop where
  accounts : ∀ m, L'.accounts (A.associatedAddress c m) = L.accounts (A.associatedAddress c m)
  mint : L'.mints lp = L.mints lp

omit [DecidableEq Key] in
theorem SameTokens.of_changes {K M : List Key} (h : ChangesOnly K M B.tokens B'.tokens)
    (hK : ∀ m, A.associatedAddress c m ∉ K) (hM : lp ∉ M) :
    SameTokens A c lp B.tokens B'.tokens :=
  ⟨fun m => h.accounts (hK m), h.mints hM⟩

/-- An instruction touches no accounts of a config that it does not name and that did not sign. -/
theorem sameTokens_of_other {ix : Instruction Key} (hB : B.InPlace A)
    (h : ix.process A B signers = .ok B') (hne : c ≠ ix.config) (hns : c ∉ signers)
    {bump : U8} (hlp : A.createProgramAddress (.lpMint c) bump = some lp) :
    SameTokens A c lp B.tokens B'.tokens := by
  have hlpne : ∀ {lp' bump'}, A.createProgramAddress (.lpMint ix.config) bump' = some lp' →
      lp ∉ [lp'] := by
    intro lp' bump' hlp' hmem
    obtain rfl := List.mem_singleton.mp hmem
    exact hne (Seeds.lpMint.inj (A.create_injective hlp hlp'))
  have hout : ∀ {o m m'}, c ≠ o → A.associatedAddress c m ≠ A.associatedAddress o m' :=
    fun ho => AddressScheme.associated_ne_of_owner ho
  have htrade : ix.IsTrade → SameTokens A c lp B.tokens B'.tokens := by
    intro ht
    obtain ⟨cfg, hc, -⟩ := trade_config ht h
    obtain ⟨lp', hp⟩ := hB _ _ hc
    obtain ⟨u, hu, hch⟩ := trade_changes ht hp h
    have hcu : c ≠ u := fun hcu => hns (hcu ▸ hu)
    refine .of_changes hch ?_ (hlpne hp.lpAddress)
    intro m
    simp only [ownAccounts, Config.accountsOf, List.cons_append, List.nil_append, List.mem_cons,
      List.not_mem_nil, or_false, not_or]
    exact ⟨hout hcu, hout hcu, hout hcu, hout hne, hout hne, hout hne⟩
  cases ix with
  | init accs seed feeBps authority =>
    have hne' : c ≠ accs.config := hne
    refine .of_changes (init_changes h) ?_ (hlpne (init_spec h).lpAddress)
    intro m
    simp only [List.mem_cons, List.not_mem_nil, or_false, not_or]
    exact ⟨hout hne', hout hne', hout hne'⟩
  | swap => exact htrade trivial
  | addLiquidity => exact htrade trivial
  | removeLiquidity => exact htrade trivial
  | updateFee accs newFeeBps =>
    obtain ⟨_, -, -, rfl⟩ := updateFee_eq_ok.mp h
    exact ⟨fun _ => rfl, rfl⟩
  | setLocked accs locked =>
    obtain ⟨_, -, rfl⟩ := setLocked_eq_ok.mp h
    exact ⟨fun _ => rfl, rfl⟩
  | updateAuthority accs newAuthority =>
    obtain ⟨_, -, rfl⟩ := updateAuthority_eq_ok.mp h
    exact ⟨fun _ => rfl, rfl⟩

/-- An instruction leaves every pool that it does not name as it is. -/
theorem Bank.InPlace.pool_of_other {ix : Instruction Key} (hB : B.InPlace A)
    (hadm : call.Admissible A) (h : exec A B call = .ok B') (hop : call.op = .amm ix)
    (hne : c ≠ ix.config) : B'.pool A c = B.pool A c := by
  have hconf := config_of_other h hop hne
  unfold Bank.pool
  cases hc : B.configs c with
  | none =>
    rw [hconf, hc]
    rfl
  | some cfg =>
    obtain ⟨lp, hp⟩ := hB c cfg hc
    have hns : c ∉ call.signers := fun hk => hadm c hk hp.isProgramAddress
    have hx : ix.process A B call.signers = .ok B' := exec_amm hop ▸ h
    have hs := sameTokens_of_other hB hx hne hns hp.lpAddress
    rw [hconf, hc]
    simp only [Option.bind_eq_bind, Option.bind_some, hp.lpAddress, hs.accounts, hs.mint]

/-- Instructions on other pools, however many, leave the pool as it is. -/
theorem Bank.InPlace.pool_of_others {others : List (Call Key)} (hB : B.InPlace A)
    (hadm : ∀ call ∈ others, call.Admissible A)
    (hne : ∀ call ∈ others, ∃ ix, call.op = .amm ix ∧ ix.config ≠ c) :
    (run (exec A) B others).pool A c = B.pool A c := by
  let P : Bank Key → Prop := fun B₁ => B₁.InPlace A ∧ B₁.pool A c = B.pool A c
  have hstep : ∀ B₁ call B₂, P B₁ →
      (call.Admissible A ∧ ∃ ix, call.op = .amm ix ∧ ix.config ≠ c) →
      exec A B₁ call = .ok B₂ → P B₂ := by
    rintro B₁ call B₂ ⟨hB₁, hp₁⟩ ⟨hadm, ix, hop, hne⟩ h
    exact ⟨hB₁.of_exec h, (hB₁.pool_of_other hadm h hop hne.symm).trans hp₁⟩
  exact (run_induction (P := P) hstep ⟨hB, rfl⟩
    fun call hcall => ⟨hadm call hcall, hne call hcall⟩).2

/-! ## The pool that an instruction names -/

/-- The accounts that a trade was checked to be the user's hold tokens of the user. -/
theorem Swap.Checked.holds_user {self : Swap Key} {l : Loaded Key}
    (h : self.Checked A B signers l) {m k : Key} (hk : k ∈ l.config.accountsOf A self.user)
    (hpos : 0 < B.tokens.balance m k) : B.tokens.Holds k m self.user := by
  have howner : ∃ t, B.tokens.accounts k = some t ∧ t.owner = self.user := by
    rw [h.accountsOf.1] at hk
    simp only [List.mem_cons, List.not_mem_nil, or_false] at hk
    rcases hk with rfl | rfl
    · exact h.userX
    · exact h.userY
  obtain ⟨t, ht, ho⟩ := howner
  exact ho ▸ holds_of_balance_pos ht hpos

/-- A trade takes only from accounts of its user and from the two vaults. -/
def Debits (A : AddressScheme Key) (B B' : Bank Key) (u c : Key) (cfg : Config Key) : Prop :=
  ∀ {m k}, B'.tokens.balance m k < B.tokens.balance m k →
    B.tokens.Holds k m u ∨ k ∈ cfg.accountsOf A c

omit [DecidableEq Key] in
theorem Config.mem_accountsOf (cfg : Config Key) (A : AddressScheme Key) (o : Key) (aToB : Bool) :
    A.associatedAddress o (cfg.mintIn aToB) ∈ cfg.accountsOf A o ∧
      A.associatedAddress o (cfg.mintOut aToB) ∈ cfg.accountsOf A o := by
  cases aToB <;> simp [Config.accountsOf]

theorem swap_debits {self : Swap Key} {kind : SwapKind} {aToB : Bool}
    (h : (Instruction.swap self kind aToB).process A B signers = .ok B')
    (hc : B.configs self.config = some cfg) : Debits A B B' self.user self.config cfg := by
  intro m k hlt
  obtain ⟨l, hl, -⟩ := Outcome.bind_eq_ok.mp h
  have hch := Swap.tryAccounts_eq_ok.mp hl
  obtain ⟨cfg', rIn, rOut, q, hs⟩ := swap_spec h
  obtain rfl := Option.some.inj (hs.config.symm.trans hc)
  obtain rfl := Option.some.inj (hs.config.symm.trans hch.config)
  have hb := hs.balance m k
  by_cases hin : 0 < entry (l.config.mintIn aToB)
      (A.associatedAddress self.user (l.config.mintIn aToB)) q.amountIn.toNat m k
  · refine .inl (hch.holds_user ?_ (by omega))
    rw [(of_entry_pos hin).2]
    exact (l.config.mem_accountsOf A self.user aToB).1
  · obtain ⟨rfl, rfl⟩ := of_entry_pos (show 0 < entry (l.config.mintOut aToB)
      (A.associatedAddress self.config (l.config.mintOut aToB)) q.amountOut.toNat m k by omega)
    exact .inr (l.config.mem_accountsOf A self.config aToB).2

theorem add_debits {self : AddLiquidity Key} {a b minLp : U64}
    (h : (Instruction.addLiquidity self a b minLp).process A B signers = .ok B')
    (hc : B.configs self.config = some cfg) : Debits A B B' self.user self.config cfg := by
  intro m k hlt
  obtain ⟨⟨B₁, l⟩, hl, -⟩ := Outcome.bind_eq_ok.mp h
  have hch := (AddLiquidity.tryAccounts_eq_ok.mp hl).toSwap
  obtain ⟨cfg', lp', rX, rY, s, q, hs⟩ := add_spec h
  obtain rfl := Option.some.inj (hs.config.symm.trans hc)
  obtain rfl := Option.some.inj (hs.config.symm.trans hch.config)
  have hb := hs.balance m k
  refine .inl (hch.holds_user ?_ (by omega))
  by_cases hx : 0 < entry l.config.mintX (A.associatedAddress self.user l.config.mintX)
      q.amountA.toNat m k
  · rw [(of_entry_pos hx).2]
    exact (l.config.mem_accountsOf A self.user true).1
  · rw [(of_entry_pos (show 0 < entry l.config.mintY (A.associatedAddress self.user
      l.config.mintY) q.amountB.toNat m k by omega)).2]
    exact (l.config.mem_accountsOf A self.user true).2

theorem remove_debits {self : RemoveLiquidity Key} {lpBurn minA minB : U64}
    (h : (Instruction.removeLiquidity self lpBurn minA minB).process A B signers = .ok B')
    (hc : B.configs self.config = some cfg) : Debits A B B' self.user self.config cfg := by
  intro m k hlt
  obtain ⟨l, hl, -⟩ := Outcome.bind_eq_ok.mp h
  have hch := RemoveLiquidity.tryAccounts_eq_ok.mp hl
  obtain ⟨cfg', lp', rX, rY, s, q, hs⟩ := remove_spec h
  obtain rfl := Option.some.inj (hs.config.symm.trans hc)
  obtain rfl := Option.some.inj (hs.config.symm.trans hch.toSwap.config)
  obtain rfl := Option.some.inj (hs.lpAddress.symm.trans hch.lpAddress)
  have hb := hs.balance m k
  by_cases hburn : 0 < entry self.mintLp (A.associatedAddress self.user self.mintLp)
      q.lpTokens.toNat m k
  · obtain ⟨t, ht, ho⟩ := hch.userLp
    rw [hch.userLp_eq, ← (of_entry_pos hburn).2] at ht
    exact .inl (ho ▸ holds_of_balance_pos ht (by omega))
  · refine .inr ?_
    by_cases hx : 0 < entry l.config.mintX (A.associatedAddress self.config l.config.mintX)
        q.amountA.toNat m k
    · rw [(of_entry_pos hx).2]
      exact (l.config.mem_accountsOf A self.config true).1
    · rw [(of_entry_pos (show 0 < entry l.config.mintY (A.associatedAddress self.config
        l.config.mintY) q.amountB.toNat m k by omega)).2]
      exact (l.config.mem_accountsOf A self.config true).2

/-- An instruction of the authority of a pool. -/
def Instruction.IsAdmin : Instruction Key → Prop
  | .updateFee _ _ => True
  | .setLocked _ _ => True
  | .updateAuthority _ _ => True
  | _ => False

theorem trade_debits {ix : Instruction Key} (ht : ix.IsTrade)
    (hc : B.configs ix.config = some cfg) (h : ix.process A B signers = .ok B') :
    ∃ u ∈ signers, Debits A B B' u ix.config cfg := by
  cases ix with
  | init | updateFee | setLocked | updateAuthority => exact ht.elim
  | swap accs kind aToB =>
    obtain ⟨_, _, _, _, hs⟩ := swap_spec h
    exact ⟨accs.user, hs.signed, swap_debits h hc⟩
  | addLiquidity accs a b m =>
    obtain ⟨_, _, _, _, _, _, hs⟩ := add_spec h
    exact ⟨accs.user, hs.signed, add_debits h hc⟩
  | removeLiquidity accs l a b =>
    obtain ⟨_, _, _, _, _, _, hs⟩ := remove_spec h
    exact ⟨accs.user, hs.signed, remove_debits h hc⟩

theorem admin_tokens {ix : Instruction Key} (ha : ix.IsAdmin)
    (h : ix.process A B signers = .ok B') :
    B'.tokens = B.tokens ∧ ∃ cfg, B.configs ix.config = some cfg := by
  cases ix with
  | init | swap | addLiquidity | removeLiquidity => exact ha.elim
  | updateFee accs newFeeBps =>
    obtain ⟨cfg, hauth, -, rfl⟩ := updateFee_eq_ok.mp h
    exact ⟨rfl, cfg, hauth.config⟩
  | setLocked accs locked =>
    obtain ⟨cfg, hauth, rfl⟩ := setLocked_eq_ok.mp h
    exact ⟨rfl, cfg, hauth.config⟩
  | updateAuthority accs newAuthority =>
    obtain ⟨cfg, hauth, rfl⟩ := updateAuthority_eq_ok.mp h
    exact ⟨rfl, cfg, hauth.config⟩

/-- What an instruction on the pool of `c` cannot do. -/
structure Isolated (A : AddressScheme Key) (B B' : Bank Key) (signers : List Key) (c : Key)
    (cfg : Config Key) (lp : Key) : Prop where
  debited : ∀ m k, B'.tokens.balance m k < B.tokens.balance m k →
    (∃ u ∈ signers, B.tokens.Holds k m u) ∨ k = A.associatedAddress c cfg.mintX ∨
      k = A.associatedAddress c cfg.mintY
  mints : ∀ m, m ≠ lp → B'.tokens.mints m = B.tokens.mints m
  configs : ∀ c', c' ≠ c → B'.configs c' = B.configs c'
  lpVault : ∀ m, B.tokens.balance m (A.associatedAddress c lp) ≤
    B'.tokens.balance m (A.associatedAddress c lp)
  pools : ∀ c', c' ≠ c → B'.pool A c' = B.pool A c'

/-- An LP vault is no vault, and its owner signs nothing. -/
theorem PoolAt.lpVault_not_debited (hp : PoolAt A B c cfg lp) (hns : c ∉ signers)
    (hd : ∀ m k, B'.tokens.balance m k < B.tokens.balance m k →
      (∃ u ∈ signers, B.tokens.Holds k m u) ∨ k = A.associatedAddress c cfg.mintX ∨
        k = A.associatedAddress c cfg.mintY) (m : Key) :
    B.tokens.balance m (A.associatedAddress c lp) ≤
      B'.tokens.balance m (A.associatedAddress c lp) := by
  by_contra hlt
  rcases hd m _ (Nat.lt_of_not_le hlt) with ⟨u, hu, hh⟩ | hk | hk
  · exact hns (hp.lpVault.owner_eq hh ▸ hu)
  · exact hp.mintX_ne_lp (A.associated_injective hk).2.symm
  · exact hp.mintY_ne_lp (A.associated_injective hk).2.symm

theorem isolated_of_ok {ix : Instruction Key} (hB : B.InPlace A)
    (hadm : ∀ k ∈ signers, ¬ A.IsProgramAddress k) (hix : ix.IsTrade ∨ ix.IsAdmin)
    (h : exec A B ⟨signers, .amm ix⟩ = .ok B') :
    ∃ cfg lp, PoolAt A B ix.config cfg lp ∧ Isolated A B B' signers ix.config cfg lp := by
  have hconfig : ∃ cfg, B.configs ix.config = some cfg := by
    rcases hix with ht | ha
    · obtain ⟨cfg, hc, -⟩ := trade_config ht h
      exact ⟨cfg, hc⟩
    · exact (admin_tokens ha h).2
  obtain ⟨cfg, hc⟩ := hconfig
  obtain ⟨lp, hp⟩ := hB _ _ hc
  have hdebited : ∀ m k, B'.tokens.balance m k < B.tokens.balance m k →
      (∃ u ∈ signers, B.tokens.Holds k m u) ∨ k = A.associatedAddress ix.config cfg.mintX ∨
        k = A.associatedAddress ix.config cfg.mintY := by
    intro m k hlt
    rcases hix with ht | ha
    · obtain ⟨u, hu, hd⟩ := trade_debits ht hc h
      rcases hd hlt with hh | hk
      · exact .inl ⟨u, hu, hh⟩
      · simp only [Config.accountsOf, List.mem_cons, List.not_mem_nil, or_false] at hk
        exact .inr hk
    · rw [(admin_tokens ha h).1] at hlt
      exact absurd hlt (Nat.lt_irrefl _)
  have hmints : ∀ m, m ≠ lp → B'.tokens.mints m = B.tokens.mints m := by
    intro m hm
    rcases hix with ht | ha
    · obtain ⟨u, -, hch⟩ := trade_changes ht hp h
      exact hch.mints (by simpa using hm)
    · rw [(admin_tokens ha h).1]
  have hcall : Call.Admissible A ⟨signers, .amm ix⟩ := hadm
  refine ⟨cfg, lp, hp, hdebited, hmints, ?_, ?_, ?_⟩
  · intro c' hne
    exact config_of_other h rfl hne
  · exact hp.lpVault_not_debited (fun hk => hadm _ hk hp.isProgramAddress) hdebited
  · intro c' hne
    exact hB.pool_of_other hcall h rfl hne

/-- **Pools are isolated.** -/
theorem pools_isolated (A : AddressScheme Key) (B : Bank Key) (hB : B.InPlace A) :
    (∀ signers (ix : Instruction Key) B', (∀ k ∈ signers, ¬ A.IsProgramAddress k) →
      ix.IsTrade ∨ ix.IsAdmin → exec A B ⟨signers, .amm ix⟩ = .ok B' →
      ∃ cfg lp, PoolAt A B ix.config cfg lp ∧ Isolated A B B' signers ix.config cfg lp) ∧
    (∀ c (calls others : List (Call Key)), (∀ call ∈ others, call.Admissible A) →
      (∀ call ∈ others, ∃ ix, call.op = .amm ix ∧ ix.config ≠ c) →
      (run (exec A) (run (exec A) B calls) others).pool A c =
        (run (exec A) B calls).pool A c) := by
  refine ⟨?_, ?_⟩
  · intro signers ix B' hadm hix h
    exact isolated_of_ok hB hadm hix h
  · intro c calls others hadm hne
    exact (hB.of_run calls).pool_of_others hadm hne

/-! ## Two pools -/

namespace Demo

/-- A second pool, for the shares of the first one and one of its tokens. -/
def second : Initialize Addr where
  initializer := alice
  mintX := mintLp
  mintY := mintX
  mintLp := .lpMint (.config 8)
  vaultX := .associated (.config 8) mintLp
  vaultY := .associated (.config 8) mintX
  lpVault := .associated (.config 8) (.lpMint (.config 8))
  config := .config 8

def twoPools : Bank Addr :=
  next (exec Addr.scheme) bank (byAlice (.amm (.init second 8 30 none)))

theorem twoPools_reachable : Reachable Addr.scheme twoPools :=
  bank_reachable.next (byAlice_admissible _)

def aSwap : Call Addr := byAlice (.amm (.swap (swapBy alice) (.exactInput 100 0) true))

end Demo

theorem pools_isolated_swap :
    ∃ cfg lp, PoolAt Addr.scheme Demo.twoPools Demo.pool cfg lp ∧
      Isolated Addr.scheme Demo.twoPools (next (exec Addr.scheme) Demo.twoPools Demo.aSwap)
        Demo.aSwap.signers Demo.pool cfg lp :=
  (pools_isolated Addr.scheme Demo.twoPools Demo.twoPools_reachable.inPlace).1 Demo.aSwap.signers
    (.swap (Demo.swapBy Demo.alice) (.exactInput 100 0) true) _
    (Demo.byAlice_admissible (.amm (.swap (Demo.swapBy Demo.alice) (.exactInput 100 0) true)))
    (.inl trivial) (eq_ok_next (by decide +kernel))

end Amm
