import ToyAmm.AccountLocks
import ToyAmm.AssociatedAccounts
import ToyAmm.PoolAddresses

/-!
# When a pool can be created

`Initialize` creates five accounts, each with `init`: the LP mint, the two vaults, the vault for
locked shares and the config. It goes through exactly if it is given the addresses of its pool and
all of them are vacant (`creation_iff`). No account is ever given up, so an address that is taken
stays taken: the pool of that seed and these mints can then never be created. As an associated
account can be opened for any owner, one call of anybody is enough for this.
-/

open Checked AmmMath Token Ledger Transition

namespace Amm

variable {Key : Type} [DecidableEq Key] {A : AddressScheme Key} {B B' : Bank Key} {k c : Key}
  {signers : List Key} {call : Call Key} {calls : List (Call Key)}

/-! ## Vacant addresses -/

omit [DecidableEq Key] in
/-- What is vacant after was vacant before. -/
theorem vacant_of_evolves (he : Evolves B.tokens B'.tokens)
    (hc : B'.configs k = none → B.configs k = none) (h : B'.vacant k = true) :
    B.vacant k = true := by
  obtain ⟨hconfigs, hmints, haccounts⟩ := Bank.vacant_iff.mp h
  refine Bank.vacant_iff.mpr ⟨hc hconfigs, ?_, he.accounts_eq_none haccounts⟩
  cases hm : B.tokens.mints k with
  | none => rfl
  | some M =>
    obtain ⟨s, hs⟩ := he.isMint (⟨M.supply, hm⟩ : B.tokens.IsMint k M.mintAuthority M.decimals)
    rw [hmints] at hs
    cases hs

omit [DecidableEq Key] in
/-- A call that spares an address leaves it vacant. -/
theorem vacant_of_changes {K M : List Key} (h : ChangesOnly K M B.tokens B'.tokens)
    (hc : B'.configs = B.configs) (hK : k ∉ K) (hM : k ∉ M) (hk : B.vacant k = true) :
    B'.vacant k = true := by
  rw [Bank.vacant_iff, hc, h.mints hM, h.accounts hK]
  exact Bank.vacant_iff.mp hk

/-- No call gives up an address that is taken. -/
theorem taken_of_exec (h : exec A B call = .ok B') (hk : B.vacant k = false) :
    B'.vacant k = false := by
  by_contra hv
  rw [Bool.not_eq_false] at hv
  have hold : B.vacant k = true := by
    refine vacant_of_evolves (exec_confined h).evolves ?_ hv
    intro hnone
    cases hc : B.configs k with
    | none => rfl
    | some cfg =>
      obtain ⟨cfg', hc', -⟩ := exec_config h hc
      rw [hnone] at hc'
      cases hc'
  rw [hk] at hold
  cases hold

theorem taken_of_run (hk : B.vacant k = false) (calls : List (Call Key)) :
    (run (exec A) B calls).vacant k = false := by
  have hstep : ∀ B₁ call B₂, Bank.vacant B₁ k = false → True → exec A B₁ call = .ok B₂ →
      Bank.vacant B₂ k = false := fun _ _ _ hk _ h => taken_of_exec h hk
  exact run_induction hstep hk fun _ _ => trivial

/-! ## The accounts of a new pool -/

/-- The accounts that `Initialize` creates. -/
def Pool.created (p : Pool Key) : List Key := [p.mintLp, p.vaultX, p.vaultY, p.lpVault, p.config]

/-- Everything that `Initialize` checks. -/
structure Initialize.Creatable (accs : Initialize Key) (A : AddressScheme Key) (B : Bank Key)
    (signers : List Key) (seed : U64) (feeBps : U16) : Prop where
  signed : accs.initializer ∈ signers
  accounts : accs = initializeBundle (.derive A seed accs.mintX accs.mintY) accs.initializer
  mintX : ∃ a d, B.tokens.IsMint accs.mintX a d
  mintY : ∃ a d, B.tokens.IsMint accs.mintY a d
  mintX_ne_mintY : accs.mintX ≠ accs.mintY
  fee_lt : feeBps.toNat < 10000
  vacant : ∀ k ∈ (Pool.derive A seed accs.mintX accs.mintY).created, B.vacant k = true

theorem initMint_vacant {authority : Key} {seeds : Seeds Key} {d : U8}
    (h : initMint A B signers k seeds d authority = .ok B') : B.vacant k = true := by
  unfold initMint at h
  simp only [Outcome.bind_eq_ok, Outcome.require_eq_ok, Bank.cpi_eq_ok, exists_and_left,
    exists_const] at h
  obtain ⟨-, hc, hinit, -⟩ := h
  rw [Bank.vacant, hc, (initializeMint_posts hinit).2.1]
  rfl

theorem Initialize.Creatable.of_ok {self : Initialize Key} {seed : U64} {feeBps : U16}
    {authority : Option Key}
    (h : (Instruction.init self seed feeBps authority).process A B signers = .ok B') :
    self.Creatable A B signers seed feeBps := by
  have haccounts := init_accounts h
  have hs := init_spec h
  unfold Instruction.process Initialize.tryAccounts Initialize.init loadMint requireSigner at h
  simp only [Outcome.bind_eq_ok, Outcome.require_eq_ok, Outcome.okOr_eq_ok, exists_and_left,
    exists_const, Outcome.ok.injEq] at h
  obtain ⟨_, ⟨hsigned, mx, hmx, my, hmy, B₁, h₁, B₂, h₂, B₃, h₃, B₄, h₄, -, hvac, rfl⟩, -, rfl⟩ := h
  obtain ⟨-, hc₁, -, -, -, hp₁⟩ := initMint_eq_ok h₁
  have hx := initAssociated_eq_ok h₂
  have hy := initAssociated_eq_ok h₃
  have hl := initAssociated_eq_ok h₄
  -- each address was vacant when its turn came, hence at the start
  have hback₁ : ∀ {k}, B₁.vacant k = true → B.vacant k = true :=
    vacant_of_evolves hp₁.evolves (by rw [hc₁]; exact id)
  have hback₂ : ∀ {k}, B₂.vacant k = true → B.vacant k = true := fun hv =>
    hback₁ (vacant_of_evolves hx.posts.evolves (by rw [hx.configs]; exact id) hv)
  have hback₃ : ∀ {k}, B₃.vacant k = true → B.vacant k = true := fun hv =>
    hback₂ (vacant_of_evolves hy.posts.evolves (by rw [hy.configs]; exact id) hv)
  have hback₄ : ∀ {k}, B₄.vacant k = true → B.vacant k = true := fun hv =>
    hback₃ (vacant_of_evolves hl.posts.evolves (by rw [hl.configs]; exact id) hv)
  refine ⟨hsigned, haccounts, ⟨_, _, _, hmx⟩, ⟨_, _, _, hmy⟩, hs.mintX_ne_mintY, hs.fee_lt, ?_⟩
  have hall : ∀ k ∈ [self.mintLp, self.vaultX, self.vaultY, self.lpVault, self.config],
      B.vacant k = true := by
    intro k hk
    simp only [List.mem_cons, List.not_mem_nil, or_false] at hk
    rcases hk with rfl | rfl | rfl | rfl | rfl
    · exact initMint_vacant h₁
    · exact hback₁ hx.vacant
    · exact hback₂ hy.vacant
    · exact hback₃ hl.vacant
    · exact hback₄ hvac
  rw [haccounts] at hall
  exact hall

/-! ## Creating it -/

theorem initMint_ok {authority : Key} {seeds : Seeds Key} {d : U8}
    (hk : k = (A.findProgramAddress seeds).1) (hv : B.vacant k = true) :
    ∃ B', initMint A B signers k seeds d authority = .ok B' := by
  obtain ⟨hc, hm, ha⟩ := Bank.vacant_iff.mp hv
  have hfree : B.tokens.vacant k = true := Ledger.vacant_iff.mpr ⟨hm, ha⟩
  have hsigned : k ∈ k :: signers := List.mem_cons_self
  have hinit : B.tokens.initializeMint (k :: signers) k authority d =
      .ok (B.tokens.setMint k ⟨some authority, 0, d⟩) := by
    rw [Ledger.initializeMint, Outcome.require_pos hfree, Outcome.ok_bind,
      Outcome.require_pos hsigned, Outcome.ok_bind]
  unfold initMint
  rw [Outcome.require_pos hk, Outcome.ok_bind, Outcome.require_pos (by rw [hc]; rfl),
    Outcome.ok_bind, hinit]
  exact ⟨{ B with tokens := B.tokens.setMint k ⟨some authority, 0, d⟩ },
    Bank.cpi_eq_ok.mpr ⟨rfl, rfl⟩⟩

theorem initAssociated_ok {mint owner : Key}
    (hv : B.vacant (A.associatedAddress owner mint) = true)
    (hM : ∃ a d, B.tokens.IsMint mint a d) :
    ∃ B', initAssociated A B (A.associatedAddress owner mint) mint owner = .ok B' := by
  obtain ⟨hc, hm, ha⟩ := Bank.vacant_iff.mp hv
  obtain ⟨a, d, hM⟩ := hM
  obtain ⟨L, hL⟩ : ∃ L, createAssociated A.associatedAddress B.tokens
      (A.associatedAddress owner mint) owner mint = .ok L :=
    createAssociated_ok (Ledger.vacant_iff.mpr ⟨hm, ha⟩) hM
  unfold initAssociated
  rw [Outcome.require_pos (by rw [hc]; rfl), Outcome.ok_bind, hL]
  exact ⟨{ B with tokens := L }, Bank.cpi_eq_ok.mpr ⟨rfl, rfl⟩⟩

omit [DecidableEq Key] in
/-- The addresses of a pool are all different. -/
theorem created_nodup (hA : A.Apart) {seed : U64} {mintX mintY : Key} (hXY : mintX ≠ mintY)
    (hX : mintX ≠ (Pool.derive A seed mintX mintY).mintLp)
    (hY : mintY ≠ (Pool.derive A seed mintX mintY).mintLp) :
    (Pool.derive A seed mintX mintY).created.Nodup := by
  set p := Pool.derive A seed mintX mintY
  have hcreateC : A.createProgramAddress (.config seed) _ = some p.config := A.create_find _
  have hcreateL : A.createProgramAddress (.lpMint p.config) _ = some p.mintLp := A.create_find _
  have hC : ∀ o m, p.config ≠ A.associatedAddress o m := hA _ ⟨_, _, hcreateC⟩
  have hL : ∀ o m, p.mintLp ≠ A.associatedAddress o m := hA _ ⟨_, _, hcreateL⟩
  have hLC : p.mintLp ≠ p.config := by
    intro he
    rw [← he] at hcreateC
    cases A.create_injective hcreateC hcreateL
  have hne : ∀ {m m'}, m ≠ m' → A.associatedAddress p.config m ≠ A.associatedAddress p.config m' :=
    fun hm he => hm (A.associated_injective he).2
  simp only [Pool.created, List.nodup_cons, List.mem_cons, List.not_mem_nil, or_false, not_or,
    not_false_eq_true, List.nodup_nil, and_true]
  exact ⟨⟨hL _ _, hL _ _, hL _ _, hLC⟩, ⟨hne hXY, hne hX, (hC _ _).symm⟩,
    ⟨hne hY, (hC _ _).symm⟩, (hC _ _).symm⟩

omit [DecidableEq Key] in
/-- Creating the first of a list of accounts leaves the others vacant. -/
theorem vacant_rest {ks : List Key} (h : ChangesOnly [k] [k] B.tokens B'.tokens)
    (hc : B'.configs = B.configs) (hnodup : (k :: ks).Nodup)
    (hv : ∀ x ∈ k :: ks, B.vacant x = true) : ∀ x ∈ ks, B'.vacant x = true := by
  intro x hx
  have hne : x ∉ [k] := by
    rw [List.mem_singleton]
    rintro rfl
    exact (List.nodup_cons.mp hnodup).1 hx
  exact vacant_of_changes h hc hne hne (hv x (List.mem_cons_of_mem _ hx))

theorem Initialize.Creatable.ok {self : Initialize Key} {seed : U64} {feeBps : U16}
    (h : self.Creatable A B signers seed feeBps) (hA : A.Apart) (authority : Option Key) :
    ∃ B', (Instruction.init self seed feeBps authority).process A B signers = .ok B' := by
  set p := Pool.derive A seed self.mintX self.mintY with hp
  have hv := h.vacant
  have hmint : ∀ {m}, (∃ a d, B.tokens.IsMint m a d) → m ≠ p.mintLp := by
    rintro m ⟨a, d, s, hm⟩ rfl
    rw [(Bank.vacant_iff.mp (hv p.mintLp List.mem_cons_self)).2.1] at hm
    cases hm
  have hnodup : p.created.Nodup :=
    created_nodup hA h.mintX_ne_mintY (hmint h.mintX) (hmint h.mintY)
  -- the accounts are created one by one, and leave the remaining ones vacant
  obtain ⟨B₁, h₁⟩ : ∃ B₁, initMint A B signers p.mintLp (.lpMint p.config) lpMintDecimals p.config =
      .ok B₁ := initMint_ok rfl (hv p.mintLp List.mem_cons_self)
  obtain ⟨-, hc₁, -, hm₁, -, hp₁⟩ := initMint_eq_ok h₁
  have hv₁ := vacant_rest ((initMint_changes h₁).mono (List.nil_subset _) (.refl _)) hc₁ hnodup hv
  obtain ⟨ax, dx, hMX⟩ := h.mintX
  obtain ⟨ay, dy, hMY⟩ := h.mintY
  obtain ⟨B₂, h₂⟩ : ∃ B₂, initAssociated A B₁ p.vaultX self.mintX p.config = .ok B₂ :=
    initAssociated_ok (hv₁ p.vaultX List.mem_cons_self) ⟨_, _, hp₁.evolves.isMint hMX⟩
  have hx := initAssociated_eq_ok h₂
  have he₂ := hp₁.evolves.trans hx.posts.evolves
  have hv₂ := vacant_rest ((initAssociated_changes h₂).mono (.refl _) (List.nil_subset _))
    hx.configs (List.nodup_cons.mp hnodup).2 hv₁
  obtain ⟨B₃, h₃⟩ : ∃ B₃, initAssociated A B₂ p.vaultY self.mintY p.config = .ok B₃ :=
    initAssociated_ok (hv₂ p.vaultY List.mem_cons_self) ⟨_, _, he₂.isMint hMY⟩
  have hy := initAssociated_eq_ok h₃
  have he₃ := hx.posts.evolves.trans hy.posts.evolves
  have hv₃ := vacant_rest ((initAssociated_changes h₃).mono (.refl _) (List.nil_subset _))
    hy.configs (List.nodup_cons.mp (List.nodup_cons.mp hnodup).2).2 hv₂
  obtain ⟨B₄, h₄⟩ : ∃ B₄, initAssociated A B₃ p.lpVault p.mintLp p.config = .ok B₄ :=
    initAssociated_ok (hv₃ p.lpVault List.mem_cons_self) ⟨_, _, he₃.isMint hm₁⟩
  have hl := initAssociated_eq_ok h₄
  have hv₄ := vacant_rest ((initAssociated_changes h₄).mono (.refl _) (List.nil_subset _))
    hl.configs (List.nodup_cons.mp (List.nodup_cons.mp (List.nodup_cons.mp hnodup).2).2).2 hv₃
  have hfree : B₄.vacant p.config = true := hv₄ p.config List.mem_cons_self
  have htry : self.tryAccounts A B signers seed = .ok B₄ := by
    obtain ⟨sx, hsx⟩ := hMX
    obtain ⟨sy, hsy⟩ := hMY
    have hLp : self.mintLp = p.mintLp := congrArg Initialize.mintLp h.accounts
    have hX : self.vaultX = p.vaultX := congrArg Initialize.vaultX h.accounts
    have hY : self.vaultY = p.vaultY := congrArg Initialize.vaultY h.accounts
    have hL : self.lpVault = p.lpVault := congrArg Initialize.lpVault h.accounts
    have hC : self.config = p.config := congrArg Initialize.config h.accounts
    have hseed : p.config = (A.findProgramAddress (.config seed)).1 := rfl
    unfold Initialize.tryAccounts requireSigner loadMint
    rw [hLp, hX, hY, hL, hC]
    simp only [Outcome.require_pos h.signed, hsx, hsy, Outcome.okOr_some, Outcome.ok_bind, h₁, h₂,
      h₃, h₄, Outcome.require_pos hseed, Outcome.require_pos hfree]
  obtain ⟨B', hB'⟩ : ∃ B', self.init B₄ seed feeBps authority (self.bumps A seed) = .ok B' := by
    unfold Initialize.init
    rw [Outcome.require_pos (fee_lt_iff.mpr h.fee_lt), Outcome.ok_bind]
    exact ⟨_, rfl⟩
  exact ⟨B', Outcome.bind_eq_ok.mpr ⟨B₄, htry, hB'⟩⟩

/-- **When a pool can be created.** -/
theorem creation_iff (A : AddressScheme Key) (hA : A.Apart) (B : Bank Key) (signers : List Key)
    (self : Initialize Key) (seed : U64) (feeBps : U16) (authority : Option Key) :
    (∃ B', exec A B ⟨signers, .amm (.init self seed feeBps authority)⟩ = .ok B') ↔
      self.Creatable A B signers seed feeBps := by
  constructor
  · rintro ⟨B', h⟩
    exact .of_ok h
  · intro h
    exact h.ok hA authority

theorem creation_demo :
    ∃ B', exec Addr.scheme Demo.funded Demo.creation = .ok B' := by
  refine (creation_iff Addr.scheme Demo.apart Demo.funded _ (Demo.initBy Demo.alice) 7 30
    (some Demo.alice)).mpr ⟨by decide, rfl, ?_, ?_, by decide, by decide, by decide +kernel⟩
  · exact ⟨some Demo.alice, 6, 2000000, by decide +kernel⟩
  · exact ⟨some Demo.alice, 6, 2000000, by decide +kernel⟩

/-! ## Creations that are blocked -/

/-- **A creation can be blocked for good.** Once one of its five addresses is taken, no later
`Initialize` for this seed and these mints succeeds, whoever calls it and whatever has happened in
the meantime; and while one of the two vaults is vacant, anybody can take it with one call. -/
theorem creation_blocked (A : AddressScheme Key) (B : Bank Key) (seed : U64) (mintX mintY : Key) :
    ((∃ k ∈ (Pool.derive A seed mintX mintY).created, B.vacant k = false) →
      ∀ (calls : List (Call Key)) (signers : List Key) (self : Initialize Key) (feeBps : U16)
        (authority : Option Key) (B' : Bank Key), self.mintX = mintX → self.mintY = mintY →
        exec A (run (exec A) B calls) ⟨signers, .amm (.init self seed feeBps authority)⟩ ≠
          .ok B') ∧
    ∀ vault mint : Key, vault = (Pool.derive A seed mintX mintY).vaultX ∧ mint = mintX ∨
        vault = (Pool.derive A seed mintX mintY).vaultY ∧ mint = mintY →
      (∃ a d, B.tokens.IsMint mint a d) → B.vacant vault = true → ∀ signers : List Key, ∃ B₁,
        exec A B ⟨signers, .token (.createAssociated vault
          (Pool.derive A seed mintX mintY).config mint)⟩ = .ok B₁ ∧ B₁.vacant vault = false := by
  refine ⟨?_, ?_⟩
  · rintro ⟨k, hk, htaken⟩ calls signers self feeBps authority B' rfl rfl h
    have hfree := (Initialize.Creatable.of_ok h).vacant k hk
    rw [taken_of_run htaken calls] at hfree
    cases hfree
  · intro vault mint hvault hM hv signers
    obtain rfl : vault = A.associatedAddress (Pool.derive A seed mintX mintY).config mint := by
      rcases hvault with ⟨rfl, rfl⟩ | ⟨rfl, rfl⟩ <;> rfl
    obtain ⟨B₁, h₁⟩ := initAssociated_ok hv hM
    obtain ⟨n, hopened⟩ := (initAssociated_eq_ok h₁).holds
    obtain ⟨_, hc, hcreate⟩ := Outcome.bind_eq_ok.mp h₁
    refine ⟨B₁, Outcome.bind_eq_ok.mpr ⟨⟨⟩, ?_, hcreate⟩, ?_⟩
    · exact Outcome.require_pos (Outcome.require_eq_ok.mp hc) _
    · by_contra hfree
      have hnone := (Bank.vacant_iff.mp (Bool.not_eq_false _ ▸ hfree)).2.2
      cases hopened.symm.trans hnone

/-- Bob opens the second vault, and the pool of seed 7 will never exist. -/
theorem creation_blocked_demo :
    ∃ B, exec Addr.scheme Demo.funded ⟨[Demo.bob], .token (.createAssociated
        (Pool.derive Addr.scheme 7 Demo.mintX Demo.mintY).vaultY
        (Pool.derive Addr.scheme 7 Demo.mintX Demo.mintY).config Demo.mintY)⟩ = .ok B ∧
      ∀ (calls : List (Call Addr)) (B' : Bank Addr),
        exec Addr.scheme (run (exec Addr.scheme) B calls) Demo.creation ≠ .ok B' := by
  obtain ⟨B, hB, htaken⟩ :=
    (creation_blocked Addr.scheme Demo.funded 7 Demo.mintX Demo.mintY).2 _ _ (.inr ⟨rfl, rfl⟩)
      ⟨some Demo.alice, 6, 2000000, by decide +kernel⟩ (by decide +kernel) [Demo.bob]
  have hcreated : (Pool.derive Addr.scheme 7 Demo.mintX Demo.mintY).vaultY ∈
      (Pool.derive Addr.scheme 7 Demo.mintX Demo.mintY).created := by
    decide
  refine ⟨B, hB, fun calls B' => ?_⟩
  exact (creation_blocked Addr.scheme B 7 Demo.mintX Demo.mintY).1 ⟨_, hcreated, htaken⟩ calls
    _ _ _ _ B' rfl rfl

end Amm
