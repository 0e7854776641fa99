import ToyAmm.Reachable
import ToyAmm.TokenFrame

/-!
# Associated accounts are what they are derived for

An instruction finds a user's accounts and a pool's vaults at their associated addresses, and the
checks look at the owner of an account but not at its mint. They need not: in every bank that is
reached by calls signed with keys (`Rooted`), an associated address holds nothing but an account of
the owner and the mint that it was derived from (`Bank.Genuine`).
-/

open Checked AmmMath Token Ledger Transition

namespace Token

namespace Ledger

variable {Key : Type} {L L' : Ledger Key}

/-- The same addresses are in use. -/
structure SameDomain (L L' : Ledger Key) : Prop where
  accounts : ∀ k, (L'.accounts k).isSome = (L.accounts k).isSome
  mints : ∀ m, (L'.mints m).isSome = (L.mints m).isSome

theorem SameDomain.of_changes {K M : List Key} (h : ChangesOnly K M L L')
    (hK : ∀ k ∈ K, (L.accounts k).isSome = true ∧ (L'.accounts k).isSome = true)
    (hM : ∀ m ∈ M, (L.mints m).isSome = true ∧ (L'.mints m).isSome = true) : SameDomain L L' := by
  classical
  refine ⟨fun k => ?_, fun m => ?_⟩
  · by_cases hk : k ∈ K
    · rw [(hK k hk).1, (hK k hk).2]
    · rw [h.accounts hk]
  · by_cases hm : m ∈ M
    · rw [(hM m hm).1, (hM m hm).2]
    · rw [h.mints hm]

theorem Holds.isSome {k m o : Key} (h : L.Holds k m o) : (L.accounts k).isSome = true := by
  obtain ⟨a, ha⟩ := h
  rw [ha]
  rfl

theorem IsMint.isSome {m : Key} {a : Option Key} {d : BitVec 8} (h : L.IsMint m a d) :
    (L.mints m).isSome = true := by
  obtain ⟨s, hs⟩ := h
  rw [hs]
  rfl

variable [DecidableEq Key] {signers : List Key}

theorem transferChecked_sameDomain {source mint destination authority : Key} {n : BitVec 64}
    {d : BitVec 8}
    (h : L.transferChecked signers source mint destination authority n d = .ok L') :
    SameDomain L L' := by
  have hs := transferChecked_posts h
  obtain ⟨o, hdest⟩ := hs.dest
  have hev := hs.posts.evolves
  refine .of_changes (transferChecked_changes h) (fun k hk => ?_) (List.forall_mem_nil _)
  simp only [List.mem_cons, List.not_mem_nil, or_false] at hk
  rcases hk with rfl | rfl
  · exact ⟨hs.holds.isSome, (hev.holds hs.holds).isSome⟩
  · exact ⟨hdest.isSome, (hev.holds hdest).isSome⟩

theorem mintTo_sameDomain {mint destination authority : Key} {n : BitVec 64}
    (h : L.mintTo signers mint destination authority n = .ok L') : SameDomain L L' := by
  have hs := mintTo_posts h
  obtain ⟨o, hdest⟩ := hs.holds
  obtain ⟨d, hM⟩ := hs.isMint
  have hev := hs.posts.evolves
  refine .of_changes (mintTo_changes h) (List.forall_mem_singleton.mpr ?_)
    (List.forall_mem_singleton.mpr ?_)
  · exact ⟨hdest.isSome, (hev.holds hdest).isSome⟩
  · exact ⟨hM.isSome, (hev.isMint hM).isSome⟩

theorem burn_sameDomain {source mint authority : Key} {n : BitVec 64}
    (h : L.burn signers source mint authority n = .ok L') : SameDomain L L' := by
  have hs := burn_posts h
  have hev := hs.posts.evolves
  have hM : ∃ a d, L.IsMint mint a d := by
    obtain ⟨_, -, h⟩ := Outcome.bind_eq_ok.mp h
    obtain ⟨⟨a, s, d⟩, hM, -⟩ := Outcome.bind_eq_ok.mp h
    exact ⟨a, d, s, Outcome.okOr_eq_ok.mp hM⟩
  obtain ⟨a, d, hM⟩ := hM
  refine .of_changes (burn_changes h) (List.forall_mem_singleton.mpr ?_)
    (List.forall_mem_singleton.mpr ?_)
  · exact ⟨hs.holds.isSome, (hev.holds hs.holds).isSome⟩
  · exact ⟨hM.isSome, (hev.isMint hM).isSome⟩

end Ledger

end Token

namespace Amm

variable {Key : Type} {A : AddressScheme Key} {B B' : Bank Key} {k c : Key} {cfg : Config Key}

/-- At an associated address there is nothing but the account that it was derived for. -/
structure Bank.Genuine (A : AddressScheme Key) (B : Bank Key) : Prop where
  config : ∀ o m, B.configs (A.associatedAddress o m) = none
  mint : ∀ o m, B.tokens.mints (A.associatedAddress o m) = none
  account : ∀ {o m t}, B.tokens.accounts (A.associatedAddress o m) = some t →
    t.mint = m ∧ t.owner = o

/-- Token operations on accounts that are there leave all addresses to whom they belong. -/
theorem Bank.Genuine.of_sameDomain (h : B.Genuine A) (hc : B'.configs = B.configs)
    (hd : SameDomain B.tokens B'.tokens) (hev : Evolves B.tokens B'.tokens) : B'.Genuine A where
  config o m := by rw [hc, h.config]
  mint o m := by
    have hm := hd.mints (A.associatedAddress o m)
    rw [h.mint] at hm
    exact Option.not_isSome_iff_eq_none.mp (by simp [hm])
  account {o m t} ht := by
    have hk := hd.accounts (A.associatedAddress o m)
    rw [ht] at hk
    obtain ⟨t₀, ht₀⟩ := Option.isSome_iff_exists.mp hk.symm
    obtain ⟨rfl, rfl⟩ := h.account ht₀
    obtain ⟨n, hn⟩ := hev.holds (⟨t₀.amount, ht₀⟩ : B.tokens.Holds _ t₀.mint t₀.owner)
    obtain rfl := Option.some.inj (hn.symm.trans ht)
    exact ⟨rfl, rfl⟩

/-- The program's addresses are not associated ones. -/
def AddressScheme.Apart (A : AddressScheme Key) : Prop :=
  ∀ k, A.IsProgramAddress k → ∀ o m, k ≠ A.associatedAddress o m

/-- All signatures are made with keys, which derived addresses do not have. -/
def Call.Keyed (A : AddressScheme Key) (call : Call Key) : Prop :=
  ∀ k ∈ call.signers, ¬ A.IsProgramAddress k ∧ ∀ o m, k ≠ A.associatedAddress o m

theorem Call.Keyed.admissible {call : Call Key} (h : call.Keyed A) : call.Admissible A :=
  fun k hk => (h k hk).1

variable [DecidableEq Key] {signers : List Key} {call : Call Key} {calls : List (Call Key)}

namespace Bank.Genuine

variable (h : B.Genuine A)
include h

/-! ## Token operations -/

theorem transfer {source mint destination authority : Key} {n : U64} {d : U8}
    (ht : B.cpi (B.tokens.transferChecked signers source mint destination authority n d) =
      .ok B') : B'.Genuine A := by
  obtain ⟨ht, hc⟩ := Bank.cpi_eq_ok.mp ht
  exact h.of_sameDomain hc (transferChecked_sameDomain ht)
    (transferChecked_posts ht).posts.evolves

theorem mintTo {mint destination authority : Key} {n : U64}
    (ht : B.cpi (B.tokens.mintTo signers mint destination authority n) = .ok B') :
    B'.Genuine A := by
  obtain ⟨ht, hc⟩ := Bank.cpi_eq_ok.mp ht
  exact h.of_sameDomain hc (mintTo_sameDomain ht) (mintTo_posts ht).posts.evolves

theorem burn {source mint authority : Key} {n : U64}
    (ht : B.cpi (B.tokens.burn signers source mint authority n) = .ok B') : B'.Genuine A := by
  obtain ⟨ht, hc⟩ := Bank.cpi_eq_ok.mp ht
  exact h.of_sameDomain hc (burn_sameDomain ht) (burn_posts ht).posts.evolves

/-- A new mint is at an address that is not an associated one. -/
theorem newMint {address authority : Key} {d : U8} (ha : ∀ o m, address ≠ A.associatedAddress o m)
    (ht : B.cpi (B.tokens.initializeMint signers address authority d) = .ok B') :
    B'.Genuine A := by
  obtain ⟨ht, hc⟩ := Bank.cpi_eq_ok.mp ht
  obtain ⟨-, -, -, hacc, -⟩ := initializeMint_posts ht
  have hch := initializeMint_changes ht
  refine ⟨fun o m => by rw [hc, h.config], fun o m => ?_, fun {o m t} hk => ?_⟩
  · rw [hch.mints fun hmem => ha o m (List.mem_singleton.mp hmem).symm, h.mint]
  · rw [hacc] at hk
    exact h.account hk

/-- A new associated account is the one that its address was derived for. -/
theorem create {address owner mint : Key} (hc : B'.configs = B.configs)
    (ht : createAssociated A.associatedAddress B.tokens address owner mint = .ok B'.tokens) :
    B'.Genuine A := by
  obtain ⟨rfl, -, hholds, hmints, -⟩ := createAssociated_posts ht
  have hch := createAssociated_changes ht
  refine ⟨fun o m => by rw [hc, h.config], fun o m => by rw [hmints, h.mint], ?_⟩
  intro o m t hk
  by_cases he : A.associatedAddress o m = A.associatedAddress owner mint
  · obtain ⟨rfl, rfl⟩ := A.associated_injective he
    obtain ⟨n, hn⟩ := hholds
    obtain rfl := Option.some.inj (hn.symm.trans hk)
    exact ⟨rfl, rfl⟩
  · rw [hch.accounts fun hmem => he (List.mem_singleton.mp hmem)] at hk
    exact h.account hk

theorem initAssociated {address mint authority : Key}
    (ht : Amm.initAssociated A B address mint authority = .ok B') : B'.Genuine A := by
  obtain ⟨_, -, ht⟩ := Outcome.bind_eq_ok.mp ht
  obtain ⟨ht, hc⟩ := Bank.cpi_eq_ok.mp ht
  exact h.create hc ht

theorem initAssociatedIfNeeded {address mint authority : Key}
    (ht : Amm.initAssociatedIfNeeded A B address mint authority = .ok B') : B'.Genuine A := by
  unfold Amm.initAssociatedIfNeeded at ht
  split_ifs at ht
  · exact h.initAssociated ht
  · simp only [Outcome.bind_eq_ok, Outcome.ok.injEq] at ht
    obtain ⟨_, -, _, -, _, -, _, -, rfl⟩ := ht
    exact h

/-! ## Configs -/

theorem setConfig (hk : ∀ o m, k ≠ A.associatedAddress o m) (cfg : Config Key) :
    (B.setConfig k cfg).Genuine A where
  config o m := by rw [Bank.configs_setConfig_of_ne (hk o m).symm, h.config]
  mint := h.mint
  account := h.account

omit [DecidableEq Key] in
/-- A config is not at an associated address. -/
theorem config_ne (hc : B.configs k = some cfg) (o m : Key) : k ≠ A.associatedAddress o m := by
  rintro rfl
  rw [h.config] at hc
  cases hc

/-! ## Instructions -/

theorem of_init (hA : A.Apart) {self : Initialize Key} {seed : U64} {feeBps : U16}
    {authority : Option Key}
    (hok : (Instruction.init self seed feeBps authority).process A B signers = .ok B') :
    B'.Genuine A := by
  have hs := init_spec hok
  unfold Instruction.process Initialize.tryAccounts Initialize.init initMint at hok
  simp only [Outcome.bind_eq_ok, Outcome.require_eq_ok, exists_and_left, exists_const,
    Outcome.ok.injEq] at hok
  obtain ⟨_, ⟨_, -, _, -, _, -, B₁, ⟨-, -, h₁⟩, B₂, h₂, B₃, h₃, B₄, h₄, -, -, rfl⟩, -, rfl⟩ := hok
  have hlp := hA self.mintLp ⟨_, _, hs.lpAddress⟩
  have hB₁ := h.newMint hlp h₁
  have hB₄ := ((hB₁.initAssociated h₂).initAssociated h₃).initAssociated h₄
  exact hB₄.setConfig (hA self.config ⟨_, _, hs.address⟩) _

theorem of_swap {self : Swap Key} {kind : SwapKind} {aToB : Bool}
    (hok : (Instruction.swap self kind aToB).process A B signers = .ok B') : B'.Genuine A := by
  obtain ⟨l, -, hok⟩ := Outcome.bind_eq_ok.mp hok
  unfold Swap.swap at hok
  simp only [Outcome.bind_eq_ok, Outcome.require_eq_ok, exists_and_left, exists_const] at hok
  obtain ⟨-, q, -, B₁, h₁, h₂⟩ := hok
  exact (h.transfer h₁).transfer h₂

theorem of_add {self : AddLiquidity Key} {a b minLp : U64}
    (hok : (Instruction.addLiquidity self a b minLp).process A B signers = .ok B') :
    B'.Genuine A := by
  obtain ⟨⟨B₁, l⟩, hl, hok⟩ := Outcome.bind_eq_ok.mp hok
  have hB₁ := h.initAssociatedIfNeeded (AddLiquidity.tryAccounts_eq_ok.mp hl).userLp
  unfold AddLiquidity.handle at hok
  simp only [Outcome.bind_eq_ok, Outcome.require_eq_ok, exists_and_left, exists_const] at hok
  obtain ⟨-, q, -, -, B₂, h₂, B₃, h₃, B₄, h₄, hok⟩ := hok
  have hB₄ := ((hB₁.transfer h₂).transfer h₃).mintTo h₄
  split_ifs at hok
  · exact hB₄.mintTo hok
  · obtain rfl := Outcome.ok.inj hok
    exact hB₄

theorem of_remove {self : RemoveLiquidity Key} {lpBurn minA minB : U64}
    (hok : (Instruction.removeLiquidity self lpBurn minA minB).process A B signers = .ok B') :
    B'.Genuine A := by
  obtain ⟨l, -, hok⟩ := Outcome.bind_eq_ok.mp hok
  unfold RemoveLiquidity.handle at hok
  simp only [Outcome.bind_eq_ok, Outcome.require_eq_ok, exists_and_left, exists_const] at hok
  obtain ⟨-, q, -, -, -, B₁, h₁, B₂, h₂, h₃⟩ := hok
  exact ((h.burn h₁).transfer h₂).transfer h₃

theorem of_token {ix : TokenInstruction Key} (hkey : ∀ k ∈ signers, ∀ o m, k ≠ A.associatedAddress o m)
    (hok : ix.process A B signers = .ok B') : B'.Genuine A := by
  cases ix with
  | transferChecked source mint destination authority amount decimals => exact h.transfer hok
  | mintTo mint destination authority amount => exact h.mintTo hok
  | burn source mint authority amount => exact h.burn hok
  | initializeMint address mintAuthority decimals =>
    obtain ⟨_, -, hok⟩ := Outcome.bind_eq_ok.mp hok
    have hs := (initializeMint_posts (Bank.cpi_eq_ok.mp hok).1).1
    exact h.newMint (hkey address hs) hok
  | createAssociated address owner mint =>
    obtain ⟨_, -, hok⟩ := Outcome.bind_eq_ok.mp hok
    obtain ⟨ht, hc⟩ := Bank.cpi_eq_ok.mp hok
    exact h.create hc ht

/-- A call signed with keys keeps associated addresses genuine. -/
theorem of_exec (hA : A.Apart) (hkey : call.Keyed A) (hok : exec A B call = .ok B') :
    B'.Genuine A := by
  obtain ⟨signers, op⟩ := call
  cases op with
  | token ix => exact h.of_token (fun k hk => (hkey k hk).2) hok
  | amm ix =>
    cases ix with
    | init self seed feeBps authority => exact h.of_init hA hok
    | addLiquidity self a b minLp => exact h.of_add hok
    | removeLiquidity self lpBurn minA minB => exact h.of_remove hok
    | swap self kind aToB => exact h.of_swap hok
    | updateFee self newFeeBps =>
      obtain ⟨cfg, hauth, -, rfl⟩ := updateFee_eq_ok.mp hok
      exact h.setConfig (h.config_ne hauth.config) _
    | setLocked self locked =>
      obtain ⟨cfg, hauth, rfl⟩ := setLocked_eq_ok.mp hok
      exact h.setConfig (h.config_ne hauth.config) _
    | updateAuthority self newAuthority =>
      obtain ⟨cfg, hauth, rfl⟩ := updateAuthority_eq_ok.mp hok
      exact h.setConfig (h.config_ne hauth.config) _

end Bank.Genuine

/-! ## Runs -/

/-- Reached by calls signed with keys, from a bank without pools whose associated addresses are
genuine. -/
def Rooted (A : AddressScheme Key) (B : Bank Key) : Prop :=
  ∃ B₀ calls, Genesis B₀ ∧ B₀.Genuine A ∧ (∀ call ∈ calls, call.Keyed A) ∧
    B = run (exec A) B₀ calls

theorem Rooted.reachable (h : Rooted A B) : Reachable A B := by
  obtain ⟨B₀, calls, hg, -, hkey, rfl⟩ := h
  exact ⟨B₀, calls, hg, fun call hcall => (hkey call hcall).admissible, rfl⟩

theorem Bank.Genuine.of_run (h : B.Genuine A) (hA : A.Apart) (hkey : ∀ call ∈ calls, call.Keyed A) :
    (run (exec A) B calls).Genuine A := by
  have hstep : ∀ B₁ call B₂, Bank.Genuine A B₁ → call.Keyed A → exec A B₁ call = .ok B₂ →
      Bank.Genuine A B₂ := fun _ _ _ hB hkey hok => hB.of_exec hA hkey hok
  exact run_induction hstep h hkey

theorem Rooted.genuine (hA : A.Apart) (h : Rooted A B) : B.Genuine A := by
  obtain ⟨B₀, calls, -, hB₀, hkey, rfl⟩ := h
  exact hB₀.of_run hA hkey

theorem Rooted.of_run (h : Rooted A B) (hkey : ∀ call ∈ calls, call.Keyed A) :
    Rooted A (run (exec A) B calls) := by
  obtain ⟨B₀, calls₀, hg, hB₀, hkey₀, rfl⟩ := h
  refine ⟨B₀, calls₀ ++ calls, hg, hB₀, ?_, (run_append ..).symm⟩
  intro call hcall
  rcases List.mem_append.mp hcall with h | h
  · exact hkey₀ call h
  · exact hkey call h

namespace Demo

theorem apart : Addr.scheme.Apart := by
  rintro k ⟨s, b, h⟩ o m rfl
  simp only [Addr.scheme] at h
  split_ifs at h
  cases s <;> cases h

theorem byAlice_keyed (op : Op Addr) : (byAlice op).Keyed Addr.scheme := by
  intro k hk
  refine ⟨byAlice_admissible op k hk, fun o m he => ?_⟩
  subst he
  simp [byAlice, Addr.scheme, alice, mintX, mintY] at hk

theorem bank_rooted : Rooted Addr.scheme bank := by
  have hempty : (Bank.ofTokens .empty : Bank Addr).Genuine Addr.scheme :=
    ⟨fun _ _ => rfl, fun _ _ => rfl, fun ht => by cases ht⟩
  have hroot : Rooted Addr.scheme (.ofTokens .empty) :=
    ⟨_, [], genesis, hempty, List.forall_mem_nil _, rfl⟩
  have hsetup : ∀ call ∈ setup ++ [creation, firstDeposit], call.Keyed Addr.scheme := by
    intro call hcall
    simp only [setup, endow, List.mem_append, List.mem_cons, List.not_mem_nil, or_false] at hcall
    rcases hcall with (((((rfl | rfl) | rfl | rfl) | rfl | rfl) | rfl | rfl) | rfl | rfl) |
      rfl | rfl <;> exact byAlice_keyed _
  exact hroot.of_run hsetup

end Demo

end Amm
