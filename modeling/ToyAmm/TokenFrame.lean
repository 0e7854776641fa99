import ToyAmm.TokenPosting

/-!
# What token operations leave alone

`ChangesOnly K M` says that a ledger differs from another at most at the accounts in `K` and the
mints in `M`. Every operation of the token program changes only what it names. A transfer in
addition reads only what it names (`transferChecked_local`), so two transfers without an account in
common can be exchanged (`transferChecked_comm`).
-/

open Checked

namespace Token

namespace Ledger

variable {Key : Type} {L L' L'' : Ledger Key} {signers : List Key}

/-- At most the accounts in `K` and the mints in `M` differ. -/
structure ChangesOnly (K M : List Key) (L L' : Ledger Key) : Prop where
  accounts : ∀ {k}, k ∉ K → L'.accounts k = L.accounts k
  mints : ∀ {m}, m ∉ M → L'.mints m = L.mints m

theorem ChangesOnly.refl (K M : List Key) (L : Ledger Key) : ChangesOnly K M L L :=
  ⟨fun _ => rfl, fun _ => rfl⟩

theorem ChangesOnly.trans {K M : List Key} (h : ChangesOnly K M L L')
    (h' : ChangesOnly K M L' L'') : ChangesOnly K M L L'' :=
  ⟨fun hk => (h'.accounts hk).trans (h.accounts hk), fun hm => (h'.mints hm).trans (h.mints hm)⟩

theorem ChangesOnly.mono {K K' M M' : List Key} (h : ChangesOnly K M L L') (hK : K ⊆ K')
    (hM : M ⊆ M') : ChangesOnly K' M' L L' :=
  ⟨fun hk => h.accounts fun hk' => hk (hK hk'), fun hm => h.mints fun hm' => hm (hM hm')⟩

variable [DecidableEq Key]

theorem ChangesOnly.balance {K M : List Key} {k : Key} (h : ChangesOnly K M L L') (hk : k ∉ K)
    (m : Key) : L'.balance m k = L.balance m k := by
  unfold Ledger.balance
  rw [h.accounts hk]

omit [DecidableEq Key] in
theorem ChangesOnly.supply {K M : List Key} {m : Key} (h : ChangesOnly K M L L') (hm : m ∉ M) :
    L'.supply m = L.supply m := by
  unfold Ledger.supply
  rw [h.mints hm]

theorem changesOnly_setAccount (L : Ledger Key) (k : Key) (t : Account Key) :
    ChangesOnly [k] [] L (L.setAccount k t) :=
  ⟨fun hk => accounts_setAccount_of_ne (List.ne_of_not_mem_cons hk) t, fun _ => rfl⟩

theorem changesOnly_setMint (L : Ledger Key) (m : Key) (M : Mint Key) :
    ChangesOnly [] [m] L (L.setMint m M) :=
  ⟨fun _ => rfl, fun hm => mints_setMint_of_ne (List.ne_of_not_mem_cons hm) M⟩

/-! ## What each operation changes -/

theorem transferChecked_changes {source mint destination authority : Key} {n : BitVec 64}
    {d : BitVec 8}
    (h : L.transferChecked signers source mint destination authority n d = .ok L') :
    ChangesOnly [source, destination] [] L L' := by
  unfold transferChecked at h
  simp only [Outcome.bind_eq_ok, Outcome.okOr_eq_ok, Outcome.require_eq_ok, exists_and_left,
    exists_const] at h
  obtain ⟨src, -, dst, -, -, -, -, M, -, -, -, -, h⟩ := h
  by_cases hsd : source = destination
  · rw [if_pos hsd] at h
    obtain rfl := Outcome.ok.inj h
    exact .refl _ _ _
  · rw [if_neg hsd] at h
    simp only [Outcome.bind_eq_ok, Outcome.okOr_eq_ok, Outcome.ok.injEq] at h
    obtain ⟨sa, -, da, -, rfl⟩ := h
    exact ((changesOnly_setAccount _ _ _).mono (by simp) (by simp)).trans
      ((changesOnly_setAccount _ _ _).mono (by simp) (by simp))

theorem mintTo_changes {mint destination authority : Key} {n : BitVec 64}
    (h : L.mintTo signers mint destination authority n = .ok L') :
    ChangesOnly [destination] [mint] L L' := by
  unfold mintTo at h
  simp only [Outcome.bind_eq_ok, Outcome.okOr_eq_ok, Outcome.require_eq_ok, exists_and_left,
    exists_const, Outcome.ok.injEq] at h
  obtain ⟨dst, -, -, M, -, auth, -, -, -, da, -, s, -, rfl⟩ := h
  exact ((changesOnly_setAccount _ _ _).mono (by simp) (by simp)).trans
    ((changesOnly_setMint _ _ _).mono (by simp) (by simp))

theorem burn_changes {source mint authority : Key} {n : BitVec 64}
    (h : L.burn signers source mint authority n = .ok L') :
    ChangesOnly [source] [mint] L L' := by
  unfold burn at h
  simp only [Outcome.bind_eq_ok, Outcome.okOr_eq_ok, Outcome.require_eq_ok, exists_and_left,
    exists_const, Outcome.ok.injEq] at h
  obtain ⟨src, -, M, -, -, -, -, -, sa, -, s, -, rfl⟩ := h
  exact ((changesOnly_setAccount _ _ _).mono (by simp) (by simp)).trans
    ((changesOnly_setMint _ _ _).mono (by simp) (by simp))

theorem initializeMint_changes {address authority : Key} {d : BitVec 8}
    (h : L.initializeMint signers address authority d = .ok L') :
    ChangesOnly [] [address] L L' := by
  unfold initializeMint at h
  simp only [Outcome.bind_eq_ok, Outcome.require_eq_ok, exists_and_left, exists_const,
    Outcome.ok.injEq] at h
  obtain ⟨-, -, rfl⟩ := h
  exact changesOnly_setMint _ _ _

theorem createAssociated_changes {ata : Key → Key → Key} {address owner mint : Key}
    (h : createAssociated ata L address owner mint = .ok L') :
    ChangesOnly [address] [] L L' := by
  unfold createAssociated at h
  simp only [Outcome.bind_eq_ok, Outcome.okOr_eq_ok, Outcome.require_eq_ok, exists_and_left,
    exists_const, Outcome.ok.injEq] at h
  obtain ⟨-, -, M, -, rfl⟩ := h
  exact changesOnly_setAccount _ _ _

/-! ## Transfers without an account in common -/

theorem setAccount_comm {k k' : Key} (h : k ≠ k') (t t' : Account Key) :
    (L.setAccount k t).setAccount k' t' = (L.setAccount k' t').setAccount k t := by
  unfold setAccount
  rw [Function.update_comm h]

/-- A transfer between two accounts reads and writes nothing but them and the mint. -/
theorem transferChecked_local {source mint destination authority : Key} {n : BitVec 64}
    {d : BitVec 8} (hne : source ≠ destination)
    (h : L.transferChecked signers source mint destination authority n d = .ok L') :
    ∃ t t', L' = (L.setAccount source t).setAccount destination t' ∧
      ∀ N : Ledger Key, N.accounts source = L.accounts source →
        N.accounts destination = L.accounts destination → N.mints = L.mints →
        N.transferChecked signers source mint destination authority n d =
          .ok ((N.setAccount source t).setAccount destination t') := by
  unfold transferChecked at h
  simp only [Outcome.bind_eq_ok, Outcome.okOr_eq_ok, Outcome.require_eq_ok, exists_and_left,
    exists_const, if_neg hne, Outcome.ok.injEq] at h
  obtain ⟨src, hsrc, dst, hdst, hle, hmm, hm, M, hM, hd, u, hu, sa, hsa, da, hda, rfl⟩ := h
  refine ⟨_, _, rfl, ?_⟩
  intro N hs ht hmints
  unfold transferChecked
  simp only [Outcome.bind_eq_ok, Outcome.okOr_eq_ok, Outcome.require_eq_ok, exists_and_left,
    exists_const, if_neg hne, Outcome.ok.injEq]
  exact ⟨src, hs.trans hsrc, dst, ht.trans hdst, hle, hmm, hm, M, by rw [hmints, hM], hd, u, hu, sa,
    hsa, da, hda, rfl⟩

/-- Two transfers without an account in common can be exchanged: each finds its accounts as they
were, and the four writes are to four places. -/
theorem transferChecked_comm {s₁ m₁ d₁ a₁ s₂ m₂ d₂ a₂ : Key} {n₁ n₂ : BitVec 64} {e₁ e₂ : BitVec 8}
    {L₁ : Ledger Key} (h₁ : s₁ ≠ d₁) (h₂ : s₂ ≠ d₂) (hss : s₁ ≠ s₂) (hsd : s₁ ≠ d₂) (hds : d₁ ≠ s₂)
    (hdd : d₁ ≠ d₂) (ht₁ : L.transferChecked signers s₁ m₁ d₁ a₁ n₁ e₁ = .ok L₁)
    (ht₂ : L₁.transferChecked signers s₂ m₂ d₂ a₂ n₂ e₂ = .ok L') :
    ∃ L₂, L.transferChecked signers s₂ m₂ d₂ a₂ n₂ e₂ = .ok L₂ ∧
      L₂.transferChecked signers s₁ m₁ d₁ a₁ n₁ e₁ = .ok L' := by
  obtain ⟨t₁, t₁', rfl, hloc₁⟩ := transferChecked_local h₁ ht₁
  obtain ⟨t₂, t₂', rfl, hloc₂⟩ := transferChecked_local h₂ ht₂
  have hL := hloc₂ L
    (by rw [accounts_setAccount_of_ne hds.symm, accounts_setAccount_of_ne hss.symm])
    (by rw [accounts_setAccount_of_ne hdd.symm, accounts_setAccount_of_ne hsd.symm]) rfl
  have hL' := hloc₁ ((L.setAccount s₂ t₂).setAccount d₂ t₂')
    (by rw [accounts_setAccount_of_ne hsd, accounts_setAccount_of_ne hss])
    (by rw [accounts_setAccount_of_ne hdd, accounts_setAccount_of_ne hds]) rfl
  refine ⟨_, hL, ?_⟩
  rw [hL', setAccount_comm hds t₁' t₂, setAccount_comm hss t₁ t₂, setAccount_comm hdd t₁' t₂',
    setAccount_comm hsd t₁ t₂']

end Ledger

end Token
