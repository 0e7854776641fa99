import ToyAmm.TokenFacts

/-!
# Every token operation is a posting

`Posts` is a debit of one account and a credit of another in tokens of one mint, with the supply
that follows. `transferChecked_posts`, `mintTo_posts`, `burn_posts`, `initializeMint_posts` and
`createAssociated_posts` say which posting each operation is and who authorised it; the lemmas
ending in `_ok` say when an operation goes through. A posting keeps `SupplyBacked`, and a posting
that `c` did not authorise `Spares` what is `c`'s.
-/

open Checked

namespace Token

namespace Ledger

variable {Key : Type} [DecidableEq Key] {L L' L'' : Ledger Key} {signers : List Key}

/-- The amount `n`, booked at the account `k` in tokens of the mint `m`. -/
def entry (m k : Key) (n : ℕ) (m' k' : Key) : ℕ := if m' = m ∧ k' = k then n else 0

theorem entry_self (m k : Key) (n : ℕ) : entry m k n m k = n := if_pos ⟨rfl, rfl⟩

theorem entry_of_mint_ne {m m' : Key} (h : m' ≠ m) (k : Key) (n : ℕ) (k' : Key) :
    entry m k n m' k' = 0 := if_neg fun hk => h hk.1

theorem entry_of_ne {k k' : Key} (h : k' ≠ k) (m : Key) (n : ℕ) (m' : Key) :
    entry m k n m' k' = 0 := if_neg fun hk => h hk.2

theorem of_entry_pos {m k m' k' : Key} {n : ℕ} (h : 0 < entry m k n m' k') : m' = m ∧ k' = k := by
  by_contra hne
  rw [entry, if_neg hne] at h
  exact absurd h (Nat.lt_irrefl 0)

@[simp] theorem entry_zero (m k m' k' : Key) : entry m k 0 m' k' = 0 := by
  unfold entry
  split_ifs <;> rfl

theorem sum_entry {m k : Key} {n : ℕ} {K : Finset Key} (hk : k ∈ K) (m' : Key) :
    ∑ k' ∈ K, entry m k n m' k' = if m' = m then n else 0 := by
  by_cases hm : m' = m
  · subst hm
    rw [if_pos rfl, Finset.sum_eq_single_of_mem k hk fun k' _ hne => entry_of_ne hne m' n m',
      entry_self]
  · rw [if_neg hm]
    exact Finset.sum_eq_zero fun k' _ => entry_of_mint_ne hm k n k'

/-- `L'` is `L` after a debit of `p` at `src` and a credit of `q` at `dst`, both in tokens of
`mint`; the supply of `mint` moves by what the two differ. -/
structure Posts (L L' : Ledger Key) (mint src : Key) (p : ℕ) (dst : Key) (q : ℕ) : Prop where
  evolves : Evolves L L'
  le : p ≤ L.balance mint src
  balance : ∀ m k, L'.balance m k + entry mint src p m k = L.balance m k + entry mint dst q m k
  supply : ∀ m,
    L'.supply m + (if m = mint then p else 0) = L.supply m + (if m = mint then q else 0)

/-- Whoever controls `src` and the mint has not lost by a posting made without `c`. -/
structure Spares (c : Key) (L L' : Ledger Key) : Prop where
  evolves : Evolves L L'
  balance : ∀ {k m}, L.Holds k m c → L.balance m k ≤ L'.balance m k
  supply : ∀ {m d}, L.IsMint m (some c) d → L'.supply m ≤ L.supply m

theorem Spares.refl (c : Key) (L : Ledger Key) : Spares c L L :=
  ⟨.refl L, fun _ => le_rfl, fun _ => le_rfl⟩

theorem Spares.trans {c : Key} (h : Spares c L L') (h' : Spares c L' L'') : Spares c L L'' where
  evolves := h.evolves.trans h'.evolves
  balance hk := (h.balance hk).trans (h'.balance (h.evolves.holds hk))
  supply hm := (h'.supply (h.evolves.isMint hm)).trans (h.supply hm)

section Reading

variable {mint src dst m k : Key} {p q : ℕ}

theorem Posts.balance_of_mint_ne (h : Posts L L' mint src p dst q) (hm : m ≠ mint) :
    L'.balance m k = L.balance m k := by
  have hb := h.balance m k
  rwa [entry_of_mint_ne hm, entry_of_mint_ne hm] at hb

theorem Posts.balance_dst (h : Posts L L' mint src p dst q) (hne : dst ≠ src) :
    L'.balance mint dst = L.balance mint dst + q := by
  have hb := h.balance mint dst
  rwa [entry_self, entry_of_ne hne] at hb

theorem Posts.supply_of_ne (h : Posts L L' mint src p dst q) (hm : m ≠ mint) :
    L'.supply m = L.supply m := by
  have hs := h.supply m
  rwa [if_neg hm, if_neg hm] at hs

/-- A transfer changes no supply. -/
theorem Posts.supply_eq (h : Posts L L' mint src p dst p) (m : Key) : L'.supply m = L.supply m :=
  Nat.add_right_cancel (h.supply m)

/-- A posting of nothing moves nothing. -/
theorem Posts.balance_eq (h : Posts L L' mint src 0 dst 0) (m k : Key) :
    L'.balance m k = L.balance m k := by
  have hb := h.balance m k
  rwa [entry_zero, entry_zero] at hb

end Reading

/-- A posting leaves all balances backed by the supply: over a set of accounts that contains both of
its own, it changes the two sides equally. -/
theorem Posts.supplyBacked {mint src dst : Key} {p q : ℕ} (h : Posts L L' mint src p dst q)
    (hb : L.SupplyBacked) : L'.SupplyBacked := by
  intro m K
  set K' := insert src (insert dst K) with hK'
  have hsub : K ⊆ K' := fun k hk => Finset.mem_insert_of_mem (Finset.mem_insert_of_mem hk)
  have hsum : ∑ k ∈ K', (L'.balance m k + entry mint src p m k) =
      ∑ k ∈ K', (L.balance m k + entry mint dst q m k) :=
    Finset.sum_congr rfl fun k _ => h.balance m k
  rw [Finset.sum_add_distrib, Finset.sum_add_distrib, sum_entry (by simp [hK']),
    sum_entry (by simp [hK'])] at hsum
  have hle : ∑ k ∈ K, L'.balance m k ≤ ∑ k ∈ K', L'.balance m k :=
    Finset.sum_le_sum_of_subset hsub
  have hold := hb m K'
  have hsup := h.supply m
  omega

/-- A posting spares `c` if it debits no account of `c` and does not add to a supply of `c`'s. -/
theorem Posts.spares {c mint src dst : Key} {p q : ℕ} (h : Posts L L' mint src p dst q)
    (hsrc : L.Holds src mint c → p = 0) (hmint : ∀ d, L.IsMint mint (some c) d → q ≤ p) :
    Spares c L L' where
  evolves := h.evolves
  balance {k m} hk := by
    have hbal := h.balance m k
    have hp : entry mint src p m k = 0 := by
      by_cases hm : m = mint
      · by_cases hs : k = src
        · subst hm hs
          rw [hsrc hk, entry_zero]
        · exact entry_of_ne hs _ _ _
      · exact entry_of_mint_ne hm _ _ _
    omega
  supply {m d} hm := by
    have hsup := h.supply m
    by_cases hmm : m = mint
    · subst hmm
      have := hmint d hm
      simp only [if_true] at hsup
      omega
    · simp only [if_neg hmm] at hsup
      omega

/-- Only the authorities in `K` have moved anything out of an account or added to a supply. -/
structure Confined (K : List Key) (L L' : Ledger Key) : Prop where
  evolves : Evolves L L'
  backed : L.SupplyBacked → L'.SupplyBacked
  spares : ∀ {c}, c ∉ K → Spares c L L'

theorem Confined.refl (K : List Key) (L : Ledger Key) : Confined K L L :=
  ⟨.refl L, id, fun _ => .refl _ L⟩

theorem Confined.trans {K : List Key} (h : Confined K L L') (h' : Confined K L' L'') :
    Confined K L L'' where
  evolves := h.evolves.trans h'.evolves
  backed := h'.backed ∘ h.backed
  spares hc := (h.spares hc).trans (h'.spares hc)

theorem Confined.mono {K K' : List Key} (h : Confined K L L') (hK : K ⊆ K') : Confined K' L L' :=
  ⟨h.evolves, h.backed, fun hc => h.spares fun hk => hc (hK hk)⟩

/-! ## What each operation posts -/

theorem validateOwner_eq_ok {expected authority : Key} {u : PUnit} :
    validateOwner expected authority signers = .ok u ↔
      expected = authority ∧ authority ∈ signers := by
  rw [validateOwner, Outcome.bind_eq_ok]
  simp only [Outcome.require_eq_ok, exists_and_left, exists_const]

/-- A transfer: its authority owns the source and has signed. -/
structure TransferSpec (L L' : Ledger Key) (signers : List Key)
    (source mint destination authority : Key) (n : ℕ) : Prop where
  holds : L.Holds source mint authority
  dest : ∃ o, L.Holds destination mint o
  signed : authority ∈ signers
  posts : Posts L L' mint source n destination n

theorem transferChecked_posts {source mint destination authority : Key} {n : BitVec 64}
    {d : BitVec 8}
    (h : L.transferChecked signers source mint destination authority n d = .ok L') :
    TransferSpec L L' signers source mint destination authority n.toNat := by
  unfold transferChecked at h
  simp only [Outcome.bind_eq_ok, Outcome.okOr_eq_ok, Outcome.require_eq_ok, validateOwner_eq_ok,
    exists_and_left, exists_const] at h
  obtain ⟨src, hsrc, dst, hdst, hle, hmm, hm, M, -, -, ⟨howner, hsigned⟩, h⟩ := h
  obtain ⟨sm, so, sa⟩ := src
  obtain ⟨dm, dow, da⟩ := dst
  simp only at hmm hm howner hle
  subst hmm hm howner
  have hbs := balance_of_account hsrc
  have hbd := balance_of_account hdst
  refine ⟨⟨sa, hsrc⟩, ⟨dow, da, hdst⟩, hsigned, ?_⟩
  by_cases hsd : source = destination
  · rw [if_pos hsd] at h
    obtain rfl := Outcome.ok.inj h
    exact ⟨.refl L, hbs ▸ hle, fun m k => by rw [hsd], fun m => rfl⟩
  rw [if_neg hsd] at h
  simp only [Outcome.bind_eq_ok, Outcome.okOr_eq_ok, checkedSub_eq_some, checkedAdd_eq_some,
    Outcome.ok.injEq] at h
  obtain ⟨sa', hsa, da', hda, rfl⟩ := h
  refine ⟨?_, hbs ▸ hle, ?_, fun m => rfl⟩
  · have hev : Evolves L (L.setAccount source ⟨sm, so, sa'⟩) := evolves_setAccount hsrc rfl rfl
    refine hev.trans (evolves_setAccount (t := ⟨sm, dow, da⟩) ?_ rfl rfl)
    rw [accounts_setAccount_of_ne (Ne.symm hsd), hdst]
  · intro m k
    simp only [balance_setAccount, entry]
    by_cases hm : m = sm
    · subst hm
      by_cases hkd : k = destination
      · subst hkd
        simp only [if_true, true_and, if_neg (Ne.symm hsd)]
        omega
      · by_cases hks : k = source
        · subst hks
          simp only [if_true, true_and, if_neg hsd]
          omega
        · simp [hkd, hks]
    · have hm' : ¬ sm = m := fun e => hm e.symm
      by_cases hkd : k = destination
      · subst hkd
        simp [hm, hm', balance_of_mint_ne hdst hm']
      · by_cases hks : k = source
        · subst hks
          simp [hm, hm', hkd, balance_of_mint_ne hsrc hm']
        · simp [hm, hkd, hks]

/-- A transfer is confined to its authority. -/
theorem TransferSpec.confined {K : List Key} {source mint destination authority : Key} {n : ℕ}
    (h : TransferSpec L L' signers source mint destination authority n) (hK : authority ∈ K) :
    Confined K L L' := by
  refine ⟨h.posts.evolves, h.posts.supplyBacked, fun hc => h.posts.spares ?_ ?_⟩
  · intro hk
    obtain rfl := h.holds.owner_eq hk
    exact absurd hK hc
  · intro _ _
    exact le_rfl

/-- A mint: it is signed by the authority of the mint. -/
structure MintSpec (L L' : Ledger Key) (signers : List Key) (mint destination authority : Key)
    (n : ℕ) : Prop where
  isMint : ∃ d, L.IsMint mint (some authority) d
  holds : ∃ o, L.Holds destination mint o
  signed : authority ∈ signers
  posts : Posts L L' mint destination 0 destination n

theorem mintTo_posts {mint destination authority : Key} {n : BitVec 64}
    (h : L.mintTo signers mint destination authority n = .ok L') :
    MintSpec L L' signers mint destination authority n.toNat := by
  unfold mintTo at h
  simp only [Outcome.bind_eq_ok, Outcome.okOr_eq_ok, Outcome.require_eq_ok, validateOwner_eq_ok,
    checkedAdd_eq_some, exists_and_left, exists_const, Outcome.ok.injEq] at h
  obtain ⟨⟨dm, o, da⟩, hdst, hm, ⟨ma, s, d⟩, hM, auth, hauth, ⟨howner, hsigned⟩, da', hda, s', hs,
    rfl⟩ := h
  simp only at hm hauth hda hs
  subst hm hauth howner
  have hbd := balance_of_account hdst
  have hsm : L.supply mint = s.toNat := supply_of_mint hM
  refine ⟨⟨d, s, hM⟩, ⟨o, da, hdst⟩, hsigned, ?_, Nat.zero_le _, ?_, ?_⟩
  · have hev : Evolves L (L.setAccount destination ⟨mint, o, da'⟩) :=
      evolves_setAccount hdst rfl rfl
    exact hev.trans (evolves_setMint (M := ⟨some auth, s, d⟩) hM rfl rfl)
  · intro m k
    rw [balance_setMint, balance_setAccount, entry_zero, entry]
    by_cases hk : k = destination
    · subst hk
      by_cases hm : m = mint
      · subst hm
        simp only [if_true, and_self]
        omega
      · have hm' : ¬ mint = m := fun e => hm e.symm
        simp [hm, hm', balance_of_mint_ne hdst hm']
    · simp [hk]
  · intro m
    rw [supply_setMint]
    by_cases hm : m = mint
    · subst hm
      simp only [if_true]
      omega
    · simp [hm]

theorem MintSpec.confined {K : List Key} {mint destination authority : Key} {n : ℕ}
    (h : MintSpec L L' signers mint destination authority n) (hK : authority ∈ K) :
    Confined K L L' := by
  refine ⟨h.posts.evolves, h.posts.supplyBacked, fun hc => h.posts.spares ?_ ?_⟩
  · intro _
    rfl
  · intro d' hd'
    obtain ⟨d, hd⟩ := h.isMint
    obtain rfl := Option.some.inj (hd.authority_eq hd')
    exact absurd hK hc

/-- A burn: its authority owns the source and has signed. -/
structure BurnSpec (L L' : Ledger Key) (signers : List Key) (source mint authority : Key)
    (n : ℕ) : Prop where
  holds : L.Holds source mint authority
  signed : authority ∈ signers
  posts : Posts L L' mint source n source 0

theorem burn_posts {source mint authority : Key} {n : BitVec 64}
    (h : L.burn signers source mint authority n = .ok L') :
    BurnSpec L L' signers source mint authority n.toNat := by
  unfold burn at h
  simp only [Outcome.bind_eq_ok, Outcome.okOr_eq_ok, Outcome.require_eq_ok, validateOwner_eq_ok,
    checkedSub_eq_some, exists_and_left, exists_const, Outcome.ok.injEq] at h
  obtain ⟨⟨sm, so, sa⟩, hsrc, ⟨ma, s, d⟩, hM, hle, hm, ⟨howner, hsigned⟩, sa', hsa, s', hs, rfl⟩ := h
  simp only at hm howner hsa hs
  subst hm howner
  have hbs := balance_of_account hsrc
  have hsm : L.supply mint = s.toNat := supply_of_mint hM
  refine ⟨⟨sa, hsrc⟩, hsigned, ?_, hbs ▸ hle, ?_, ?_⟩
  · have hev : Evolves L (L.setAccount source ⟨mint, so, sa'⟩) := evolves_setAccount hsrc rfl rfl
    exact hev.trans (evolves_setMint (M := ⟨ma, s, d⟩) hM rfl rfl)
  · intro m k
    rw [balance_setMint, balance_setAccount, entry_zero, entry]
    by_cases hk : k = source
    · subst hk
      by_cases hm : m = mint
      · subst hm
        simp only [if_true, and_self]
        omega
      · have hm' : ¬ mint = m := fun e => hm e.symm
        simp [hm, hm', balance_of_mint_ne hsrc hm']
    · simp [hk]
  · intro m
    rw [supply_setMint]
    by_cases hm : m = mint
    · subst hm
      simp only [if_true]
      omega
    · simp [hm]

theorem BurnSpec.confined {K : List Key} {source mint authority : Key} {n : ℕ}
    (h : BurnSpec L L' signers source mint authority n) (hK : authority ∈ K) :
    Confined K L L' := by
  refine ⟨h.posts.evolves, h.posts.supplyBacked, fun hc => h.posts.spares ?_ ?_⟩
  · intro hk
    obtain rfl := h.holds.owner_eq hk
    exact absurd hK hc
  · intro _ _
    exact Nat.zero_le _

/-- A posting of nothing. -/
theorem Posts.of_eq (he : Evolves L L') (hb : L'.balance = L.balance) (hs : L'.supply = L.supply)
    (m k : Key) : Posts L L' m k 0 k 0 :=
  ⟨he, Nat.zero_le _, fun m' k' => by rw [hb], fun m' => by rw [hs]⟩

theorem Posts.confined_zero {K : List Key} {mint k : Key} (h : Posts L L' mint k 0 k 0) :
    Confined K L L' :=
  ⟨h.evolves, h.supplyBacked, fun _ => h.spares (fun _ => rfl) fun _ _ => le_rfl⟩

theorem initializeMint_posts {address authority : Key} {d : BitVec 8}
    (h : L.initializeMint signers address authority d = .ok L') :
    address ∈ signers ∧ L.vacant address = true ∧ L'.IsMint address (some authority) d ∧
      L'.accounts = L.accounts ∧ Posts L L' address address 0 address 0 := by
  unfold initializeMint at h
  simp only [Outcome.bind_eq_ok, Outcome.require_eq_ok, exists_and_left, exists_const,
    Outcome.ok.injEq] at h
  obtain ⟨hv, hs, rfl⟩ := h
  obtain ⟨hm, -⟩ := vacant_iff.mp hv
  refine ⟨hs, hv, ⟨0, mints_setMint_self _⟩, rfl, Posts.of_eq (evolves_setMint_new hm) rfl ?_ _ _⟩
  funext m
  rw [supply_setMint]
  split_ifs with hma
  · subst hma
    simp [supply, hm]
  · rfl

theorem createAssociated_posts {ata : Key → Key → Key} {address owner mint : Key}
    (h : createAssociated ata L address owner mint = .ok L') :
    address = ata owner mint ∧ L.vacant address = true ∧ L'.Holds address mint owner ∧
      L'.mints = L.mints ∧ Posts L L' mint address 0 address 0 := by
  unfold createAssociated at h
  simp only [Outcome.bind_eq_ok, Outcome.okOr_eq_ok, Outcome.require_eq_ok, exists_and_left,
    exists_const, Outcome.ok.injEq] at h
  obtain ⟨ha, hv, M, hM, rfl⟩ := h
  obtain ⟨-, hacc⟩ := vacant_iff.mp hv
  refine ⟨ha, hv, ⟨0, accounts_setAccount_self _⟩, rfl,
    Posts.of_eq (evolves_setAccount_new hacc) ?_ rfl _ _⟩
  funext m k
  rw [balance_setAccount]
  split_ifs with hk hm
  · subst hk
    simp [balance, hacc]
  · subst hk
    simp [balance, hacc]
  · rfl

/-! ## When an operation goes through -/

theorem validateOwner_ok {authority : Key} (h : authority ∈ signers) :
    validateOwner authority authority signers = .ok ⟨⟩ :=
  validateOwner_eq_ok.mpr ⟨rfl, h⟩

/-- A transfer between accounts of one mint goes through if the source covers it. -/
theorem transferChecked_ok (hb : L.SupplyBacked) {source mint destination authority o : Key}
    {n : BitVec 64} {a : Option Key} {d : BitVec 8} (hsrc : L.Holds source mint authority)
    (hdst : L.Holds destination mint o) (hM : L.IsMint mint a d) (hs : authority ∈ signers)
    (hn : n.toNat ≤ L.balance mint source) :
    ∃ L', L.transferChecked signers source mint destination authority n d = .ok L' := by
  obtain ⟨sa, hsa, hsb⟩ := hsrc.account
  obtain ⟨da, hda, hdb⟩ := hdst.account
  obtain ⟨s, hMs⟩ := hM
  have hle : n ≤ sa := by rw [BitVec.le_def]; omega
  unfold transferChecked
  rw [hsa, hda, hMs]
  simp only [Outcome.okOr_some, Outcome.ok_bind, Outcome.require_pos hle, Outcome.require_pos,
    validateOwner_ok hs]
  by_cases hsd : source = destination
  · exact ⟨L, if_pos hsd⟩
  have hsum := hb.add_le mint hsd
  have hlt := L.supply_lt mint
  have hsub : n.toNat ≤ sa.toNat := by omega
  have hadd : da.toNat + n.toNat < 2 ^ 64 := by omega
  rw [if_neg hsd, checkedSub, if_pos hsub, fit_of_lt (by omega), checkedAdd, fit_of_lt hadd]
  exact ⟨_, rfl⟩

theorem mintTo_ok (hb : L.SupplyBacked) {mint destination authority o : Key} {n : BitVec 64}
    {d : BitVec 8} (hdst : L.Holds destination mint o) (hM : L.IsMint mint (some authority) d)
    (hs : authority ∈ signers) (hn : L.supply mint + n.toNat < 2 ^ 64) :
    ∃ L', L.mintTo signers mint destination authority n = .ok L' := by
  obtain ⟨da, hda, hdb⟩ := hdst.account
  obtain ⟨s, hMs, hsv⟩ := hM.mint
  have hle := hb.balance_le mint destination
  have hadd : da.toNat + n.toNat < 2 ^ 64 := by omega
  have hadd' : s.toNat + n.toNat < 2 ^ 64 := by omega
  unfold mintTo
  rw [hda, hMs]
  simp only [Outcome.okOr_some, Outcome.ok_bind, Outcome.require_pos, validateOwner_ok hs]
  rw [checkedAdd, fit_of_lt hadd, checkedAdd, fit_of_lt hadd']
  exact ⟨_, rfl⟩

theorem burn_ok (hb : L.SupplyBacked) {source mint authority : Key} {n : BitVec 64}
    {a : Option Key} {d : BitVec 8} (hsrc : L.Holds source mint authority) (hM : L.IsMint mint a d)
    (hs : authority ∈ signers) (hn : n.toNat ≤ L.balance mint source) :
    ∃ L', L.burn signers source mint authority n = .ok L' := by
  obtain ⟨sa, hsa, hsb⟩ := hsrc.account
  obtain ⟨s, hMs, hsv⟩ := hM.mint
  have hle := hb.balance_le mint source
  have hsub : n.toNat ≤ sa.toNat := by omega
  have hsub' : n.toNat ≤ s.toNat := by omega
  have hle' : n ≤ sa := by rw [BitVec.le_def]; exact hsub
  unfold burn
  rw [hsa, hMs]
  simp only [Outcome.okOr_some, Outcome.ok_bind, Outcome.require_pos hle', Outcome.require_pos,
    validateOwner_ok hs]
  rw [checkedSub, if_pos hsub, fit_of_lt (by omega), checkedSub, if_pos hsub', fit_of_lt (by omega)]
  exact ⟨_, rfl⟩

theorem createAssociated_ok {ata : Key → Key → Key} {owner mint : Key} {a : Option Key}
    {d : BitVec 8} (hv : L.vacant (ata owner mint) = true) (hM : L.IsMint mint a d) :
    ∃ L', createAssociated ata L (ata owner mint) owner mint = .ok L' := by
  obtain ⟨s, hMs⟩ := hM
  unfold createAssociated
  rw [hMs]
  simp only [Outcome.okOr_some, Outcome.ok_bind, Outcome.require_pos, hv]
  exact ⟨_, rfl⟩

end Ledger

end Token
