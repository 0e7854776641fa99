import ToyAmm.AccountLocks

/-!
# Double-entry bookkeeping

`Tallies L L'`: from `L` to `L'` all accounts together gain what the supply gains. Every posting
does, so every instruction does (`exec_tallies`). As a call writes only the accounts that it
declares writable, it is enough to add up these: over any set of accounts that contains them, a run
of calls moves the sum of the balances by what it moves the supply, and not at all if no call
declares the mint itself writable.
-/

open Checked AmmMath Token Ledger Transition

namespace Token

namespace Ledger

variable {Key : Type} [DecidableEq Key] {L L' : Ledger Key} {m : Key} {K : Finset Key}

/-- From `L` to `L'` all accounts together gain what the supply gains: it is enough to add up the
balances of finitely many. -/
def Tallies (L L' : Ledger Key) : Prop :=
  ∀ m, ∃ K₀ : Finset Key, ∀ K, K₀ ⊆ K →
    ∑ k ∈ K, L'.balance m k + L.supply m = ∑ k ∈ K, L.balance m k + L'.supply m

theorem Tallies.of_eq (hb : ∀ m k, L'.balance m k = L.balance m k)
    (hs : ∀ m, L'.supply m = L.supply m) : Tallies L L' := by
  intro m
  refine ⟨∅, fun K _ => ?_⟩
  rw [hs m, Finset.sum_congr rfl fun k _ => hb m k]

theorem Posts.tallies {mint src dst : Key} {p q : ℕ} (h : Posts L L' mint src p dst q) :
    Tallies L L' := by
  intro m
  refine ⟨{src, dst}, fun K hK => ?_⟩
  have hsum : ∑ k ∈ K, (L'.balance m k + entry mint src p m k) =
      ∑ k ∈ K, (L.balance m k + entry mint dst q m k) :=
    Finset.sum_congr rfl fun k _ => h.balance m k
  rw [Finset.sum_add_distrib, Finset.sum_add_distrib, sum_entry (hK (by simp)),
    sum_entry (hK (by simp))] at hsum
  have hsup := h.supply m
  omega

/-- It is enough to add up the accounts that may have changed. -/
theorem Tallies.sum_eq (h : Tallies L L') (hK : ∀ k ∉ K, L'.balance m k = L.balance m k) :
    ∑ k ∈ K, L'.balance m k + L.supply m = ∑ k ∈ K, L.balance m k + L'.supply m := by
  obtain ⟨K₀, hsum⟩ := h m
  have hall := hsum (K ∪ K₀) Finset.subset_union_right
  have hrest : ∑ k ∈ (K ∪ K₀) \ K, L'.balance m k = ∑ k ∈ (K ∪ K₀) \ K, L.balance m k :=
    Finset.sum_congr rfl fun k hk => hK k (Finset.mem_sdiff.mp hk).2
  have hsub : K ⊆ K ∪ K₀ := Finset.subset_union_left
  rw [← Finset.sum_sdiff hsub, ← Finset.sum_sdiff hsub, hrest] at hall
  omega

end Ledger

end Token

namespace Amm

variable {Key : Type} [DecidableEq Key] {A : AddressScheme Key} {B B' : Bank Key} {c lp u : Key}
  {cfg : Config Key} {signers : List Key} {call : Call Key}

/-! ## Every instruction tallies -/

theorem SwapSpec.tallies {kind : SwapKind} {aToB : Bool} {rIn rOut : U64} {q : SwapAmounts}
    (h : SwapSpec A B B' signers c u kind aToB cfg rIn rOut q) : Tallies B.tokens B'.tokens := by
  intro m
  refine ⟨{A.associatedAddress u (cfg.mintIn aToB), A.associatedAddress c (cfg.mintIn aToB),
    A.associatedAddress u (cfg.mintOut aToB), A.associatedAddress c (cfg.mintOut aToB)},
    fun K hK => ?_⟩
  have hsum := Finset.sum_congr (rfl : K = K) fun k _ => h.balance m k
  simp only [Finset.insert_subset_iff, Finset.singleton_subset_iff] at hK
  obtain ⟨huin, hcin, huout, hcout⟩ := hK
  simp only [Finset.sum_add_distrib, sum_entry huin, sum_entry hcin, sum_entry huout,
    sum_entry hcout] at hsum
  have hsup := h.supply m
  omega

theorem AddSpec.tallies {a b minLp rX rY s : U64} {q : LiquidityQuote U64}
    (h : AddSpec A B B' signers c u a b minLp cfg lp rX rY s q) :
    Tallies B.tokens B'.tokens := by
  intro m
  refine ⟨{A.associatedAddress u cfg.mintX, A.associatedAddress u cfg.mintY,
    A.associatedAddress c cfg.mintX, A.associatedAddress c cfg.mintY,
    A.associatedAddress u lp, A.associatedAddress c lp}, fun K hK => ?_⟩
  have hsum := Finset.sum_congr (rfl : K = K) fun k _ => h.balance m k
  simp only [Finset.insert_subset_iff, Finset.singleton_subset_iff] at hK
  obtain ⟨hux, huy, hcx, hcy, hul, hcl⟩ := hK
  simp only [Finset.sum_add_distrib, sum_entry hux, sum_entry huy, sum_entry hcx, sum_entry hcy,
    sum_entry hul, sum_entry hcl] at hsum
  have hsup := h.supply m
  split_ifs at hsum hsup <;> omega

theorem RemoveSpec.tallies {n minA minB rX rY s : U64} {q : LiquidityQuote U64}
    (h : RemoveSpec A B B' signers c u n minA minB cfg lp rX rY s q) :
    Tallies B.tokens B'.tokens := by
  intro m
  refine ⟨{A.associatedAddress u cfg.mintX, A.associatedAddress u cfg.mintY,
    A.associatedAddress c cfg.mintX, A.associatedAddress c cfg.mintY,
    A.associatedAddress u lp}, fun K hK => ?_⟩
  have hsum := Finset.sum_congr (rfl : K = K) fun k _ => h.balance m k
  simp only [Finset.insert_subset_iff, Finset.singleton_subset_iff] at hK
  obtain ⟨hux, huy, hcx, hcy, hul⟩ := hK
  simp only [Finset.sum_add_distrib, sum_entry hux, sum_entry huy, sum_entry hcx, sum_entry hcy,
    sum_entry hul] at hsum
  have hsup := h.supply m
  omega

theorem token_tallies {ix : TokenInstruction Key} (h : ix.process A B signers = .ok B') :
    Tallies B.tokens B'.tokens := by
  cases ix with
  | transferChecked source mint destination authority n d =>
    exact (transferChecked_posts (Bank.cpi_eq_ok.mp h).1).posts.tallies
  | mintTo mint destination authority n =>
    exact (mintTo_posts (Bank.cpi_eq_ok.mp h).1).posts.tallies
  | burn source mint authority n =>
    exact (burn_posts (Bank.cpi_eq_ok.mp h).1).posts.tallies
  | initializeMint address authority d =>
    obtain ⟨_, -, h⟩ := Outcome.bind_eq_ok.mp h
    obtain ⟨-, -, -, -, hp⟩ := initializeMint_posts (Bank.cpi_eq_ok.mp h).1
    exact hp.tallies
  | createAssociated address owner mint =>
    obtain ⟨_, -, h⟩ := Outcome.bind_eq_ok.mp h
    obtain ⟨-, -, -, -, hp⟩ := createAssociated_posts (Bank.cpi_eq_ok.mp h).1
    exact hp.tallies

theorem exec_tallies (h : exec A B call = .ok B') : Tallies B.tokens B'.tokens := by
  obtain ⟨signers, op⟩ := call
  cases op with
  | token ix => exact token_tallies h
  | amm ix =>
    cases ix with
    | init accs seed feeBps authority =>
      have hs := init_spec h
      exact .of_eq hs.balance hs.supply
    | addLiquidity accs a b m =>
      obtain ⟨_, _, _, _, _, _, hs⟩ := add_spec h
      exact hs.tallies
    | removeLiquidity accs l a b =>
      obtain ⟨_, _, _, _, _, _, hs⟩ := remove_spec h
      exact hs.tallies
    | swap accs kind aToB =>
      obtain ⟨_, _, _, _, hs⟩ := swap_spec h
      exact hs.tallies
    | updateFee accs newFeeBps =>
      obtain ⟨_, -, -, rfl⟩ := updateFee_eq_ok.mp h
      exact .of_eq (fun _ _ => rfl) fun _ => rfl
    | setLocked accs locked =>
      obtain ⟨_, -, rfl⟩ := setLocked_eq_ok.mp h
      exact .of_eq (fun _ _ => rfl) fun _ => rfl
    | updateAuthority accs newAuthority =>
      obtain ⟨_, -, rfl⟩ := updateAuthority_eq_ok.mp h
      exact .of_eq (fun _ _ => rfl) fun _ => rfl

/-! ## Runs -/

/-- An account that the call does not declare writable keeps its balance. -/
theorem balance_frame (h : exec A B call = .ok B') {k : Key}
    (hk : k ∉ (accountLocks Key).writable call) (m : Key) :
    B'.tokens.balance m k = B.tokens.balance m k := by
  have hcell := congrArg (fun x => x.2.2) (exec_respects.frame h k hk)
  have haccounts : B'.tokens.accounts k = B.tokens.accounts k := hcell
  unfold Ledger.balance
  rw [haccounts]

/-- A mint that the call does not declare writable keeps its supply. -/
theorem supply_frame (h : exec A B call = .ok B') {m : Key}
    (hm : m ∉ (accountLocks Key).writable call) : B'.tokens.supply m = B.tokens.supply m := by
  have hcell := congrArg (fun x => x.2.1) (exec_respects.frame h m hm)
  have hmints : B'.tokens.mints m = B.tokens.mints m := hcell
  unfold Ledger.supply
  rw [hmints]

/-- Over accounts among which are all that the calls write, a run tallies. -/
theorem run_sum_eq {calls : List (Call Key)} {K : Finset Key}
    (hK : ∀ call ∈ calls, ∀ k ∈ (accountLocks Key).writable call, k ∈ K) (m : Key) :
    ∑ k ∈ K, (run (exec A) B calls).tokens.balance m k + B.tokens.supply m =
      ∑ k ∈ K, B.tokens.balance m k + (run (exec A) B calls).tokens.supply m := by
  have hstep : ∀ B₁ call B₂,
      ∑ k ∈ K, B₁.tokens.balance m k + B.tokens.supply m =
        ∑ k ∈ K, B.tokens.balance m k + B₁.tokens.supply m →
      (∀ k ∈ (accountLocks Key).writable call, k ∈ K) → exec A B₁ call = .ok B₂ →
      ∑ k ∈ K, B₂.tokens.balance m k + B.tokens.supply m =
        ∑ k ∈ K, B.tokens.balance m k + B₂.tokens.supply m := by
    intro B₁ call B₂ hsum hcall h
    have htally : ∑ k ∈ K, B₂.tokens.balance m k + B₁.tokens.supply m =
        ∑ k ∈ K, B₁.tokens.balance m k + B₂.tokens.supply m :=
      (exec_tallies h).sum_eq fun k hk => balance_frame h (fun hw => hk (hcall k hw)) m
    omega
  exact run_induction hstep rfl hK

/-- A mint that no call declares writable keeps its supply. -/
theorem run_supply {calls : List (Call Key)} {m : Key}
    (hm : ∀ call ∈ calls, m ∉ (accountLocks Key).writable call) :
    (run (exec A) B calls).tokens.supply m = B.tokens.supply m := by
  have hstep : ∀ B₁ call B₂, B₁.tokens.supply m = B.tokens.supply m →
      m ∉ (accountLocks Key).writable call → exec A B₁ call = .ok B₂ →
      B₂.tokens.supply m = B.tokens.supply m := by
    intro B₁ call B₂ hs hcall h
    rw [supply_frame h hcall, hs]
  exact run_induction hstep rfl hm

/-- **The books balance.** Over all accounts that the calls of a run declare writable, the balances
move together by what the supply moves; tokens of a mint that no call declares writable are
neither created nor destroyed. -/
theorem books_balance (A : AddressScheme Key) (B : Bank Key) (calls : List (Call Key))
    (K : Finset Key) (hK : ∀ call ∈ calls, ∀ k ∈ (accountLocks Key).writable call, k ∈ K)
    (m : Key) :
    ∑ k ∈ K, (run (exec A) B calls).tokens.balance m k + B.tokens.supply m =
        ∑ k ∈ K, B.tokens.balance m k + (run (exec A) B calls).tokens.supply m ∧
      ((∀ call ∈ calls, m ∉ (accountLocks Key).writable call) →
        ∑ k ∈ K, (run (exec A) B calls).tokens.balance m k = ∑ k ∈ K, B.tokens.balance m k) := by
  have hsum := run_sum_eq (A := A) (B := B) hK m
  refine ⟨hsum, ?_⟩
  intro hm
  have hsame := run_supply (A := A) (B := B) hm
  omega

/-- What Alice has and what the pool has of the first token add up to the same after her trades. -/
theorem books_balance_demo :
    let K := (Demo.roundTrip.flatMap (accountLocks Addr).writable).toFinset
    ∑ k ∈ K, (run (exec Addr.scheme) Demo.bank Demo.roundTrip).tokens.balance Demo.mintX k =
      ∑ k ∈ K, Demo.bank.tokens.balance Demo.mintX k := by
  refine (books_balance Addr.scheme Demo.bank Demo.roundTrip _ ?_ Demo.mintX).2 (by decide)
  intro call hcall k hk
  exact List.mem_toFinset.mpr (List.mem_flatMap.mpr ⟨call, hcall, hk⟩)

end Amm
