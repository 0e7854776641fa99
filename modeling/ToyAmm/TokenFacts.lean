import Mathlib.Algebra.BigOperators.Group.Finset.Basic
import Mathlib.Algebra.Order.BigOperators.Group.Finset
import Mathlib.Tactic
import ToyAmm.TokenLedger

/-!
# What token operations do

Numbers and identities are kept apart. `Ledger.balance` and `Ledger.supply` are the numbers;
`Holds` and `IsMint` say whose account or mint an address is, and no operation takes that back
(`Evolves`). Every operation is one `Posts`: a debit, a credit, and the supply that follows.

From `Posts` come the two laws that everything above rests on. `SupplyBacked`: all balances
of a mint together are at most its supply. `Spares`: an operation that `c` does not
sign takes nothing out of `c`'s accounts and issues nothing of `c`'s mints.
-/

open Checked

namespace Token

namespace Ledger

variable {Key : Type} [DecidableEq Key] {L L' L'' : Ledger Key}

/-! ## Numbers -/

/-- The amount at `k` in tokens of the mint `m`. -/
def balance (L : Ledger Key) (m k : Key) : ℕ :=
  match L.accounts k with
  | some t => if t.mint = m then t.amount.toNat else 0
  | none => 0

omit [DecidableEq Key] in
/-- The supply of the mint `m`, none at all if there is no such mint. -/
def supply (L : Ledger Key) (m : Key) : ℕ :=
  match L.mints m with
  | some M => M.supply.toNat
  | none => 0

/-- All balances of a mint together are at most its supply. -/
def SupplyBacked (L : Ledger Key) : Prop :=
  ∀ (m : Key) (K : Finset Key), ∑ k ∈ K, L.balance m k ≤ L.supply m

@[simp] theorem supply_setAccount (k : Key) (t : Account Key) :
    (L.setAccount k t).supply = L.supply := rfl

@[simp] theorem balance_setMint (k : Key) (M : Mint Key) :
    (L.setMint k M).balance = L.balance := rfl

theorem balance_setAccount (k : Key) (t : Account Key) (m k' : Key) :
    (L.setAccount k t).balance m k' =
      if k' = k then if t.mint = m then t.amount.toNat else 0 else L.balance m k' := by
  unfold balance
  by_cases h : k' = k
  · subst h
    rw [accounts_setAccount_self, if_pos rfl]
  · rw [accounts_setAccount_of_ne h, if_neg h]

theorem supply_setMint (k : Key) (M : Mint Key) (m : Key) :
    (L.setMint k M).supply m = if m = k then M.supply.toNat else L.supply m := by
  unfold supply
  by_cases h : m = k
  · subst h
    rw [mints_setMint_self, if_pos rfl]
  · rw [mints_setMint_of_ne h, if_neg h]

theorem balance_of_account {k m o : Key} {a : BitVec 64} (h : L.accounts k = some ⟨m, o, a⟩) :
    L.balance m k = a.toNat := by
  simp [balance, h]

theorem balance_of_mint_ne {k m : Key} {t : Account Key} (h : L.accounts k = some t)
    (hm : t.mint ≠ m) : L.balance m k = 0 := by
  simp [balance, h, hm]

omit [DecidableEq Key] in
theorem supply_of_mint {m : Key} {M : Mint Key} (h : L.mints m = some M) :
    L.supply m = M.supply.toNat := by
  simp [supply, h]

theorem balance_of_none {k : Key} (h : L.accounts k = none) (m : Key) : L.balance m k = 0 := by
  simp [balance, h]

omit [DecidableEq Key] in
theorem supply_of_none {m : Key} (h : L.mints m = none) : L.supply m = 0 := by
  simp [supply, h]

omit [DecidableEq Key] in
theorem supply_lt (m : Key) : L.supply m < 2 ^ 64 := by
  unfold supply
  split
  · exact BitVec.isLt _
  · norm_num

theorem SupplyBacked.balance_le (h : L.SupplyBacked) (m k : Key) : L.balance m k ≤ L.supply m := by
  have hk := h m {k}
  rwa [Finset.sum_singleton] at hk

theorem SupplyBacked.add_le (h : L.SupplyBacked) (m : Key) {k k' : Key} (hne : k ≠ k') :
    L.balance m k + L.balance m k' ≤ L.supply m := by
  have hk := h m {k, k'}
  rwa [Finset.sum_pair hne] at hk

/-! ## Identities -/

/-- `k` is an account of `owner` in tokens of `mint`. -/
def Holds (L : Ledger Key) (k mint owner : Key) : Prop :=
  ∃ amount, L.accounts k = some ⟨mint, owner, amount⟩

/-- `m` is a mint with the given authority and decimals. -/
def IsMint (L : Ledger Key) (m : Key) (authority : Option Key) (decimals : BitVec 8) : Prop :=
  ∃ supply, L.mints m = some ⟨authority, supply, decimals⟩

/-- Accounts and mints stay what they are. -/
structure Evolves (L L' : Ledger Key) : Prop where
  holds : ∀ {k m o}, L.Holds k m o → L'.Holds k m o
  isMint : ∀ {m a d}, L.IsMint m a d → L'.IsMint m a d

omit [DecidableEq Key] in
theorem Evolves.refl (L : Ledger Key) : Evolves L L := ⟨id, id⟩

omit [DecidableEq Key] in
theorem Evolves.trans (h : Evolves L L') (h' : Evolves L' L'') : Evolves L L'' :=
  ⟨h'.holds ∘ h.holds, h'.isMint ∘ h.isMint⟩

theorem Holds.account {k m o : Key} (h : L.Holds k m o) :
    ∃ a, L.accounts k = some ⟨m, o, a⟩ ∧ a.toNat = L.balance m k := by
  obtain ⟨a, ha⟩ := h
  exact ⟨a, ha, (balance_of_account ha).symm⟩

/-- An account with a balance in tokens of `m` is one for `m`. -/
theorem holds_of_balance_pos {k m : Key} {t : Account Key} (h : L.accounts k = some t)
    (hpos : 0 < L.balance m k) : L.Holds k m t.owner := by
  by_cases hm : t.mint = m
  · subst hm
    exact ⟨t.amount, h⟩
  · rw [balance_of_mint_ne h hm] at hpos
    exact absurd hpos (Nat.lt_irrefl 0)

omit [DecidableEq Key] in
theorem Holds.owner_eq {k m o m' o' : Key} (h : L.Holds k m o) (h' : L.Holds k m' o') : o = o' := by
  obtain ⟨a, ha⟩ := h
  obtain ⟨a', ha'⟩ := h'
  rw [ha] at ha'
  exact congrArg Account.owner (Option.some.inj ha')

omit [DecidableEq Key] in
theorem Holds.mint_eq {k m o m' o' : Key} (h : L.Holds k m o) (h' : L.Holds k m' o') : m = m' := by
  obtain ⟨a, ha⟩ := h
  obtain ⟨a', ha'⟩ := h'
  rw [ha] at ha'
  exact congrArg Account.mint (Option.some.inj ha')

omit [DecidableEq Key] in
/-- An account that was there before is what it turns out to be. -/
theorem Evolves.holds_of_account {k m o : Key} {t : Account Key} (h : Evolves L L')
    (ht : L.accounts k = some t) (hk : L'.Holds k m o) : L.Holds k m o := by
  have ht' : L.Holds k t.mint t.owner := ⟨t.amount, ht⟩
  obtain rfl := (h.holds ht').mint_eq hk
  obtain rfl := (h.holds ht').owner_eq hk
  exact ht'

omit [DecidableEq Key] in
theorem Evolves.accounts_eq_none {k : Key} (h : Evolves L L') (hk : L'.accounts k = none) :
    L.accounts k = none := by
  cases ha : L.accounts k with
  | none => rfl
  | some t =>
    obtain ⟨a, ha'⟩ := h.holds (⟨t.amount, ha⟩ : L.Holds k t.mint t.owner)
    rw [hk] at ha'
    cases ha'

omit [DecidableEq Key] in
theorem IsMint.authority_eq {m : Key} {a a' : Option Key} {d d' : BitVec 8} (h : L.IsMint m a d)
    (h' : L.IsMint m a' d') : a = a' := by
  obtain ⟨s, hs⟩ := h
  obtain ⟨s', hs'⟩ := h'
  rw [hs] at hs'
  exact congrArg Mint.mintAuthority (Option.some.inj hs')

omit [DecidableEq Key] in
theorem IsMint.mint {m : Key} {a : Option Key} {d : BitVec 8} (h : L.IsMint m a d) :
    ∃ s, L.mints m = some ⟨a, s, d⟩ ∧ s.toNat = L.supply m := by
  obtain ⟨s, hs⟩ := h
  exact ⟨s, hs, (supply_of_mint hs).symm⟩

/-- Overwriting an account keeps every identity if the new one has the old mint and owner. -/
theorem evolves_setAccount {k : Key} {t t' : Account Key} (h : L.accounts k = some t)
    (hm : t'.mint = t.mint) (ho : t'.owner = t.owner) : Evolves L (L.setAccount k t') := by
  refine ⟨?_, id⟩
  rintro k' m o ⟨a, ha⟩
  by_cases hk : k' = k
  · subst hk
    rw [h] at ha
    obtain rfl := Option.some.inj ha
    refine ⟨t'.amount, ?_⟩
    rw [accounts_setAccount_self]
    cases t'
    simp only at hm ho
    rw [hm, ho]
  · exact ⟨a, by rw [accounts_setAccount_of_ne hk, ha]⟩

theorem evolves_setAccount_new {k : Key} {t : Account Key} (h : L.accounts k = none) :
    Evolves L (L.setAccount k t) := by
  refine ⟨?_, id⟩
  rintro k' m o ⟨a, ha⟩
  have hk : k' ≠ k := by
    rintro rfl
    rw [h] at ha
    cases ha
  exact ⟨a, by rw [accounts_setAccount_of_ne hk, ha]⟩

theorem evolves_setMint {m : Key} {M M' : Mint Key} (h : L.mints m = some M)
    (ha : M'.mintAuthority = M.mintAuthority) (hd : M'.decimals = M.decimals) :
    Evolves L (L.setMint m M') := by
  refine ⟨id, ?_⟩
  rintro m' a d ⟨s, hs⟩
  by_cases hm : m' = m
  · subst hm
    rw [h] at hs
    obtain rfl := Option.some.inj hs
    refine ⟨M'.supply, ?_⟩
    rw [mints_setMint_self]
    cases M'
    simp only at ha hd
    rw [ha, hd]
  · exact ⟨s, by rw [mints_setMint_of_ne hm, hs]⟩

theorem evolves_setMint_new {m : Key} {M : Mint Key} (h : L.mints m = none) :
    Evolves L (L.setMint m M) := by
  refine ⟨id, ?_⟩
  rintro m' a d ⟨s, hs⟩
  have hm : m' ≠ m := by
    rintro rfl
    rw [h] at hs
    cases hs
  exact ⟨s, by rw [mints_setMint_of_ne hm, hs]⟩

end Ledger

end Token
