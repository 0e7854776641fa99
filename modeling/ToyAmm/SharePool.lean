import ToyAmm.ConstantProduct

/-!
# The abstract pool

A constant-product pool that issues shares and keeps some of them locked, seen from outside: four
numbers, and three ways to move. `Sound` is its invariant and `Move.sound` keeps it; while there are
shares, no move lowers what a share is worth (`Move.worthLe`), and there always will be some
(`Sound.shares_pos_of_move`).
-/

open ConstantProduct

namespace SharePool

/-- Reserves and shares of a pool, and how many of the shares are locked. -/
structure State extends Pool ℕ where
  locked : ℕ

variable {lockup : ℕ} {p q : State}

/-- The locked shares exist; and either there are no shares, or the lockup is in place and the
product of the reserves covers the square of the shares. -/
structure Sound (lockup : ℕ) (p : State) : Prop where
  locked_le : p.locked ≤ p.shares
  funded : p.shares = 0 ∨ lockup ≤ p.locked ∧ p.shares ^ 2 ≤ p.x * p.y

/-- What can happen to a pool. -/
inductive Move (lockup : ℕ) (p q : State) : Prop where
  /-- The product does not fall and no share is issued: a swap, a donation, a burn of shares. -/
  | trade (product : p.x * p.y ≤ q.x * q.y) (shares : q.shares ≤ p.shares)
      (locked : p.locked ≤ q.locked)
  /-- Shares are issued or redeemed, and every share stays backed. -/
  | liquidity (pos : 0 < p.shares) (backed : Backed p.toPool q.toPool) (locked : p.locked ≤ q.locked)
  /-- The first shares are issued. -/
  | bootstrap (empty : p.shares = 0) (funded : q.shares ^ 2 ≤ q.x * q.y) (locked : lockup ≤ q.locked)

theorem Sound.of_pos (h : Sound lockup p) (hp : 0 < p.shares) :
    lockup ≤ p.locked ∧ p.shares ^ 2 ≤ p.x * p.y :=
  h.funded.resolve_left hp.ne'

theorem Sound.lockup_le (h : Sound lockup p) (hp : 0 < p.shares) : lockup ≤ p.shares :=
  (h.of_pos hp).1.trans h.locked_le

/-- A sound pool with shares has both reserves. -/
theorem Sound.reserves_pos (h : Sound lockup p) (hp : 0 < p.shares) : 0 < p.x ∧ 0 < p.y := by
  have hk : 0 < p.x * p.y := (Nat.pow_pos hp).trans_le (h.of_pos hp).2
  exact ⟨Nat.pos_of_mul_pos_right hk, Nat.pos_of_mul_pos_left hk⟩

theorem Move.worthLe (h : Move lockup p q) (hp : 0 < p.shares) : WorthLe p.toPool q.toPool := by
  cases h with
  | trade product shares => exact worthLe_of_mul_le product shares
  | liquidity pos backed => exact backed.worthLe
  | bootstrap empty => exact absurd empty hp.ne'

/-- A pool with shares stays locked up. -/
theorem Move.locked_of_pos (h : Move lockup p q) (hs : Sound lockup p) (hp : 0 < p.shares) :
    lockup ≤ q.locked := by
  have hl := (hs.of_pos hp).1
  cases h with
  | trade product shares locked => exact hl.trans locked
  | liquidity pos backed locked => exact hl.trans locked
  | bootstrap empty funded locked => exact locked

theorem Move.sound (h : Move lockup p q) (hs : Sound lockup p) (hq : q.locked ≤ q.shares) :
    Sound lockup q := by
  refine ⟨hq, ?_⟩
  rcases Nat.eq_zero_or_pos p.shares with h0 | hpos
  · cases h with
    | trade product shares => exact .inl (by omega)
    | liquidity pos => omega
    | bootstrap empty funded locked => exact .inr ⟨locked, funded⟩
  · have hw := h.worthLe hpos
    exact .inr ⟨h.locked_of_pos hs hpos, hw.sq_le hpos (hs.of_pos hpos).2⟩

/-- A pool with shares never loses the last of them. -/
theorem Sound.shares_pos_of_move (hs : Sound lockup p) (hlock : 0 < lockup) (h : Move lockup p q)
    (hq : q.locked ≤ q.shares) (hp : 0 < p.shares) : 0 < q.shares := by
  have := h.locked_of_pos hs hp
  omega

end SharePool
