import Mathlib.Tactic
import Mathlib.Algebra.Order.Floor.Div
import Mathlib.Algebra.Order.Ring.Canonical

/-!
# Constant-product pools

The first part is about the curve `x * y = k`: `Keeps x y n y'` says that the net input `n` pays
for taking the other reserve down to `y'`, and such trades compose (`Keeps.trans`). Over `ℕ` the two
quotes of the curve, the output rounded down and the input rounded up, are adjoint because both are
the extremal solutions of `Keeps`; the same holds of a proportional fee and its gross-up.

The second part is about shares. `Backed p q` says that no share of `p` loses backing on either
side on the way to `q`; `WorthLe p q` says that the product of the two sides per share does not
fall. Both are preorders on pools with shares, the first is finer than the second, and a pool
reached along `WorthLe` that gave nothing up on any account is the pool itself.
-/

namespace ConstantProduct

section Ordered

variable {R : Type*} [CommSemiring R] [LinearOrder R]

/-- The net input `n` on the curve through `(x, y)` pays for leaving `y'` of the other reserve. -/
def Keeps (x y n y' : R) : Prop := x * y ≤ (x + n) * y'

/-- The reserves of a pool and the number of shares in it. -/
structure Pool (R : Type*) where
  x : R
  y : R
  shares : R

/-- No share of `p` loses backing on either side on the way to `q`. -/
structure Backed (p q : Pool R) : Prop where
  x : p.x * q.shares ≤ q.x * p.shares
  y : p.y * q.shares ≤ q.y * p.shares

/-- The product of the two sides per share does not fall from `p` to `q`. -/
def WorthLe (p q : Pool R) : Prop :=
  p.x * p.y * q.shares ^ 2 ≤ q.x * q.y * p.shares ^ 2

theorem Backed.refl (p : Pool R) : Backed p p := ⟨le_rfl, le_rfl⟩

theorem WorthLe.refl (p : Pool R) : WorthLe p p := le_refl (p.x * p.y * p.shares ^ 2)

variable [IsStrictOrderedRing R] [CanonicallyOrderedAdd R]

/-! ## Trades on the curve -/

/-- Two trades in the same direction make one, even when the second starts from a larger reserve
than the first one paid for. -/
theorem Keeps.trans {x y n₁ y₁ x₁ n₂ y₂ : R} (h₁ : Keeps x y n₁ y₁) (hx : x + n₁ ≤ x₁)
    (h₂ : Keeps x₁ y₁ n₂ y₂) : Keeps x y (n₁ + n₂) y₂ := by
  unfold Keeps at *
  rcases le_total y₁ y₂ with hy | hy
  · calc x * y ≤ (x + n₁) * y₁ := h₁
      _ ≤ (x + (n₁ + n₂)) * y₂ :=
        mul_le_mul' (add_le_add_right (le_add_of_nonneg_right zero_le) _) hy
  · -- what the second trade takes out, priced at `x₁`, is at most its net input times `y₂`
    obtain ⟨d, rfl⟩ := exists_add_of_le hy
    have hd : x₁ * d ≤ n₂ * y₂ := by
      rw [mul_add, add_mul] at h₂
      exact le_of_add_le_add_left h₂
    calc x * y ≤ (x + n₁) * (y₂ + d) := h₁
      _ = (x + n₁) * y₂ + (x + n₁) * d := mul_add _ _ _
      _ ≤ (x + n₁) * y₂ + n₂ * y₂ :=
        add_le_add_right ((mul_le_mul_left hx d).trans hd) _
      _ = (x + (n₁ + n₂)) * y₂ := by ring

/-- A trade on the curve never empties a pool. -/
theorem Keeps.pos {x y n y' : R} (h : Keeps x y n y') (hx : 0 < x) (hy : 0 < y) : 0 < y' := by
  refine pos_iff_ne_zero.mpr ?_
  rintro rfl
  rw [Keeps, mul_zero] at h
  exact absurd h (not_le_of_gt (mul_pos hx hy))

theorem Keeps.mono {x y n n' y' : R} (h : Keeps x y n y') (hn : n ≤ n') : Keeps x y n' y' :=
  le_trans h (mul_le_mul_left (add_le_add_right hn x) y')

/-! ## Shares -/

/-- Comparing two ratios through a third with a positive denominator. -/
theorem ratio_trans {a b c s t u : R} (ht : 0 < t) (h₁ : a * t ≤ b * s) (h₂ : b * u ≤ c * t) :
    a * u ≤ c * s := by
  refine le_of_mul_le_mul_right ?_ ht
  calc a * u * t = a * t * u := by ring
    _ ≤ b * s * u := mul_le_mul_left h₁ u
    _ = b * u * s := by ring
    _ ≤ c * t * s := mul_le_mul_left h₂ s
    _ = c * s * t := by ring

theorem Backed.trans {p q r : Pool R} (hq : 0 < q.shares) (h₁ : Backed p q) (h₂ : Backed q r) :
    Backed p r :=
  ⟨ratio_trans hq h₁.x h₂.x, ratio_trans hq h₁.y h₂.y⟩

theorem WorthLe.trans {p q r : Pool R} (hq : 0 < q.shares) (h₁ : WorthLe p q) (h₂ : WorthLe q r) :
    WorthLe p r :=
  ratio_trans (pow_pos hq 2) h₁ h₂

omit [CanonicallyOrderedAdd R] in
/-- New shares, at most in proportion to what comes in on either side, leave every share backed. -/
theorem backed_of_mul_le {x y s a b n : R} (hx : n * x ≤ a * s) (hy : n * y ≤ b * s) :
    Backed ⟨x, y, s⟩ ⟨x + a, y + b, s + n⟩ := by
  have side : ∀ {z d : R}, n * z ≤ d * s → z * (s + n) ≤ (z + d) * s := by
    intro z d h
    calc z * (s + n) = z * s + n * z := by ring
      _ ≤ z * s + d * s := by gcongr
      _ = (z + d) * s := (add_mul _ _ _).symm
  exact ⟨side hx, side hy⟩

omit [IsStrictOrderedRing R] in
/-- Keeping both sides of every share backed keeps the worth of a share. -/
theorem Backed.worthLe {p q : Pool R} (h : Backed p q) : WorthLe p q := by
  calc p.x * p.y * q.shares ^ 2 = (p.x * q.shares) * (p.y * q.shares) := by ring
    _ ≤ (q.x * p.shares) * (q.y * p.shares) := mul_le_mul' h.x h.y
    _ = q.x * q.y * p.shares ^ 2 := by ring

/-- Without new shares, a product that does not fall keeps the worth of a share. -/
theorem worthLe_of_mul_le {p q : Pool R} (hk : p.x * p.y ≤ q.x * q.y) (hs : q.shares ≤ p.shares) :
    WorthLe p q :=
  mul_le_mul' hk (pow_le_pow_left₀ zero_le hs 2)

/-- A pool whose product covers the square of its shares still does along `WorthLe`. -/
theorem WorthLe.sq_le {p q : Pool R} (h : WorthLe p q) (hp : 0 < p.shares)
    (hk : p.shares ^ 2 ≤ p.x * p.y) : q.shares ^ 2 ≤ q.x * q.y := by
  refine le_of_mul_le_mul_right ?_ (pow_pos hp 2)
  calc q.shares ^ 2 * p.shares ^ 2 = p.shares ^ 2 * q.shares ^ 2 := mul_comm _ _
    _ ≤ p.x * p.y * q.shares ^ 2 := mul_le_mul_left hk _
    _ ≤ q.x * q.y * p.shares ^ 2 := h

/-- Whoever takes nothing less from the pool and gives nothing more has changed nothing: along
`WorthLe`, reserves that did not grow and shares that did not shrink are the same. -/
theorem WorthLe.antisymm {p q : Pool R} (h : WorthLe p q) (hx : 0 < p.x) (hy : 0 < p.y)
    (hs : 0 < p.shares) (hxle : q.x ≤ p.x) (hyle : q.y ≤ p.y) (hsle : p.shares ≤ q.shares) :
    q.x = p.x ∧ q.y = p.y ∧ q.shares = p.shares := by
  have hS : 0 < p.shares ^ 2 := pow_pos hs 2
  have hshares : q.shares = p.shares := by
    refine le_antisymm ?_ hsle
    have hle : p.x * p.y * q.shares ^ 2 ≤ p.x * p.y * p.shares ^ 2 :=
      le_trans h (mul_le_mul_left (mul_le_mul' hxle hyle) _)
    exact le_of_pow_le_pow_left₀ two_ne_zero zero_le (le_of_mul_le_mul_left hle (mul_pos hx hy))
  have hk : p.x * p.y ≤ q.x * q.y := by
    have h' := h
    rw [WorthLe, hshares] at h'
    exact le_of_mul_le_mul_right h' hS
  refine ⟨le_antisymm hxle ?_, le_antisymm hyle ?_, hshares⟩
  · exact le_of_mul_le_mul_right (hk.trans (mul_le_mul_right hyle q.x)) hy
  · exact le_of_mul_le_mul_left (hk.trans (mul_le_mul_left hxle q.y)) hx

end Ordered

/-! ## Quotes over the naturals -/

section Quotes

variable {x y n t k d a : ℕ}

/-- The output for a net input, rounded down. -/
def floorOut (x y n : ℕ) : ℕ := n * y / (x + n)

/-- The net input for an output, rounded up. -/
def ceilIn (x y t : ℕ) : ℕ := (t * x) ⌈/⌉ (y - t)

/-- The part `k / d` of an amount, rounded down. -/
def floorNet (k d a : ℕ) : ℕ := a * k / d

/-- The amount whose part `k / d` is `n`, rounded up. -/
def ceilGross (k d n : ℕ) : ℕ := (n * d) ⌈/⌉ k

theorem keeps_sub_iff (ht : t ≤ y) : Keeps x y n (y - t) ↔ t * (x + n) ≤ n * y := by
  obtain ⟨y', rfl⟩ := Nat.exists_eq_add_of_le ht
  rw [Keeps, Nat.add_sub_cancel_left]
  constructor <;> intro h <;> nlinarith

/-- The output rounded down is the most that the net input pays for. -/
theorem le_floorOut_iff (hx : 0 < x) (ht : t ≤ y) : t ≤ floorOut x y n ↔ Keeps x y n (y - t) := by
  rw [keeps_sub_iff ht]
  exact Nat.le_div_iff_mul_le (by omega)

/-- The input rounded up is the least that pays for the output. -/
theorem ceilIn_le_iff (ht : t < y) : ceilIn x y t ≤ n ↔ Keeps x y n (y - t) := by
  have hpos : 0 < y - t := by omega
  rw [ceilIn, ceilDiv_le_iff_le_mul hpos, keeps_sub_iff ht.le]
  obtain ⟨y', rfl⟩ := Nat.exists_eq_add_of_lt ht
  rw [show t + y' + 1 - t = y' + 1 by omega]
  constructor <;> intro h <;> nlinarith

theorem floorOut_lt (hx : 0 < x) (hy : 0 < y) : floorOut x y n < y := by
  unfold floorOut
  rw [Nat.div_lt_iff_lt_mul (by omega)]
  nlinarith

theorem floorOut_le_self : floorOut x y n ≤ y := by
  rcases Nat.eq_zero_or_pos x with rfl | hx
  · rcases Nat.eq_zero_or_pos n with rfl | hn
    · simp [floorOut]
    · rw [floorOut, Nat.zero_add, Nat.mul_div_cancel_left y hn]
  · rcases Nat.eq_zero_or_pos y with rfl | hy
    · simp [floorOut]
    · exact (floorOut_lt hx hy).le

/-- The output rounded down and the input rounded up are adjoint. -/
theorem ceilIn_le_iff_le_floorOut (hx : 0 < x) (ht : t < y) :
    ceilIn x y t ≤ n ↔ t ≤ floorOut x y n := by
  rw [ceilIn_le_iff ht, le_floorOut_iff hx ht.le]

theorem keeps_floorOut (hx : 0 < x) : Keeps x y n (y - floorOut x y n) :=
  (le_floorOut_iff hx floorOut_le_self).mp le_rfl

theorem keeps_ceilIn (ht : t < y) : Keeps x y (ceilIn x y t) (y - t) :=
  (ceilIn_le_iff ht).mp le_rfl

/-- The output rounded down is the greatest integer that the net input pays for. -/
theorem isGreatest_floorOut (hx : 0 < x) :
    IsGreatest {o : ℤ | Keeps (x : ℤ) y n (y - o)} (floorOut x y n) := by
  have hpos : (0 : ℤ) < x + n := by omega
  have hiff : ∀ o : ℤ, Keeps (x : ℤ) y n (y - o) ↔ o ≤ floorOut x y n := by
    intro o
    rw [floorOut, Int.natCast_ediv, Nat.cast_add, Int.le_ediv_iff_mul_le hpos, Keeps]
    push_cast
    constructor <;> intro h <;> linarith
  exact ⟨(hiff _).mpr le_rfl, fun o ho => (hiff o).mp ho⟩

/-- The input rounded up is the least integer that pays for the output. -/
theorem isLeast_ceilIn (ht : t < y) :
    IsLeast {i : ℤ | Keeps (x : ℤ) y i (y - t)} (ceilIn x y t) := by
  constructor
  · have hk := keeps_ceilIn (x := x) ht
    unfold Keeps at *
    obtain ⟨y', rfl⟩ := Nat.exists_eq_add_of_lt ht
    rw [show t + y' + 1 - t = y' + 1 by omega] at hk
    show (x : ℤ) * (t + y' + 1 : ℕ) ≤ (x + _) * ((t + y' + 1 : ℕ) - t)
    zify at hk
    push_cast
    linarith
  · intro i hi
    have hpos : (0 : ℤ) < y - t := by omega
    have htx : (t : ℤ) * x ≤ i * (y - t) := by
      have h : (x : ℤ) * y ≤ (x + i) * (y - t) := hi
      linarith
    have hi0 : 0 ≤ i := by
      by_contra hneg
      nlinarith [mul_nonneg (Int.natCast_nonneg t) (Int.natCast_nonneg x)]
    obtain ⟨m, rfl⟩ := Int.eq_ofNat_of_zero_le hi0
    rw [Nat.cast_le, ceilIn_le_iff ht, keeps_sub_iff ht.le]
    zify
    linarith

/-- The fee rounded against the payer and its gross-up are adjoint. -/
theorem ceilGross_le_iff (hk : 0 < k) (hd : 0 < d) : ceilGross k d n ≤ a ↔ n ≤ floorNet k d a := by
  rw [ceilGross, ceilDiv_le_iff_le_mul hk, floorNet, Nat.le_div_iff_mul_le hd, mul_comm k a]

theorem floorNet_le (hk : k ≤ d) : floorNet k d a ≤ a :=
  Nat.div_le_of_le_mul (by rw [mul_comm d a]; exact Nat.mul_le_mul_left a hk)

theorem floorNet_lt (hkd : k < d) (ha : 0 < a) : floorNet k d a < a := by
  rw [floorNet, Nat.div_lt_iff_lt_mul (by omega)]
  exact Nat.mul_lt_mul_of_pos_left hkd ha

theorem le_ceilGross (hk : 0 < k) (hkd : k ≤ d) : n ≤ ceilGross k d n :=
  ((ceilGross_le_iff hk (hk.trans_le hkd)).mp le_rfl).trans (floorNet_le hkd)

theorem lt_ceilGross (hk : 0 < k) (hkd : k < d) (hn : 0 < n) : n < ceilGross k d n := by
  by_contra hle
  have h := (ceilGross_le_iff hk (hk.trans hkd)).mp (Nat.le_of_not_lt hle)
  have := floorNet_lt hkd hn
  omega

/-- Grossing up and then taking the fee gives the net amount back: one step of the gross-up is
less than one unit after the fee. -/
theorem floorNet_ceilGross (hk : 0 < k) (hkd : k ≤ d) : floorNet k d (ceilGross k d n) = n := by
  have hd : 0 < d := hk.trans_le hkd
  refine le_antisymm (Nat.le_of_lt_succ ?_) ((ceilGross_le_iff hk hd).mp le_rfl)
  rw [floorNet, ceilGross, Nat.div_lt_iff_lt_mul hd, Nat.ceilDiv_eq_add_pred_div]
  have h := Nat.div_mul_le_self (n * d + k - 1) k
  rw [Nat.succ_mul]
  omega

/-- What is taken off is the rest of the amount, rounded up. -/
theorem sub_floorNet (hd : 0 < d) (hkd : k ≤ d) : a - floorNet k d a = (a * (d - k)) ⌈/⌉ d := by
  have hsplit : a * (d - k) + a * k = a * d := by rw [← Nat.mul_add, Nat.sub_add_cancel hkd]
  have hle : floorNet k d a ≤ a := floorNet_le hkd
  have hmod : d * floorNet k d a + a * k % d = a * k := Nat.div_add_mod _ _
  have hr := Nat.mod_lt (a * k) hd
  obtain ⟨b, hb⟩ := Nat.exists_eq_add_of_le hle
  have hbd : a * d = d * floorNet k d a + b * d := by
    rw [Nat.mul_comm d, ← Nat.add_mul, ← hb]
  rw [Nat.ceilDiv_eq_add_pred_div, show a - floorNet k d a = b by omega]
  symm
  apply Nat.div_eq_of_lt_le
  · omega
  · rw [Nat.succ_mul]
    omega

/-- Less on the side of the output, and more on the other, makes an output dearer. -/
theorem ceilIn_mono {x' y' : ℕ} (hx : x ≤ x') (hy : y' ≤ y) (ht : t < y') :
    ceilIn x y t ≤ ceilIn x' y' t := by
  rw [ceilIn_le_iff (ht.trans_le hy), keeps_sub_iff (ht.le.trans hy)]
  have hkeeps := (keeps_sub_iff ht.le).mp (keeps_ceilIn (x := x') ht)
  calc t * (x + ceilIn x' y' t) ≤ t * (x' + ceilIn x' y' t) := by gcongr
    _ ≤ ceilIn x' y' t * y' := hkeeps
    _ ≤ ceilIn x' y' t * y := by gcongr

theorem floorNet_le_of_le {k' : ℕ} (hk : k' ≤ k) (a : ℕ) : floorNet k' d a ≤ floorNet k d a :=
  Nat.div_le_div_right (Nat.mul_le_mul_left a hk)

/-- A higher fee, on a higher net amount, makes the gross amount higher. -/
theorem ceilGross_mono {k' n' : ℕ} (hk' : 0 < k') (hd : 0 < d) (hk : k' ≤ k) (hn : n ≤ n') :
    ceilGross k d n ≤ ceilGross k' d n' := by
  rw [ceilGross_le_iff (hk'.trans_le hk) hd]
  calc n ≤ n' := hn
    _ ≤ floorNet k' d (ceilGross k' d n') := (ceilGross_le_iff hk' hd).mp le_rfl
    _ ≤ floorNet k d (ceilGross k' d n') := floorNet_le_of_le hk _

theorem floorNet_add_le (a₁ a₂ : ℕ) : floorNet k d a₁ + floorNet k d a₂ ≤ floorNet k d (a₁ + a₂) := by
  unfold floorNet
  rw [Nat.add_mul]
  exact Nat.div_add_div_le_add_div

/-- What `l` shares are paid, rounded down, does not fall while shares stay backed. -/
theorem share_le_share {l x s x' s' : ℕ} (hs : 0 < s) (hs' : 0 < s') (h : x * s' ≤ x' * s) :
    l * x / s ≤ l * x' / s' := by
  rw [Nat.le_div_iff_mul_le hs', ← Nat.mul_one (l * x')]
  refine ratio_trans hs (b := l * x) ?_ ?_
  · rw [Nat.mul_one]
    exact Nat.div_mul_le_self _ _
  · rw [Nat.mul_assoc, Nat.mul_assoc]
    exact Nat.mul_le_mul_left l h

/-- Shares issued at most in proportion to a deposit redeem for at most the deposit. -/
theorem redeemed_le {l s : ℕ} (h : l * x ≤ a * s) : l * (x + a) / (s + l) ≤ a := by
  apply Nat.div_le_of_le_mul
  calc l * (x + a) = l * x + l * a := Nat.mul_add _ _ _
    _ ≤ a * s + l * a := Nat.add_le_add_right h _
    _ = (s + l) * a := by ring

/-- If one share more would have been too many, then what the deposit is short of when redeemed is
less than one unit and the value of one share. -/
theorem lt_redeemed {l s : ℕ} (hpos : 0 < s + l) (h : a * s < (l + 1) * x) :
    a * (s + l) < (l * (x + a) / (s + l) + 1) * (s + l) + x := by
  have hdiv : l * (x + a) < (l * (x + a) / (s + l) + 1) * (s + l) := by
    rw [Nat.mul_comm (_ + 1)]
    exact Nat.lt_mul_div_succ _ hpos
  calc a * (s + l) = a * s + l * a := by ring
    _ < (l + 1) * x + l * a := Nat.add_lt_add_right h _
    _ = l * (x + a) + x := by ring
    _ < _ := Nat.add_lt_add_right hdiv x

end Quotes

end ConstantProduct
