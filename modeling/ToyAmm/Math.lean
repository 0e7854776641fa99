import Mathlib.Algebra.Order.Floor.Div
import ToyAmm.Newton
import ToyAmm.Word

/-!
# Integer helpers of the math library

Errors, quote types and the helpers `narrowU64`, `divCeil`, `checkedMulDivFloor`,
`checkedMulDivCeil` and `integerSqrtFloor`. The raw operators of the source are the aborting
ones of `Checked`, so a call that panics is told apart from one that returns an error.

`integerSqrtFloor` is a loop: its invariant is `SqrtInv`, and the step is `Newton.step`.
-/

open Checked

namespace AmmMath

abbrev U8 := BitVec 8
abbrev U16 := BitVec 16
abbrev U64 := BitVec 64
abbrev U128 := BitVec 128

/-- Error variants of the math operations. -/
inductive AmmMathError where
  | zeroAmount
  | zeroReserve
  | zeroDiv
  | invalidFee
  | overflow
  | underflow
  | insufficientOutput
  | insufficientLiquidity
  deriving DecidableEq, Repr

abbrev Result (α : Type) := Outcome AmmMathError α

/-! ## Quote types

The library's quotes hold `u64` fields; the same records over `ℕ` are the quotes of the
unbounded reference. -/

/-- Quote for an exact-input swap. -/
structure SwapQuote (N : Type) where
  amountIn : N
  amountInAfterFee : N
  feeAmount : N
  amountOut : N
  newReserveIn : N
  newReserveOut : N
  deriving DecidableEq, Repr

/-- Quote for an exact-output swap. -/
structure ExactOutputQuote (N : Type) where
  amountOut : N
  amountInAfterFee : N
  amountIn : N
  feeAmount : N
  newReserveIn : N
  newReserveOut : N
  deriving DecidableEq, Repr

/-- Quote for any liquidity operation. -/
structure LiquidityQuote (N : Type) where
  lpTokens : N
  amountA : N
  amountB : N
  deriving DecidableEq, Repr

/-! ## Rounding helpers -/

/-- Narrow to 64 bits, `Overflow` when the value does not fit. -/
def narrowU64 (n : U128) : Result U64 := .okOr .overflow (narrow 64 n)

/-- Ceiling division by adding before dividing. -/
def divCeil (numerator denominator : U128) : Result U128 :=
  if denominator = 0 then .err .zeroDiv
  else do
    let pred ← subOrPanic denominator 1
    let sum ← .okOr .overflow (checkedAdd numerator pred)
    divOrPanic sum denominator

/-- `floor(a * b / denominator)` through a checked 128-bit product. -/
def checkedMulDivFloor (a b denominator : U128) : Result U128 :=
  if denominator = 0 then .err .zeroDiv
  else do
    let product ← .okOr .overflow (checkedMul a b)
    divOrPanic product denominator

/-- `ceil(a * b / denominator)` through a checked 128-bit product. -/
def checkedMulDivCeil (a b denominator : U128) : Result U128 := do
  let product ← .okOr .overflow (checkedMul a b)
  divCeil product denominator

theorem narrowU64_eq_ok {n : U128} {r : U64} : narrowU64 n = .ok r ↔ r.toNat = n.toNat := by
  rw [narrowU64, Outcome.okOr_eq_ok, narrow_eq_some]

theorem narrowU64_of_le {n : U128} (h : 2 ^ 64 ≤ n.toNat) : narrowU64 n = .err .overflow := by
  rw [narrowU64, narrow, fit_of_le h, Outcome.okOr_none]

/-- Division by a word that is not zero never aborts. -/
theorem divOrPanic_of_ne {a b : U128} (hb : b ≠ 0) : (divOrPanic a b : Result U128) = .ok (a / b) :=
  if_neg hb

theorem divCeil_ok {n d : U128} (hd : d ≠ 0) (h : n.toNat + d.toNat - 1 < 2 ^ 128) :
    ∃ r, divCeil n d = .ok r ∧ r.toNat = n.toNat ⌈/⌉ d.toNat := by
  have hd' : 0 < d.toNat := toNat_pos.mpr hd
  obtain ⟨pred, hpred⟩ : ∃ p : U128, p.toNat + 1 = d.toNat :=
    ⟨BitVec.ofNatLT (d.toNat - 1) (by omega), by rw [BitVec.toNat_ofNatLT]; omega⟩
  have hsub : (subOrPanic d 1 : Result U128) = .ok pred := subOrPanic_eq_ok.mpr hpred
  have hsum : n.toNat + pred.toNat < 2 ^ 128 := by omega
  refine ⟨BitVec.ofNatLT _ hsum / d, ?_, ?_⟩
  · rw [divCeil, if_neg hd, hsub, Outcome.ok_bind, checkedAdd, fit_of_lt hsum, Outcome.okOr_some,
      Outcome.ok_bind, divOrPanic_of_ne hd]
  · rw [BitVec.toNat_udiv, BitVec.toNat_ofNatLT, Nat.ceilDiv_eq_add_pred_div]
    congr 1; omega

theorem checkedMulDivFloor_ok {a b d : U128} (hd : d ≠ 0) (h : a.toNat * b.toNat < 2 ^ 128) :
    ∃ r, checkedMulDivFloor a b d = .ok r ∧ r.toNat = a.toNat * b.toNat / d.toNat := by
  refine ⟨BitVec.ofNatLT _ h / d, ?_, by rw [BitVec.toNat_udiv, BitVec.toNat_ofNatLT]⟩
  rw [checkedMulDivFloor, if_neg hd, checkedMul, fit_of_lt h, Outcome.okOr_some, Outcome.ok_bind,
    divOrPanic_of_ne hd]

theorem checkedMulDivCeil_ok {a b d : U128} (hd : d ≠ 0)
    (h : a.toNat * b.toNat + d.toNat - 1 < 2 ^ 128) :
    ∃ r, checkedMulDivCeil a b d = .ok r ∧ r.toNat = (a.toNat * b.toNat) ⌈/⌉ d.toNat := by
  have hd' : 0 < d.toNat := toNat_pos.mpr hd
  have hp : a.toNat * b.toNat < 2 ^ 128 := by omega
  obtain ⟨r, hr, hrv⟩ := divCeil_ok (n := BitVec.ofNatLT _ hp) hd h
  refine ⟨r, ?_, hrv⟩
  rw [checkedMulDivCeil, checkedMul, fit_of_lt hp, Outcome.okOr_some, Outcome.ok_bind, hr]

/-! ## Integer square root -/

/-- The update `(x + value / x) / 2` of the loop. -/
def newtonNext (value x : U128) : Result U128 := do
  let q ← divOrPanic value x
  let sum ← addOrPanic x q
  divOrPanic sum 2

/-- `while next < x { x = next; next = (x + value / x) / 2; }`, returning the last `x`. -/
def newtonLoop (value x next : U128) : Result U128 :=
  if _h : next < x then do
    let next' ← newtonNext value next
    newtonLoop value next next'
  else .ok x
termination_by x.toNat
decreasing_by exact _h

/-- `floor(sqrt(value))` by Newton's method from `2 ^ ceil(bits / 2)`. -/
def integerSqrtFloor (value : U128) : Result U128 :=
  if value = 0 then .ok 0
  else do
    let bits := 128 - leadingZeros value
    let x ← shlOrPanic 1 ((bits + 1) / 2)
    let next ← newtonNext value x
    newtonLoop value x next

/-- The loop invariant: `x` is a positive point at or above the root, small enough that
`x + value / x` fits. -/
structure SqrtInv (value x : U128) : Prop where
  pos : 0 < x.toNat
  sqrt_le : Nat.sqrt value.toNat ≤ x.toNat
  le : x.toNat ≤ 2 ^ 64

theorem sqrt_lt_two_pow_64 (value : U128) : Nat.sqrt value.toNat < 2 ^ 64 := by
  rw [Nat.sqrt_lt]
  exact value.isLt

/-- Under the invariant the update does not abort, and computes `Newton.step`. -/
theorem newtonNext_ok {value x : U128} (h : SqrtInv value x) :
    ∃ next, newtonNext value x = .ok next ∧ next.toNat = Newton.step value.toNat x.toNat := by
  have hx : x ≠ 0 := toNat_pos.mp h.pos
  have hq := Newton.div_le_sqrt_add_two h.sqrt_le
  have hs := sqrt_lt_two_pow_64 value
  have hle := h.le
  have hsum : x.toNat + (value / x).toNat < 2 ^ 128 := by rw [BitVec.toNat_udiv]; omega
  refine ⟨BitVec.ofNatLT _ hsum / 2, ?_, ?_⟩
  · rw [newtonNext, divOrPanic_of_ne hx, Outcome.ok_bind, addOrPanic, checkedAdd, fit_of_lt hsum,
      Outcome.orPanic_some, Outcome.ok_bind, divOrPanic_of_ne (by decide)]
  · rw [BitVec.toNat_udiv, BitVec.toNat_ofNatLT, BitVec.toNat_udiv]
    rfl

/-- A decreasing update keeps the invariant: it lowers `x`, and stays at or above the root. -/
theorem SqrtInv.next {value x next : U128} (h : SqrtInv value x) (hv : value ≠ 0)
    (hn : next.toNat = Newton.step value.toNat x.toNat) (hlt : next < x) : SqrtInv value next where
  pos := by
    have h1 : 0 < Nat.sqrt value.toNat :=
      Nat.sqrt_pos.mpr (toNat_pos.mpr hv)
    have h2 := Newton.sqrt_le_step (n := value.toNat) h.pos
    omega
  sqrt_le := hn ▸ Newton.sqrt_le_step h.pos
  le := (Nat.le_of_lt hlt).trans h.le

/-- The loop ends with the root, by induction on its iterations. -/
theorem newtonLoop_ok {value : U128} (hv : value ≠ 0) (x next : U128) (h : SqrtInv value x)
    (hn : next.toNat = Newton.step value.toNat x.toNat) :
    ∃ r, newtonLoop value x next = .ok r ∧ r.toNat = Nat.sqrt value.toNat := by
  unfold newtonLoop
  split_ifs with hlt
  · have h' := h.next hv hn hlt
    obtain ⟨next', he, hn'⟩ := newtonNext_ok h'
    rw [he, Outcome.ok_bind]
    exact newtonLoop_ok hv next next' h' hn'
  · refine ⟨x, rfl, Newton.eq_sqrt_of_le_step h.pos h.sqrt_le ?_⟩
    rw [← hn]
    exact Nat.le_of_not_lt hlt
termination_by x.toNat
decreasing_by exact hlt

/-- The first estimate is a power of two above the root, none of whose bits is shifted out. -/
theorem start_inv (value : U128) :
    ∃ x, (shlOrPanic 1 ((128 - leadingZeros value + 1) / 2) : Result U128) = .ok x ∧
      x.toNat = 2 ^ ((128 - leadingZeros value + 1) / 2) ∧ SqrtInv value x := by
  rw [width_sub_leadingZeros]
  have hsize : Nat.size value.toNat ≤ 128 := Nat.size_le.mpr value.isLt
  set k := (Nat.size value.toNat + 1) / 2 with hk
  have hk64 : k ≤ 64 := by omega
  have hpow : 2 ^ k ≤ 2 ^ 64 := Nat.pow_le_pow_right two_pos hk64
  have hx : ((1 : U128) <<< k).toNat = 2 ^ k := by
    rw [BitVec.toNat_shiftLeft, Nat.shiftLeft_eq]
    exact (Nat.mod_eq_of_lt (by simp; omega)).trans (one_mul _)
  refine ⟨(1 : U128) <<< k, if_pos (by omega), hx, ?_, ?_, ?_⟩
  · rw [hx]; positivity
  · rw [hx]; exact Newton.sqrt_lt_two_pow_half_size.le
  · rwa [hx]

theorem integerSqrtFloor_ok (value : U128) :
    ∃ r, integerSqrtFloor value = .ok r ∧ r.toNat = Nat.sqrt value.toNat := by
  unfold integerSqrtFloor
  split_ifs with hv
  · exact ⟨0, rfl, by rw [hv]; simp⟩
  · obtain ⟨x, hx, -, hinv⟩ := start_inv value
    obtain ⟨next, hnext, hn⟩ := newtonNext_ok hinv
    dsimp only
    rw [hx, Outcome.ok_bind, hnext, Outcome.ok_bind]
    exact newtonLoop_ok hv x next hinv hn

end AmmMath
