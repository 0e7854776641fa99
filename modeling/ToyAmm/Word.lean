import Mathlib.Data.Nat.Size
import ToyAmm.Outcome

/-!
# Unsigned machine words with checked operations

A word of width `w` is a `BitVec w`. Every operation here computes its result over the naturals
and then asks whether it fits (`fit`), so each has one specification lemma: the result is the
word whose value is the exact one, and there is a result exactly when the exact value fits.
The `checked…` operations answer with an option; the operations ending in `OrPanic` are the
language's own operators, compiled with overflow checks.
-/

namespace Checked

universe u

variable {w v : ℕ} {ε : Type u}

/-- The word of width `w` with value `n`, if there is one. -/
def fit (w n : ℕ) : Option (BitVec w) :=
  if h : n < 2 ^ w then some (BitVec.ofNatLT n h) else none

theorem fit_of_lt {n : ℕ} (h : n < 2 ^ w) : fit w n = some (BitVec.ofNatLT n h) := dif_pos h

theorem fit_of_le {n : ℕ} (h : 2 ^ w ≤ n) : fit w n = none := dif_neg (Nat.not_lt.mpr h)

theorem fit_eq_some {n : ℕ} {a : BitVec w} : fit w n = some a ↔ a.toNat = n := by
  constructor
  · intro h
    unfold fit at h
    split_ifs at h with hn
    obtain rfl := Option.some.inj h
    rfl
  · rintro rfl
    rw [fit_of_lt a.isLt]
    rfl

/-! ## Checked operations -/

def checkedAdd (a b : BitVec w) : Option (BitVec w) := fit w (a.toNat + b.toNat)

def checkedMul (a b : BitVec w) : Option (BitVec w) := fit w (a.toNat * b.toNat)

def checkedSub (a b : BitVec w) : Option (BitVec w) :=
  if b.toNat ≤ a.toNat then fit w (a.toNat - b.toNat) else none

/-- The same value as a word of width `v`, if it fits. -/
def narrow (v : ℕ) (a : BitVec w) : Option (BitVec v) := fit v a.toNat

theorem checkedAdd_eq_some {a b c : BitVec w} :
    checkedAdd a b = some c ↔ c.toNat = a.toNat + b.toNat := fit_eq_some

theorem checkedSub_eq_some {a b c : BitVec w} :
    checkedSub a b = some c ↔ c.toNat + b.toNat = a.toNat := by
  unfold checkedSub
  split_ifs with h
  · rw [fit_eq_some]; omega
  · simp only [false_iff]; omega

theorem narrow_eq_some {a : BitVec w} {b : BitVec v} : narrow v a = some b ↔ b.toNat = a.toNat :=
  fit_eq_some

/-- The lesser of two words, the first one when they are equal. -/
def least (a b : BitVec w) : BitVec w := if a ≤ b then a else b

@[simp] theorem toNat_least (a b : BitVec w) : (least a b).toNat = min a.toNat b.toNat := by
  unfold least
  split_ifs with h
  · exact (min_eq_left h).symm
  · exact (min_eq_right (Nat.le_of_not_le h)).symm

theorem toNat_eq_zero {a : BitVec w} : a.toNat = 0 ↔ a = 0 := by
  simp [← BitVec.toNat_inj]

theorem toNat_pos {a : BitVec w} : 0 < a.toNat ↔ a ≠ 0 := by
  rw [Nat.pos_iff_ne_zero, ne_eq, toNat_eq_zero]

/-! ## Widening -/

/-- The same value as a word of width `v`, for a `v` at least `w`. -/
def extend (v : ℕ) (a : BitVec w) : BitVec v := a.setWidth v

@[simp] theorem toNat_extend (h : w ≤ v) (a : BitVec w) : (extend v a).toNat = a.toNat :=
  BitVec.toNat_setWidth_of_le h

/-! ## Operators that abort -/

def addOrPanic (a b : BitVec w) : Outcome ε (BitVec w) := .orPanic (checkedAdd a b)

def subOrPanic (a b : BitVec w) : Outcome ε (BitVec w) := .orPanic (checkedSub a b)

/-- Truncating division; dividing by zero aborts. -/
def divOrPanic (a b : BitVec w) : Outcome ε (BitVec w) :=
  if b = 0 then .panic else .ok (a / b)

/-- Left shift; a shift by the width or more aborts, bits shifted out are lost. -/
def shlOrPanic (a : BitVec w) (n : ℕ) : Outcome ε (BitVec w) :=
  if n < w then .ok (a <<< n) else .panic

theorem addOrPanic_eq_ok {a b c : BitVec w} :
    (addOrPanic a b : Outcome ε _) = .ok c ↔ c.toNat = a.toNat + b.toNat := by
  rw [addOrPanic, Outcome.orPanic_eq_ok, checkedAdd_eq_some]

theorem subOrPanic_eq_ok {a b c : BitVec w} :
    (subOrPanic a b : Outcome ε _) = .ok c ↔ c.toNat + b.toNat = a.toNat := by
  rw [subOrPanic, Outcome.orPanic_eq_ok, checkedSub_eq_some]

/-- The number of zero bits above the highest set bit. -/
def leadingZeros (a : BitVec w) : ℕ := w - Nat.size a.toNat

theorem width_sub_leadingZeros (a : BitVec w) : w - leadingZeros a = Nat.size a.toNat := by
  have h : Nat.size a.toNat ≤ w := Nat.size_le.mpr a.isLt
  unfold leadingZeros; omega

end Checked
