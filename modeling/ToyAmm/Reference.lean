import ToyAmm.ConstantProduct
import ToyAmm.Liquidity
import ToyAmm.Swap

/-!
# The quotes over unbounded naturals

`Reference` restates the five quotes with exact floors, ceilings and square roots, and with no
bound on any number. `Matches` says that a machine quote is its reference wherever the reference's
result fits; the machine never panics, and its only error of its own is `Overflow`.
-/

open Checked ConstantProduct

namespace AmmMath

/-! ## The reference -/

namespace Reference

/-- The input left for the curve once the fee is taken, `floor(a * (10000 - fee) / 10000)`. -/
abbrev afterFee (amountIn feeBps : ℕ) : ℕ := floorNet (10000 - feeBps) 10000 amountIn

/-- What the curve pays for the net input `net`, `floor(net * y / (x + net))`. -/
abbrev curveOut (reserveIn reserveOut net : ℕ) : ℕ := floorOut reserveIn reserveOut net

/-- The net input for which the curve pays `out`, `ceil(out * x / (y - out))`. -/
abbrev curveIn (reserveIn reserveOut out : ℕ) : ℕ := ceilIn reserveIn reserveOut out

/-- The input that leaves `net` once the fee is taken, `ceil(net * 10000 / (10000 - fee))`. -/
abbrev grossUp (net feeBps : ℕ) : ℕ := ceilGross (10000 - feeBps) 10000 net

/-- The lesser of the two sides' shares. -/
def mintedShares (reserveA reserveB supply amountA amountB : ℕ) : ℕ :=
  min (amountA * supply / reserveA) (amountB * supply / reserveB)

def amountAfterFee (amountIn feeBps : ℕ) : Except AmmMathError ℕ :=
  if 10000 ≤ feeBps then .error .invalidFee else .ok (afterFee amountIn feeBps)

def swapExactInput (reserveIn reserveOut amountIn feeBps : ℕ) :
    Except AmmMathError (SwapQuote ℕ) :=
  if amountIn = 0 then .error .zeroAmount
  else if reserveIn = 0 ∨ reserveOut = 0 then .error .zeroReserve
  else if 10000 ≤ feeBps then .error .invalidFee
  else if curveOut reserveIn reserveOut (afterFee amountIn feeBps) = 0 then
    .error .insufficientOutput
  else .ok
    { amountIn
      amountInAfterFee := afterFee amountIn feeBps
      feeAmount := amountIn - afterFee amountIn feeBps
      amountOut := curveOut reserveIn reserveOut (afterFee amountIn feeBps)
      newReserveIn := reserveIn + amountIn
      newReserveOut := reserveOut - curveOut reserveIn reserveOut (afterFee amountIn feeBps) }

def swapExactOutput (reserveIn reserveOut amountOut feeBps : ℕ) :
    Except AmmMathError (ExactOutputQuote ℕ) :=
  if amountOut = 0 then .error .zeroAmount
  else if reserveIn = 0 ∨ reserveOut = 0 then .error .zeroReserve
  else if reserveOut ≤ amountOut then .error .insufficientLiquidity
  else if 10000 ≤ feeBps then .error .invalidFee
  else .ok
    { amountOut
      amountInAfterFee := curveIn reserveIn reserveOut amountOut
      amountIn := grossUp (curveIn reserveIn reserveOut amountOut) feeBps
      feeAmount := grossUp (curveIn reserveIn reserveOut amountOut) feeBps -
        curveIn reserveIn reserveOut amountOut
      newReserveIn := reserveIn + grossUp (curveIn reserveIn reserveOut amountOut) feeBps
      newReserveOut := reserveOut - amountOut }

def initialLiquidity (amountA amountB : ℕ) : Except AmmMathError (LiquidityQuote ℕ) :=
  if amountA = 0 ∨ amountB = 0 then .error .zeroAmount
  else if Nat.sqrt (amountA * amountB) ≤ 1000 then .error .insufficientLiquidity
  else .ok { lpTokens := Nat.sqrt (amountA * amountB) - 1000, amountA, amountB }

def addLiquidity (reserveA reserveB supply amountA amountB : ℕ) :
    Except AmmMathError (LiquidityQuote ℕ) :=
  if amountA = 0 ∨ amountB = 0 then .error .zeroAmount
  else if reserveA = 0 ∨ reserveB = 0 then .error .zeroReserve
  else if mintedShares reserveA reserveB supply amountA amountB = 0 then
    .error .insufficientLiquidity
  else .ok { lpTokens := mintedShares reserveA reserveB supply amountA amountB, amountA, amountB }

def removeLiquidity (reserveA reserveB supply lpTokens : ℕ) :
    Except AmmMathError (LiquidityQuote ℕ) :=
  if lpTokens = 0 then .error .zeroAmount
  else if reserveA = 0 ∨ reserveB = 0 then .error .zeroReserve
  else if supply = 0 ∨ supply < lpTokens then .error .insufficientLiquidity
  else if lpTokens * reserveA / supply = 0 ∨ lpTokens * reserveB / supply = 0 then
    .error .insufficientLiquidity
  else .ok
    { lpTokens, amountA := lpTokens * reserveA / supply, amountB := lpTokens * reserveB / supply }

end Reference

/-! ## Reading a machine quote as a reference quote -/

def SwapQuote.toNat (q : SwapQuote U64) : SwapQuote ℕ where
  amountIn := q.amountIn.toNat
  amountInAfterFee := q.amountInAfterFee.toNat
  feeAmount := q.feeAmount.toNat
  amountOut := q.amountOut.toNat
  newReserveIn := q.newReserveIn.toNat
  newReserveOut := q.newReserveOut.toNat

def ExactOutputQuote.toNat (q : ExactOutputQuote U64) : ExactOutputQuote ℕ where
  amountOut := q.amountOut.toNat
  amountInAfterFee := q.amountInAfterFee.toNat
  amountIn := q.amountIn.toNat
  feeAmount := q.feeAmount.toNat
  newReserveIn := q.newReserveIn.toNat
  newReserveOut := q.newReserveOut.toNat

def LiquidityQuote.toNat (q : LiquidityQuote U64) : LiquidityQuote ℕ where
  lpTokens := q.lpTokens.toNat
  amountA := q.amountA.toNat
  amountB := q.amountB.toNat

/-- The reference's answer, with `Overflow` for a result that does not fit. -/
def within {R : Type} (fits : R → Prop) [DecidablePred fits] : Except AmmMathError R → Result R
  | .ok r => if fits r then .ok r else .err .overflow
  | .error e => .err e

/-- The machine quote `run` is the reference quote `ref` wherever the latter fits. -/
def Matches {Q R : Type} (read : Q → R) (fits : R → Prop) [DecidablePred fits] (run : Result Q)
    (ref : Except AmmMathError R) : Prop :=
  run.map read = within fits ref

namespace Matches

variable {Q R : Type} {read : Q → R} {fits : R → Prop} [DecidablePred fits] {run : Result Q}
  {ref : Except AmmMathError R}

theorem of_ok {q : Q} {r : R} (hrun : run = .ok q) (href : ref = .ok r) (hq : read q = r)
    (hf : fits r) : Matches read fits run ref := by
  rw [Matches, hrun, href, Outcome.map_ok, hq]
  exact (if_pos hf).symm

theorem of_err {e : AmmMathError} (hrun : run = .err e) (href : ref = .error e) :
    Matches read fits run ref := by
  rw [Matches, hrun, href]
  rfl

theorem of_overflow {r : R} (hrun : run = .err .overflow) (href : ref = .ok r) (hf : ¬ fits r) :
    Matches read fits run ref := by
  rw [Matches, hrun, href, Outcome.map_err]
  exact (if_neg hf).symm

/-- A machine quote is a reference quote that fits. -/
theorem ok (h : Matches read fits run ref) {q : Q} (hq : run = .ok q) :
    ref = .ok (read q) ∧ fits (read q) := by
  subst hq
  rw [Matches, Outcome.map_ok] at h
  rcases ref with e | r
  · cases h
  · by_cases hf : fits r
    · have hr : read q = r := Outcome.ok.inj (h.trans (if_pos hf))
      rw [hr]
      exact ⟨rfl, hf⟩
    · cases h.trans (if_neg hf)

/-- A reference quote that fits is a machine quote. -/
theorem exists_ok (h : Matches read fits run ref) {r : R} (hr : ref = .ok r) (hf : fits r) :
    ∃ q, run = .ok q ∧ read q = r := by
  subst hr
  exact Outcome.map_eq_ok.mp (h.trans (if_pos hf))

/-- An error of the machine quote is the reference's, or an `Overflow`. -/
theorem err_iff (h : Matches read fits run ref) {e : AmmMathError} :
    run = .err e ↔ ref = .error e ∨ e = .overflow ∧ ∃ r, ref = .ok r ∧ ¬ fits r := by
  rw [← Outcome.map_eq_err (f := read), h]
  rcases ref with e' | r
  · simp [within]
  · by_cases hf : fits r <;> simp [within, hf, eq_comm]

theorem ne_panic (h : Matches read fits run ref) : run ≠ .panic := by
  rw [ne_eq, ← Outcome.map_eq_panic (f := read), h]
  rcases ref with e' | r
  · simp [within]
  · by_cases hf : fits r <;> simp [within, hf]

end Matches

end AmmMath
