import ToyAmm.Math

/-!
# Swap quotes

`amountAfterFee`, `swapExactInput` and `swapExactOutput` for the constant product `x * y = k`.
The fee stays in the reserve, so `newReserveIn` adds the full input while the output is priced
on the input after the fee.
-/

open Checked

namespace AmmMath

/-- Basis points in the whole. -/
def feeDenominator : U64 := 10000

/-- `floor(amountIn * (feeDenominator - feeBps) / feeDenominator)`. -/
def amountAfterFee (amountIn : U64) (feeBps : U16) : Result U64 :=
  if extend 64 feeBps ≥ feeDenominator then .err .invalidFee
  else do
    let multiplier ← subOrPanic (extend 128 feeDenominator) (extend 128 feeBps)
    let widened ← checkedMulDivFloor (extend 128 amountIn) multiplier (extend 128 feeDenominator)
    narrowU64 widened

/-- The caller fixes the input. -/
def swapExactInput (reserveIn reserveOut amountIn : U64) (feeBps : U16) : Result (SwapQuote U64) :=
  if amountIn = 0 then .err .zeroAmount
  else if reserveIn = 0 ∨ reserveOut = 0 then .err .zeroReserve
  else do
    let amountInAfterFee ← amountAfterFee amountIn feeBps
    let feeAmount ← subOrPanic amountIn amountInAfterFee
    let denom ← addOrPanic (extend 128 reserveIn) (extend 128 amountInAfterFee)
    let wideOut ← checkedMulDivFloor (extend 128 amountInAfterFee) (extend 128 reserveOut) denom
    let amountOut ← narrowU64 wideOut
    if amountOut = 0 then .err .insufficientOutput
    else do
      let newReserveIn ← .okOr .overflow
        ((checkedAdd (extend 128 reserveIn) (extend 128 amountIn)).bind (narrow 64))
      let newReserveOut ← .okOr .underflow (checkedSub reserveOut amountOut)
      .ok { amountIn, amountInAfterFee, feeAmount, amountOut, newReserveIn, newReserveOut }

/-- The caller fixes the output; the input is rounded up twice, on the curve and in the fee. -/
def swapExactOutput (reserveIn reserveOut amountOut : U64) (feeBps : U16) :
    Result (ExactOutputQuote U64) :=
  if amountOut = 0 then .err .zeroAmount
  else if reserveIn = 0 ∨ reserveOut = 0 then .err .zeroReserve
  else if amountOut ≥ reserveOut then .err .insufficientLiquidity
  else if extend 64 feeBps ≥ feeDenominator then .err .invalidFee
  else do
    let remaining ← subOrPanic reserveOut amountOut
    let wideAfterFee ←
      checkedMulDivCeil (extend 128 amountOut) (extend 128 reserveIn) (extend 128 remaining)
    let amountInAfterFee ← narrowU64 wideAfterFee
    let multiplier ← subOrPanic (extend 128 feeDenominator) (extend 128 feeBps)
    let wideIn ←
      checkedMulDivCeil (extend 128 amountInAfterFee) (extend 128 feeDenominator) multiplier
    let amountIn ← narrowU64 wideIn
    let feeAmount ← subOrPanic amountIn amountInAfterFee
    let wideReserveIn ← .okOr .overflow
      (checkedAdd (extend 128 reserveIn) (extend 128 amountIn))
    let newReserveIn ← narrowU64 wideReserveIn
    let newReserveOut ← .okOr .underflow (checkedSub reserveOut amountOut)
    .ok { amountOut, amountInAfterFee, amountIn, feeAmount, newReserveIn, newReserveOut }

end AmmMath
