import ToyAmm.Math

/-!
# Liquidity quotes

`initialLiquidity`, `addLiquidity` and `removeLiquidity`. Each is a pure function of the amounts,
the reserves and the supply, with its checks in the order of the source.
-/

open Checked

namespace AmmMath

/-- LP tokens locked by the first deposit. -/
def minimumLiquidity : U64 := 1000

/-- First deposit: `floor(sqrt(a * b))` tokens, of which `minimumLiquidity` are not the user's. -/
def initialLiquidity (amountA amountB : U64) : Result (LiquidityQuote U64) :=
  if amountA = 0 ∨ amountB = 0 then .err .zeroAmount
  else do
    let product ← .okOr .overflow (checkedMul (extend 128 amountA) (extend 128 amountB))
    let root ← integerSqrtFloor product
    let minted ← narrowU64 root
    if minted ≤ minimumLiquidity then .err .insufficientLiquidity
    else do
      let lpTokens ← subOrPanic minted minimumLiquidity
      .ok { lpTokens, amountA, amountB }

/-- Later deposit: the lesser of the two sides' shares, each rounded down. -/
def addLiquidity (reserveA reserveB totalLpSupply amountA amountB : U64) :
    Result (LiquidityQuote U64) :=
  if amountA = 0 ∨ amountB = 0 then .err .zeroAmount
  else if reserveA = 0 ∨ reserveB = 0 then .err .zeroReserve
  else do
    let lpFromA ←
      checkedMulDivFloor (extend 128 amountA) (extend 128 totalLpSupply) (extend 128 reserveA)
    let lpFromB ←
      checkedMulDivFloor (extend 128 amountB) (extend 128 totalLpSupply) (extend 128 reserveB)
    let lpTokens ← narrowU64 (least lpFromA lpFromB)
    if lpTokens = 0 then .err .insufficientLiquidity
    else .ok { lpTokens, amountA, amountB }

/-- Withdrawal: both sides' proportional amounts, each rounded down. -/
def removeLiquidity (reserveA reserveB totalLpSupply lpTokens : U64) :
    Result (LiquidityQuote U64) :=
  if lpTokens = 0 then .err .zeroAmount
  else if reserveA = 0 ∨ reserveB = 0 then .err .zeroReserve
  else if totalLpSupply = 0 ∨ lpTokens > totalLpSupply then .err .insufficientLiquidity
  else do
    let wideA ←
      checkedMulDivFloor (extend 128 lpTokens) (extend 128 reserveA) (extend 128 totalLpSupply)
    let amountA ← narrowU64 wideA
    let wideB ←
      checkedMulDivFloor (extend 128 lpTokens) (extend 128 reserveB) (extend 128 totalLpSupply)
    let amountB ← narrowU64 wideB
    if amountA = 0 ∨ amountB = 0 then .err .insufficientLiquidity
    else .ok { lpTokens, amountA, amountB }

end AmmMath
