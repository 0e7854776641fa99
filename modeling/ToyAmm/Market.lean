import ToyAmm.Reference
import ToyAmm.Simulation
import ToyAmm.State

/-!
# The market of a pool

What a pool is for, without accounts, words and signatures of the program: everyone, the pool
included, holds amounts of the two tokens and of shares, and an order moves some of them at the
reference's quote. An order that cannot be carried out for reasons other than the program's own
errors is refused with an abort. `Market` has no address but the names of its participants.
-/

open Checked AmmMath

namespace Amm

variable {Key : Type}

/-! ## Holdings -/

/-- The two tokens of a pool, and its shares. -/
inductive Asset where
  | x
  | y
  | lp
  deriving DecidableEq, Repr

/-- What a swap pays to the pool, and what it is paid. -/
def Asset.paidIn (aToB : Bool) : Asset := if aToB then .x else .y

def Asset.paidOut (aToB : Bool) : Asset := if aToB then .y else .x

/-- The rules of a pool, its shares, and who holds what of which asset. -/
@[ext]
structure Market (Key : Type) where
  feeBps : ℕ
  locked : Bool
  authority : Option Key
  shares : ℕ
  opened : Key → Asset → Bool
  holding : Key → Asset → ℕ

namespace Market

variable [DecidableEq Key] (M : Market Key)

def setHolding (k : Key) (a : Asset) (n : ℕ) : Market Key :=
  { M with holding := Function.update M.holding k (Function.update (M.holding k) a n) }

/-- Make sure that `k` has an account for `a`. -/
def openAccount (k : Key) (a : Asset) : Market Key :=
  { M with opened := Function.update M.opened k (Function.update (M.opened k) a true) }

variable {M} in
theorem holding_setHolding (k k' : Key) (a a' : Asset) (n : ℕ) :
    (M.setHolding k a n).holding k' a' = if k' = k ∧ a' = a then n else M.holding k' a' := by
  unfold setHolding
  by_cases hk : k' = k
  · subst hk
    by_cases ha : a' = a
    · subst ha
      simp
    · simp [ha]
  · simp [hk]

variable {M} in
theorem opened_openAccount (k k' : Key) (a a' : Asset) :
    (M.openAccount k a).opened k' a' = if k' = k ∧ a' = a then true else M.opened k' a' := by
  unfold openAccount
  by_cases hk : k' = k
  · subst hk
    by_cases ha : a' = a
    · subst ha
      simp
    · simp [ha]
  · simp [hk]

def debit (k : Key) (a : Asset) (n : ℕ) : Market Key := M.setHolding k a (M.holding k a - n)

def credit (k : Key) (a : Asset) (n : ℕ) : Market Key := M.setHolding k a (M.holding k a + n)

@[simp] theorem debit_zero (k : Key) (a : Asset) : M.debit k a 0 = M := by
  unfold debit setHolding
  rw [Nat.sub_zero, Function.update_eq_self, Function.update_eq_self]

@[simp] theorem credit_zero (k : Key) (a : Asset) : M.credit k a 0 = M := by
  unfold credit setHolding
  rw [Nat.add_zero, Function.update_eq_self, Function.update_eq_self]

theorem openAccount_of_opened {k : Key} {a : Asset} (h : M.opened k a = true) :
    M.openAccount k a = M := by
  unfold openAccount
  rw [← h, Function.update_eq_self, Function.update_eq_self]

/-- Both have an account, and the source holds as much. -/
def pay (src dst : Key) (a : Asset) (n : ℕ) : Option (Market Key) :=
  if M.opened src a ∧ M.opened dst a ∧ n ≤ M.holding src a then
    some ((M.debit src a n).credit dst a n)
  else none

/-- New shares for `k`; there are never more than a word holds. -/
def issue (k : Key) (n : ℕ) : Option (Market Key) :=
  if M.opened k .lp ∧ M.shares + n < 2 ^ 64 then
    some { M.credit k .lp n with shares := M.shares + n }
  else none

def burn (k : Key) (a : Asset) (n : ℕ) : Option (Market Key) :=
  if M.opened k a ∧ n ≤ M.holding k a then
    some { M.debit k a n with shares := if a = .lp then M.shares - n else M.shares }
  else none

end Market

/-! ## Orders -/

inductive Order (Key : Type) where
  | exactInput (user : Key) (aToB : Bool) (amountIn minAmountOut : ℕ)
  | exactOutput (user : Key) (aToB : Bool) (amountOut maxAmountIn : ℕ)
  | addLiquidity (user : Key) (amountA amountB minLpTokens : ℕ)
  | removeLiquidity (user : Key) (lpBurn minA minB : ℕ)
  | updateFee (authority : Key) (newFeeBps : ℕ)
  | setLocked (authority : Key) (locked : Bool)
  | updateAuthority (authority : Key) (newAuthority : Option Key)
  /-- A payment between participants. One to the pool is a gift to all shares. -/
  | pay (src dst : Key) (a : Asset) (amount : ℕ)
  | burn (owner : Key) (a : Asset) (amount : ℕ)
  | openAccount (owner : Key) (a : Asset)
  /-- What names other accounts than it has to. -/
  | refused
  deriving DecidableEq, Repr

abbrev Shown (α : Type) := Outcome AmmError α

/-- The reference's quote, or `Overflow` if the machine cannot hold it. -/
def quotedWithin {R : Type} (fits : R → Prop) [DecidablePred fits]
    (ref : Except AmmMathError R) : Shown R :=
  (within fits ref).mapErr .ofMath

/-- What an exact-input order pays and is paid. -/
def exactInputAmounts (amountIn minAmountOut reserveIn reserveOut feeBps : ℕ) : Shown (ℕ × ℕ) := do
  let quote ← quotedWithin (fun q => q.newReserveIn < 2 ^ 64)
    (Reference.swapExactInput reserveIn reserveOut amountIn feeBps)
  .require (minAmountOut ≤ quote.amountOut) .slippageExceeded
  .ok (quote.amountIn, quote.amountOut)

def exactOutputAmounts (amountOut maxAmountIn reserveIn reserveOut feeBps : ℕ) :
    Shown (ℕ × ℕ) := do
  let quote ← quotedWithin (fun q => q.newReserveIn < 2 ^ 64)
    (Reference.swapExactOutput reserveIn reserveOut amountOut feeBps)
  .require (quote.amountIn ≤ maxAmountIn) .slippageExceeded
  .ok (quote.amountIn, quote.amountOut)

namespace Market

variable [DecidableEq Key] (c : Key) (M : Market Key) (signers : List Key)

/-- A swap with the pool `c`: payment against payment, at amounts that the reserves and the fee
decide. -/
def swap (user : Key) (aToB : Bool) (amounts : ℕ → ℕ → ℕ → Shown (ℕ × ℕ)) :
    Shown (Market Key) := do
  .demand (user ∈ signers ∧ M.opened user .x ∧ M.opened user .y)
  .require (M.locked = false) .poolLocked
  let q ← amounts (M.holding c (.paidIn aToB)) (M.holding c (.paidOut aToB)) M.feeBps
  let M ← .orPanic (M.pay user c (.paidIn aToB) q.1)
  .orPanic (M.pay c user (.paidOut aToB) q.2)

/-- The first shares of a pool are quoted without reserves. -/
def depositQuote (amountA amountB : ℕ) : Shown (LiquidityQuote ℕ) :=
  if M.shares = 0 then quotedWithin (fun _ => True) (Reference.initialLiquidity amountA amountB)
  else quotedWithin (fun q => q.lpTokens < 2 ^ 64)
    (Reference.addLiquidity (M.holding c .x) (M.holding c .y) M.shares amountA amountB)

def addLiquidity (user : Key) (amountA amountB minLpTokens : ℕ) : Shown (Market Key) := do
  .demand (user ∈ signers ∧ M.opened user .x ∧ M.opened user .y)
  .require (M.locked = false) .poolLocked
  let quote ← M.depositQuote c amountA amountB
  .require (minLpTokens ≤ quote.lpTokens) .slippageExceeded
  let M₁ ← .orPanic ((M.openAccount user .lp).pay user c .x quote.amountA)
  let M₂ ← .orPanic (M₁.pay user c .y quote.amountB)
  let M₃ ← .orPanic (M₂.issue user quote.lpTokens)
  if M.shares = 0 then .orPanic (M₃.issue c 1000) else .ok M₃

def removeLiquidity (user : Key) (lpBurn minA minB : ℕ) : Shown (Market Key) := do
  .demand (user ∈ signers ∧ M.opened user .x ∧ M.opened user .y ∧ M.opened user .lp)
  .require (M.locked = false) .poolLocked
  let quote ← quotedWithin (fun _ => True)
    (Reference.removeLiquidity (M.holding c .x) (M.holding c .y) M.shares lpBurn)
  .require (minA ≤ quote.amountA) .slippageExceeded
  .require (minB ≤ quote.amountB) .slippageExceeded
  let M ← .orPanic (M.burn user .lp quote.lpTokens)
  let M ← .orPanic (M.pay c user .x quote.amountA)
  .orPanic (M.pay c user .y quote.amountB)

/-- The authority, if there is one, has to be the one that signed. -/
def authorize (authority : Key) : Shown PUnit := do
  .demand (authority ∈ signers)
  let stored ← .okOr .authorityRenounced M.authority
  .require (authority = stored) .unauthorized

/-- What one order does to the market. -/
def step (order : List Key × Order Key) : Shown (Market Key) :=
  match order.2 with
  | .exactInput user aToB amountIn minAmountOut =>
    M.swap c order.1 user aToB (exactInputAmounts amountIn minAmountOut)
  | .exactOutput user aToB amountOut maxAmountIn =>
    M.swap c order.1 user aToB (exactOutputAmounts amountOut maxAmountIn)
  | .addLiquidity user amountA amountB minLpTokens =>
    M.addLiquidity c order.1 user amountA amountB minLpTokens
  | .removeLiquidity user lpBurn minA minB => M.removeLiquidity c order.1 user lpBurn minA minB
  | .updateFee authority newFeeBps => do
    M.authorize order.1 authority
    .require (newFeeBps < 10000) .invalidFee
    .ok { M with feeBps := newFeeBps }
  | .setLocked authority locked => do
    M.authorize order.1 authority
    .ok { M with locked }
  | .updateAuthority authority newAuthority => do
    M.authorize order.1 authority
    .ok { M with authority := newAuthority }
  | .pay src dst a amount => do
    .demand (src ∈ order.1)
    .orPanic (M.pay src dst a amount)
  | .burn owner a amount => do
    .demand (owner ∈ order.1)
    .orPanic (M.burn owner a amount)
  | .openAccount owner a => do
    .demand (M.opened owner a = false)
    .ok (M.openAccount owner a)
  | .refused => .panic

end Market

end Amm
