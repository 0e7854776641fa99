import ToyAmm.Accounts
import ToyAmm.Liquidity
import ToyAmm.Swap

/-!
# Instruction handlers

The handlers of the program's seven instructions over a `Bank`, and `exec`, which runs a call of the
program or of the token program. A call is given the keys that signed its transaction; a call to the
token program from a handler may add the config's own address to them.
-/

open Checked AmmMath Token

namespace Amm

variable {Key : Type} [DecidableEq Key]

/-- A quote of the math library, with the program's error for its error. -/
def quoted {α : Type} (q : AmmMath.Result α) : Result α :=
  q.mapErr fun e => .amm (.ofMath e)

/-- The address that the program signs with for a config. -/
def configSigner (A : AddressScheme Key) (config : Config Key) : List Key :=
  (A.createProgramAddress (.config config.seed) config.configBump).toList

/-! ## Initialize -/

def Initialize.init (self : Initialize Key) (B : Bank Key) (seed : U64) (feeBps : U16)
    (authority : Option Key) (bumps : InitializeBumps) : Result (Bank Key) := do
  .require (extend 64 feeBps < feeDenominator) (.amm .invalidFee)
  .ok (B.setConfig self.config
    { seed
      authority
      mintX := self.mintX
      mintY := self.mintY
      feeBps
      locked := false
      configBump := bumps.config
      lpBump := bumps.mintLp })

/-! ## Liquidity -/

/-- The quote of a deposit: the first one is quoted without the reserves. -/
def AddLiquidity.quote (loaded : LoadedLp Key) (amountA amountB : U64) :
    Result (LiquidityQuote U64) :=
  if loaded.mintLp.supply = 0 then quoted (initialLiquidity amountA amountB)
  else quoted (addLiquidity loaded.vaultX.amount loaded.vaultY.amount loaded.mintLp.supply
    amountA amountB)

def AddLiquidity.handle (self : AddLiquidity Key) (A : AddressScheme Key) (B : Bank Key)
    (signers : List Key) (loaded : LoadedLp Key) (amountA amountB minLpTokens : U64) :
    Result (Bank Key) := do
  .require (loaded.config.locked = false) (.amm .poolLocked)
  let quote ← AddLiquidity.quote loaded amountA amountB
  .require (minLpTokens ≤ quote.lpTokens) (.amm .slippageExceeded)
  let B ← B.cpi (B.tokens.transferChecked signers self.userX self.mintX self.vaultX self.user
    quote.amountA loaded.mintX.decimals)
  let B ← B.cpi (B.tokens.transferChecked signers self.userY self.mintY self.vaultY self.user
    quote.amountB loaded.mintY.decimals)
  let B ← B.cpi (B.tokens.mintTo (configSigner A loaded.config ++ signers) self.mintLp self.userLp
    self.config quote.lpTokens)
  if loaded.mintLp.supply = 0 then
    B.cpi (B.tokens.mintTo (configSigner A loaded.config ++ signers) self.mintLp self.lpVault
      self.config minimumLiquidity)
  else .ok B

def RemoveLiquidity.handle (self : RemoveLiquidity Key) (A : AddressScheme Key) (B : Bank Key)
    (signers : List Key) (loaded : LoadedLp Key) (lpBurn minA minB : U64) :
    Result (Bank Key) := do
  .require (loaded.config.locked = false) (.amm .poolLocked)
  let quote ← quoted (removeLiquidity loaded.vaultX.amount loaded.vaultY.amount
    loaded.mintLp.supply lpBurn)
  .require (minA ≤ quote.amountA) (.amm .slippageExceeded)
  .require (minB ≤ quote.amountB) (.amm .slippageExceeded)
  let B ← B.cpi (B.tokens.burn signers self.userLp self.mintLp self.user quote.lpTokens)
  let B ← B.cpi (B.tokens.transferChecked (configSigner A loaded.config ++ signers) self.vaultX
    self.mintX self.userX self.config quote.amountA loaded.mintX.decimals)
  B.cpi (B.tokens.transferChecked (configSigner A loaded.config ++ signers) self.vaultY
    self.mintY self.userY self.config quote.amountB loaded.mintY.decimals)

/-! ## Swap -/

inductive SwapKind where
  | exactInput (amountIn minAmountOut : U64)
  | exactOutput (amountOut maxAmountIn : U64)
  deriving DecidableEq, Repr

/-- The amounts that a swap moves. -/
structure SwapAmounts where
  amountIn : U64
  amountOut : U64
  deriving DecidableEq, Repr

def SwapKind.quote (kind : SwapKind) (reserveIn reserveOut : U64) (feeBps : U16) :
    Result SwapAmounts :=
  match kind with
  | .exactInput targetIn minAmountOut => do
    let quote ← quoted (swapExactInput reserveIn reserveOut targetIn feeBps)
    .require (minAmountOut ≤ quote.amountOut) (.amm .slippageExceeded)
    .ok { amountIn := quote.amountIn, amountOut := quote.amountOut }
  | .exactOutput targetOut maxAmountIn => do
    let quote ← quoted (swapExactOutput reserveIn reserveOut targetOut feeBps)
    .require (quote.amountIn ≤ maxAmountIn) (.amm .slippageExceeded)
    .ok { amountIn := quote.amountIn, amountOut := quote.amountOut }

/-- The accounts of a swap in one direction. -/
structure SwapLegs (Key : Type) where
  userIn : Key
  userOut : Key
  vaultIn : Key
  vaultOut : Key
  mintIn : Key
  mintOut : Key
  decimalsIn : U8
  decimalsOut : U8
  deriving DecidableEq, Repr

def Swap.legs (self : Swap Key) (loaded : Loaded Key) (aToB : Bool) : SwapLegs Key :=
  if aToB then
    { userIn := self.userX
      userOut := self.userY
      vaultIn := self.vaultX
      vaultOut := self.vaultY
      mintIn := self.mintX
      mintOut := self.mintY
      decimalsIn := loaded.mintX.decimals
      decimalsOut := loaded.mintY.decimals }
  else
    { userIn := self.userY
      userOut := self.userX
      vaultIn := self.vaultY
      vaultOut := self.vaultX
      mintIn := self.mintY
      mintOut := self.mintX
      decimalsIn := loaded.mintY.decimals
      decimalsOut := loaded.mintX.decimals }

def Swap.swap (self : Swap Key) (A : AddressScheme Key) (B : Bank Key) (signers : List Key)
    (loaded : Loaded Key) (kind : SwapKind) (aToB : Bool) : Result (Bank Key) := do
  .require (loaded.config.locked = false) (.amm .poolLocked)
  let reserveIn := if aToB then loaded.vaultX.amount else loaded.vaultY.amount
  let reserveOut := if aToB then loaded.vaultY.amount else loaded.vaultX.amount
  let amounts ← kind.quote reserveIn reserveOut loaded.config.feeBps
  let legs := self.legs loaded aToB
  let B ← B.cpi (B.tokens.transferChecked signers legs.userIn legs.mintIn legs.vaultIn self.user
    amounts.amountIn legs.decimalsIn)
  B.cpi (B.tokens.transferChecked (configSigner A loaded.config ++ signers) legs.vaultOut
    legs.mintOut legs.userOut self.config amounts.amountOut legs.decimalsOut)

/-! ## Administration -/

/-- The check that the three admin handlers begin with. -/
def Admin.authorize (self : Admin Key) (config : Config Key) : Result PUnit := do
  let stored ← .okOr (.amm .authorityRenounced) config.authority
  .require (self.authority = stored) (.amm .unauthorized)

def UpdateFee.updateFee (self : UpdateFee Key) (B : Bank Key) (config : Config Key)
    (newFeeBps : U16) : Result (Bank Key) := do
  self.authorize config
  .require (extend 64 newFeeBps < feeDenominator) (.amm .invalidFee)
  .ok (B.setConfig self.config { config with feeBps := newFeeBps })

def SetLocked.setLocked (self : SetLocked Key) (B : Bank Key) (config : Config Key)
    (locked : Bool) : Result (Bank Key) := do
  self.authorize config
  .ok (B.setConfig self.config { config with locked })

def UpdateAuthority.updateAuthority (self : UpdateAuthority Key) (B : Bank Key)
    (config : Config Key) (newAuthority : Option Key) : Result (Bank Key) := do
  self.authorize config
  .ok (B.setConfig self.config { config with authority := newAuthority })

/-! ## Calls -/

/-- An instruction of the program. -/
inductive Instruction (Key : Type) where
  | init (accounts : Initialize Key) (seed : U64) (feeBps : U16) (authority : Option Key)
  | addLiquidity (accounts : AddLiquidity Key) (amountA amountB minLpTokens : U64)
  | removeLiquidity (accounts : RemoveLiquidity Key) (lpBurn minA minB : U64)
  | swap (accounts : Swap Key) (kind : SwapKind) (aToB : Bool)
  | updateFee (accounts : UpdateFee Key) (newFeeBps : U16)
  | setLocked (accounts : SetLocked Key) (locked : Bool)
  | updateAuthority (accounts : UpdateAuthority Key) (newAuthority : Option Key)
  deriving DecidableEq, Repr

/-- Check the accounts, then run the handler. -/
def Instruction.process (A : AddressScheme Key) (B : Bank Key) (signers : List Key) :
    Instruction Key → Result (Bank Key)
  | .init self seed feeBps authority => do
    let B ← self.tryAccounts A B signers seed
    self.init B seed feeBps authority (self.bumps A seed)
  | .addLiquidity self amountA amountB minLpTokens => do
    let loaded ← self.tryAccounts A B signers
    self.handle A loaded.1 signers loaded.2 amountA amountB minLpTokens
  | .removeLiquidity self lpBurn minA minB => do
    let loaded ← self.tryAccounts A B signers
    self.handle A B signers loaded lpBurn minA minB
  | .swap self kind aToB => do
    let loaded ← self.tryAccounts A B signers
    self.swap A B signers loaded kind aToB
  | .updateFee self newFeeBps => do
    let config ← self.tryAccounts A B signers
    UpdateFee.updateFee self B config newFeeBps
  | .setLocked self locked => do
    let config ← self.tryAccounts A B signers
    SetLocked.setLocked self B config locked
  | .updateAuthority self newAuthority => do
    let config ← self.tryAccounts A B signers
    UpdateAuthority.updateAuthority self B config newAuthority

/-- A direct call of the token program. -/
inductive TokenInstruction (Key : Type) where
  | transferChecked (source mint destination authority : Key) (amount : U64) (decimals : U8)
  | mintTo (mint destination authority : Key) (amount : U64)
  | burn (source mint authority : Key) (amount : U64)
  | initializeMint (address mintAuthority : Key) (decimals : U8)
  | createAssociated (address owner mint : Key)
  deriving DecidableEq, Repr

def TokenInstruction.process (A : AddressScheme Key) (B : Bank Key) (signers : List Key) :
    TokenInstruction Key → Result (Bank Key)
  | .transferChecked source mint destination authority amount decimals =>
    B.cpi (B.tokens.transferChecked signers source mint destination authority amount decimals)
  | .mintTo mint destination authority amount =>
    B.cpi (B.tokens.mintTo signers mint destination authority amount)
  | .burn source mint authority amount => B.cpi (B.tokens.burn signers source mint authority amount)
  | .initializeMint address mintAuthority decimals => do
    .require ((B.configs address).isNone) (.token .alreadyInUse)
    B.cpi (B.tokens.initializeMint signers address mintAuthority decimals)
  | .createAssociated address owner mint => do
    .require ((B.configs address).isNone) (.token .alreadyInUse)
    B.cpi (B.tokens.createAssociated A.associatedAddress address owner mint)

inductive Op (Key : Type) where
  | amm (ix : Instruction Key)
  | token (ix : TokenInstruction Key)
  deriving DecidableEq, Repr

/-- A call in a transaction signed by `signers`. -/
structure Call (Key : Type) where
  signers : List Key
  op : Op Key
  deriving DecidableEq, Repr

/-- Run one call; if it fails, nothing is changed. -/
def exec (A : AddressScheme Key) (B : Bank Key) (call : Call Key) : Result (Bank Key) :=
  match call.op with
  | .amm ix => ix.process A B call.signers
  | .token ix => ix.process A B call.signers

/-- No signature is one of the program's own addresses. -/
def Call.Admissible (A : AddressScheme Key) (call : Call Key) : Prop :=
  ∀ k ∈ call.signers, ¬ A.IsProgramAddress k

end Amm
