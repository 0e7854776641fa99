import ToyAmm.State

/-!
# Account validation

The accounts of each instruction, all chosen by the caller, and the checks that the framework makes
on them before the handler runs: first every account is loaded, in the order of its declaration,
then accounts are created (`init`, `init_if_needed`), then the remaining constraints are checked.
The handlers read the accounts as they were loaded.
-/

open Checked AmmMath Token

namespace Amm

variable {Key : Type}

/-! ## Checks -/

section Checks

variable [DecidableEq Key] (A : AddressScheme Key) (B : Bank Key)

def requireSigner (signers : List Key) (k : Key) : Result PUnit :=
  .require (k ∈ signers) (.anchor .accountNotSigner)

def loadMint (k : Key) : Result (Mint Key) := .okOr (.anchor .invalidAccount) (B.tokens.mints k)

def loadAccount (k : Key) : Result (Account Key) :=
  .okOr (.anchor .invalidAccount) (B.tokens.accounts k)

def loadConfig (k : Key) : Result (Config Key) := .okOr (.anchor .invalidAccount) (B.configs k)

/-- `has_one` -/
def hasOne (stored given : Key) : Result PUnit :=
  .require (stored = given) (.anchor .constraintHasOne)

/-- `seeds`, with a stored `bump` -/
def checkSeeds (k : Key) (seeds : Seeds Key) (bump : U8) : Result PUnit :=
  .require (A.createProgramAddress seeds bump = some k) (.anchor .constraintSeeds)

/-- `associated_token::mint`, `associated_token::authority` -/
def checkAssociated (k : Key) (loaded : Account Key) (mint authority : Key) : Result PUnit := do
  .require (loaded.owner = authority) (.anchor .constraintTokenOwner)
  .require (k = A.associatedAddress authority mint) (.anchor .constraintAssociated)

/-- `init` with `seeds`, `mint::decimals` and `mint::authority`; the program signs for it. -/
def initMint (signers : List Key) (k : Key) (seeds : Seeds Key) (decimals : U8) (authority : Key) :
    Result (Bank Key) := do
  .require (k = (A.findProgramAddress seeds).1) (.anchor .constraintSeeds)
  .require ((B.configs k).isNone) (.anchor .alreadyInUse)
  B.cpi (B.tokens.initializeMint (k :: signers) k authority decimals)

/-- `init` with `associated_token::mint` and `associated_token::authority` -/
def initAssociated (k mint authority : Key) : Result (Bank Key) := do
  .require ((B.configs k).isNone) (.anchor .alreadyInUse)
  B.cpi (B.tokens.createAssociated A.associatedAddress k authority mint)

/-- `init_if_needed` with `associated_token::mint` and `associated_token::authority` -/
def initAssociatedIfNeeded (k mint authority : Key) : Result (Bank Key) :=
  if B.vacant k then initAssociated A B k mint authority
  else do
    let loaded ← loadAccount B k
    .require (loaded.mint = mint) (.anchor .constraintTokenMint)
    .require (loaded.owner = authority) (.anchor .constraintTokenOwner)
    .require (k = A.associatedAddress authority mint)
      (.anchor .accountNotAssociatedTokenAccount)
    .ok B

end Checks

/-! ## Initialize -/

structure Initialize (Key : Type) where
  initializer : Key
  mintX : Key
  mintY : Key
  mintLp : Key
  vaultX : Key
  vaultY : Key
  lpVault : Key
  config : Key
  deriving DecidableEq, Repr

/-- The canonical bumps of the two addresses that `Initialize` creates. -/
structure InitializeBumps where
  mintLp : U8
  config : U8
  deriving DecidableEq, Repr

def Initialize.bumps (self : Initialize Key) (A : AddressScheme Key) (seed : U64) :
    InitializeBumps where
  mintLp := (A.findProgramAddress (.lpMint self.config)).2
  config := (A.findProgramAddress (.config seed)).2

/-- Create the pool's accounts. The config account itself is left to the handler that writes it. -/
def Initialize.tryAccounts [DecidableEq Key] (self : Initialize Key) (A : AddressScheme Key)
    (B : Bank Key) (signers : List Key) (seed : U64) : Result (Bank Key) := do
  requireSigner signers self.initializer
  let _ ← loadMint B self.mintX
  let _ ← loadMint B self.mintY
  let B ← initMint A B signers self.mintLp (.lpMint self.config) lpMintDecimals self.config
  let B ← initAssociated A B self.vaultX self.mintX self.config
  let B ← initAssociated A B self.vaultY self.mintY self.config
  let B ← initAssociated A B self.lpVault self.mintLp self.config
  .require (self.config = (A.findProgramAddress (.config seed)).1) (.anchor .constraintSeeds)
  .require (B.vacant self.config) (.anchor .alreadyInUse)
  .ok B

/-! ## Trades -/

/-- What a trade has loaded and later reads. -/
structure Loaded (Key : Type) where
  config : Config Key
  mintX : Mint Key
  mintY : Mint Key
  vaultX : Account Key
  vaultY : Account Key
  deriving DecidableEq, Repr

structure Swap (Key : Type) where
  user : Key
  mintX : Key
  mintY : Key
  config : Key
  vaultX : Key
  vaultY : Key
  userX : Key
  userY : Key
  deriving DecidableEq, Repr

def Swap.tryAccounts [DecidableEq Key] (self : Swap Key) (A : AddressScheme Key) (B : Bank Key)
    (signers : List Key) : Result (Loaded Key) := do
  requireSigner signers self.user
  let mintX ← loadMint B self.mintX
  let mintY ← loadMint B self.mintY
  let config ← loadConfig B self.config
  let vaultX ← loadAccount B self.vaultX
  let vaultY ← loadAccount B self.vaultY
  let userX ← loadAccount B self.userX
  let userY ← loadAccount B self.userY
  hasOne config.mintX self.mintX
  hasOne config.mintY self.mintY
  checkSeeds A self.config (.config config.seed) config.configBump
  checkAssociated A self.vaultX vaultX self.mintX self.config
  checkAssociated A self.vaultY vaultY self.mintY self.config
  checkAssociated A self.userX userX self.mintX self.user
  checkAssociated A self.userY userY self.mintY self.user
  .ok { config, mintX, mintY, vaultX, vaultY }

/-- What a liquidity instruction has loaded and later reads. -/
structure LoadedLp (Key : Type) extends Loaded Key where
  mintLp : Mint Key
  deriving DecidableEq, Repr

structure AddLiquidity (Key : Type) where
  user : Key
  mintX : Key
  mintY : Key
  config : Key
  mintLp : Key
  vaultX : Key
  vaultY : Key
  lpVault : Key
  userX : Key
  userY : Key
  userLp : Key
  deriving DecidableEq, Repr

/-- The bank returned has the user's LP account, newly created if there was none. -/
def AddLiquidity.tryAccounts [DecidableEq Key] (self : AddLiquidity Key) (A : AddressScheme Key)
    (B : Bank Key) (signers : List Key) : Result (Bank Key × LoadedLp Key) := do
  requireSigner signers self.user
  let mintX ← loadMint B self.mintX
  let mintY ← loadMint B self.mintY
  let config ← loadConfig B self.config
  let mintLp ← loadMint B self.mintLp
  let vaultX ← loadAccount B self.vaultX
  let vaultY ← loadAccount B self.vaultY
  let lpVault ← loadAccount B self.lpVault
  let userX ← loadAccount B self.userX
  let userY ← loadAccount B self.userY
  let B ← initAssociatedIfNeeded A B self.userLp self.mintLp self.user
  hasOne config.mintX self.mintX
  hasOne config.mintY self.mintY
  checkSeeds A self.config (.config config.seed) config.configBump
  checkSeeds A self.mintLp (.lpMint self.config) config.lpBump
  checkAssociated A self.vaultX vaultX self.mintX self.config
  checkAssociated A self.vaultY vaultY self.mintY self.config
  checkAssociated A self.lpVault lpVault self.mintLp self.config
  checkAssociated A self.userX userX self.mintX self.user
  checkAssociated A self.userY userY self.mintY self.user
  .ok (B, { config, mintX, mintY, vaultX, vaultY, mintLp })

structure RemoveLiquidity (Key : Type) where
  user : Key
  mintX : Key
  mintY : Key
  config : Key
  mintLp : Key
  vaultX : Key
  vaultY : Key
  userX : Key
  userY : Key
  userLp : Key
  deriving DecidableEq, Repr

def RemoveLiquidity.tryAccounts [DecidableEq Key] (self : RemoveLiquidity Key)
    (A : AddressScheme Key) (B : Bank Key) (signers : List Key) : Result (LoadedLp Key) := do
  requireSigner signers self.user
  let mintX ← loadMint B self.mintX
  let mintY ← loadMint B self.mintY
  let config ← loadConfig B self.config
  let mintLp ← loadMint B self.mintLp
  let vaultX ← loadAccount B self.vaultX
  let vaultY ← loadAccount B self.vaultY
  let userX ← loadAccount B self.userX
  let userY ← loadAccount B self.userY
  let userLp ← loadAccount B self.userLp
  hasOne config.mintX self.mintX
  hasOne config.mintY self.mintY
  checkSeeds A self.config (.config config.seed) config.configBump
  checkSeeds A self.mintLp (.lpMint self.config) config.lpBump
  checkAssociated A self.vaultX vaultX self.mintX self.config
  checkAssociated A self.vaultY vaultY self.mintY self.config
  checkAssociated A self.userX userX self.mintX self.user
  checkAssociated A self.userY userY self.mintY self.user
  checkAssociated A self.userLp userLp self.mintLp self.user
  .ok { config, mintX, mintY, vaultX, vaultY, mintLp }

/-! ## Administration -/

/-- The accounts that the three admin instructions have in common. -/
structure Admin (Key : Type) where
  authority : Key
  config : Key
  deriving DecidableEq, Repr

abbrev UpdateFee := Admin
abbrev SetLocked := Admin
abbrev UpdateAuthority := Admin

def Admin.tryAccounts [DecidableEq Key] (self : Admin Key) (A : AddressScheme Key) (B : Bank Key)
    (signers : List Key) : Result (Config Key) := do
  requireSigner signers self.authority
  let config ← loadConfig B self.config
  checkSeeds A self.config (.config config.seed) config.configBump
  .ok config

end Amm
