import ToyAmm.Word

/-!
# A token program

Mints and token accounts under addresses of any type `Key`, and the operations of a token program
on them: checked transfer, mint, burn, and the creation of a mint or of an associated account. Each
operation is given the keys that signed it and makes its checks in the program's order. Amounts are
64-bit words.

The ledger stands for the SPL token and associated-token programs as far as these five operations
go. An account has one owner, who alone can pay from it, and a mint has at most one authority, which
never changes: there is no delegate, no multisig, no freezing and no closing of an account, no
change of an owner or an authority, no native account and no extension.
-/

open Checked

namespace Token

variable {Key : Type}

structure Mint (Key : Type) where
  mintAuthority : Option Key
  supply : BitVec 64
  decimals : BitVec 8
  deriving DecidableEq, Repr

structure Account (Key : Type) where
  mint : Key
  owner : Key
  amount : BitVec 64
  deriving DecidableEq, Repr

structure Ledger (Key : Type) where
  mints : Key → Option (Mint Key)
  accounts : Key → Option (Account Key)

inductive TokenError where
  /-- The account is missing or of another kind. -/
  | invalidAccount
  | insufficientFunds
  | mintMismatch
  | mintDecimalsMismatch
  | ownerMismatch
  | missingRequiredSignature
  | fixedSupply
  | overflow
  | alreadyInUse
  | invalidSeeds
  deriving DecidableEq, Repr

abbrev Result (α : Type) := Outcome TokenError α

namespace Ledger

def empty : Ledger Key where
  mints _ := none
  accounts _ := none

variable [DecidableEq Key]

def setMint (L : Ledger Key) (k : Key) (m : Mint Key) : Ledger Key :=
  { L with mints := Function.update L.mints k (some m) }

def setAccount (L : Ledger Key) (k : Key) (t : Account Key) : Ledger Key :=
  { L with accounts := Function.update L.accounts k (some t) }

section Setters

variable {L : Ledger Key} {k k' : Key}

@[simp] theorem mints_setAccount (t : Account Key) : (L.setAccount k t).mints = L.mints := rfl

@[simp] theorem accounts_setMint (m : Mint Key) : (L.setMint k m).accounts = L.accounts := rfl

@[simp] theorem accounts_setAccount_self (t : Account Key) :
    (L.setAccount k t).accounts k = some t := Function.update_self ..

theorem accounts_setAccount_of_ne (h : k' ≠ k) (t : Account Key) :
    (L.setAccount k t).accounts k' = L.accounts k' := Function.update_of_ne h ..

@[simp] theorem mints_setMint_self (m : Mint Key) : (L.setMint k m).mints k = some m :=
  Function.update_self ..

theorem mints_setMint_of_ne (h : k' ≠ k) (m : Mint Key) :
    (L.setMint k m).mints k' = L.mints k' := Function.update_of_ne h ..

end Setters

/-- Nothing is stored at the address. -/
def vacant (L : Ledger Key) (k : Key) : Bool := (L.mints k).isNone && (L.accounts k).isNone

omit [DecidableEq Key] in
theorem vacant_iff {L : Ledger Key} {k : Key} :
    L.vacant k = true ↔ L.mints k = none ∧ L.accounts k = none := by
  simp [vacant]

/-- The authority has to be the expected one, and has to have signed. -/
def validateOwner (expected authority : Key) (signers : List Key) : Result PUnit := do
  .require (expected = authority) .ownerMismatch
  .require (authority ∈ signers) .missingRequiredSignature

def transferChecked (L : Ledger Key) (signers : List Key)
    (source mint destination authority : Key) (amount : BitVec 64) (decimals : BitVec 8) :
    Result (Ledger Key) := do
  let src ← .okOr .invalidAccount (L.accounts source)
  let dst ← .okOr .invalidAccount (L.accounts destination)
  .require (amount ≤ src.amount) .insufficientFunds
  .require (src.mint = dst.mint) .mintMismatch
  .require (src.mint = mint) .mintMismatch
  let m ← .okOr .invalidAccount (L.mints mint)
  .require (decimals = m.decimals) .mintDecimalsMismatch
  validateOwner src.owner authority signers
  if source = destination then .ok L
  else do
    let srcAmount ← .okOr .overflow (checkedSub src.amount amount)
    let dstAmount ← .okOr .overflow (checkedAdd dst.amount amount)
    .ok ((L.setAccount source { src with amount := srcAmount }).setAccount destination
      { dst with amount := dstAmount })

def mintTo (L : Ledger Key) (signers : List Key) (mint destination authority : Key)
    (amount : BitVec 64) : Result (Ledger Key) := do
  let dst ← .okOr .invalidAccount (L.accounts destination)
  .require (mint = dst.mint) .mintMismatch
  let m ← .okOr .invalidAccount (L.mints mint)
  let mintAuthority ← .okOr .fixedSupply m.mintAuthority
  validateOwner mintAuthority authority signers
  let dstAmount ← .okOr .overflow (checkedAdd dst.amount amount)
  let supply ← .okOr .overflow (checkedAdd m.supply amount)
  .ok ((L.setAccount destination { dst with amount := dstAmount }).setMint mint
    { m with supply := supply })

def burn (L : Ledger Key) (signers : List Key) (source mint authority : Key)
    (amount : BitVec 64) : Result (Ledger Key) := do
  let src ← .okOr .invalidAccount (L.accounts source)
  let m ← .okOr .invalidAccount (L.mints mint)
  .require (amount ≤ src.amount) .insufficientFunds
  .require (mint = src.mint) .mintMismatch
  validateOwner src.owner authority signers
  let srcAmount ← .okOr .overflow (checkedSub src.amount amount)
  let supply ← .okOr .overflow (checkedSub m.supply amount)
  .ok ((L.setAccount source { src with amount := srcAmount }).setMint mint
    { m with supply := supply })

/-- Create a mint without supply at a vacant address, which has to sign. -/
def initializeMint (L : Ledger Key) (signers : List Key) (address mintAuthority : Key)
    (decimals : BitVec 8) : Result (Ledger Key) := do
  .require (L.vacant address) .alreadyInUse
  .require (address ∈ signers) .missingRequiredSignature
  .ok (L.setMint address { mintAuthority := some mintAuthority, supply := 0, decimals })

/-- Create an empty account at its associated address. -/
def createAssociated (ata : Key → Key → Key) (L : Ledger Key) (address owner mint : Key) :
    Result (Ledger Key) := do
  .require (address = ata owner mint) .invalidSeeds
  .require (L.vacant address) .alreadyInUse
  let _ ← .okOr .invalidAccount (L.mints mint)
  .ok (L.setAccount address { mint, owner, amount := 0 })

end Ledger

end Token
