import ToyAmm.Math
import ToyAmm.TokenLedger

/-!
# Program state, errors and addresses

`Config` is the account of a pool, `Bank` everything that the program and the token program store.
Addresses are of any type `Key`; how they are derived is not part of the program, so it is a
parameter, `AddressScheme`, whose derivations are injective. `Addr` is such a type, made of
symbolic addresses.
-/

open Checked AmmMath

namespace Amm

variable {Key : Type}

/-! ## Errors -/

inductive AmmError where
  | zeroAmount
  | zeroReserve
  | zeroDiv
  | invalidFee
  | overflow
  | underflow
  | insufficientOutput
  | insufficientLiquidity
  | poolLocked
  | slippageExceeded
  | unauthorized
  | authorityRenounced
  deriving DecidableEq, Repr

/-- The program's error for an error of the math library. -/
def AmmError.ofMath : AmmMathError → AmmError
  | .zeroAmount => .zeroAmount
  | .zeroReserve => .zeroReserve
  | .zeroDiv => .zeroDiv
  | .invalidFee => .invalidFee
  | .overflow => .overflow
  | .underflow => .underflow
  | .insufficientOutput => .insufficientOutput
  | .insufficientLiquidity => .insufficientLiquidity

theorem AmmError.ofMath_injective : Function.Injective AmmError.ofMath := by
  intro e e' h
  cases e <;> cases e' <;> first | rfl | cases h

/-- Errors of the framework's account checks. -/
inductive AnchorError where
  | accountNotSigner
  /-- The account is missing or of another type. -/
  | invalidAccount
  | constraintHasOne
  | constraintSeeds
  | constraintTokenMint
  | constraintTokenOwner
  | constraintAssociated
  | accountNotAssociatedTokenAccount
  | alreadyInUse
  deriving DecidableEq, Repr

inductive ProgramError where
  | amm (e : AmmError)
  | anchor (e : AnchorError)
  | token (e : Token.TokenError)
  deriving DecidableEq, Repr

abbrev Result (α : Type) := Outcome ProgramError α

/-! ## Accounts -/

/-- Per-pool configuration. -/
structure Config (Key : Type) where
  seed : U64
  authority : Option Key
  mintX : Key
  mintY : Key
  feeBps : U16
  locked : Bool
  configBump : U8
  lpBump : U8
  deriving DecidableEq, Repr

def lpMintDecimals : U8 := 6

/-- All accounts: the pools' configurations, and the mints and token accounts. -/
structure Bank (Key : Type) where
  configs : Key → Option (Config Key)
  tokens : Token.Ledger Key

namespace Bank

/-- A bank without pools. -/
def ofTokens (tokens : Token.Ledger Key) : Bank Key where
  configs _ := none
  tokens := tokens

/-- Nothing is stored at the address. -/
def vacant (B : Bank Key) (k : Key) : Bool := (B.configs k).isNone && B.tokens.vacant k

theorem vacant_iff {B : Bank Key} {k : Key} : B.vacant k = true ↔
    B.configs k = none ∧ B.tokens.mints k = none ∧ B.tokens.accounts k = none := by
  simp [vacant, Token.Ledger.vacant]

def setConfig [DecidableEq Key] (B : Bank Key) (k : Key) (c : Config Key) : Bank Key :=
  { B with configs := Function.update B.configs k (some c) }

section Setters

variable [DecidableEq Key] {B : Bank Key} {k k' : Key} {c : Config Key}

@[simp] theorem tokens_setConfig : (B.setConfig k c).tokens = B.tokens := rfl

@[simp] theorem configs_setConfig_self : (B.setConfig k c).configs k = some c :=
  Function.update_self ..

theorem configs_setConfig_of_ne (h : k' ≠ k) : (B.setConfig k c).configs k' = B.configs k' :=
  Function.update_of_ne h ..

end Setters

/-- Call the token program. -/
def cpi (B : Bank Key) (r : Token.Result (Token.Ledger Key)) : Result (Bank Key) := do
  let tokens ← r.mapErr .token
  .ok { B with tokens }

theorem cpi_eq_ok {B B' : Bank Key} {r : Token.Result (Token.Ledger Key)} :
    B.cpi r = .ok B' ↔ r = .ok B'.tokens ∧ B'.configs = B.configs := by
  unfold cpi
  simp only [Outcome.bind_eq_ok, Outcome.mapErr_eq_ok, Outcome.ok.injEq]
  constructor
  · rintro ⟨tokens, hr, rfl⟩
    exact ⟨hr, rfl⟩
  · rintro ⟨hr, hc⟩
    refine ⟨B'.tokens, hr, ?_⟩
    rw [← hc]

end Bank

/-! ## Addresses -/

/-- The seeds of the program's own addresses. -/
inductive Seeds (Key : Type) where
  /-- `[CONFIG_SEED, seed]` -/
  | config (seed : U64)
  /-- `[LP_MINT_SEED, config]` -/
  | lpMint (config : Key)
  deriving DecidableEq, Repr

/-- How addresses are derived. -/
structure AddressScheme (Key : Type) where
  /-- The program address for seeds and a bump, if that bump gives one. -/
  createProgramAddress : Seeds Key → U8 → Option Key
  /-- The program address for seeds with its canonical bump. -/
  findProgramAddress : Seeds Key → Key × U8
  /-- The associated token account of an owner for a mint. -/
  associatedAddress (owner mint : Key) : Key
  create_find (s : Seeds Key) :
    createProgramAddress s (findProgramAddress s).2 = some (findProgramAddress s).1
  create_injective {s s' : Seeds Key} {b b' : U8} {k : Key} :
    createProgramAddress s b = some k → createProgramAddress s' b' = some k → s = s'
  associated_injective {o o' m m' : Key} :
    associatedAddress o m = associatedAddress o' m' → o = o' ∧ m = m'

/-- An address of the program. No one has a key for it, so only the program signs with it. -/
def AddressScheme.IsProgramAddress (A : AddressScheme Key) (k : Key) : Prop :=
  ∃ s b, A.createProgramAddress s b = some k

/-- Symbolic addresses: a wallet's key, or what an address was derived from. -/
inductive Addr where
  | wallet (n : ℕ)
  | config (seed : U64)
  | lpMint (config : Addr)
  | associated (owner mint : Addr)
  deriving DecidableEq, Repr

/-- Derivation of symbolic addresses, with 255 as the only bump. -/
def Addr.scheme : AddressScheme Addr where
  createProgramAddress s b :=
    if b = 255 then
      match s with
      | .config seed => some (.config seed)
      | .lpMint c => some (.lpMint c)
    else none
  findProgramAddress
    | .config seed => (.config seed, 255)
    | .lpMint c => (.lpMint c, 255)
  associatedAddress := .associated
  create_find s := by cases s <;> rfl
  create_injective {s s' b b' k} h h' := by
    split_ifs at h h'
    cases s <;> cases s' <;> cases h <;> cases h' <;> rfl
  associated_injective h := by
    injection h with ho hm
    exact ⟨ho, hm⟩

theorem Addr.wallet_not_program (n : ℕ) : ¬ Addr.scheme.IsProgramAddress (.wallet n) := by
  rintro ⟨s, b, h⟩
  simp only [Addr.scheme] at h
  split_ifs at h
  cases s <;> cases h

end Amm
