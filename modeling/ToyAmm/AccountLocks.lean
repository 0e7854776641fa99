import ToyAmm.Footprint
import ToyAmm.Isolation

/-!
# The accounts that an instruction declares

A transaction lists the accounts of its instructions, and which of them are writable; the runtime
lets no instruction write another one, and runs transactions in parallel if neither writes what the
other lists. The accounts structs of the program declare these lists (`mut`, `init`). Here the
lists are shown to be right: an instruction writes only what it declares
writable, and reads only what it declares (`exec_respects`). So no instruction fails for writing an
account that it did not declare, and a block of transactions can be performed in every order that
keeps conflicting ones in place (`schedule_agrees`).
-/

open Checked AmmMath Token Ledger Transition Footprint

/-! ## Token operations -/

namespace Token

namespace Ledger

variable {Key : Type} {L N : Ledger Key} {K signers : List Key}

/-- What is stored at an address. -/
def cell (L : Ledger Key) (k : Key) : Option (Mint Key) × Option (Account Key) :=
  (L.mints k, L.accounts k)

theorem mints_eq (h : SameOn cell K L N) {k : Key} (hk : k ∈ K) : L.mints k = N.mints k :=
  congrArg Prod.fst (h k hk)

theorem accounts_eq (h : SameOn cell K L N) {k : Key} (hk : k ∈ K) :
    L.accounts k = N.accounts k :=
  congrArg Prod.snd (h k hk)

theorem vacant_eq (h : SameOn cell K L N) {k : Key} (hk : k ∈ K) : L.vacant k = N.vacant k := by
  unfold vacant
  rw [mints_eq h hk, accounts_eq h hk]

variable [DecidableEq Key]

theorem sameOn_setAccount (h : SameOn cell K L N) (k : Key) (t : Account Key) :
    SameOn cell K (L.setAccount k t) (N.setAccount k t) := by
  intro i hi
  by_cases hik : i = k
  · subst hik
    unfold cell
    rw [mints_setAccount, mints_setAccount, mints_eq h hi, accounts_setAccount_self,
      accounts_setAccount_self]
  · unfold cell
    rw [mints_setAccount, mints_setAccount, accounts_setAccount_of_ne hik,
      accounts_setAccount_of_ne hik]
    exact h i hi

theorem sameOn_setMint (h : SameOn cell K L N) (k : Key) (M : Mint Key) :
    SameOn cell K (L.setMint k M) (N.setMint k M) := by
  intro i hi
  by_cases hik : i = k
  · subst hik
    unfold cell
    rw [accounts_setMint, accounts_setMint, accounts_eq h hi, mints_setMint_self,
      mints_setMint_self]
  · unfold cell
    rw [accounts_setMint, accounts_setMint, mints_setMint_of_ne hik, mints_setMint_of_ne hik]
    exact h i hi

theorem transferChecked_alike (h : SameOn cell K L N) {source mint destination : Key}
    (hs : source ∈ K) (hm : mint ∈ K) (hd : destination ∈ K) (authority : Key) (n : BitVec 64)
    (d : BitVec 8) :
    Outcome.Alike (SameOn cell K) (L.transferChecked signers source mint destination authority n d)
      (N.transferChecked signers source mint destination authority n d) := by
  unfold transferChecked
  rw [accounts_eq h hs, accounts_eq h hd, mints_eq h hm]
  refine .bind_same _ fun src _ => .bind_same _ fun dst _ => .bind_same _ fun _ _ => ?_
  refine .bind_same _ fun _ _ => .bind_same _ fun _ _ => .bind_same _ fun M _ => ?_
  refine .bind_same _ fun _ _ => .bind_same _ fun _ _ => ?_
  split_ifs with hsd
  · exact .ok h
  · refine .bind_same _ fun sa _ => .bind_same _ fun da _ => ?_
    exact .ok (sameOn_setAccount (sameOn_setAccount h _ _) _ _)

theorem mintTo_alike (h : SameOn cell K L N) {mint destination : Key} (hm : mint ∈ K)
    (hd : destination ∈ K) (authority : Key) (n : BitVec 64) :
    Outcome.Alike (SameOn cell K) (L.mintTo signers mint destination authority n)
      (N.mintTo signers mint destination authority n) := by
  unfold mintTo
  rw [accounts_eq h hd, mints_eq h hm]
  refine .bind_same _ fun dst _ => .bind_same _ fun _ _ => .bind_same _ fun M _ => ?_
  refine .bind_same _ fun auth _ => .bind_same _ fun _ _ => ?_
  refine .bind_same _ fun da _ => .bind_same _ fun s _ => ?_
  exact .ok (sameOn_setMint (sameOn_setAccount h _ _) _ _)

theorem burn_alike (h : SameOn cell K L N) {source mint : Key} (hs : source ∈ K) (hm : mint ∈ K)
    (authority : Key) (n : BitVec 64) :
    Outcome.Alike (SameOn cell K) (L.burn signers source mint authority n)
      (N.burn signers source mint authority n) := by
  unfold burn
  rw [accounts_eq h hs, mints_eq h hm]
  refine .bind_same _ fun src _ => .bind_same _ fun M _ => .bind_same _ fun _ _ => ?_
  refine .bind_same _ fun _ _ => .bind_same _ fun _ _ => ?_
  refine .bind_same _ fun sa _ => .bind_same _ fun s _ => ?_
  exact .ok (sameOn_setMint (sameOn_setAccount h _ _) _ _)

theorem initializeMint_alike (h : SameOn cell K L N) {address : Key} (ha : address ∈ K)
    (authority : Key) (d : BitVec 8) :
    Outcome.Alike (SameOn cell K) (L.initializeMint signers address authority d)
      (N.initializeMint signers address authority d) := by
  unfold initializeMint
  rw [vacant_eq h ha]
  refine .bind_same _ fun _ _ => .bind_same _ fun _ _ => ?_
  exact .ok (sameOn_setMint h _ _)

theorem createAssociated_alike {ata : Key → Key → Key} (h : SameOn cell K L N) {address mint : Key}
    (ha : address ∈ K) (hm : mint ∈ K) (owner : Key) :
    Outcome.Alike (SameOn cell K) (createAssociated ata L address owner mint)
      (createAssociated ata N address owner mint) := by
  unfold createAssociated
  rw [vacant_eq h ha, mints_eq h hm]
  refine .bind_same _ fun _ _ => .bind_same _ fun _ _ => .bind_same _ fun M _ => ?_
  exact .ok (sameOn_setAccount h _ _)

end Ledger

end Token

namespace Amm

variable {Key : Type}

/-! ## Declared accounts -/

/-- An account in the list of an instruction. -/
structure AccountMeta (Key : Type) where
  pubkey : Key
  isSigner : Bool
  isWritable : Bool
  deriving DecidableEq, Repr

/-- `Signer` with `mut` -/
def AccountMeta.payer (k : Key) : AccountMeta Key := ⟨k, true, true⟩

def AccountMeta.signer (k : Key) : AccountMeta Key := ⟨k, true, false⟩

/-- `mut`, `init` or `init_if_needed` -/
def AccountMeta.writable (k : Key) : AccountMeta Key := ⟨k, false, true⟩

def AccountMeta.readonly (k : Key) : AccountMeta Key := ⟨k, false, false⟩

open AccountMeta

def Initialize.accountMetas (self : Initialize Key) : List (AccountMeta Key) :=
  [payer self.initializer, readonly self.mintX, readonly self.mintY, writable self.mintLp,
    writable self.vaultX, writable self.vaultY, writable self.lpVault, writable self.config]

def AddLiquidity.accountMetas (self : AddLiquidity Key) : List (AccountMeta Key) :=
  [payer self.user, readonly self.mintX, readonly self.mintY, readonly self.config,
    writable self.mintLp, writable self.vaultX, writable self.vaultY, writable self.lpVault,
    writable self.userX, writable self.userY, writable self.userLp]

def RemoveLiquidity.accountMetas (self : RemoveLiquidity Key) : List (AccountMeta Key) :=
  [payer self.user, readonly self.mintX, readonly self.mintY, readonly self.config,
    writable self.mintLp, writable self.vaultX, writable self.vaultY, writable self.userX,
    writable self.userY, writable self.userLp]

def Swap.accountMetas (self : Swap Key) : List (AccountMeta Key) :=
  [payer self.user, readonly self.mintX, readonly self.mintY, readonly self.config,
    writable self.vaultX, writable self.vaultY, writable self.userX, writable self.userY]

def Admin.accountMetas (self : Admin Key) : List (AccountMeta Key) :=
  [signer self.authority, writable self.config]

def Instruction.accountMetas : Instruction Key → List (AccountMeta Key)
  | .init self _ _ _ => self.accountMetas
  | .addLiquidity self _ _ _ => self.accountMetas
  | .removeLiquidity self _ _ _ => self.accountMetas
  | .swap self _ _ => self.accountMetas
  | .updateFee self _ => Admin.accountMetas self
  | .setLocked self _ => Admin.accountMetas self
  | .updateAuthority self _ => Admin.accountMetas self

def TokenInstruction.accountMetas : TokenInstruction Key → List (AccountMeta Key)
  | .transferChecked source mint destination authority _ _ =>
    [writable source, readonly mint, writable destination, signer authority]
  | .mintTo mint destination authority _ => [writable mint, writable destination, signer authority]
  | .burn source mint authority _ => [writable source, writable mint, signer authority]
  | .initializeMint address _ _ => [payer address]
  | .createAssociated address owner mint => [writable address, readonly owner, readonly mint]

def Call.accountMetas (call : Call Key) : List (AccountMeta Key) :=
  match call.op with
  | .amm ix => ix.accountMetas
  | .token ix => ix.accountMetas

/-- The account locks that the runtime takes for a call. -/
def accountLocks (Key : Type) : Locks (Call Key) Key where
  named call := call.accountMetas.map AccountMeta.pubkey
  writable call := (call.accountMetas.filter AccountMeta.isWritable).map AccountMeta.pubkey
  writable_subset _ := List.map_subset _ (List.filter_subset_self _)

/-! ## The cells of a bank -/

/-- What is stored at an address. -/
def Bank.cell (B : Bank Key) (k : Key) :
    Option (Config Key) × Option (Mint Key) × Option (Account Key) :=
  (B.configs k, B.tokens.cell k)

theorem Bank.cell_injective : Function.Injective (@Bank.cell Key) := by
  rintro ⟨configs, mints, accounts⟩ ⟨configs', mints', accounts'⟩ h
  have hk : ∀ k, (configs k, mints k, accounts k) = (configs' k, mints' k, accounts' k) :=
    fun k => congrFun h k
  simp only [Prod.mk.injEq] at hk
  obtain rfl : configs = configs' := funext fun k => (hk k).1
  obtain rfl : mints = mints' := funext fun k => (hk k).2.1
  obtain rfl : accounts = accounts' := funext fun k => (hk k).2.2
  rfl

variable {A : AddressScheme Key} {B C : Bank Key} {K signers : List Key} {k : Key}

theorem configs_eq (h : SameOn Bank.cell K B C) (hk : k ∈ K) : B.configs k = C.configs k :=
  congrArg Prod.fst (h k hk)

theorem sameOn_tokens (h : SameOn Bank.cell K B C) : SameOn Ledger.cell K B.tokens C.tokens :=
  fun k hk => congrArg Prod.snd (h k hk)

theorem bankVacant_eq (h : SameOn Bank.cell K B C) (hk : k ∈ K) : B.vacant k = C.vacant k := by
  unfold Bank.vacant
  rw [configs_eq h hk, vacant_eq (sameOn_tokens h) hk]

theorem loadMint_eq (h : SameOn Bank.cell K B C) (hk : k ∈ K) : loadMint B k = loadMint C k := by
  unfold loadMint
  rw [mints_eq (sameOn_tokens h) hk]

theorem loadAccount_eq (h : SameOn Bank.cell K B C) (hk : k ∈ K) :
    loadAccount B k = loadAccount C k := by
  unfold loadAccount
  rw [accounts_eq (sameOn_tokens h) hk]

theorem loadConfig_eq (h : SameOn Bank.cell K B C) (hk : k ∈ K) :
    loadConfig B k = loadConfig C k := by
  unfold loadConfig
  rw [configs_eq h hk]

/-- A call of the token program depends on what the operation depends on. -/
theorem cpi_alike {r r' : Token.Result (Ledger Key)} (h : SameOn Bank.cell K B C)
    (hr : Outcome.Alike (SameOn Ledger.cell K) r r') :
    Outcome.Alike (SameOn Bank.cell K) (B.cpi r) (C.cpi r') := by
  refine (hr.mapErr _).bind fun L N _ _ hLN => .ok ?_
  intro k hk
  exact Prod.ext (configs_eq h hk) (hLN k hk)

variable [DecidableEq Key]

theorem sameOn_setConfig (h : SameOn Bank.cell K B C) (k : Key) (cfg : Config Key) :
    SameOn Bank.cell K (B.setConfig k cfg) (C.setConfig k cfg) := by
  intro i hi
  refine Prod.ext ?_ (sameOn_tokens h i hi)
  by_cases hik : i = k
  · subst hik
    exact Bank.configs_setConfig_self.trans Bank.configs_setConfig_self.symm
  · show (B.setConfig k cfg).configs i = (C.setConfig k cfg).configs i
    rw [Bank.configs_setConfig_of_ne hik, Bank.configs_setConfig_of_ne hik, configs_eq h hi]

/-! ## What an instruction reads -/

theorem initMint_alike (h : SameOn Bank.cell K B C) (hk : k ∈ K) (seeds : Seeds Key) (d : U8)
    (authority : Key) :
    Outcome.Alike (SameOn Bank.cell K) (initMint A B signers k seeds d authority)
      (initMint A C signers k seeds d authority) := by
  unfold initMint
  rw [configs_eq h hk]
  refine .bind_same _ fun _ _ => .bind_same _ fun _ _ => ?_
  exact cpi_alike h (initializeMint_alike (sameOn_tokens h) hk _ _)

theorem initAssociated_alike (h : SameOn Bank.cell K B C) {mint : Key} (hk : k ∈ K)
    (hm : mint ∈ K) (authority : Key) :
    Outcome.Alike (SameOn Bank.cell K) (initAssociated A B k mint authority)
      (initAssociated A C k mint authority) := by
  unfold initAssociated
  rw [configs_eq h hk]
  refine .bind_same _ fun _ _ => ?_
  exact cpi_alike h (createAssociated_alike (sameOn_tokens h) hk hm _)

theorem initAssociatedIfNeeded_alike (h : SameOn Bank.cell K B C) {mint : Key} (hk : k ∈ K)
    (hm : mint ∈ K) (authority : Key) :
    Outcome.Alike (SameOn Bank.cell K) (initAssociatedIfNeeded A B k mint authority)
      (initAssociatedIfNeeded A C k mint authority) := by
  unfold initAssociatedIfNeeded
  rw [bankVacant_eq h hk, loadAccount_eq h hk]
  split_ifs
  · exact initAssociated_alike h hk hm authority
  · refine .bind_same _ fun loaded _ => .bind_same _ fun _ _ => .bind_same _ fun _ _ => ?_
    exact .bind_same _ fun _ _ => .ok h

theorem Initialize.tryAccounts_alike {self : Initialize Key} (h : SameOn Bank.cell K B C)
    (hK : self.accountMetas.map pubkey ⊆ K) (seed : U64) :
    Outcome.Alike (SameOn Bank.cell K) (self.tryAccounts A B signers seed)
      (self.tryAccounts A C signers seed) := by
  simp only [Initialize.accountMetas, payer, readonly, writable, List.map_cons, List.map_nil,
    List.cons_subset, List.nil_subset, and_true] at hK
  obtain ⟨-, hx, hy, hlp, hvx, hvy, hlv, hc⟩ := hK
  unfold Initialize.tryAccounts
  rw [loadMint_eq h hx, loadMint_eq h hy]
  refine .bind_same _ fun _ _ => .bind_same _ fun _ _ => .bind_same _ fun _ _ => ?_
  refine (initMint_alike h hlp _ _ _).bind fun _ _ _ _ h₁ => ?_
  refine (initAssociated_alike h₁ hvx hx _).bind fun _ _ _ _ h₂ => ?_
  refine (initAssociated_alike h₂ hvy hy _).bind fun _ _ _ _ h₃ => ?_
  refine (initAssociated_alike h₃ hlv hlp _).bind fun _ _ _ _ h₄ => ?_
  rw [bankVacant_eq h₄ hc]
  exact .bind_same _ fun _ _ => .bind_same _ fun _ _ => .ok h₄

theorem Swap.tryAccounts_congr {self : Swap Key} (h : SameOn Bank.cell K B C)
    (hK : self.accountMetas.map pubkey ⊆ K) :
    self.tryAccounts A B signers = self.tryAccounts A C signers := by
  simp only [Swap.accountMetas, payer, readonly, writable, List.map_cons, List.map_nil,
    List.cons_subset, List.nil_subset, and_true] at hK
  obtain ⟨-, hx, hy, hc, hvx, hvy, hux, huy⟩ := hK
  unfold Swap.tryAccounts
  rw [loadMint_eq h hx, loadMint_eq h hy, loadConfig_eq h hc, loadAccount_eq h hvx,
    loadAccount_eq h hvy, loadAccount_eq h hux, loadAccount_eq h huy]

omit [DecidableEq Key] in
theorem Swap.legs_subset {self : Swap Key} (hK : self.accountMetas.map pubkey ⊆ K)
    (l : Loaded Key) (aToB : Bool) :
    [(self.legs l aToB).userIn, (self.legs l aToB).mintIn, (self.legs l aToB).vaultIn,
      (self.legs l aToB).vaultOut, (self.legs l aToB).mintOut, (self.legs l aToB).userOut] ⊆ K := by
  refine List.Subset.trans ?_ hK
  cases aToB <;>
    simp [Swap.legs, Swap.accountMetas, payer, readonly, writable]

theorem Swap.swap_alike {self : Swap Key} (h : SameOn Bank.cell K B C)
    (hK : self.accountMetas.map pubkey ⊆ K) (l : Loaded Key) (kind : SwapKind) (aToB : Bool) :
    Outcome.Alike (SameOn Bank.cell K) (self.swap A B signers l kind aToB)
      (self.swap A C signers l kind aToB) := by
  have hlegs := Swap.legs_subset hK l aToB
  simp only [List.cons_subset, List.nil_subset, and_true] at hlegs
  obtain ⟨hui, hmi, hvi, hvo, hmo, huo⟩ := hlegs
  unfold Swap.swap
  refine .bind_same _ fun _ _ => .bind_same _ fun q _ => ?_
  refine (cpi_alike h (transferChecked_alike (sameOn_tokens h) hui hmi hvi _ _ _)).bind
    fun B₁ C₁ _ _ h₁ => ?_
  exact cpi_alike h₁ (transferChecked_alike (sameOn_tokens h₁) hvo hmo huo _ _ _)

theorem AddLiquidity.tryAccounts_alike {self : AddLiquidity Key} (h : SameOn Bank.cell K B C)
    (hK : self.accountMetas.map pubkey ⊆ K) :
    Outcome.Alike (fun p p' => SameOn Bank.cell K p.1 p'.1 ∧ p.2 = p'.2)
      (self.tryAccounts A B signers) (self.tryAccounts A C signers) := by
  simp only [AddLiquidity.accountMetas, payer, readonly, writable, List.map_cons, List.map_nil,
    List.cons_subset, List.nil_subset, and_true] at hK
  obtain ⟨-, hx, hy, hc, hlp, hvx, hvy, hlv, hux, huy, hul⟩ := hK
  unfold AddLiquidity.tryAccounts
  rw [loadMint_eq h hx, loadMint_eq h hy, loadConfig_eq h hc, loadMint_eq h hlp,
    loadAccount_eq h hvx, loadAccount_eq h hvy, loadAccount_eq h hlv, loadAccount_eq h hux,
    loadAccount_eq h huy]
  refine .bind_same _ fun _ _ => .bind_same _ fun _ _ => .bind_same _ fun _ _ => ?_
  refine .bind_same _ fun _ _ => .bind_same _ fun _ _ => .bind_same _ fun _ _ => ?_
  refine .bind_same _ fun _ _ => .bind_same _ fun _ _ => .bind_same _ fun _ _ => ?_
  refine .bind_same _ fun _ _ => ?_
  refine (initAssociatedIfNeeded_alike h hul hlp _).bind fun _ _ _ _ h₁ => ?_
  refine .bind_same _ fun _ _ => .bind_same _ fun _ _ => .bind_same _ fun _ _ => ?_
  refine .bind_same _ fun _ _ => .bind_same _ fun _ _ => .bind_same _ fun _ _ => ?_
  refine .bind_same _ fun _ _ => .bind_same _ fun _ _ => .bind_same _ fun _ _ => ?_
  exact .ok ⟨h₁, rfl⟩

theorem AddLiquidity.handle_alike {self : AddLiquidity Key} (h : SameOn Bank.cell K B C)
    (hK : self.accountMetas.map pubkey ⊆ K) (l : LoadedLp Key) (a b minLp : U64) :
    Outcome.Alike (SameOn Bank.cell K) (self.handle A B signers l a b minLp)
      (self.handle A C signers l a b minLp) := by
  simp only [AddLiquidity.accountMetas, payer, readonly, writable, List.map_cons, List.map_nil,
    List.cons_subset, List.nil_subset, and_true] at hK
  obtain ⟨-, hx, hy, -, hlp, hvx, hvy, hlv, hux, huy, hul⟩ := hK
  unfold AddLiquidity.handle
  refine .bind_same _ fun _ _ => .bind_same _ fun q _ => .bind_same _ fun _ _ => ?_
  refine (cpi_alike h (transferChecked_alike (sameOn_tokens h) hux hx hvx _ _ _)).bind
    fun _ _ _ _ h₁ => ?_
  refine (cpi_alike h₁ (transferChecked_alike (sameOn_tokens h₁) huy hy hvy _ _ _)).bind
    fun _ _ _ _ h₂ => ?_
  refine (cpi_alike h₂ (mintTo_alike (sameOn_tokens h₂) hlp hul _ _)).bind fun _ _ _ _ h₃ => ?_
  split_ifs
  · exact cpi_alike h₃ (mintTo_alike (sameOn_tokens h₃) hlp hlv _ _)
  · exact .ok h₃

theorem RemoveLiquidity.tryAccounts_congr {self : RemoveLiquidity Key}
    (h : SameOn Bank.cell K B C) (hK : self.accountMetas.map pubkey ⊆ K) :
    self.tryAccounts A B signers = self.tryAccounts A C signers := by
  simp only [RemoveLiquidity.accountMetas, payer, readonly, writable, List.map_cons, List.map_nil,
    List.cons_subset, List.nil_subset, and_true] at hK
  obtain ⟨-, hx, hy, hc, hlp, hvx, hvy, hux, huy, hul⟩ := hK
  unfold RemoveLiquidity.tryAccounts
  rw [loadMint_eq h hx, loadMint_eq h hy, loadConfig_eq h hc, loadMint_eq h hlp,
    loadAccount_eq h hvx, loadAccount_eq h hvy, loadAccount_eq h hux, loadAccount_eq h huy,
    loadAccount_eq h hul]

theorem RemoveLiquidity.handle_alike {self : RemoveLiquidity Key} (h : SameOn Bank.cell K B C)
    (hK : self.accountMetas.map pubkey ⊆ K) (l : LoadedLp Key) (lpBurn minA minB : U64) :
    Outcome.Alike (SameOn Bank.cell K) (self.handle A B signers l lpBurn minA minB)
      (self.handle A C signers l lpBurn minA minB) := by
  simp only [RemoveLiquidity.accountMetas, payer, readonly, writable, List.map_cons, List.map_nil,
    List.cons_subset, List.nil_subset, and_true] at hK
  obtain ⟨-, hx, hy, -, hlp, hvx, hvy, hux, huy, hul⟩ := hK
  unfold RemoveLiquidity.handle
  refine .bind_same _ fun _ _ => .bind_same _ fun q _ => .bind_same _ fun _ _ => ?_
  refine .bind_same _ fun _ _ => ?_
  refine (cpi_alike h (burn_alike (sameOn_tokens h) hul hlp _ _)).bind fun _ _ _ _ h₁ => ?_
  refine (cpi_alike h₁ (transferChecked_alike (sameOn_tokens h₁) hvx hx hux _ _ _)).bind
    fun _ _ _ _ h₂ => ?_
  exact cpi_alike h₂ (transferChecked_alike (sameOn_tokens h₂) hvy hy huy _ _ _)

theorem Admin.tryAccounts_congr {self : Admin Key} (h : SameOn Bank.cell K B C)
    (hK : self.accountMetas.map pubkey ⊆ K) :
    self.tryAccounts A B signers = self.tryAccounts A C signers := by
  have hc : self.config ∈ K := hK (List.mem_cons_of_mem _ (List.mem_cons_self ..))
  unfold Admin.tryAccounts
  rw [loadConfig_eq h hc]

/-- An instruction depends on the accounts that it declares, and on no other ones. -/
theorem process_alike (ix : Instruction Key) (h : SameOn Bank.cell K B C)
    (hK : ix.accountMetas.map pubkey ⊆ K) :
    Outcome.Alike (SameOn Bank.cell K) (ix.process A B signers) (ix.process A C signers) := by
  cases ix with
  | init self seed feeBps authority =>
    refine (Initialize.tryAccounts_alike h hK seed).bind fun _ _ _ _ h₁ => ?_
    exact .bind_same _ fun _ _ => .ok (sameOn_setConfig h₁ _ _)
  | addLiquidity self a b minLp =>
    refine (AddLiquidity.tryAccounts_alike h hK).bind ?_
    rintro ⟨B₁, l⟩ ⟨C₁, l'⟩ - - ⟨h₁, hl⟩
    obtain rfl : l = l' := hl
    exact AddLiquidity.handle_alike h₁ hK l a b minLp
  | removeLiquidity self lpBurn minA minB =>
    exact .bind_eq (RemoveLiquidity.tryAccounts_congr h hK) fun l _ =>
      RemoveLiquidity.handle_alike h hK l lpBurn minA minB
  | swap self kind aToB =>
    exact .bind_eq (Swap.tryAccounts_congr h hK) fun l _ => Swap.swap_alike h hK l kind aToB
  | updateFee self newFeeBps =>
    refine .bind_eq (Admin.tryAccounts_congr h hK) fun cfg _ => ?_
    exact .bind_same _ fun _ _ => .bind_same _ fun _ _ => .ok (sameOn_setConfig h _ _)
  | setLocked self locked =>
    refine .bind_eq (Admin.tryAccounts_congr h hK) fun cfg _ => ?_
    exact .bind_same _ fun _ _ => .ok (sameOn_setConfig h _ _)
  | updateAuthority self newAuthority =>
    refine .bind_eq (Admin.tryAccounts_congr h hK) fun cfg _ => ?_
    exact .bind_same _ fun _ _ => .ok (sameOn_setConfig h _ _)

theorem token_alike (ix : TokenInstruction Key) (h : SameOn Bank.cell K B C)
    (hK : ix.accountMetas.map pubkey ⊆ K) :
    Outcome.Alike (SameOn Bank.cell K) (ix.process A B signers) (ix.process A C signers) := by
  have hL := sameOn_tokens h
  cases ix with
  | transferChecked source mint destination authority n d =>
    simp only [TokenInstruction.accountMetas, readonly, writable, List.map_cons, List.map_nil,
      List.cons_subset] at hK
    exact cpi_alike h (transferChecked_alike hL hK.1 hK.2.1 hK.2.2.1 _ _ _)
  | mintTo mint destination authority n =>
    simp only [TokenInstruction.accountMetas, writable, List.map_cons, List.map_nil,
      List.cons_subset] at hK
    exact cpi_alike h (mintTo_alike hL hK.1 hK.2.1 _ _)
  | burn source mint authority n =>
    simp only [TokenInstruction.accountMetas, writable, List.map_cons, List.map_nil,
      List.cons_subset] at hK
    exact cpi_alike h (burn_alike hL hK.1 hK.2.1 _ _)
  | initializeMint address authority d =>
    have ha : address ∈ K := hK (List.mem_cons_self ..)
    exact .bind_eq (by rw [configs_eq h ha]) fun _ _ =>
      cpi_alike h (initializeMint_alike hL ha _ _)
  | createAssociated address owner mint =>
    simp only [TokenInstruction.accountMetas, readonly, writable, List.map_cons, List.map_nil,
      List.cons_subset] at hK
    exact .bind_eq (by rw [configs_eq h hK.1]) fun _ _ =>
      cpi_alike h (createAssociated_alike hL hK.1 hK.2.2.1 _)

/-! ## What an instruction writes -/

theorem initMint_changes {B' : Bank Key} {seeds : Seeds Key} {d : U8} {authority : Key}
    (h : initMint A B signers k seeds d authority = .ok B') :
    ChangesOnly [] [k] B.tokens B'.tokens := by
  unfold initMint at h
  simp only [Outcome.bind_eq_ok, Outcome.require_eq_ok, Bank.cpi_eq_ok, exists_and_left,
    exists_const] at h
  exact initializeMint_changes h.2.2.1

/-- The changed accounts and mints of an instruction are among those that it declares writable. -/
def DeclaredChanges (metas : List (AccountMeta Key)) (L L' : Ledger Key) : Prop :=
  ∃ K M, K ⊆ (metas.filter isWritable).map pubkey ∧ M ⊆ (metas.filter isWritable).map pubkey ∧
    ChangesOnly K M L L'

omit [DecidableEq Key] in
theorem DeclaredChanges.cell_eq {B' : Bank Key} {metas : List (AccountMeta Key)}
    (h : DeclaredChanges metas B.tokens B'.tokens) (hc : B'.configs k = B.configs k)
    (hk : k ∉ (metas.filter isWritable).map pubkey) : B'.cell k = B.cell k := by
  obtain ⟨K, M, hK, hM, h⟩ := h
  have ha := h.accounts fun hk' => hk (hK hk')
  have hm := h.mints fun hk' => hk (hM hk')
  unfold Bank.cell Ledger.cell
  rw [hc, ha, hm]

theorem init_declared {B' : Bank Key} {self : Initialize Key} {seed : U64} {feeBps : U16}
    {authority : Option Key}
    (h : (Instruction.init self seed feeBps authority).process A B signers = .ok B') :
    DeclaredChanges self.accountMetas B.tokens B'.tokens := by
  unfold Instruction.process Initialize.tryAccounts Initialize.init at h
  simp only [Outcome.bind_eq_ok, Outcome.require_eq_ok, exists_and_left, exists_const,
    Outcome.ok.injEq] at h
  obtain ⟨_, ⟨_, -, _, -, _, -, B₁, h₁, B₂, h₂, B₃, h₃, B₄, h₄, -, -, rfl⟩, -, rfl⟩ := h
  refine ⟨[self.vaultX, self.vaultY, self.lpVault], [self.mintLp], ?_, ?_, ?_⟩
  · simp [Initialize.accountMetas, payer, readonly, writable]
  · simp [Initialize.accountMetas, payer, readonly, writable]
  · exact (((initMint_changes h₁).mono (by simp) (by simp)).trans
      ((initAssociated_changes h₂).mono (by simp) (by simp))).trans
      (((initAssociated_changes h₃).mono (by simp) (by simp)).trans
        ((initAssociated_changes h₄).mono (by simp) (by simp)))

theorem swap_declared {B' : Bank Key} {self : Swap Key} {kind : SwapKind} {aToB : Bool}
    (h : (Instruction.swap self kind aToB).process A B signers = .ok B') :
    DeclaredChanges self.accountMetas B.tokens B'.tokens := by
  obtain ⟨l, hl, -⟩ := Outcome.bind_eq_ok.mp h
  have hch := Swap.tryAccounts_eq_ok.mp hl
  obtain ⟨hu, hv⟩ := hch.accountsOf
  have hs := swap_changes h hch.config
  rw [hu, hv] at hs
  refine ⟨_, _, ?_, List.nil_subset _, hs⟩
  simp [Swap.accountMetas, payer, readonly, writable]

theorem add_declared {B' : Bank Key} {self : AddLiquidity Key} {a b minLp : U64}
    (h : (Instruction.addLiquidity self a b minLp).process A B signers = .ok B') :
    DeclaredChanges self.accountMetas B.tokens B'.tokens := by
  obtain ⟨⟨B₁, l⟩, hl, -⟩ := Outcome.bind_eq_ok.mp h
  have hch := AddLiquidity.tryAccounts_eq_ok.mp hl
  obtain ⟨hu, hv⟩ := hch.toSwap.accountsOf
  have hs := add_changes h hch.toSwap.config hch.lpAddress
  rw [show l.config.accountsOf A self.user = [self.userX, self.userY] from hu,
    show l.config.accountsOf A self.config = [self.vaultX, self.vaultY] from hv,
    ← (initAssociatedIfNeeded_eq_ok hch.userLp).address] at hs
  refine ⟨_, _, ?_, ?_, hs⟩
  · unfold lockAccounts
    rw [← hch.lpVault_eq]
    split_ifs <;> simp [AddLiquidity.accountMetas, payer, readonly, writable]
  · simp [AddLiquidity.accountMetas, payer, readonly, writable]

theorem remove_declared {B' : Bank Key} {self : RemoveLiquidity Key} {lpBurn minA minB : U64}
    (h : (Instruction.removeLiquidity self lpBurn minA minB).process A B signers = .ok B') :
    DeclaredChanges self.accountMetas B.tokens B'.tokens := by
  obtain ⟨l, hl, -⟩ := Outcome.bind_eq_ok.mp h
  have hch := RemoveLiquidity.tryAccounts_eq_ok.mp hl
  obtain ⟨hu, hv⟩ := hch.toSwap.accountsOf
  have hs := remove_changes h hch.toSwap.config hch.lpAddress
  rw [show l.config.accountsOf A self.user = [self.userX, self.userY] from hu,
    show l.config.accountsOf A self.config = [self.vaultX, self.vaultY] from hv,
    ← hch.userLp_eq] at hs
  refine ⟨_, _, ?_, ?_, hs⟩
  · simp [RemoveLiquidity.accountMetas, payer, readonly, writable]
  · simp [RemoveLiquidity.accountMetas, payer, readonly, writable]

/-- A trade writes no config. -/
theorem trade_configs {ix : Instruction Key} {B' : Bank Key} (ht : ix.IsTrade)
    (h : ix.process A B signers = .ok B') : B'.configs = B.configs := by
  cases ix with
  | init | updateFee | setLocked | updateAuthority => exact ht.elim
  | swap accs kind aToB =>
    obtain ⟨_, _, _, _, hs⟩ := swap_spec h
    exact hs.configs
  | addLiquidity accs a b m =>
    obtain ⟨_, _, _, _, _, _, hs⟩ := add_spec h
    exact hs.configs
  | removeLiquidity accs l a b =>
    obtain ⟨_, _, _, _, _, _, hs⟩ := remove_spec h
    exact hs.configs

/-- An instruction writes the accounts that it declares writable, and no other ones. -/
theorem process_frame {ix : Instruction Key} {B' : Bank Key}
    (h : exec A B ⟨signers, .amm ix⟩ = .ok B')
    (hk : k ∉ (ix.accountMetas.filter isWritable).map pubkey) : B'.cell k = B.cell k := by
  have hconf : ix.config ∈ (ix.accountMetas.filter isWritable).map pubkey →
      B'.configs k = B.configs k := fun hw =>
    config_of_other h rfl fun hkc => hk (hkc ▸ hw)
  have htrade : ix.IsTrade → B'.configs k = B.configs k := fun ht => by rw [trade_configs ht h]
  have hadmin : ix.IsAdmin → ix.config ∈ (ix.accountMetas.filter isWritable).map pubkey →
      B'.cell k = B.cell k := by
    intro ha hw
    refine DeclaredChanges.cell_eq ⟨[], [], List.nil_subset _, List.nil_subset _, ?_⟩ (hconf hw) hk
    rw [(admin_tokens ha h).1]
    exact .refl _ _ _
  cases ix with
  | init self seed feeBps authority =>
    refine (init_declared h).cell_eq (hconf ?_) hk
    simp [Instruction.accountMetas, Initialize.accountMetas, Instruction.config, payer, readonly,
      writable]
  | addLiquidity self a b minLp =>
    exact (add_declared h).cell_eq (htrade trivial) hk
  | removeLiquidity self lpBurn minA minB =>
    exact (remove_declared h).cell_eq (htrade trivial) hk
  | swap self kind aToB => exact (swap_declared h).cell_eq (htrade trivial) hk
  | updateFee self newFeeBps => exact hadmin trivial (List.mem_cons_self ..)
  | setLocked self locked => exact hadmin trivial (List.mem_cons_self ..)
  | updateAuthority self newAuthority => exact hadmin trivial (List.mem_cons_self ..)

theorem token_frame {ix : TokenInstruction Key} {B' : Bank Key}
    (h : ix.process A B signers = .ok B')
    (hk : k ∉ (ix.accountMetas.filter isWritable).map pubkey) : B'.cell k = B.cell k := by
  refine DeclaredChanges.cell_eq ?_ (by rw [(token_confined h).2]) hk
  cases ix with
  | transferChecked source mint destination authority n d =>
    refine ⟨_, _, ?_, List.nil_subset _, transferChecked_changes (Bank.cpi_eq_ok.mp h).1⟩
    simp [TokenInstruction.accountMetas, readonly, writable, signer]
  | mintTo mint destination authority n =>
    refine ⟨_, _, ?_, ?_, mintTo_changes (Bank.cpi_eq_ok.mp h).1⟩ <;>
      simp [TokenInstruction.accountMetas, writable, signer]
  | burn source mint authority n =>
    refine ⟨_, _, ?_, ?_, burn_changes (Bank.cpi_eq_ok.mp h).1⟩ <;>
      simp [TokenInstruction.accountMetas, writable, signer]
  | initializeMint address authority d =>
    obtain ⟨_, -, h⟩ := Outcome.bind_eq_ok.mp h
    refine ⟨_, _, List.nil_subset _, ?_, initializeMint_changes (Bank.cpi_eq_ok.mp h).1⟩
    simp [TokenInstruction.accountMetas, payer]
  | createAssociated address owner mint =>
    obtain ⟨_, -, h⟩ := Outcome.bind_eq_ok.mp h
    refine ⟨_, _, ?_, List.nil_subset _, createAssociated_changes (Bank.cpi_eq_ok.mp h).1⟩
    simp [TokenInstruction.accountMetas, readonly, writable]

/-! ## Calls and blocks -/

/-- Every call writes only accounts that it declares writable, and depends on declared ones only. -/
theorem exec_respects : Respects Bank.cell (accountLocks Key) (exec A) where
  frame {B call B'} h k hk := by
    obtain ⟨signers, op⟩ := call
    cases op with
    | amm ix => exact process_frame h hk
    | token ix => exact token_frame h hk
  alike {B C call} h := by
    obtain ⟨signers, op⟩ := call
    cases op with
    | amm ix => exact process_alike ix h (List.Subset.refl _)
    | token ix => exact token_alike ix h (List.Subset.refl _)

/-- **A transaction stays within its declared accounts.** It writes only the accounts that one of
its calls declares writable, and what it does depends only on the accounts that they declare. -/
theorem transaction_footprint (A : AddressScheme Key) (tx : List (Call Key)) :
    (∀ B B', applyAll (exec A) B tx = .ok B' →
      ∀ k, k ∉ (accountLocks Key).all.writable tx → B'.cell k = B.cell k) ∧
    (∀ B C, SameOn Bank.cell ((accountLocks Key).all.named tx) B C →
      Outcome.Alike (SameOn Bank.cell ((accountLocks Key).all.named tx))
        (applyAll (exec A) B tx) (applyAll (exec A) C tx)) := by
  refine ⟨?_, ?_⟩
  · intro B B' h k hk
    exact exec_respects.applyAll.frame h k hk
  · intro B C h
    exact exec_respects.applyAll.alike h

/-- **Conflicts alone matter.** A block performed in any order that keeps conflicting transactions
in place leads to the same bank, and each transaction ends as it would have ended. -/
theorem schedule_agrees (A : AddressScheme Key) (B : Bank Key) {block order : List (List (Call Key))}
    (h : Schedule (accountLocks Key).all block order) :
    run (applyAll (exec A)) B order = run (applyAll (exec A)) B block ∧
      (report (applyAll (exec A)) B order).Perm (report (applyAll (exec A)) B block) :=
  ⟨exec_respects.applyAll.run_schedule Bank.cell_injective h B,
    exec_respects.applyAll.report_schedule Bank.cell_injective h B⟩

/-- **A batch without conflicts runs in parallel.** Each transaction ends as it does alone, and
leaves its accounts as it does alone; all other accounts are as before. -/
theorem batch_parallel (A : AddressScheme Key) (B : Bank Key) {batch : List (List (Call Key))}
    (h : batch.Pairwise fun tx tx' => ¬ (accountLocks Key).all.Conflict tx tx') :
    report (applyAll (exec A)) B batch =
        batch.map (fun tx => (tx, (applyAll (exec A) B tx).ending)) ∧
      (∀ tx ∈ batch, SameOn Bank.cell ((accountLocks Key).all.named tx)
        (run (applyAll (exec A)) B batch) (next (applyAll (exec A)) B tx)) ∧
      (∀ k, (∀ tx ∈ batch, k ∉ (accountLocks Key).all.writable tx) →
        (run (applyAll (exec A)) B batch).cell k = B.cell k) :=
  ⟨exec_respects.applyAll.report_batch h B, exec_respects.applyAll.run_batch h B,
    fun _ hk => exec_respects.applyAll.run_frame hk B⟩

namespace Demo

/-- A swap by Alice. -/
def swapTx : List (Call Addr) := [byAlice (.amm (.swap (swapBy alice) (.exactInput 100 0) true))]

/-- Bob opens an account for shares. -/
def openTx : List (Call Addr) :=
  [byBob (.token (.createAssociated (.associated bob mintLp) bob mintLp))]

/-- Alice closes the pool. -/
def lockTx : List (Call Addr) := [byAlice (.amm (.setLocked ⟨alice, pool⟩ true))]

end Demo

/-- The account can be opened first; the swap stays before the lock. -/
theorem schedule_agrees_demo :
    run (applyAll (exec Addr.scheme)) Demo.bank [Demo.openTx, Demo.swapTx, Demo.lockTx] =
        run (applyAll (exec Addr.scheme)) Demo.bank [Demo.swapTx, Demo.openTx, Demo.lockTx] ∧
      (report (applyAll (exec Addr.scheme)) Demo.bank
        [Demo.openTx, Demo.swapTx, Demo.lockTx]).Perm
        (report (applyAll (exec Addr.scheme)) Demo.bank
          [Demo.swapTx, Demo.openTx, Demo.lockTx]) :=
  schedule_agrees Addr.scheme Demo.bank
    (@Schedule.pick _ _ _ [Demo.swapTx] [Demo.lockTx] _ _ (by decide)
      (@Schedule.pick _ _ _ [] [Demo.lockTx] _ _ (by simp)
        (@Schedule.pick _ _ _ [] [] _ _ (by simp) .nil)))

theorem batch_parallel_demo :
    report (applyAll (exec Addr.scheme)) Demo.bank [Demo.swapTx, Demo.openTx] =
        [Demo.swapTx, Demo.openTx].map
          (fun tx => (tx, (applyAll (exec Addr.scheme) Demo.bank tx).ending)) ∧
      (∀ tx ∈ [Demo.swapTx, Demo.openTx],
        SameOn Bank.cell ((accountLocks Addr).all.named tx)
          (run (applyAll (exec Addr.scheme)) Demo.bank [Demo.swapTx, Demo.openTx])
          (next (applyAll (exec Addr.scheme)) Demo.bank tx)) ∧
      (∀ k, (∀ tx ∈ [Demo.swapTx, Demo.openTx], k ∉ (accountLocks Addr).all.writable tx) →
        (run (applyAll (exec Addr.scheme)) Demo.bank [Demo.swapTx, Demo.openTx]).cell k =
          Demo.bank.cell k) :=
  batch_parallel Addr.scheme Demo.bank (by decide)

end Amm
