import ToyAmm.Refinement

/-!
# Reachable banks

`Bank.pool` reads a pool off a bank, as a client would. A bank is `Reachable` if a run of
admissible calls leads to it from one without pools in which balances are backed by supply; failed
calls are part of a run, they change nothing. In a reachable bank every pool is in place and sound,
and along a run from it a pool with shares keeps them and the worth of each (`run_worthLe`).
-/

open Checked AmmMath Token Ledger ConstantProduct Transition

namespace Amm

variable {Key : Type}

/-- A pool: its config, its vaults, and its LP supply with the locked part. -/
structure PoolState (Key : Type) where
  config : Config Key
  vaultX : ℕ
  vaultY : ℕ
  supply : ℕ
  lpVault : ℕ
  deriving DecidableEq, Repr

/-- The pool of the config at `c`, if its accounts are there. -/
def Bank.pool (B : Bank Key) (A : AddressScheme Key) (c : Key) : Option (PoolState Key) := do
  let config ← B.configs c
  let mintLp ← A.createProgramAddress (.lpMint c) config.lpBump
  let vaultX ← B.tokens.accounts (A.associatedAddress c config.mintX)
  let vaultY ← B.tokens.accounts (A.associatedAddress c config.mintY)
  let lpVault ← B.tokens.accounts (A.associatedAddress c mintLp)
  let lp ← B.tokens.mints mintLp
  some
    { config
      vaultX := vaultX.amount.toNat
      vaultY := vaultY.amount.toNat
      supply := lp.supply.toNat
      lpVault := lpVault.amount.toNat }

def PoolState.toState (p : PoolState Key) : SharePool.State where
  x := p.vaultX
  y := p.vaultY
  shares := p.supply
  locked := p.lpVault

/-- The reserve on the side where a swap pays in, and on the other one. -/
def PoolState.reserveIn (p : PoolState Key) (aToB : Bool) : ℕ :=
  if aToB then p.vaultX else p.vaultY

def PoolState.reserveOut (p : PoolState Key) (aToB : Bool) : ℕ :=
  if aToB then p.vaultY else p.vaultX

/-- No pools yet, and balances backed by supply. -/
def Genesis [DecidableEq Key] (B : Bank Key) : Prop :=
  (∀ k, B.configs k = none) ∧ B.tokens.SupplyBacked

variable [DecidableEq Key] {A : AddressScheme Key} {B B' : Bank Key} {c lp : Key}
  {cfg cfg' : Config Key} {p : PoolState Key} {call : Call Key} {calls : List (Call Key)}

/-- Reached by admissible calls from a bank without pools. -/
def Reachable (A : AddressScheme Key) (B : Bank Key) : Prop :=
  ∃ B₀ calls, Genesis B₀ ∧ (∀ call ∈ calls, call.Admissible A) ∧ B = run (exec A) B₀ calls

/-! ## Pools of a bank that keeps the invariant -/

theorem PoolAt.pool_eq (h : PoolAt A B c cfg lp) :
    B.pool A c = some
      { config := cfg
        vaultX := (view A B c cfg lp).x
        vaultY := (view A B c cfg lp).y
        supply := (view A B c cfg lp).shares
        lpVault := (view A B c cfg lp).locked } := by
  obtain ⟨x, hx, hxb⟩ := h.vaultX.account
  obtain ⟨y, hy, hyb⟩ := h.vaultY.account
  obtain ⟨l, hl, hlb⟩ := h.lpVault.account
  obtain ⟨s, hs, hsb⟩ := h.mintLp.mint
  simp [Bank.pool, view, h.config, h.lpAddress, hx, hy, hl, hs, hxb, hyb, hlb, hsb]

omit [DecidableEq Key] in
theorem config_of_pool (h : B.pool A c = some p) : B.configs c = some p.config := by
  unfold Bank.pool at h
  simp only [Option.bind_eq_bind, Option.bind_eq_some_iff, Option.some.injEq] at h
  obtain ⟨cfg, hcfg, _, -, _, -, _, -, _, -, _, -, rfl⟩ := h
  exact hcfg

/-- A pool of a bank that keeps the invariant is in place and sound. -/
theorem Inv.poolAt (hI : Inv A B) (h : B.pool A c = some p) :
    ∃ lp, PoolAt A B c p.config lp ∧ view A B c p.config lp = p.toState ∧
      SharePool.Sound 1000 p.toState := by
  obtain ⟨lp, hp, hs⟩ := hI.pool (config_of_pool h)
  have hv : view A B c p.config lp = p.toState := by
    rw [hp.pool_eq] at h
    exact congrArg PoolState.toState (Option.some.inj h)
  exact ⟨lp, hp, hv, hv ▸ hs⟩

/-- A pool is read off its view. -/
theorem PoolState.view_fields (hv : view A B c p.config lp = p.toState) :
    (view A B c p.config lp).x = p.vaultX ∧ (view A B c p.config lp).y = p.vaultY ∧
      (view A B c p.config lp).shares = p.supply ∧ (view A B c p.config lp).locked = p.lpVault := by
  rw [hv]
  exact ⟨rfl, rfl, rfl, rfl⟩

/-- A successful call keeps a pool, changes its config by one step and its numbers by one move. -/
theorem Inv.pool_of_exec (hI : Inv A B) (hadm : call.Admissible A) (h : exec A B call = .ok B')
    (hp : B.pool A c = some p) :
    ∃ p', B'.pool A c = some p' ∧ ConfigStep call c p.config p'.config ∧
      SharePool.Move 1000 p.toState p'.toState ∧ SharePool.Sound 1000 p'.toState := by
  obtain ⟨lp, hat, hv, hs⟩ := hI.poolAt hp
  obtain ⟨cfg', hat', hstep, hs', hmove⟩ := hat.of_exec hI.backed (hv ▸ hs) hadm h
  refine ⟨_, hat'.pool_eq, hstep, ?_, hs'⟩
  rw [← hv]
  exact hmove

/-! ## Runs -/

theorem Genesis.inv (h : Genesis B) : Inv A B := by
  refine ⟨h.2, ?_⟩
  intro c cfg hc
  rw [h.1 c] at hc
  cases hc

theorem Inv.of_run (hI : Inv A B) (hadm : ∀ call ∈ calls, call.Admissible A) :
    Inv A (run (exec A) B calls) := by
  have hstep : ∀ B call B', Inv A B → call.Admissible A → exec A B call = .ok B' → Inv A B' :=
    fun _ _ _ hI hadm h => hI.of_exec hadm h
  exact run_induction hstep hI hadm

theorem Reachable.inv (h : Reachable A B) : Inv A B := by
  obtain ⟨B₀, calls, hg, hadm, rfl⟩ := h
  exact hg.inv.of_run hadm

theorem Reachable.of_run (h : Reachable A B) (hadm : ∀ call ∈ calls, call.Admissible A) :
    Reachable A (run (exec A) B calls) := by
  obtain ⟨B₀, calls₀, hg, hadm₀, rfl⟩ := h
  refine ⟨B₀, calls₀ ++ calls, hg, ?_, (run_append ..).symm⟩
  intro call hcall
  rcases List.mem_append.mp hcall with h | h
  · exact hadm₀ call h
  · exact hadm call h

theorem Reachable.next (h : Reachable A B) (hadm : call.Admissible A) :
    Reachable A (next (exec A) B call) :=
  h.of_run (List.forall_mem_singleton.mpr hadm)

/-- A pool with shares keeps some along a run, and the worth of each. -/
theorem run_worthLe (hI : Inv A B) (hp : B.pool A c = some p) (hs : 0 < p.supply)
    (hadm : ∀ call ∈ calls, call.Admissible A) :
    ∃ p', (run (exec A) B calls).pool A c = some p' ∧ 0 < p'.supply ∧
      WorthLe p.toState.toPool p'.toState.toPool := by
  have hstep : ∀ B₁ call B₂,
      (Inv A B₁ ∧ ∃ p₁, B₁.pool A c = some p₁ ∧ 0 < p₁.supply ∧
        WorthLe p.toState.toPool p₁.toState.toPool) → call.Admissible A →
      exec A B₁ call = .ok B₂ →
      Inv A B₂ ∧ ∃ p₂, B₂.pool A c = some p₂ ∧ 0 < p₂.supply ∧
        WorthLe p.toState.toPool p₂.toState.toPool := by
    rintro B₁ call B₂ ⟨hI₁, p₁, hp₁, hpos, hw⟩ hadm h
    obtain ⟨-, -, -, hs₁⟩ := hI₁.poolAt hp₁
    obtain ⟨p₂, hp₂, -, hmove, hs₂⟩ := hI₁.pool_of_exec hadm h hp₁
    have hpos₂ := hs₁.shares_pos_of_move (by norm_num) hmove hs₂.locked_le hpos
    exact ⟨hI₁.of_exec hadm h, p₂, hp₂, hpos₂, hw.trans hpos (hmove.worthLe hpos)⟩
  exact (run_induction hstep ⟨hI, p, hp, hs, .refl _⟩ hadm).2

/-! ## A small bank -/

namespace Demo

def alice : Addr := .wallet 0
def bob : Addr := .wallet 3
def mintX : Addr := .wallet 1
def mintY : Addr := .wallet 2
def pool : Addr := .config 7
def mintLp : Addr := .lpMint pool

/-- The accounts of a swap by `u`. -/
def swapBy (u : Addr) : Swap Addr where
  user := u
  mintX := mintX
  mintY := mintY
  config := pool
  vaultX := .associated pool mintX
  vaultY := .associated pool mintY
  userX := .associated u mintX
  userY := .associated u mintY

def addBy (u : Addr) : AddLiquidity Addr where
  user := u
  mintX := mintX
  mintY := mintY
  config := pool
  mintLp := mintLp
  vaultX := .associated pool mintX
  vaultY := .associated pool mintY
  lpVault := .associated pool mintLp
  userX := .associated u mintX
  userY := .associated u mintY
  userLp := .associated u mintLp

def removeBy (u : Addr) : RemoveLiquidity Addr where
  user := u
  mintX := mintX
  mintY := mintY
  config := pool
  mintLp := mintLp
  vaultX := .associated pool mintX
  vaultY := .associated pool mintY
  userX := .associated u mintX
  userY := .associated u mintY
  userLp := .associated u mintLp

def initBy (u : Addr) : Initialize Addr where
  initializer := u
  mintX := mintX
  mintY := mintY
  mintLp := mintLp
  vaultX := .associated pool mintX
  vaultY := .associated pool mintY
  lpVault := .associated pool mintLp
  config := pool

/-- Alice signs, with the keys of the two mints that she creates. -/
def byAlice (op : Op Addr) : Call Addr := ⟨[alice, mintX, mintY], op⟩

def byBob (op : Op Addr) : Call Addr := ⟨[bob], op⟩

/-- An account for `u` with a million tokens of `m`. -/
def endow (u m : Addr) : List (Call Addr) :=
  [ byAlice (.token (.createAssociated (.associated u m) u m)),
    byAlice (.token (.mintTo m (.associated u m) alice 1000000)) ]

/-- Alice creates two mints and gives herself and Bob a million of each. -/
def setup : List (Call Addr) :=
  [byAlice (.token (.initializeMint mintX alice 6)),
    byAlice (.token (.initializeMint mintY alice 6))] ++
  endow alice mintX ++ endow alice mintY ++ endow bob mintX ++ endow bob mintY

def creation : Call Addr := byAlice (.amm (.init (initBy alice) 7 30 (some alice)))

def firstDeposit : Call Addr := byAlice (.amm (.addLiquidity (addBy alice) 4000 9000 0))

/-- A bank with mints and tokens only. -/
def funded : Bank Addr := run (exec Addr.scheme) (.ofTokens .empty) setup

/-- The bank with a new pool. -/
def fresh : Bank Addr := next (exec Addr.scheme) funded creation

/-- The bank after the first deposit. -/
def bank : Bank Addr := next (exec Addr.scheme) fresh firstDeposit

theorem byAlice_admissible (op : Op Addr) : (byAlice op).Admissible Addr.scheme := by
  intro k hk
  simp only [byAlice, List.mem_cons, List.not_mem_nil, or_false] at hk
  rcases hk with rfl | rfl | rfl <;> exact Addr.wallet_not_program _

theorem byBob_admissible (op : Op Addr) : (byBob op).Admissible Addr.scheme := by
  intro k hk
  obtain rfl := List.mem_singleton.mp hk
  exact Addr.wallet_not_program _

theorem endow_admissible (u m : Addr) : ∀ a ∈ endow u m, a.Admissible Addr.scheme := by
  intro a ha
  simp only [endow, List.mem_cons, List.not_mem_nil, or_false] at ha
  rcases ha with rfl | rfl <;> exact byAlice_admissible _

theorem genesis : Genesis (.ofTokens .empty : Bank Addr) :=
  ⟨fun _ => rfl, fun _ _ => (Finset.sum_eq_zero fun _ _ => rfl).le⟩

theorem funded_reachable : Reachable Addr.scheme funded := by
  refine ⟨_, setup, genesis, ?_, rfl⟩
  intro a ha
  simp only [setup, List.mem_append, List.mem_cons, List.not_mem_nil, or_false] at ha
  rcases ha with (((((rfl | rfl) | h) | h) | h) | h)
  · exact byAlice_admissible _
  · exact byAlice_admissible _
  all_goals exact endow_admissible _ _ a h

theorem fresh_reachable : Reachable Addr.scheme fresh :=
  funded_reachable.next (byAlice_admissible _)

theorem bank_reachable : Reachable Addr.scheme bank :=
  fresh_reachable.next (byAlice_admissible _)

def poolState : PoolState Addr where
  config := ⟨7, some alice, mintX, mintY, 30, false, 255, 255⟩
  vaultX := 4000
  vaultY := 9000
  supply := 6000
  lpVault := 1000

/-- Alice adds liquidity, swaps and removes it again. -/
def roundTrip : List (Call Addr) :=
  [ byAlice (.amm (.addLiquidity (addBy alice) 400 900 0)),
    byAlice (.amm (.swap (swapBy alice) (.exactInput 500 0) true)),
    byAlice (.amm (.removeLiquidity (removeBy alice) 600 0 0)) ]

/-- Alice locks the pool and gives up her authority over it. -/
def renounceLocked : List (Call Addr) :=
  [ byAlice (.amm (.setLocked ⟨alice, pool⟩ true)),
    byAlice (.amm (.updateAuthority ⟨alice, pool⟩ none)) ]

theorem bank_pool : bank.pool Addr.scheme pool = some poolState := by decide +kernel

end Demo

end Amm
