import ToyAmm.LedgerEffect

/-!
# A transaction on a locked pool

A locked pool admits no trade, but its authority can unlock it, trade and lock it again in one
transaction. `NoUnlockedTrade` rules that out: no trade in the pool is reached while the pool is
unlocked. It is what keeps the pool still (`locked_transaction`): under it the reserves and the
supply are the same in every state within the transaction, and a transaction that commits without
it has changed them somewhere. `NoWindowTrade` is a check of the instructions alone that is enough
for it: no trade stands after an unlock and before the next lock.
-/

open Checked AmmMath Token Ledger Transition

namespace Amm

variable {Key : Type}

/-- The two vaults and the LP supply. -/
def PoolState.reserves (p : PoolState Key) : ℕ × ℕ × ℕ := (p.vaultX, p.vaultY, p.supply)

/-- A trade in the pool of `c`. -/
def Call.Trades (call : Call Key) (c : Key) : Prop :=
  ∃ ix, call.op = .amm ix ∧ ix.IsTrade ∧ ix.config = c

/-- The call is no trade in the pool of `c`, unless that is locked in `B`. -/
def Call.OutsideWindow (call : Call Key) (c : Key) (B : Bank Key) : Prop :=
  ∀ cfg, B.configs c = some cfg → cfg.locked = false → ¬ call.Trades c

/-- No trade in the pool of `c` is reached, the calls before it having succeeded, while the pool is
unlocked. -/
def NoUnlockedTrade [DecidableEq Key] (A : AddressScheme Key) (c : Key) :
    Bank Key → List (Call Key) → Prop :=
  Meets (exec A) fun B call => call.OutsideWindow c B

/-- The lock of `c` after a call that succeeds. -/
def Call.lockAfter [DecidableEq Key] (call : Call Key) (c : Key) (locked : Bool) : Bool :=
  match call.op with
  | .amm (.setLocked accs l) => if accs.config = c then l else locked
  | _ => locked

/-- No trade in the pool of `c` stands where the calls before it leave the pool unlocked. -/
def NoWindowTrade [DecidableEq Key] (c : Key) : Bool → List (Call Key) → Prop
  | _, [] => True
  | locked, call :: calls =>
    (locked = false → ¬ call.Trades c) ∧ NoWindowTrade c (call.lockAfter c locked) calls

variable [DecidableEq Key] {A : AddressScheme Key} {B B' : Bank Key} {c lp : Key}
  {cfg : Config Key} {p : PoolState Key} {signers : List Key} {call : Call Key}
  {calls : List (Call Key)}

/-! ## One instruction -/

/-- The lock is what the last `set_locked` made it. -/
theorem exec_locked (h : exec A B call = .ok B') (hc : B.configs c = some cfg) :
    ∃ cfg', B'.configs c = some cfg' ∧ cfg'.locked = call.lockAfter c cfg.locked := by
  obtain ⟨cfg', hc', hstep⟩ := exec_config h hc
  refine ⟨cfg', hc', ?_⟩
  obtain ⟨signers, op⟩ := call
  cases hstep with
  | updateFee op config | updateAuthority op config =>
    simp only at op
    subst op
    rfl
  | setLocked op config =>
    simp only at op
    subst op
    exact (if_pos config).symm
  | same =>
    cases op with
    | token ix => rfl
    | amm ix =>
      cases ix with
      | init | addLiquidity | removeLiquidity | swap | updateFee | updateAuthority => rfl
      | setLocked accs l =>
        obtain ⟨cfg₀, ha, rfl⟩ := setLocked_eq_ok.mp h
        show cfg.locked = if accs.config = c then l else cfg.locked
        split_ifs with hcc
        · subst hcc
          rw [Bank.configs_setConfig_self] at hc'
          exact congrArg Config.locked (Option.some.inj hc').symm
        · rfl

theorem SwapKind.Quoted.amountOut_pos {kind : SwapKind} {rIn rOut : U64} {f : U16} {q : SwapMove}
    (h : kind.Quoted rIn rOut f q) : 0 < q.amountOut.toNat := by
  cases h with
  | exactInput quote => exact (swapExactInput_spec quote).amountOut_pos
  | exactOutput quote paid => exact paid ▸ (swapExactOutput_spec quote).amount_pos

/-- A trade leaves not both vaults as they were: a swap and a withdrawal pay from one, a deposit
pays into one. -/
theorem TradeEffect.changes {ix : Instruction Key} (h : TradeEffect A B B' signers cfg lp ix) :
    (view A B' ix.config cfg lp).x ≠ (view A B ix.config cfg lp).x ∨
      (view A B' ix.config cfg lp).y ≠ (view A B ix.config cfg lp).y := by
  cases h with
  | @swap accs kind aToB rIn rOut q signed effect =>
    have hpos := effect.quoted.amountOut_pos
    have hout := effect.vaultOut
    cases aToB with
    | true =>
      right
      simp only [Config.mintOut_true] at hout
      show B'.tokens.balance cfg.mintY (A.associatedAddress accs.config cfg.mintY) ≠
        B.tokens.balance cfg.mintY (A.associatedAddress accs.config cfg.mintY)
      omega
    | false =>
      left
      simp only [Config.mintOut_false] at hout
      show B'.tokens.balance cfg.mintX (A.associatedAddress accs.config cfg.mintX) ≠
        B.tokens.balance cfg.mintX (A.associatedAddress accs.config cfg.mintX)
      omega
  | @addLiquidity accs a b minLp rX rY s q signed effect =>
    have hpos := (deposit_amounts effect.quote).2.2
    have hin := effect.vaultX
    left
    show B'.tokens.balance cfg.mintX (A.associatedAddress accs.config cfg.mintX) ≠
      B.tokens.balance cfg.mintX (A.associatedAddress accs.config cfg.mintX)
    omega
  | @removeLiquidity accs lpBurn minA minB rX rY s q signed effect =>
    have hpos := (removeLiquidity_spec effect.quote).amountA_pos
    have hout := effect.vaultX
    left
    show B'.tokens.balance cfg.mintX (A.associatedAddress accs.config cfg.mintX) ≠
      B.tokens.balance cfg.mintX (A.associatedAddress accs.config cfg.mintX)
    omega

/-- The numbers of a pool are those of its view. -/
theorem PoolAt.reserves_eq (h : PoolAt A B c cfg lp) (hp : B.pool A c = some p) :
    p.reserves = ((view A B c cfg lp).x, (view A B c cfg lp).y, (view A B c cfg lp).shares) := by
  rw [h.pool_eq] at hp
  obtain rfl := Option.some.inj hp
  rfl

/-- An instruction that is no trade leaves the tokens of the pool that it names alone. -/
theorem admin_of_not_trade {ix : Instruction Key} (ht : ¬ ix.IsTrade)
    (hc : B.configs ix.config = some cfg) (h : ix.process A B signers = .ok B') : ix.IsAdmin := by
  cases ix with
  | init accs seed feeBps authority =>
    have hfree : B.configs accs.config = none := (init_spec h).vacant
    cases hfree.symm.trans hc
  | swap | addLiquidity | removeLiquidity => exact (ht trivial).elim
  | updateFee | setLocked | updateAuthority => trivial

/-- What an instruction does to a pool: the numbers are the same unless the instruction is a trade
in the pool, which has to be unlocked. -/
theorem Bank.InPlace.window_step (hB : B.InPlace A) (hadm : call.Admissible A)
    {ix : Instruction Key} (hop : call.op = .amm ix) (h : exec A B call = .ok B')
    (hp : B.pool A c = some p) :
    ∃ p', B'.pool A c = some p' ∧ (p'.reserves = p.reserves ↔ ¬ call.Trades c) ∧
      (call.Trades c → p.config.locked = false) := by
  have hc := config_of_pool hp
  obtain ⟨lp, hat⟩ := hB _ _ hc
  obtain ⟨cfg', hat', hstep⟩ := hat.kept h
  obtain ⟨p', hp'⟩ : ∃ p', B'.pool A c = some p' := ⟨_, hat'.pool_eq⟩
  have hr := hat.reserves_eq hp
  have hr' := hat'.reserves_eq hp'
  rw [view_congr hstep.sameFixed] at hr'
  have hx : ix.process A B call.signers = .ok B' := exec_amm hop ▸ h
  refine ⟨p', hp', ⟨?_, ?_⟩, ?_⟩
  · -- a trade changes a vault
    rintro hsame ⟨ix', hop', ht, rfl⟩
    rw [hop] at hop'
    cases hop'
    rw [hr, hr'] at hsame
    simp only [Prod.mk.injEq] at hsame
    rcases (trade_effect ht hat hadm hx).changes with hne | hne
    · exact hne hsame.1
    · exact hne hsame.2.1
  · intro hnt
    by_cases hcc : c = ix.config
    · subst hcc
      have ht : ¬ ix.IsTrade := fun ht => hnt ⟨ix, hop, ht, rfl⟩
      have htok := (admin_tokens (admin_of_not_trade ht hc hx) hx).1
      rw [hr, hr']
      unfold view
      rw [htok]
    · rw [hB.pool_of_other hadm h hop hcc, hp] at hp'
      rw [Option.some.inj hp']
  · rintro ⟨ix', hop', ht, rfl⟩
    rw [hop] at hop'
    cases hop'
    obtain ⟨cfg₂, hc₂, hl⟩ := trade_config ht hx
    rwa [Option.some.inj (hc.symm.trans hc₂)]

/-! ## Transactions -/

/-- Every call is one of the program, and no signature is a program address. -/
def Transaction (A : AddressScheme Key) (calls : List (Call Key)) : Prop :=
  ∀ call ∈ calls, call.Admissible A ∧ ∃ ix, call.op = .amm ix

/-- The instructions alone can tell that no trade finds the pool unlocked. -/
theorem NoWindowTrade.noUnlockedTrade (hc : B.configs c = some cfg)
    (h : NoWindowTrade c cfg.locked calls) : NoUnlockedTrade A c B calls := by
  induction calls generalizing B cfg with
  | nil => trivial
  | cons call calls ih =>
    obtain ⟨hnt, h⟩ := h
    refine ⟨?_, ?_⟩
    · rintro cfg' hc' hl
      obtain rfl := Option.some.inj (hc.symm.trans hc')
      exact hnt hl
    · intro B' h'
      obtain ⟨cfg', hc', hl⟩ := exec_locked h' hc
      exact ih hc' (hl ▸ h)

/-- The numbers of the pool of `c` in `B` are those of `p`. -/
def PoolState.StillIn (p : PoolState Key) (A : AddressScheme Key) (c : Key) (B : Bank Key) : Prop :=
  ∃ p', B.pool A c = some p' ∧ p'.reserves = p.reserves

/-- Where no trade finds the pool unlocked, the calls leave its numbers as they were. -/
theorem Bank.InPlace.still_of_quiet (hB : B.InPlace A) (htx : Transaction A calls)
    (hp : B.pool A c = some p) (hq : NoUnlockedTrade A c B calls)
    (h : applyAll (exec A) B calls = .ok B') : p.StillIn A c B' := by
  have hstep : ∀ B₁ call B₂, B₁.InPlace A ∧ p.StillIn A c B₁ →
      (call.Admissible A ∧ ∃ ix, call.op = .amm ix) → call.OutsideWindow c B₁ →
      exec A B₁ call = .ok B₂ → B₂.InPlace A ∧ p.StillIn A c B₂ := by
    rintro B₁ call B₂ ⟨hB₁, p₁, hp₁, hr₁⟩ ⟨hadm, ix, hop⟩ hout h
    obtain ⟨p₂, hp₂, hsame, hunlocked⟩ := hB₁.window_step hadm hop h hp₁
    have hnt : ¬ call.Trades c := fun ht => hout _ (config_of_pool hp₁) (hunlocked ht) ht
    exact ⟨hB₁.of_exec h, p₂, hp₂, (hsame.mpr hnt).trans hr₁⟩
  exact (hq.induction hstep ⟨hB, p, hp, rfl⟩ htx h).2

/-- If calls that all succeed leave the numbers as they were in every state on the way, then none of
them is a trade in the pool. -/
theorem Bank.InPlace.quiet_of_still (hB : B.InPlace A) (htx : Transaction A calls)
    (hp : B.pool A c = some p) (h : applyAll (exec A) B calls = .ok B')
    (hsame : ∀ pre post B₁, calls = pre ++ post → applyAll (exec A) B pre = .ok B₁ →
      p.StillIn A c B₁) : NoUnlockedTrade A c B calls := by
  induction calls generalizing B p with
  | nil => trivial
  | cons call calls ih =>
    obtain ⟨B₁, h₁, h⟩ := Outcome.bind_eq_ok.mp h
    obtain ⟨⟨hadm, ix, hop⟩, htx⟩ := List.forall_mem_cons.mp htx
    obtain ⟨p₁, hp₁, hstep, -⟩ := hB.window_step hadm hop h₁ hp
    have hpre : ∀ pre B₂, applyAll (exec A) B₁ pre = .ok B₂ →
        applyAll (exec A) B (call :: pre) = .ok B₂ := fun pre B₂ h₂ =>
      Outcome.bind_eq_ok.mpr ⟨B₁, h₁, h₂⟩
    have hr₁ : p₁.reserves = p.reserves := by
      obtain ⟨p₂, hp₂, hr⟩ := hsame [call] calls B₁ rfl (hpre [] B₁ rfl)
      rwa [Option.some.inj (hp₁.symm.trans hp₂)]
    refine ⟨fun _ _ _ => hstep.mp hr₁, ?_⟩
    intro B₂ h₂
    obtain rfl := Outcome.ok.inj (h₁.symm.trans h₂)
    refine ih (hB.of_exec h₁) htx hp₁ h ?_
    rintro pre post B₂ rfl h₂
    obtain ⟨p₂, hp₂, hr₂⟩ := hsame (call :: pre) post B₂ rfl (hpre pre B₂ h₂)
    exact ⟨p₂, hp₂, hr₂.trans hr₁.symm⟩

/-- **When a lock on both sides of a transaction means no trade inside it.** If no trade in the pool
is reached while it is unlocked, its numbers are the same after the transaction, committed or rolled
back, and in every state within it. Conversely, a transaction that commits with the same numbers in
all these states reaches no such trade. -/
theorem locked_transaction (A : AddressScheme Key) (B : Bank Key) (hB : Reachable A B) (c : Key)
    (p : PoolState Key) (hp : B.pool A c = some p) (calls : List (Call Key))
    (htx : Transaction A calls) :
    (NoUnlockedTrade A c B calls → p.StillIn A c (atomic (exec A) B calls) ∧
      ∀ pre post B₁, calls = pre ++ post → applyAll (exec A) B pre = .ok B₁ →
        p.StillIn A c B₁) ∧
    ∀ B', applyAll (exec A) B calls = .ok B' →
      (∀ pre post B₁, calls = pre ++ post → applyAll (exec A) B pre = .ok B₁ →
        p.StillIn A c B₁) → NoUnlockedTrade A c B calls := by
  have hIn := hB.inPlace
  refine ⟨?_, fun B' h => hIn.quiet_of_still htx hp h⟩
  intro hq
  refine ⟨atomic_induction ⟨p, hp, rfl⟩ fun B' h => hIn.still_of_quiet htx hp hq h, ?_⟩
  rintro pre post B₁ rfl h₁
  have htx' : Transaction A pre := fun call hcall => htx call (List.mem_append_left _ hcall)
  exact hIn.still_of_quiet htx' hp hq.of_append h₁

/-! ## The window -/

namespace Demo

/-- The pool is locked. -/
def lockedBank : Bank Addr :=
  next (exec Addr.scheme) bank (byAlice (.amm (.setLocked ⟨alice, pool⟩ true)))

/-- Alice unlocks the pool, swaps and locks it again. -/
def window : List (Call Addr) :=
  [ byAlice (.amm (.setLocked ⟨alice, pool⟩ false)),
    byAlice (.amm (.swap (swapBy alice) (.exactInput 500 0) true)),
    byAlice (.amm (.setLocked ⟨alice, pool⟩ true)) ]

/-- Alice locks a locked pool again and hands it over to Bob. -/
def handOver : List (Call Addr) :=
  [ byAlice (.amm (.setLocked ⟨alice, pool⟩ true)),
    byAlice (.amm (.updateAuthority ⟨alice, pool⟩ (some bob))) ]

/-- Bob tries the same without being the authority. -/
def bobsWindow : List (Call Addr) :=
  [ byBob (.amm (.setLocked ⟨bob, pool⟩ false)),
    byBob (.amm (.swap (swapBy bob) (.exactInput 500 0) true)),
    byBob (.amm (.setLocked ⟨bob, pool⟩ true)) ]

theorem lockedBank_reachable : Reachable Addr.scheme lockedBank :=
  bank_reachable.next (byAlice_admissible _)

theorem lockedBank_pool : lockedBank.pool Addr.scheme pool =
    some { poolState with config := { poolState.config with locked := true } } := by
  decide +kernel

theorem window_transaction : Transaction Addr.scheme window := by
  intro call hcall
  simp only [window, List.mem_cons, List.not_mem_nil, or_false] at hcall
  rcases hcall with rfl | rfl | rfl <;> exact ⟨byAlice_admissible _, _, rfl⟩

theorem handOver_transaction : Transaction Addr.scheme handOver := by
  intro call hcall
  simp only [handOver, List.mem_cons, List.not_mem_nil, or_false] at hcall
  rcases hcall with rfl | rfl <;> exact ⟨byAlice_admissible _, _, rfl⟩

theorem bobsWindow_transaction : Transaction Addr.scheme bobsWindow := by
  intro call hcall
  simp only [bobsWindow, List.mem_cons, List.not_mem_nil, or_false] at hcall
  rcases hcall with rfl | rfl | rfl <;> exact ⟨byBob_admissible _, _, rfl⟩

/-- Neither call of the hand-over is a trade, and none of them unlocks the pool. -/
theorem handOver_quiet : NoUnlockedTrade Addr.scheme pool lockedBank handOver := by
  have hc := config_of_pool lockedBank_pool
  refine NoWindowTrade.noUnlockedTrade hc ⟨?_, ?_, trivial⟩
  · intro h
    cases h
  · intro h
    cases h

/-- Bob gets no further than the authority check. -/
theorem bobsWindow_quiet : NoUnlockedTrade Addr.scheme pool lockedBank bobsWindow := by
  refine ⟨?_, ?_⟩
  · rintro cfg hc hl ⟨ix, hop, ht, -⟩
    cases hop
    exact ht
  · intro B h
    have hfails : (exec Addr.scheme lockedBank
        (byBob (.amm (.setLocked ⟨bob, pool⟩ false)))).isOk = false := by
      decide +kernel
    rw [h] at hfails
    cases hfails

end Demo

/-- A hand-over of the locked pool, and an attempt of the attack without authority. -/
theorem locked_transaction_demo :
    ((atomic (exec Addr.scheme) Demo.lockedBank Demo.handOver).pool Addr.scheme Demo.pool).map
        PoolState.reserves = some (4000, 9000, 6000) ∧
      ((atomic (exec Addr.scheme) Demo.lockedBank Demo.bobsWindow).pool Addr.scheme Demo.pool).map
        PoolState.reserves = some (4000, 9000, 6000) := by
  obtain ⟨⟨p, hp, hr⟩, -⟩ := (locked_transaction Addr.scheme Demo.lockedBank
    Demo.lockedBank_reachable Demo.pool _ Demo.lockedBank_pool Demo.handOver
    Demo.handOver_transaction).1 Demo.handOver_quiet
  obtain ⟨⟨p', hp', hr'⟩, -⟩ := (locked_transaction Addr.scheme Demo.lockedBank
    Demo.lockedBank_reachable Demo.pool _ Demo.lockedBank_pool Demo.bobsWindow
    Demo.bobsWindow_transaction).1 Demo.bobsWindow_quiet
  rw [hp, hp', Option.map_some, Option.map_some, hr, hr']
  exact ⟨rfl, rfl⟩

/-- A pool can be locked on both sides of a transaction that traded in it. -/
theorem lock_does_not_close_window :
    ¬ ∀ (B : Bank Addr) (c : Addr) (calls : List (Call Addr)) (p p' : PoolState Addr),
      Reachable Addr.scheme B → Transaction Addr.scheme calls →
      B.pool Addr.scheme c = some p → p.config.locked = true →
      (atomic (exec Addr.scheme) B calls).pool Addr.scheme c = some p' →
      p'.config.locked = true → p'.reserves = p.reserves := by
  intro h
  have hend : (atomic (exec Addr.scheme) Demo.lockedBank Demo.window).pool Addr.scheme Demo.pool =
      some { config := { Demo.poolState.config with locked := true }
             vaultX := 4500
             vaultY := 8004
             supply := 6000
             lpVault := 1000 } := by
    decide +kernel
  have hsame := h Demo.lockedBank Demo.pool Demo.window _ _ Demo.lockedBank_reachable
    Demo.window_transaction Demo.lockedBank_pool rfl hend rfl
  revert hsame
  decide

end Amm
