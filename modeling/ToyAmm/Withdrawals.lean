import ToyAmm.Deals
import ToyAmm.Governance
import ToyAmm.NoTraps
import ToyAmm.ShareWorth

/-!
# Withdrawals that stand

Only swaps move value from one reserve to the other. Along a run in which nobody swaps in a pool,
every share stays backed on both sides (`exec_backed`), whatever is deposited, withdrawn, donated
or burned. So a withdrawal that is quoted now stands (`Exit.Stands`): it goes through after any such
run of other people's calls, with its present amounts as limits, and the holders of a pool can leave
it in any order. Withdrawals round down, which leaves less than one unit behind each time: so they
leave only dust (`exits_leave_dust`), and whoever leaves last is paid no less than whoever leaves
first, and more by units only (`payout_by_place`).
-/

open Checked AmmMath Token Ledger ConstantProduct Transition

namespace Amm

variable {Key : Type} [DecidableEq Key] {A : AddressScheme Key} {B B' : Bank Key} {c lp u : Key}
  {cfg : Config Key} {p : PoolState Key} {signers : List Key} {call : Call Key}
  {calls : List (Call Key)}

/-! ## Without swaps every share stays backed -/

/-- The call is a swap in the pool of the config `c`. -/
def Call.swaps (call : Call Key) (c : Key) : Bool :=
  match call.op with
  | .amm (.swap accs _ _) => decide (accs.config = c)
  | _ => false

/-- What `c` did not sign for leaves its shares backed. -/
theorem PoolAt.backed_of_spares (hp : PoolAt A B c cfg lp) (h : Spares c B.tokens B'.tokens) :
    Backed (view A B c cfg lp).toPool (view A B' c cfg lp).toPool :=
  ⟨Nat.mul_le_mul (h.balance hp.vaultX) (h.supply hp.mintLp),
    Nat.mul_le_mul (h.balance hp.vaultY) (h.supply hp.mintLp)⟩

theorem AddSpec.backed {a b minLp rX rY s : U64} {q : LiquidityQuote U64}
    (h : AddSpec A B B' signers c u a b minLp cfg lp rX rY s q) (hp : PoolAt A B c cfg lp)
    (hu : u ≠ c) (hpos : 0 < (Amm.view A B c cfg lp).shares) :
    Backed (Amm.view A B c cfg lp).toPool (Amm.view A B' c cfg lp).toPool := by
  cases h.move hp hu with
  | liquidity pos backed locked => exact backed
  | bootstrap empty funded locked => exact absurd empty hpos.ne'
  | trade product shares locked =>
    -- a deposit into a pool with shares issues some
    obtain ⟨-, -, hshares, -⟩ := h.view hp hu
    have hsup : s.toNat = (Amm.view A B c cfg lp).shares := h.supplyLp
    have hs : s ≠ 0 := toNat_pos.mp (hsup ▸ hpos)
    have hq := h.quote
    rw [if_neg hs] at hq
    have hissued := (addLiquidity_spec hq).lpTokens_pos
    omega

theorem RemoveSpec.backed {n minA minB rX rY s : U64} {q : LiquidityQuote U64}
    (h : RemoveSpec A B B' signers c u n minA minB cfg lp rX rY s q) (hp : PoolAt A B c cfg lp)
    (hu : u ≠ c) : Backed (Amm.view A B c cfg lp).toPool (Amm.view A B' c cfg lp).toPool := by
  obtain ⟨hx, hy, hshares, -⟩ := h.view hp hu
  have hr := removeLiquidity_spec h.quote
  have hA := hr.amountA_pos
  have hB := hr.amountB_pos
  have hn := hr.lp_pos
  rw [← hr.lpTokens] at hn
  cases h.move hp hu with
  | liquidity pos backed locked => exact backed
  | bootstrap empty funded locked => omega
  | trade product shares locked =>
    -- a withdrawal takes something out of both reserves
    have hlt : (Amm.view A B' c cfg lp).x * (Amm.view A B' c cfg lp).y <
        (Amm.view A B c cfg lp).x * (Amm.view A B c cfg lp).y :=
      Nat.mul_lt_mul'' (by omega) (by omega)
    omega

/-- **A call that is not a swap in the pool leaves every share backed.** -/
theorem exec_backed (h : exec A B call = .ok B') (hadm : call.Admissible A)
    (hswap : call.swaps c = false) (hp : PoolAt A B c cfg lp)
    (hpos : 0 < (view A B c cfg lp).shares) :
    Backed (view A B c cfg lp).toPool (view A B' c cfg lp).toPool := by
  rcases spares_or_trade h hadm hp with hspares | ⟨ix, hop, ht, hcc⟩
  · exact hp.backed_of_spares hspares
  obtain ⟨signers, op⟩ := call
  simp only at hop
  subst hop
  have hu : ∀ {u}, u ∈ signers → u ≠ c := fun hs he => hadm c (he ▸ hs) hp.isProgramAddress
  cases ix with
  | init | updateFee | setLocked | updateAuthority => exact ht.elim
  | swap accs kind aToB => exact absurd hcc (of_decide_eq_false hswap)
  | addLiquidity accs a b m =>
    obtain ⟨rX, rY, s, q, hs⟩ := hp.add_spec hcc h
    exact hs.backed hp (hu hs.signed) hpos
  | removeLiquidity accs l a b =>
    obtain ⟨rX, rY, s, q, hs⟩ := hp.remove_spec hcc h
    exact hs.backed hp (hu hs.signed)

/-- An instruction that succeeds names an address of the program as its config. -/
theorem Inv.isProgramAddress_of_exec (hI : Inv A B) {ix : Instruction Key}
    (h : ix.process A B signers = .ok B') : A.IsProgramAddress ix.config := by
  have hthere : ∀ {k cfg}, B.configs k = some cfg → A.IsProgramAddress k := by
    intro k cfg hk
    obtain ⟨lp, hp, -⟩ := hI.pool hk
    exact hp.isProgramAddress
  cases ix with
  | init accs seed feeBps authority => exact ⟨_, _, (init_spec h).address⟩
  | addLiquidity | removeLiquidity | swap =>
    obtain ⟨cfg, hc, -⟩ := trade_config (by exact trivial) h
    exact hthere hc
  | updateFee accs newFeeBps =>
    obtain ⟨_, ha, -⟩ := updateFee_eq_ok.mp h
    exact hthere ha.config
  | setLocked accs locked =>
    obtain ⟨_, ha, -⟩ := setLocked_eq_ok.mp h
    exact hthere ha.config
  | updateAuthority accs newAuthority =>
    obtain ⟨_, ha, -⟩ := updateAuthority_eq_ok.mp h
    exact hthere ha.config

/-- Whoever did not sign a call has not lost by it. -/
theorem Inv.spares_of_exec (hI : Inv A B) (h : exec A B call = .ok B')
    (hu : ¬ A.IsProgramAddress u) (hns : u ∉ call.signers) : Spares u B.tokens B'.tokens := by
  apply (exec_confined h).spares
  obtain ⟨signers, op⟩ := call
  cases op with
  | token ix => exact hns
  | amm ix =>
    rw [Call.authorities, List.mem_cons, not_or]
    refine ⟨?_, hns⟩
    rintro rfl
    exact hu (hI.isProgramAddress_of_exec h)

/-! ## Exits -/

/-- A holder of shares who wants to leave, and the amounts that have to be paid for it. -/
structure Exit (Key : Type) where
  user : Key
  lpBurn : U64
  minA : U64
  minB : U64
  deriving DecidableEq, Repr

/-- The withdrawal, signed by the user. -/
def Exit.toCall (e : Exit Key) (A : AddressScheme Key) (c lp : Key) (cfg : Config Key) :
    Call Key where
  signers := [e.user]
  op := .amm (.removeLiquidity (cfg.removeAccounts A c lp e.user) e.lpBurn e.minA e.minB)

/-- The pool quotes the withdrawal for at least the amounts that have to be paid. -/
structure Exit.Quoted (e : Exit Key) (p : PoolState Key) : Prop where
  paidA : 0 < e.lpBurn.toNat * p.vaultX / p.supply
  paidB : 0 < e.lpBurn.toNat * p.vaultY / p.supply
  minA : e.minA.toNat ≤ e.lpBurn.toNat * p.vaultX / p.supply
  minB : e.minB.toNat ≤ e.lpBurn.toNat * p.vaultY / p.supply

omit [DecidableEq Key] in
/-- Nothing is quoted for no shares, or by a pool without shares. -/
theorem Exit.Quoted.pos {e : Exit Key} (h : e.Quoted p) : 0 < p.supply ∧ 0 < e.lpBurn.toNat := by
  have hpaid := h.paidA
  constructor <;> apply Nat.pos_of_ne_zero <;> intro h0
  · rw [h0, Nat.div_zero] at hpaid
    exact absurd hpaid (Nat.lt_irrefl 0)
  · rw [h0, Nat.zero_mul, Nat.zero_div] at hpaid
    exact absurd hpaid (Nat.lt_irrefl 0)

/-- The user, who signs with a key, has accounts for both tokens, and holds the shares. -/
structure Exit.Held (e : Exit Key) (A : AddressScheme Key) (B : Bank Key) (lp : Key)
    (cfg : Config Key) : Prop where
  user : ¬ A.IsProgramAddress e.user
  trader : Trader A B [e.user] cfg e.user
  account : B.tokens.Holds (A.associatedAddress e.user lp) lp e.user
  held : e.lpBurn.toNat ≤ B.tokens.balance lp (A.associatedAddress e.user lp)

/-- What keeps an exit from the pool `p` possible: its shares are still held, and the pool at `c`
has not lost backing since it was `p`. -/
structure Exit.Stands (e : Exit Key) (A : AddressScheme Key) (c lp : Key) (p : PoolState Key)
    (B : Bank Key) : Prop where
  inv : Inv A B
  held : e.Held A B lp p.config
  pool : ∃ cfg, PoolAt A B c cfg lp ∧ p.config.SameFixed cfg ∧ 0 < (view A B c cfg lp).shares ∧
    Backed p.toState.toPool (view A B c cfg lp).toPool

variable {e : Exit Key} {exits : List (Exit Key)}

theorem Exit.Held.of_spares (h : e.Held A B lp cfg) (hs : Spares e.user B.tokens B'.tokens) :
    e.Held A B' lp cfg where
  user := h.user
  trader := ⟨h.trader.signed, hs.evolves.holds h.trader.holdsX, hs.evolves.holds h.trader.holdsY⟩
  account := hs.evolves.holds h.account
  held := h.held.trans (hs.balance h.account)

/-- One call of somebody else that is no swap in the pool. -/
theorem Exit.Stands.of_exec (h : e.Stands A c lp p B) (hadm : call.Admissible A)
    (hswap : call.swaps c = false) (hother : e.user ∉ call.signers) (hok : exec A B call = .ok B') :
    e.Stands A c lp p B' := by
  obtain ⟨cfg, hp, hfix, hpos, hbacked⟩ := h.pool
  have hI' := h.inv.of_exec hadm hok
  obtain ⟨cfg', hp', hstep⟩ := hp.kept hok
  have hfix' := hstep.sameFixed
  obtain ⟨lp', hat, hs⟩ := h.inv.pool hp.config
  obtain rfl := hp.lp_eq hat.lpAddress
  refine ⟨hI', h.held.of_spares (h.inv.spares_of_exec hok h.held.user hother), cfg', hp',
    hfix.trans hfix', ?_, ?_⟩
  · rw [view_congr hfix']
    have hmove := exec_move hok hadm hp
    exact hs.shares_pos_of_move (by norm_num) hmove (view_locked_le hI'.backed) hpos
  · rw [view_congr hfix']
    exact hbacked.trans hpos (exec_backed hok hadm hswap hp hpos)

theorem Exit.Stands.of_run (h : e.Stands A c lp p B)
    (hcalls : ∀ call ∈ calls, call.Admissible A ∧ call.swaps c = false ∧ e.user ∉ call.signers) :
    e.Stands A c lp p (run (exec A) B calls) := by
  have hstep : ∀ B₁ call B₂, e.Stands A c lp p B₁ →
      call.Admissible A ∧ call.swaps c = false ∧ e.user ∉ call.signers → exec A B₁ call = .ok B₂ →
      e.Stands A c lp p B₂ := by
    rintro B₁ call B₂ h ⟨hadm, hswap, hother⟩ hok
    exact h.of_exec hadm hswap hother hok
  exact run_induction hstep h hcalls

omit [DecidableEq Key] in
theorem Config.SameFixed.removeAccounts {cfg' : Config Key} (h : cfg.SameFixed cfg') :
    cfg'.removeAccounts A c lp u = cfg.removeAccounts A c lp u := by
  unfold Config.removeAccounts
  rw [h.mintX, h.mintY]

omit [DecidableEq Key] in
theorem Config.SameFixed.trader {cfg' : Config Key} (h : cfg.SameFixed cfg')
    (hu : Trader A B signers cfg u) : Trader A B signers cfg' u := by
  refine ⟨hu.signed, ?_, ?_⟩
  · rw [h.mintX]
    exact hu.holdsX
  · rw [h.mintY]
    exact hu.holdsY

/-- An exit that stands goes through unless the pool is locked. -/
theorem Exit.Stands.ok (h : e.Stands A c lp p B) (hq : e.Quoted p)
    (hunlocked : ∀ cfg, B.configs c = some cfg → cfg.locked = false) :
    ∃ B', exec A B (e.toCall A c lp p.config) = .ok B' := by
  obtain ⟨cfg, hp, hfix, hpos, hbacked⟩ := h.pool
  obtain ⟨lp', hat, hsound⟩ := h.inv.pool hp.config
  obtain rfl := hp.lp_eq hat.lpAddress
  obtain ⟨hs, hn⟩ := hq.pos
  have hX : e.lpBurn.toNat * p.vaultX / p.supply ≤ e.lpBurn.toNat * (view A B c cfg lp').x /
      (view A B c cfg lp').shares := share_le_share hs hpos hbacked.x
  have hY : e.lpBurn.toNat * p.vaultY / p.supply ≤ e.lpBurn.toNat * (view A B c cfg lp').y /
      (view A B c cfg lp').shares := share_le_share hs hpos hbacked.y
  have hsettles : Settles (exec A B (e.toCall A c lp' cfg)) _ _ :=
    remove_settles h.inv.backed hp hsound (hfix.trader h.held.trader) (hunlocked cfg hp.config)
      h.held.account hn h.held.held
  rw [Exit.toCall, hfix.removeAccounts] at hsettles
  refine hsettles.success_iff.mpr ⟨?_, ?_⟩
  · rw [not_or, ← share_eq_zero_iff hpos, ← share_eq_zero_iff hpos]
    have hA := hq.paidA
    have hB := hq.paidB
    omega
  · have hA := hq.minA
    have hB := hq.minB
    omega

/-- At first every exit stands whose shares are held. -/
theorem Exit.Held.stands (h : e.Held A B lp p.config) (hI : Inv A B) (hp : B.pool A c = some p)
    (hlp : A.createProgramAddress (.lpMint c) p.config.lpBump = some lp) (hs : 0 < p.supply) :
    e.Stands A c lp p B := by
  obtain ⟨lp', hat, hv, -⟩ := hI.poolAt hp
  obtain rfl := hat.lp_eq hlp
  refine ⟨hI, h, p.config, hat, .refl _, ?_, ?_⟩
  · rw [hv]
    exact hs
  · rw [hv]
    exact .refl _

/-! ## Quoted withdrawals -/

namespace Demo

def aliceLeaves : Exit Addr := ⟨alice, 5000, 3333, 7500⟩

def bobJoins : Call Addr := byBob (.amm (.addLiquidity (addBy bob) 400 900 0))

theorem alice_held : aliceLeaves.Held Addr.scheme bank mintLp poolState.config where
  user := Addr.wallet_not_program _
  trader := ⟨List.mem_cons_self, ⟨996000, by decide +kernel⟩, ⟨991000, by decide +kernel⟩⟩
  account := ⟨5000, by decide +kernel⟩
  held := by decide +kernel

end Demo

/-- **A quoted withdrawal stands.** -/
theorem withdrawal_stands (A : AddressScheme Key) (B : Bank Key) (c lp : Key) (p : PoolState Key)
    (hB : Reachable A B) (hp : B.pool A c = some p)
    (hlp : A.createProgramAddress (.lpMint c) p.config.lpBump = some lp) (e : Exit Key)
    (hheld : e.Held A B lp p.config) (hq : e.Quoted p) (calls : List (Call Key))
    (hcalls : ∀ call ∈ calls, call.Admissible A ∧ call.swaps c = false ∧ e.user ∉ call.signers)
    (hunlocked : ∀ cfg, (run (exec A) B calls).configs c = some cfg → cfg.locked = false) :
    ∃ B', exec A (run (exec A) B calls) (e.toCall A c lp p.config) = .ok B' :=
  ((hheld.stands hB.inv hp hlp hq.pos.1).of_run hcalls).ok hq hunlocked

theorem withdrawal_stands_demo :
    ∃ B', exec Addr.scheme (run (exec Addr.scheme) Demo.bank [Demo.bobJoins])
      (Demo.aliceLeaves.toCall Addr.scheme Demo.pool Demo.mintLp Demo.poolState.config) =
        .ok B' := by
  refine withdrawal_stands Addr.scheme Demo.bank Demo.pool Demo.mintLp Demo.poolState
    Demo.bank_reachable Demo.bank_pool (by decide +kernel) Demo.aliceLeaves Demo.alice_held
    ⟨by decide, by decide, by decide, by decide⟩ [Demo.bobJoins] ?_ ?_
  · intro call hcall
    obtain rfl := List.mem_singleton.mp hcall
    exact ⟨Demo.byBob_admissible _, rfl, by decide⟩
  · intro cfg hc
    have hstored : (run (exec Addr.scheme) Demo.bank [Demo.bobJoins]).configs Demo.pool =
        some Demo.poolState.config := by decide +kernel
    obtain rfl := Option.some.inj (hstored.symm.trans hc)
    rfl

/-- Exits of different users that stand all go through, one after the other. -/
theorem exits_ok (hexits : ∀ e ∈ exits, e.Stands A c lp p B ∧ e.Quoted p)
    (hnodup : (exits.map Exit.user).Nodup)
    (hunlocked : ∀ cfg, B.configs c = some cfg → cfg.locked = false) :
    ∃ B', applyAll (exec A) B (exits.map fun e => e.toCall A c lp p.config) = .ok B' := by
  induction exits generalizing B with
  | nil => exact ⟨B, rfl⟩
  | cons e exits ih =>
    obtain ⟨⟨hstands, hq⟩, hexits⟩ := List.forall_mem_cons.mp hexits
    rw [List.map_cons, List.nodup_cons] at hnodup
    obtain ⟨B₁, hB₁⟩ := hstands.ok hq hunlocked
    have hadm : (e.toCall A c lp p.config).Admissible A :=
      List.forall_mem_singleton.mpr hstands.held.user
    have hrest : ∀ e' ∈ exits, e'.Stands A c lp p B₁ ∧ e'.Quoted p := by
      intro e' he'
      obtain ⟨hstands', hq'⟩ := hexits e' he'
      refine ⟨hstands'.of_exec hadm rfl ?_ hB₁, hq'⟩
      intro hsame
      rw [← List.mem_singleton.mp hsame] at hnodup
      exact hnodup.1 (List.mem_map_of_mem he')
    have hconfigs : B₁.configs = B.configs := by
      obtain ⟨_, _, _, _, _, _, hs⟩ := remove_spec hB₁
      exact hs.configs
    obtain ⟨B', hB'⟩ := ih hrest hnodup.2 (by rwa [hconfigs])
    exact ⟨B', Outcome.bind_eq_ok.mpr ⟨B₁, hB₁, hB'⟩⟩

namespace Demo

/-- The bank in which Bob has joined Alice. -/
def shared : Bank Addr := next (exec Addr.scheme) bank bobJoins

def sharedPool : PoolState Addr :=
  { poolState with vaultX := 4400, vaultY := 9900, supply := 6600 }

theorem shared_reachable : Reachable Addr.scheme shared :=
  bank_reachable.next (byBob_admissible _)

theorem shared_pool : shared.pool Addr.scheme pool = some sharedPool := by decide +kernel

def bobLeaves : Exit Addr := ⟨bob, 600, 400, 900⟩

/-- What Bob did has left Alice her shares. -/
theorem alice_holds : aliceLeaves.Held Addr.scheme shared mintLp sharedPool.config :=
  alice_held.of_spares (bank_reachable.inv.spares_of_exec (eq_ok_next (by decide +kernel))
    (Addr.wallet_not_program _) (by decide))

theorem bob_holds : bobLeaves.Held Addr.scheme shared mintLp sharedPool.config where
  user := Addr.wallet_not_program _
  trader := ⟨List.mem_cons_self, ⟨999600, by decide +kernel⟩, ⟨999100, by decide +kernel⟩⟩
  account := ⟨600, by decide +kernel⟩
  held := by decide +kernel

end Demo

/-- **Everyone can leave, in any order.** -/
theorem exits_in_any_order (A : AddressScheme Key) (B : Bank Key) (c lp : Key) (p : PoolState Key)
    (hB : Reachable A B) (hp : B.pool A c = some p)
    (hlp : A.createProgramAddress (.lpMint c) p.config.lpBump = some lp)
    (hunlocked : p.config.locked = false) (exits : List (Exit Key))
    (hnodup : (exits.map Exit.user).Nodup)
    (hexits : ∀ e ∈ exits, e.Held A B lp p.config ∧ e.Quoted p) :
    ∃ B', applyAll (exec A) B (exits.map fun e => e.toCall A c lp p.config) = .ok B' := by
  apply exits_ok _ hnodup
  · intro cfg hc
    obtain rfl := Option.some.inj (hc.symm.trans (config_of_pool hp))
    exact hunlocked
  · intro e he
    obtain ⟨hheld, hq⟩ := hexits e he
    exact ⟨hheld.stands hB.inv hp hlp hq.pos.1, hq⟩

theorem exits_in_any_order_demo :
    ∃ B', applyAll (exec Addr.scheme) Demo.shared ([Demo.aliceLeaves, Demo.bobLeaves].map fun e =>
      e.toCall Addr.scheme Demo.pool Demo.mintLp Demo.sharedPool.config) = .ok B' := by
  refine exits_in_any_order Addr.scheme Demo.shared Demo.pool Demo.mintLp Demo.sharedPool
    Demo.shared_reachable Demo.shared_pool (by decide +kernel) rfl
    [Demo.aliceLeaves, Demo.bobLeaves] (by decide) ?_
  intro e he
  simp only [List.mem_cons, List.not_mem_nil, or_false] at he
  rcases he with rfl | rfl
  · exact ⟨Demo.alice_holds, by decide, by decide, by decide, by decide⟩
  · exact ⟨Demo.bob_holds, by decide, by decide, by decide, by decide⟩

/-! ## What is left behind -/

/-- A withdrawal burns its shares and leaves less than one unit of either token behind. -/
theorem RemoveSpec.dust {n minA minB rX rY s : U64} {q : LiquidityQuote U64}
    (h : RemoveSpec A B B' signers c u n minA minB cfg lp rX rY s q) (hp : PoolAt A B c cfg lp)
    (hu : u ≠ c) :
    (Amm.view A B' c cfg lp).shares + n.toNat = (Amm.view A B c cfg lp).shares ∧
      Dust 1 (Amm.view A B c cfg lp).toPool (Amm.view A B' c cfg lp).toPool := by
  obtain ⟨hx, hy, hshares, -⟩ := h.view hp hu
  have hr := removeLiquidity_spec h.quote
  have hrX : rX.toNat = (Amm.view A B c cfg lp).x := h.reserveX
  have hrY : rY.toNat = (Amm.view A B c cfg lp).y := h.reserveY
  have hsup : s.toNat = (Amm.view A B c cfg lp).shares := h.supplyLp
  have hpos : 0 < (Amm.view A B c cfg lp).shares := by
    rw [← hsup]
    exact hr.lp_pos.trans_le hr.lp_le
  rw [hr.lpTokens] at hshares
  rw [hr.amountA, hrX, hsup] at hx
  rw [hr.amountB, hrY, hsup] at hy
  exact ⟨hshares, dust_of_payout hpos hx hshares, dust_of_payout hpos hy hshares⟩

/-- Exits one after the other. -/
theorem dust_of_exits (hI : Inv A B) (hp : PoolAt A B c cfg lp)
    (hkeys : ∀ e ∈ exits, ¬ A.IsProgramAddress e.user)
    (h : applyAll (exec A) B (exits.map fun e => e.toCall A c lp cfg) = .ok B') :
    Inv A B' ∧ PoolAt A B' c cfg lp ∧
      (view A B' c cfg lp).shares + (exits.map fun e => e.lpBurn.toNat).sum =
        (view A B c cfg lp).shares ∧
      Backed (view A B c cfg lp).toPool (view A B' c cfg lp).toPool ∧
      Dust exits.length (view A B c cfg lp).toPool (view A B' c cfg lp).toPool := by
  induction exits generalizing B with
  | nil =>
    obtain rfl := Outcome.ok.inj h
    exact ⟨hI, hp, rfl, .refl _, .refl _⟩
  | cons e exits ih =>
    obtain ⟨B₁, h₁, hrest⟩ := Outcome.bind_eq_ok.mp h
    obtain ⟨hkey, hkeys⟩ := List.forall_mem_cons.mp hkeys
    have hadm : (e.toCall A c lp cfg).Admissible A := List.forall_mem_singleton.mpr hkey
    have hI₁ := hI.of_exec hadm h₁
    have hu : e.user ≠ c := fun he => hkey (he ▸ hp.isProgramAddress)
    obtain ⟨rX, rY, s, q, hs⟩ := hp.remove_spec rfl h₁
    obtain ⟨hburnt, hdust⟩ := hs.dust hp hu
    have hp₁ : PoolAt A B₁ c cfg lp :=
      hp.evolve hs.confined.evolves (by rw [hs.configs]; exact hp.config) (.refl cfg) hp.fee_lt
    have hpos₁ : 0 < (view A B₁ c cfg lp).shares := by
      obtain ⟨lp', hat, hsound⟩ := hI.pool hp.config
      obtain rfl := hp.lp_eq hat.lpAddress
      have hn := (removeLiquidity_spec hs.quote).lp_pos
      exact hsound.shares_pos_of_move (by norm_num) (exec_move h₁ hadm hp)
        (view_locked_le hI₁.backed) (by omega)
    obtain ⟨hI', hp', hsum, hbacked, hrests⟩ := ih hI₁ hp₁ hkeys hrest
    refine ⟨hI', hp', ?_, (hs.backed hp hu).trans hpos₁ hbacked, ?_⟩
    · rw [List.map_cons, List.sum_cons]
      omega
    · have hle : (view A B' c cfg lp).shares ≤ (view A B₁ c cfg lp).shares := by omega
      rw [List.length_cons, Nat.add_comm]
      exact hdust.trans hpos₁ hle hrests

/-- **Exits leave only dust behind.** After any withdrawals from a pool, what is left of either
token is what the remaining shares had, and less than one unit more for each withdrawal. -/
theorem exits_leave_dust (A : AddressScheme Key) (B B' : Bank Key) (c lp : Key) (p : PoolState Key)
    (hB : Reachable A B) (hp : B.pool A c = some p)
    (hlp : A.createProgramAddress (.lpMint c) p.config.lpBump = some lp) (exits : List (Exit Key))
    (hkeys : ∀ e ∈ exits, ¬ A.IsProgramAddress e.user)
    (h : applyAll (exec A) B (exits.map fun e => e.toCall A c lp p.config) = .ok B') :
    ∃ p', B'.pool A c = some p' ∧
      p'.supply + (exits.map fun e => e.lpBurn.toNat).sum = p.supply ∧
      p.vaultX * p'.supply ≤ p'.vaultX * p.supply ∧
      p'.vaultX * p.supply ≤ p.vaultX * p'.supply + exits.length * p.supply ∧
      p.vaultY * p'.supply ≤ p'.vaultY * p.supply ∧
      p'.vaultY * p.supply ≤ p.vaultY * p'.supply + exits.length * p.supply := by
  obtain ⟨lp', hat, hv, -⟩ := hB.inv.poolAt hp
  obtain rfl := hat.lp_eq hlp
  obtain ⟨-, hat', hsum, hbacked, hdust⟩ := dust_of_exits hB.inv hat hkeys h
  rw [hv] at hsum hbacked hdust
  exact ⟨_, hat'.pool_eq, hsum, hbacked.x, hdust.x, hbacked.y, hdust.y⟩

/-- Alice and Bob leave; of 4400 and 9900 the 1000 locked shares of 6600 keep 667 and 1500. -/
theorem exits_leave_dust_demo :
    ∃ p', (next (applyAll (exec Addr.scheme)) Demo.shared ([Demo.aliceLeaves, Demo.bobLeaves].map
        fun e => e.toCall Addr.scheme Demo.pool Demo.mintLp Demo.sharedPool.config)).pool
          Addr.scheme Demo.pool = some p' ∧
      p'.supply + 5600 = 6600 ∧
      4400 * p'.supply ≤ p'.vaultX * 6600 ∧ p'.vaultX * 6600 ≤ 4400 * p'.supply + 2 * 6600 ∧
      9900 * p'.supply ≤ p'.vaultY * 6600 ∧ p'.vaultY * 6600 ≤ 9900 * p'.supply + 2 * 6600 := by
  refine exits_leave_dust Addr.scheme Demo.shared _ Demo.pool Demo.mintLp Demo.sharedPool
    Demo.shared_reachable Demo.shared_pool (by decide +kernel) [Demo.aliceLeaves, Demo.bobLeaves]
    ?_ (eq_ok_next (by decide +kernel))
  intro e he
  simp only [List.mem_cons, List.not_mem_nil, or_false] at he
  rcases he with rfl | rfl <;> exact Addr.wallet_not_program _

/-- What a withdrawal pays its user. -/
theorem RemoveSpec.payout {n minA minB rX rY s : U64} {q : LiquidityQuote U64}
    (h : RemoveSpec A B B' signers c u n minA minB cfg lp rX rY s q) (hp : PoolAt A B c cfg lp)
    (hu : u ≠ c) :
    n.toNat ≤ (Amm.view A B c cfg lp).shares ∧
      B'.purse A u cfg.mintX = B.purse A u cfg.mintX +
        n.toNat * (Amm.view A B c cfg lp).x / (Amm.view A B c cfg lp).shares ∧
      B'.purse A u cfg.mintY = B.purse A u cfg.mintY +
        n.toNat * (Amm.view A B c cfg lp).y / (Amm.view A B c cfg lp).shares := by
  have hxy := hp.mintX_ne_mintY
  have hr := removeLiquidity_spec h.quote
  have hrX : rX.toNat = (Amm.view A B c cfg lp).x := h.reserveX
  have hrY : rY.toNat = (Amm.view A B c cfg lp).y := h.reserveY
  have hsup : s.toNat = (Amm.view A B c cfg lp).shares := h.supplyLp
  have hX := h.purse hu cfg.mintX
  have hY := h.purse hu cfg.mintY
  rw [if_neg hp.mintX_ne_lp, if_pos rfl, if_neg hxy, hr.amountA, hrX, hsup] at hX
  rw [if_neg hp.mintY_ne_lp, if_neg hxy.symm, if_pos rfl, hr.amountB, hrY, hsup] at hY
  exact ⟨hsup ▸ hr.lp_le, hX, hY⟩

/-- **Places in the queue matter by units.** Whoever leaves after others is paid of either token at
least what the pool quoted before they left, and at most one unit more for each of them. -/
theorem payout_by_place (A : AddressScheme Key) (B B₁ B₂ : Bank Key) (c lp : Key)
    (p : PoolState Key) (hB : Reachable A B) (hp : B.pool A c = some p)
    (hlp : A.createProgramAddress (.lpMint c) p.config.lpBump = some lp) (exits : List (Exit Key))
    (e : Exit Key) (hkeys : ∀ e' ∈ e :: exits, ¬ A.IsProgramAddress e'.user)
    (h₁ : applyAll (exec A) B (exits.map fun e => e.toCall A c lp p.config) = .ok B₁)
    (h₂ : exec A B₁ (e.toCall A c lp p.config) = .ok B₂) :
    (B₁.purse A e.user p.config.mintX + e.lpBurn.toNat * p.vaultX / p.supply ≤
        B₂.purse A e.user p.config.mintX ∧
      B₂.purse A e.user p.config.mintX ≤ B₁.purse A e.user p.config.mintX +
        (e.lpBurn.toNat * p.vaultX / p.supply + exits.length)) ∧
      B₁.purse A e.user p.config.mintY + e.lpBurn.toNat * p.vaultY / p.supply ≤
        B₂.purse A e.user p.config.mintY ∧
      B₂.purse A e.user p.config.mintY ≤ B₁.purse A e.user p.config.mintY +
        (e.lpBurn.toNat * p.vaultY / p.supply + exits.length) := by
  obtain ⟨lp', hat, hv, -⟩ := hB.inv.poolAt hp
  obtain rfl := hat.lp_eq hlp
  obtain ⟨hkey, hkeys⟩ := List.forall_mem_cons.mp hkeys
  obtain ⟨-, hat₁, hsum, hbacked, hdust⟩ := dust_of_exits hB.inv hat hkeys h₁
  obtain ⟨rX, rY, s, q, hs⟩ : ∃ rX rY s q, RemoveSpec A B₁ B₂ [e.user] c e.user e.lpBurn e.minA
      e.minB p.config lp rX rY s q := hat₁.remove_spec rfl h₂
  obtain ⟨hle, hX, hY⟩ := hs.payout hat₁ fun he => hkey (he ▸ hat.isProgramAddress)
  have hn : 0 < e.lpBurn.toNat := (removeLiquidity_spec hs.quote).lp_pos
  rw [hv] at hsum hbacked hdust
  have hpos₁ : 0 < (view A B₁ c p.config lp).shares := by omega
  have hpos : 0 < p.supply := show 0 < p.toState.shares by omega
  have hlowX := share_le_share (l := e.lpBurn.toNat) hpos hpos₁ hbacked.x
  have hlowY := share_le_share (l := e.lpBurn.toNat) hpos hpos₁ hbacked.y
  have hhighX := payout_le_of_dust hpos hpos₁ hle hdust.x
  have hhighY := payout_le_of_dust hpos hpos₁ hle hdust.y
  change e.lpBurn.toNat * p.vaultX / p.supply ≤ _ at hlowX
  change e.lpBurn.toNat * p.vaultY / p.supply ≤ _ at hlowY
  change _ ≤ e.lpBurn.toNat * p.vaultX / p.supply + _ at hhighX
  change _ ≤ e.lpBurn.toNat * p.vaultY / p.supply + _ at hhighY
  rw [hX, hY]
  exact ⟨⟨by omega, by omega⟩, by omega, by omega⟩

/-- Bob, after Alice, is paid his 400 and 900, and at most one more of each. -/
theorem payout_by_place_demo :
    let B := next (applyAll (exec Addr.scheme)) Demo.shared ([Demo.aliceLeaves].map
      fun e => e.toCall Addr.scheme Demo.pool Demo.mintLp Demo.sharedPool.config)
    let B' := next (exec Addr.scheme) B
      (Demo.bobLeaves.toCall Addr.scheme Demo.pool Demo.mintLp Demo.sharedPool.config)
    (B.purse Addr.scheme Demo.bob Demo.mintX + 600 * 4400 / 6600 ≤
          B'.purse Addr.scheme Demo.bob Demo.mintX ∧
        B'.purse Addr.scheme Demo.bob Demo.mintX ≤
          B.purse Addr.scheme Demo.bob Demo.mintX + (600 * 4400 / 6600 + 1)) ∧
      B.purse Addr.scheme Demo.bob Demo.mintY + 600 * 9900 / 6600 ≤
          B'.purse Addr.scheme Demo.bob Demo.mintY ∧
        B'.purse Addr.scheme Demo.bob Demo.mintY ≤
          B.purse Addr.scheme Demo.bob Demo.mintY + (600 * 9900 / 6600 + 1) := by
  refine payout_by_place Addr.scheme Demo.shared _ _ Demo.pool Demo.mintLp Demo.sharedPool
    Demo.shared_reachable Demo.shared_pool (by decide +kernel) [Demo.aliceLeaves] Demo.bobLeaves
    ?_ (eq_ok_next (by decide +kernel)) (eq_ok_next (by decide +kernel))
  intro e he
  simp only [List.mem_cons, List.not_mem_nil, or_false] at he
  rcases he with rfl | rfl <;> exact Addr.wallet_not_program _

end Amm
