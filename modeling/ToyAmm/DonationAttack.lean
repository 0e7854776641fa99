import ToyAmm.Inflation
import ToyAmm.Reachable

/-!
# The donation attack

An attacker makes the first deposit into a fresh pool and donates to its vaults, before and after,
to make the deposits of others round down. `Attack` is a run of this, counted on one side of the
pool, and in it the pool is an `Inflation.Side` (`Attack.bounded`). What the attacker redeems in
the end is at most what the attacker has spent, up to as many deposits as there are locked shares.
-/

open Checked AmmMath Token Ledger Inflation

namespace Amm

variable {Key : Type} [DecidableEq Key] {A : AddressScheme Key} {B B' B₁ : Bank Key}
  {c lp u attacker vault mint : Key} {cfg : Config Key} {signers : List Key} {p p' : PoolState Key}
  {call : Call Key} {side : Bool}

/-! ## The attack -/

/-- The attacker pays `n` into a vault, or mints as much into it. -/
inductive Donation (attacker vault mint : Key) (n : ℕ) : Op Key → Prop where
  | transfer {source : Key} {amount : U64} {decimals : U8} (amount_eq : amount.toNat = n) :
    Donation attacker vault mint n
      (.token (.transferChecked source mint vault attacker amount decimals))
  | mintTo {amount : U64} (amount_eq : amount.toNat = n) :
    Donation attacker vault mint n (.token (.mintTo mint vault attacker amount))

/-- What the attacker has put into the vault, the shares issued for the first deposit (with the
locked ones), and how many deposits came after it. -/
structure Tally where
  spent : ℕ
  issued : ℕ
  deposits : ℕ
  deriving DecidableEq, Repr

/-- One successful call during the attack, with what it adds to the tally. -/
inductive Event (A : AddressScheme Key) (c attacker : Key) (side : Bool) (B B' : Bank Key)
    (op : Op Key) (t : Tally) : Tally → Prop where
  /-- It leaves this side of the pool alone. -/
  | idle {p p' : PoolState Key} (pool : B.pool A c = some p) (pool' : B'.pool A c = some p')
      (reserve : p'.reserveIn side = p.reserveIn side) (supply : p'.supply = p.supply) :
    Event A c attacker side B B' op t t
  | donation {p : PoolState Key} {n : ℕ} (pool : B.pool A c = some p)
      (donation : Donation attacker (A.associatedAddress c (p.config.mintIn side))
        (p.config.mintIn side) n op) :
    Event A c attacker side B B' op t { t with spent := t.spent + n }
  | firstDeposit {p : PoolState Key} {accs : AddLiquidity Key} {a b minLp : U64}
      (op_eq : op = .amm (.addLiquidity accs a b minLp)) (config : accs.config = c)
      (user : accs.user = attacker) (pool : B.pool A c = some p) (empty : p.supply = 0) :
    Event A c attacker side B B' op t
      { t with
        spent := t.spent + if side then a.toNat else b.toNat
        issued := Nat.sqrt (a.toNat * b.toNat) }
  /-- A later deposit of which this side binds. -/
  | deposit {p : PoolState Key} {accs : AddLiquidity Key} {a b minLp : U64}
      (op_eq : op = .amm (.addLiquidity accs a b minLp)) (config : accs.config = c)
      (pool : B.pool A c = some p) (funded : 0 < p.supply)
      (binds : (if side then a.toNat else b.toNat) * p.supply / p.reserveIn side ≤
        (if side then b.toNat else a.toNat) * p.supply / p.reserveOut side) :
    Event A c attacker side B B' op t { t with deposits := t.deposits + 1 }

/-- A run of the attack from the bank `B₁`; failed calls are left out, they change nothing. -/
inductive Attack (A : AddressScheme Key) (c attacker : Key) (side : Bool) (B₁ : Bank Key) :
    Bank Key → Tally → Prop where
  | start : Attack A c attacker side B₁ B₁ ⟨0, 0, 0⟩
  | step {B B' : Bank Key} {call : Call Key} {t t' : Tally} (run : Attack A c attacker side B₁ B t)
      (admissible : call.Admissible A) (ok : exec A B call = .ok B')
      (event : Event A c attacker side B B' call.op t t') : Attack A c attacker side B₁ B' t'

/-! ## One event -/

/-- A donation enters the reserve, and issues no shares. -/
theorem Donation.effect {n : ℕ} {op : Op Key} (hd : Donation attacker vault mint n op)
    (hne : attacker ∈ signers → attacker ≠ c) (hv : B.tokens.Holds vault mint c) (hlp : lp ≠ mint)
    (h : exec A B ⟨signers, op⟩ = .ok B') :
    B'.tokens.balance mint vault = B.tokens.balance mint vault + n ∧
      B'.tokens.supply lp = B.tokens.supply lp := by
  cases hd with
  | @transfer source amount decimals amount_eq =>
    obtain ⟨ht, -⟩ := Bank.cpi_eq_ok.mp h
    have hs := transferChecked_posts ht
    have hsrc : vault ≠ source := by
      rintro rfl
      exact hne hs.signed (hs.holds.owner_eq hv)
    exact ⟨amount_eq ▸ hs.posts.balance_dst hsrc, hs.posts.supply_of_ne hlp⟩
  | @mintTo amount amount_eq =>
    obtain ⟨ht, -⟩ := Bank.cpi_eq_ok.mp h
    have hs := (mintTo_posts ht).posts
    refine ⟨?_, hs.supply_of_ne hlp⟩
    have hb := hs.balance mint vault
    rw [entry_zero, entry_self] at hb
    omega

/-- The counted reserve and the supply, as the bank has them. -/
theorem PoolState.of_view (hv : view A B c cfg lp = p.toState) (aToB : Bool) :
    p.reserveIn aToB =
        B.tokens.balance (cfg.mintIn aToB) (A.associatedAddress c (cfg.mintIn aToB)) ∧
      p.supply = B.tokens.supply lp := by
  refine ⟨?_, (congrArg (fun s => s.shares) hv).symm⟩
  cases aToB with
  | true => exact (congrArg (fun s => s.x) hv).symm
  | false => exact (congrArg (fun s => s.y) hv).symm

/-- How the pool stands: before the first deposit the reserve is the attacker's alone, after it the
pool is bounded. -/
inductive Stage (side : Bool) (p : PoolState Key) (t : Tally) : Prop where
  | fresh (empty : p.supply = 0) (issued : t.issued = 0) (deposits : t.deposits = 0)
      (reserve : p.reserveIn side = t.spent)
  | funded (pos : 0 < p.supply)
      (bounded : Bounded t.issued ⟨p.reserveIn side, p.supply, t.spent, t.deposits⟩)

omit [DecidableEq Key] in
/-- What is the attacker's loss is the pool's gain. -/
theorem Stage.donate {t : Tally} {n : ℕ} (h : Stage side p t)
    (hr : p'.reserveIn side = p.reserveIn side + n) (hS : p'.supply = p.supply) :
    Stage side p' { t with spent := t.spent + n } := by
  cases h with
  | fresh empty issued deposits reserve =>
    exact .fresh (hS.trans empty) issued deposits (by rw [hr, reserve])
  | funded pos bounded =>
    refine .funded (hS ▸ pos) ?_
    rw [hr, hS]
    exact bounded.donate n

omit [DecidableEq Key] in
/-- The first deposit bounds the pool by the shares that it issues. -/
theorem Stage.first {t : Tally} {n issued : ℕ} (h : Stage side p t) (hempty : p.supply = 0)
    (hr : p'.reserveIn side = p.reserveIn side + n) (hS : p'.supply = issued)
    (hpos : 0 < p'.supply) :
    Stage side p' { t with spent := t.spent + n, issued := issued } := by
  cases h with
  | fresh _ _ deposits reserve =>
    apply Stage.funded hpos
    rw [deposits, hr, hS, reserve]
    exact .first _ _
  | funded pos _ => omega

omit [DecidableEq Key] in
/-- A later deposit of which this side binds. -/
theorem Stage.deposit {t : Tally} {n : ℕ} (h : Stage side p t) (hfunded : 0 < p.supply)
    (hreserve : 0 < p.reserveIn side) (hn : 0 < n * p.supply / p.reserveIn side)
    (hr : p'.reserveIn side = p.reserveIn side + n)
    (hS : p'.supply = p.supply + n * p.supply / p.reserveIn side) :
    Stage side p' { t with deposits := t.deposits + 1 } := by
  cases h with
  | fresh empty => omega
  | funded pos bounded =>
    refine .funded (by omega) ?_
    rw [hr, hS]
    exact bounded.deposit hreserve hn

/-- What a deposit does to the pool as it is read off the bank. -/
theorem AddSpec.pool {a b minLp rX rY s : U64} {q : LiquidityQuote U64}
    (h : AddSpec A B B' signers c u a b minLp p.config lp rX rY s q)
    (hp : PoolAt A B c p.config lp) (hu : u ≠ c) (hv : Amm.view A B c p.config lp = p.toState)
    (hv' : Amm.view A B' c p.config lp = p'.toState) :
    p'.vaultX = p.vaultX + a.toNat ∧ p'.vaultY = p.vaultY + b.toNat ∧
      (p.supply = 0 → p'.supply = Nat.sqrt (a.toNat * b.toNat) ∧ 0 < p'.supply) ∧
      (0 < p.supply → 0 < p.vaultX ∧ 0 < p.vaultY ∧ ∃ n, 0 < n ∧ p'.supply = p.supply + n ∧
        n = min (a.toNat * p.supply / p.vaultX) (b.toNat * p.supply / p.vaultY)) := by
  obtain ⟨hx, hy, hs, -⟩ := h.view hp hu
  have hrx : rX.toNat = (Amm.view A B c p.config lp).x := h.reserveX
  have hry : rY.toNat = (Amm.view A B c p.config lp).y := h.reserveY
  have hsup : s.toNat = (Amm.view A B c p.config lp).shares := h.supplyLp
  rw [hv] at hrx hry hsup
  rw [hv, hv'] at hx hy hs
  simp only [PoolState.toState] at hx hy hs hrx hry hsup
  have hq := h.quote
  by_cases h0 : s = 0
  · rw [if_pos h0] at hq
    have hi := initialLiquidity_spec hq
    have hlp := hi.lpTokens
    have hz : s.toNat = 0 := toNat_eq_zero.mpr h0
    have hlock : lockedShares s = 1000 := if_pos h0
    rw [hi.amountA] at hx
    rw [hi.amountB] at hy
    exact ⟨hx, hy, fun _ => ⟨by omega, by omega⟩, fun hpos => by omega⟩
  · rw [if_neg h0] at hq
    have ha := addLiquidity_spec hq
    have hlp := ha.lpTokens
    have hpos : 0 < s.toNat := toNat_pos.mpr h0
    have hlock : lockedShares s = 0 := if_neg h0
    rw [ha.amountA] at hx
    rw [ha.amountB] at hy
    rw [Reference.mintedShares, hrx, hry, hsup] at hlp
    refine ⟨hx, hy, fun hz => by omega, fun _ => ⟨?_, ?_, _, ha.lpTokens_pos, by omega, hlp⟩⟩
    · exact hrx ▸ ha.reserveA_pos
    · exact hry ▸ ha.reserveB_pos

/-- One event keeps the stage. -/
theorem Stage.of_event {t t' : Tally} (hI : Inv A B) (hp : B.pool A c = some p)
    (hadm : call.Admissible A) (h : exec A B call = .ok B')
    (he : Event A c attacker side B B' call.op t t') (hs : Stage side p t) :
    ∃ p', B'.pool A c = some p' ∧ p.config.SameFixed p'.config ∧ Stage side p' t' := by
  obtain ⟨lp, hat, hv, hsound⟩ := hI.poolAt hp
  obtain ⟨cfg', hat', hstep, -⟩ := hat.of_exec hI.backed (hv ▸ hsound) hadm h
  have hns : c ∉ call.signers := fun hc => hadm c hc hat.isProgramAddress
  obtain ⟨p', hp', hcfg, hv'⟩ : ∃ p', B'.pool A c = some p' ∧ p'.config = cfg' ∧
      view A B' c p.config lp = p'.toState :=
    ⟨_, hat'.pool_eq, rfl, (view_congr hstep.sameFixed).symm⟩
  refine ⟨p', hp', hcfg ▸ hstep.sameFixed, ?_⟩
  obtain ⟨signers, op⟩ := call
  cases he with
  | @idle p₀ p₁ pool pool' reserve supply =>
    obtain rfl := Option.some.inj (hp.symm.trans pool)
    obtain rfl := Option.some.inj (hp'.symm.trans pool')
    exact hs.donate (n := 0) reserve supply
  | @donation p₀ n pool donation =>
    obtain rfl := Option.some.inj (hp.symm.trans pool)
    have hne : attacker ∈ signers → attacker ≠ c := by
      rintro hs rfl
      exact hns hs
    obtain ⟨hbal, hsup⟩ := donation.effect hne (hat.vaultIn side) (hat.mintIn_ne_lp side) h
    obtain ⟨hr, hS⟩ := PoolState.of_view hv side
    obtain ⟨hr', hS'⟩ := PoolState.of_view hv' side
    rw [hbal, ← hr] at hr'
    rw [hsup, ← hS] at hS'
    exact hs.donate hr' hS'
  | @firstDeposit p₀ accs a b minLp op_eq config user pool empty =>
    obtain rfl := Option.some.inj (hp.symm.trans pool)
    have hop : op = .amm (.addLiquidity accs a b minLp) := op_eq
    subst hop
    obtain ⟨rX, rY, s, q, hadd⟩ := hat.add_spec config h
    obtain ⟨hx, hy, hfirst, -⟩ := hadd.pool hat (fun hu => hns (hu ▸ hadd.signed)) hv hv'
    obtain ⟨hS', hpos'⟩ := hfirst empty
    cases side with
    | true => exact hs.first empty hx hS' hpos'
    | false => exact hs.first empty hy hS' hpos'
  | @deposit p₀ accs a b minLp op_eq config pool funded binds =>
    obtain rfl := Option.some.inj (hp.symm.trans pool)
    have hop : op = .amm (.addLiquidity accs a b minLp) := op_eq
    subst hop
    obtain ⟨rX, rY, s, q, hadd⟩ := hat.add_spec config h
    obtain ⟨hx, hy, -, hlater⟩ := hadd.pool hat (fun hu => hns (hu ▸ hadd.signed)) hv hv'
    obtain ⟨hxpos, hypos, n, hn, hS', hmin⟩ := hlater funded
    cases side with
    | true =>
      obtain rfl : n = a.toNat * p.supply / p.vaultX := hmin.trans (min_eq_left binds)
      exact hs.deposit funded hxpos hn hx hS'
    | false =>
      obtain rfl : n = b.toNat * p.supply / p.vaultY := hmin.trans (min_eq_right binds)
      exact hs.deposit funded hypos hn hy hS'

/-! ## The run -/

/-- In a run of the attack the pool stands as the tally says. -/
theorem Attack.stage {t : Tally} (h : Attack A c attacker side B₁ B t) (hI : Inv A B₁)
    {p₁ : PoolState Key} (hp₁ : B₁.pool A c = some p₁) (hempty : p₁.supply = 0)
    (hreserve : p₁.reserveIn side = 0) :
    Inv A B ∧ ∃ p, B.pool A c = some p ∧ p₁.config.SameFixed p.config ∧ Stage side p t := by
  induction h with
  | start => exact ⟨hI, p₁, hp₁, .refl _, .fresh hempty rfl rfl hreserve⟩
  | step run admissible ok event ih =>
    obtain ⟨hI, p, hp, hfix, hs⟩ := ih
    obtain ⟨p', hp', hfix', hs'⟩ := hs.of_event hI hp admissible ok event
    exact ⟨hI.of_exec admissible ok, p', hp', hfix.trans hfix', hs'⟩

/-- What a withdrawal pays its user. -/
theorem RemoveSpec.received {lpBurn minA minB rX rY s : U64} {q : LiquidityQuote U64}
    (h : RemoveSpec A B B' signers c u lpBurn minA minB cfg lp rX rY s q)
    (hp : PoolAt A B c cfg lp) (hu : u ≠ c) (aToB : Bool) :
    B'.tokens.balance (cfg.mintIn aToB) (A.associatedAddress u (cfg.mintIn aToB)) =
      B.tokens.balance (cfg.mintIn aToB) (A.associatedAddress u (cfg.mintIn aToB)) +
        lpBurn.toNat * B.tokens.balance (cfg.mintIn aToB)
          (A.associatedAddress c (cfg.mintIn aToB)) / B.tokens.supply lp := by
  have hxy := hp.mintX_ne_mintY
  have hxl := hp.mintX_ne_lp
  have hyl := hp.mintY_ne_lp
  have hr := removeLiquidity_spec h.quote
  have hb := h.balance (cfg.mintIn aToB) (A.associatedAddress u (cfg.mintIn aToB))
  have hne : ∀ m, A.associatedAddress u m ≠ A.associatedAddress c m := fun m =>
    A.associated_ne_of_owner hu
  cases aToB with
  | true =>
    rw [Config.mintIn_true, ← h.reserveX, ← h.supplyLp, ← hr.amountA]
    simpa [entry_self, entry_of_ne (hne _), entry_of_mint_ne hxy, entry_of_mint_ne hxl] using hb
  | false =>
    rw [Config.mintIn_false, ← h.reserveY, ← h.supplyLp, ← hr.amountB]
    simpa [entry_self, entry_of_ne (hne _), entry_of_mint_ne hxy.symm, entry_of_mint_ne hyl]
      using hb

/-! Alice donates, makes the first deposit and donates again; then Bob makes a deposit. -/

namespace Demo

def donate (n : U64) : Call Addr :=
  byAlice (.token (.transferChecked (.associated alice mintX) mintX (.associated pool mintX) alice
    n 6))

def bobDeposit : Call Addr := byBob (.amm (.addLiquidity (addBy bob) 20000 45000 0))

def donated : Bank Addr := Transition.next (exec Addr.scheme) fresh (donate 100)
def started : Bank Addr := Transition.next (exec Addr.scheme) donated firstDeposit
def inflated : Bank Addr := Transition.next (exec Addr.scheme) started (donate 5000)
def joined : Bank Addr := Transition.next (exec Addr.scheme) inflated bobDeposit

def poolOf (x y s l : ℕ) : PoolState Addr := ⟨poolState.config, x, y, s, l⟩

theorem attack : Attack Addr.scheme pool alice true fresh joined ⟨9100, 6000, 1⟩ := by
  have hroot : Nat.sqrt (4000 * 9000) = 6000 := by decide +kernel
  have h₁ : Attack Addr.scheme pool alice true fresh donated ⟨100, 0, 0⟩ :=
    .step .start (byAlice_admissible _) (Transition.eq_ok_next (by decide +kernel))
      (.donation (p := poolOf 0 0 0 0) (by decide +kernel) (.transfer rfl))
  have h₂ : Attack Addr.scheme pool alice true fresh started ⟨4100, Nat.sqrt (4000 * 9000), 0⟩ :=
    .step h₁ (byAlice_admissible _) (Transition.eq_ok_next (by decide +kernel))
      (.firstDeposit (p := poolOf 100 0 0 0) rfl rfl rfl (by decide +kernel) rfl)
  rw [hroot] at h₂
  have h₃ : Attack Addr.scheme pool alice true fresh inflated ⟨9100, 6000, 0⟩ :=
    .step h₂ (byAlice_admissible _) (Transition.eq_ok_next (by decide +kernel))
      (.donation (p := poolOf 4100 9000 6000 1000) (by decide +kernel) (.transfer rfl))
  exact .step h₃ (byBob_admissible _) (Transition.eq_ok_next (by decide +kernel))
    (.deposit (p := poolOf 9100 9000 6000 1000) rfl rfl (by decide +kernel) (by decide) (by decide))

end Demo

/-- **The donation attack does not pay** against up to as many deposits as there are locked
shares. -/
theorem donation_attack_never_pays (A : AddressScheme Key) (B₀ B₁ : Bank Key)
    (signers : List Key) (accs : Initialize Key) (seed : U64) (feeBps : U16)
    (authority : Option Key) (h₀ : Reachable A B₀) (hsigners : ∀ k ∈ signers, ¬ A.IsProgramAddress k)
    (hinit : exec A B₀ ⟨signers, .amm (.init accs seed feeBps authority)⟩ = .ok B₁)
    (attacker : Key) (side : Bool) (B : Bank Key) (t : Tally)
    (hrun : Attack A accs.config attacker side B₁ B t) (hdeposits : t.deposits ≤ 1000)
    (signers' : List Key) (hsigners' : ∀ k ∈ signers', ¬ A.IsProgramAddress k)
    (accs' : RemoveLiquidity Key) (hconfig : accs'.config = accs.config)
    (huser : accs'.user = attacker) (lpBurn minA minB : U64)
    (hburn : lpBurn.toNat + 1000 = t.issued) (B' : Bank Key)
    (hremove : exec A B ⟨signers', .amm (.removeLiquidity accs' lpBurn minA minB)⟩ = .ok B') :
    B'.tokens.balance (if side then accs.mintX else accs.mintY)
        (A.associatedAddress attacker (if side then accs.mintX else accs.mintY)) ≤
      B.tokens.balance (if side then accs.mintX else accs.mintY)
        (A.associatedAddress attacker (if side then accs.mintX else accs.mintY)) + t.spent := by
  have hadm₀ : Call.Admissible A ⟨signers, .amm (.init accs seed feeBps authority)⟩ := hsigners
  obtain ⟨hat₁, hv₁⟩ := (init_spec hinit).pool
  obtain ⟨hI, p, hp, hfix, hs⟩ := hrun.stage (h₀.inv.of_exec hadm₀ hinit) hat₁.pool_eq
    (congrArg (fun s => s.shares) hv₁) (by
      cases side with
      | true => exact congrArg (fun s => s.x) hv₁
      | false => exact congrArg (fun s => s.y) hv₁)
  obtain ⟨lp, hat, hv, -⟩ := hI.poolAt hp
  obtain ⟨hr, hS⟩ := PoolState.of_view hv side
  have hm : p.config.mintIn side = if side then accs.mintX else accs.mintY := hfix.mintIn side
  subst huser
  obtain ⟨rX, rY, s, q, hspec⟩ := hat.remove_spec hconfig hremove
  have hu : accs'.user ≠ accs.config := fun hu =>
    hsigners' _ hspec.signed (hu ▸ hat.isProgramAddress)
  rw [← hm, hspec.received hat hu side, ← hr, ← hS]
  refine Nat.add_le_add_left ?_ _
  cases hs with
  | fresh empty issued => omega
  | funded pos bounded => exact bounded.payout_le hburn hdeposits

theorem donation_attack_never_pays_demo :
    (Transition.next (exec Addr.scheme) Demo.joined
        (Demo.byAlice (.amm (.removeLiquidity (Demo.removeBy Demo.alice) 5000 0 0)))).tokens.balance
          Demo.mintX (.associated Demo.alice Demo.mintX) ≤
      Demo.joined.tokens.balance Demo.mintX (.associated Demo.alice Demo.mintX) + 9100 :=
  donation_attack_never_pays Addr.scheme Demo.funded Demo.fresh
    [Demo.alice, Demo.mintX, Demo.mintY] (Demo.initBy Demo.alice) 7 30 (some Demo.alice)
    Demo.funded_reachable (Demo.byAlice_admissible Demo.creation.op)
    (Transition.eq_ok_next (by decide +kernel)) Demo.alice true Demo.joined ⟨9100, 6000, 1⟩
    Demo.attack (by decide) [Demo.alice, Demo.mintX, Demo.mintY]
    (Demo.byAlice_admissible Demo.creation.op) (Demo.removeBy Demo.alice) rfl rfl 5000 0 0
    (by decide) _ (Transition.eq_ok_next (by decide +kernel))

end Amm
