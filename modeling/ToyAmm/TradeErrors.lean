import ToyAmm.Reachable

/-!
# How a trade fails

The checks on accounts and the token program have errors of their own, so an `AmmError` of a trade
is that of its handler: the pool is locked, the quote failed, or a limit was not met. `swap_err`,
`add_err` and `remove_err` say so; on reserves that are not zero no quote fails with `ZeroReserve`.
-/

open Checked AmmMath Token Ledger ConstantProduct Transition

namespace Amm

variable {Key : Type} [DecidableEq Key] {A : AddressScheme Key} {B B' : Bank Key} {c lp : Key}
  {signers : List Key} {e : AmmError}

/-! ## Checks and token calls -/

omit [DecidableEq Key] in
theorem cpi_ne_amm {r : Token.Result (Ledger Key)} : B.cpi r ≠ .err (.amm e) := by
  simp [Bank.cpi, Outcome.bind_eq_err, Outcome.mapErr_eq_err]

theorem initAssociatedIfNeeded_ne_amm {k mint authority : Key} :
    initAssociatedIfNeeded A B k mint authority ≠ .err (.amm e) := by
  unfold initAssociatedIfNeeded initAssociated loadAccount
  split_ifs
  · simp [Outcome.bind_eq_err, Outcome.require_eq_err, cpi_ne_amm]
  · simp [Outcome.bind_eq_err, Outcome.require_eq_err, Outcome.okOr_eq_err]

theorem Swap.tryAccounts_ne_amm {self : Swap Key} :
    self.tryAccounts A B signers ≠ .err (.amm e) := by
  unfold Swap.tryAccounts requireSigner loadMint loadConfig loadAccount hasOne checkSeeds
    checkAssociated
  simp [Outcome.bind_eq_err, Outcome.require_eq_err, Outcome.okOr_eq_err]

theorem AddLiquidity.tryAccounts_ne_amm {self : AddLiquidity Key} :
    self.tryAccounts A B signers ≠ .err (.amm e) := by
  unfold AddLiquidity.tryAccounts requireSigner loadMint loadConfig loadAccount hasOne checkSeeds
    checkAssociated
  simp [Outcome.bind_eq_err, Outcome.require_eq_err, Outcome.okOr_eq_err,
    initAssociatedIfNeeded_ne_amm]

theorem RemoveLiquidity.tryAccounts_ne_amm {self : RemoveLiquidity Key} :
    self.tryAccounts A B signers ≠ .err (.amm e) := by
  unfold RemoveLiquidity.tryAccounts requireSigner loadMint loadConfig loadAccount hasOne checkSeeds
    checkAssociated
  simp [Outcome.bind_eq_err, Outcome.require_eq_err, Outcome.okOr_eq_err]

/-! ## Quotes -/

theorem AmmError.ofMath_ne_slippageExceeded {e : AmmMathError} :
    AmmError.slippageExceeded ≠ .ofMath e := by
  cases e <;> exact AmmError.noConfusion

theorem quoted_eq_err {α : Type} {q : AmmMath.Result α} {e : AmmMathError} :
    quoted q = .err (.amm (.ofMath e)) ↔ q = .err e := by
  unfold quoted
  rw [Outcome.mapErr_eq_err]
  constructor
  · rintro ⟨e', hq, he⟩
    rw [hq, AmmError.ofMath_injective (ProgramError.amm.inj he)]
  · intro hq
    exact ⟨e, hq, rfl⟩

/-- An error of the math library is that of the quote function. -/
theorem SwapKind.exactInput_err {x y a m : U64} {f : U16} {e : AmmMathError}
    (h : (SwapKind.exactInput a m).quote x y f = .err (.amm (.ofMath e))) :
    swapExactInput x y a f = .err e := by
  rcases Outcome.bind_eq_err.mp h with h | ⟨q, -, h⟩
  · exact quoted_eq_err.mp h
  · rcases Outcome.bind_eq_err.mp h with h | ⟨_, -, h⟩
    · have he := (Outcome.require_eq_err.mp h).2
      exact absurd (ProgramError.amm.inj he) AmmError.ofMath_ne_slippageExceeded
    · cases h

theorem SwapKind.exactOutput_err {x y t m : U64} {f : U16} {e : AmmMathError}
    (h : (SwapKind.exactOutput t m).quote x y f = .err (.amm (.ofMath e))) :
    swapExactOutput x y t f = .err e := by
  rcases Outcome.bind_eq_err.mp h with h | ⟨q, -, h⟩
  · exact quoted_eq_err.mp h
  · rcases Outcome.bind_eq_err.mp h with h | ⟨_, -, h⟩
    · have he := (Outcome.require_eq_err.mp h).2
      exact absurd (ProgramError.amm.inj he) AmmError.ofMath_ne_slippageExceeded
    · cases h

/-! ## Handlers -/

theorem swap_err {self : Swap Key} {kind : SwapKind} {aToB : Bool}
    (h : (Instruction.swap self kind aToB).process A B signers = .err (.amm e)) :
    ∃ l, self.Checked A B signers l ∧
      (e = .poolLocked ∨
        kind.quote (if aToB then l.vaultX.amount else l.vaultY.amount)
          (if aToB then l.vaultY.amount else l.vaultX.amount) l.config.feeBps = .err (.amm e)) := by
  rcases Outcome.bind_eq_err.mp h with h | ⟨l, hl, h⟩
  · exact absurd h Swap.tryAccounts_ne_amm
  refine ⟨l, Swap.tryAccounts_eq_ok.mp hl, ?_⟩
  unfold Swap.swap at h
  simp only [Outcome.bind_eq_err, Outcome.require_eq_err, cpi_ne_amm, and_false, exists_false,
    or_false] at h
  rcases h with ⟨-, h⟩ | ⟨_, -, h⟩
  · exact .inl (ProgramError.amm.inj h).symm
  · exact .inr h

theorem add_err {self : AddLiquidity Key} {a b minLp : U64}
    (h : (Instruction.addLiquidity self a b minLp).process A B signers = .err (.amm e)) :
    ∃ B₁ l, self.Checked A B signers B₁ l ∧
      (e = .poolLocked ∨ e = .slippageExceeded ∨
        AddLiquidity.quote l a b = .err (.amm e)) := by
  rcases Outcome.bind_eq_err.mp h with h | ⟨⟨B₁, l⟩, hl, h⟩
  · exact absurd h AddLiquidity.tryAccounts_ne_amm
  refine ⟨B₁, l, AddLiquidity.tryAccounts_eq_ok.mp hl, ?_⟩
  unfold AddLiquidity.handle at h
  simp only [Outcome.bind_eq_err, Outcome.require_eq_err, cpi_ne_amm, false_or] at h
  rcases h with ⟨-, h⟩ | ⟨_, -, h | ⟨q, -, ⟨-, h⟩ | ⟨_, -, B₂, -, B₃, -, B₄, -, h⟩⟩⟩
  · exact .inl (ProgramError.amm.inj h).symm
  · exact .inr (.inr h)
  · exact .inr (.inl (ProgramError.amm.inj h).symm)
  · split_ifs at h
    exact absurd h cpi_ne_amm

theorem remove_err {self : RemoveLiquidity Key} {lpBurn minA minB : U64}
    (h : (Instruction.removeLiquidity self lpBurn minA minB).process A B signers =
      .err (.amm e)) :
    ∃ l, self.Checked A B signers l ∧
      (e = .poolLocked ∨ e = .slippageExceeded ∨
        quoted (removeLiquidity l.vaultX.amount l.vaultY.amount l.mintLp.supply lpBurn) =
          .err (.amm e)) := by
  rcases Outcome.bind_eq_err.mp h with h | ⟨l, hl, h⟩
  · exact absurd h RemoveLiquidity.tryAccounts_ne_amm
  refine ⟨l, RemoveLiquidity.tryAccounts_eq_ok.mp hl, ?_⟩
  unfold RemoveLiquidity.handle at h
  simp only [Outcome.bind_eq_err, Outcome.require_eq_err, cpi_ne_amm, and_false, exists_false,
    or_false] at h
  rcases h with ⟨-, h⟩ | ⟨_, -, h | ⟨q, -, ⟨-, h⟩ | ⟨_, -, -, h⟩⟩⟩
  · exact .inl (ProgramError.amm.inj h).symm
  · exact .inr (.inr h)
  · exact .inr (.inl (ProgramError.amm.inj h).symm)
  · exact .inr (.inl (ProgramError.amm.inj h).symm)

/-! ## Reserves that are not zero -/

section ZeroReserve

variable {x y s a b : U64} {f : U16}

theorem swapExactInput_ne_zeroReserve (hx : 0 < x.toNat) (hy : 0 < y.toNat) :
    swapExactInput x y a f ≠ .err .zeroReserve := by
  rw [ne_eq, swapExactInput_matches.err_iff, Reference.swapExactInput]
  split_ifs <;> simp
  omega

theorem swapExactOutput_ne_zeroReserve (hx : 0 < x.toNat) (hy : 0 < y.toNat) :
    swapExactOutput x y a f ≠ .err .zeroReserve := by
  rw [ne_eq, swapExactOutput_matches.err_iff, Reference.swapExactOutput]
  split_ifs <;> simp
  omega

theorem initialLiquidity_ne_zeroReserve : initialLiquidity a b ≠ .err .zeroReserve := by
  rw [ne_eq, initialLiquidity_matches.err_iff, Reference.initialLiquidity]
  split_ifs <;> simp

theorem addLiquidity_ne_zeroReserve (hx : 0 < x.toNat) (hy : 0 < y.toNat) :
    addLiquidity x y s a b ≠ .err .zeroReserve := by
  rw [ne_eq, addLiquidity_matches.err_iff, Reference.addLiquidity]
  split_ifs <;> simp
  omega

theorem removeLiquidity_ne_zeroReserve (hx : 0 < x.toNat) (hy : 0 < y.toNat) :
    removeLiquidity x y s a ≠ .err .zeroReserve := by
  rw [ne_eq, removeLiquidity_matches.err_iff, Reference.removeLiquidity]
  split_ifs <;> simp
  omega

end ZeroReserve

theorem SwapKind.quote_ne_zeroReserve {kind : SwapKind} {x y : U64} {f : U16} (hx : 0 < x.toNat)
    (hy : 0 < y.toNat) : kind.quote x y f ≠ .err (.amm .zeroReserve) := by
  intro h
  cases kind with
  | exactInput a m =>
    exact swapExactInput_ne_zeroReserve hx hy (SwapKind.exactInput_err (e := .zeroReserve) h)
  | exactOutput t m =>
    exact swapExactOutput_ne_zeroReserve hx hy (SwapKind.exactOutput_err (e := .zeroReserve) h)

/-! ## Trades on a pool -/

section OnPool

variable {cfg : Config Key} {call : Call Key} {p : PoolState Key}

/-- A trade is quoted on the reserves of the pool that it names. -/
theorem Swap.Checked.amounts {self : Swap Key} {l : Loaded Key} (h : self.Checked A B signers l)
    (hp : PoolAt A B self.config cfg lp) :
    l.config = cfg ∧ l.vaultX.amount.toNat = (view A B self.config cfg lp).x ∧
      l.vaultY.amount.toNat = (view A B self.config cfg lp).y := by
  obtain rfl := Option.some.inj (h.config.symm.trans hp.config)
  obtain ⟨hx, hy⟩ := h.vaults
  exact ⟨rfl, balance_of_holds hp.vaultX hx, balance_of_holds hp.vaultY hy⟩

/-- A trade on a pool with shares does not fail with `ZeroReserve`. -/
theorem Inv.trade_ne_zeroReserve (hI : Inv A B) (hp : B.pool A c = some p) (hs : 0 < p.supply)
    {ix : Instruction Key} (ht : ix.IsTrade) (hc : ix.config = c) :
    ix.process A B signers ≠ .err (.amm .zeroReserve) := by
  obtain ⟨lp, hat, hv, hsound⟩ := hI.poolAt hp
  obtain ⟨hx, hy⟩ := hsound.reserves_pos hs
  rw [← hv] at hx hy
  subst hc
  intro h
  cases ix with
  | init | updateFee | setLocked | updateAuthority => exact ht.elim
  | swap accs kind aToB =>
    obtain ⟨l, hl, he | he⟩ := swap_err h
    · cases he
    · obtain ⟨-, hX, hY⟩ := hl.amounts hat
      cases aToB with
      | true => exact SwapKind.quote_ne_zeroReserve (hX ▸ hx) (hY ▸ hy) he
      | false => exact SwapKind.quote_ne_zeroReserve (hY ▸ hy) (hX ▸ hx) he
  | addLiquidity accs a b m =>
    obtain ⟨B₁, l, hl, he | he | he⟩ := add_err h
    · cases he
    · cases he
    · obtain ⟨-, hX, hY⟩ := hl.toSwap.amounts hat
      unfold AddLiquidity.quote at he
      split_ifs at he
      · exact initialLiquidity_ne_zeroReserve ((quoted_eq_err (e := .zeroReserve)).mp he)
      · exact addLiquidity_ne_zeroReserve (hX ▸ hx) (hY ▸ hy)
          ((quoted_eq_err (e := .zeroReserve)).mp he)
  | removeLiquidity accs n a b =>
    obtain ⟨l, hl, he | he | he⟩ := remove_err h
    · cases he
    · cases he
    · obtain ⟨-, hX, hY⟩ := hl.toSwap.amounts hat
      exact removeLiquidity_ne_zeroReserve (hX ▸ hx) (hY ▸ hy)
        ((quoted_eq_err (e := .zeroReserve)).mp he)

end OnPool

end Amm
