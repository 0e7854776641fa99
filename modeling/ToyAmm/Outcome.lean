import Mathlib.Tactic

/-!
# Outcomes of checked code

Code compiled with overflow checks ends in one of three ways: it returns a value, it returns an
error of its own, or it aborts. `Outcome ε α` is that result. An abort is never caught, so it
passes through `bind` and through `mapErr` unchanged.
-/

namespace Checked

universe u v

/-- How a call ends: with a value, with an error of its own, or by aborting. -/
inductive Outcome (ε : Type u) (α : Type v) where
  | ok (a : α)
  | err (e : ε)
  | panic
  deriving DecidableEq, Repr

namespace Outcome

variable {ε ε' : Type u} {α β : Type v}

protected def bind (x : Outcome ε α) (f : α → Outcome ε β) : Outcome ε β :=
  match x with
  | ok a => f a
  | err e => err e
  | panic => panic

instance : Monad (Outcome ε) where
  pure := ok
  bind := Outcome.bind

@[simp] theorem pure_eq_ok (a : α) : (pure a : Outcome ε α) = ok a := rfl

@[simp] theorem ok_bind (a : α) (f : α → Outcome ε β) : (ok a >>= f) = f a := rfl

@[simp] theorem err_bind (e : ε) (f : α → Outcome ε β) : ((err e : Outcome ε α) >>= f) = err e := rfl

@[simp] theorem panic_bind (f : α → Outcome ε β) : ((panic : Outcome ε α) >>= f) = panic := rfl

/-- A sequence returns a value exactly when both of its halves do. -/
theorem bind_eq_ok {x : Outcome ε α} {f : α → Outcome ε β} {b : β} :
    (x >>= f) = ok b ↔ ∃ a, x = ok a ∧ f a = ok b := by
  cases x <;> simp

/-- A sequence ends with the error of its first half, or of its second. -/
theorem bind_eq_err {x : Outcome ε α} {f : α → Outcome ε β} {e : ε} :
    (x >>= f) = err e ↔ x = err e ∨ ∃ a, x = ok a ∧ f a = err e := by
  cases x <;> simp

/-- Whether a call returned a value. -/
def isOk : Outcome ε α → Bool
  | ok _ => true
  | _ => false

theorem isOk_iff {x : Outcome ε α} : x.isOk = true ↔ ∃ a, x = ok a := by
  cases x <;> simp [isOk]

/-- Apply `f` to the value of a call that returned one. -/
def map (f : α → β) : Outcome ε α → Outcome ε β
  | ok a => ok (f a)
  | err e => err e
  | panic => panic

@[simp] theorem map_ok (f : α → β) (a : α) : map f (ok a : Outcome ε α) = ok (f a) := rfl
@[simp] theorem map_err (f : α → β) (e : ε) : map f (err e : Outcome ε α) = err e := rfl
@[simp] theorem map_panic (f : α → β) : map f (panic : Outcome ε α) = panic := rfl

theorem map_eq_ok {f : α → β} {x : Outcome ε α} {b : β} :
    map f x = ok b ↔ ∃ a, x = ok a ∧ f a = b := by
  cases x <;> simp

theorem map_eq_err {f : α → β} {x : Outcome ε α} {e : ε} : map f x = err e ↔ x = err e := by
  cases x <;> simp

theorem map_eq_panic {f : α → β} {x : Outcome ε α} : map f x = panic ↔ x = panic := by
  cases x <;> simp

/-- Translate the errors of a call, as a caller with its own error type does. -/
def mapErr (g : ε → ε') : Outcome ε α → Outcome ε' α
  | ok a => ok a
  | err e => err (g e)
  | panic => panic

@[simp] theorem mapErr_ok (g : ε → ε') (a : α) : mapErr g (ok a) = ok a := rfl
@[simp] theorem mapErr_err (g : ε → ε') (e : ε) : mapErr g (err e : Outcome ε α) = err (g e) := rfl
@[simp] theorem mapErr_panic (g : ε → ε') : mapErr g (panic : Outcome ε α) = panic := rfl

theorem mapErr_eq_ok {g : ε → ε'} {x : Outcome ε α} {a : α} : mapErr g x = ok a ↔ x = ok a := by
  cases x <;> simp

theorem mapErr_eq_err {g : ε → ε'} {x : Outcome ε α} {e' : ε'} :
    mapErr g x = err e' ↔ ∃ e, x = err e ∧ g e = e' := by
  cases x <;> simp

/-- The value of an option, or the error `e`. -/
def okOr (e : ε) : Option α → Outcome ε α
  | some a => ok a
  | none => err e

@[simp] theorem okOr_some (e : ε) (a : α) : okOr e (some a) = ok a := rfl
@[simp] theorem okOr_none (e : ε) : okOr e (none : Option α) = err e := rfl

theorem okOr_eq_ok {e : ε} {x : Option α} {a : α} : okOr e x = ok a ↔ x = some a := by
  cases x <;> simp

theorem okOr_eq_err {e e' : ε} {x : Option α} : okOr e x = err e' ↔ x = none ∧ e = e' := by
  cases x <;> simp

/-- The value of an option, or an abort. -/
def orPanic : Option α → Outcome ε α
  | some a => ok a
  | none => panic

@[simp] theorem orPanic_some (a : α) : (orPanic (some a) : Outcome ε α) = ok a := rfl
@[simp] theorem orPanic_none : (orPanic none : Outcome ε α) = panic := rfl

theorem orPanic_eq_ok {x : Option α} {a : α} : (orPanic x : Outcome ε α) = ok a ↔ x = some a := by
  cases x <;> simp

/-- Go on if `p` holds, end with `e` otherwise. -/
def require (p : Prop) [Decidable p] (e : ε) : Outcome ε PUnit.{v + 1} :=
  if p then ok ⟨⟩ else err e

theorem require_pos {p : Prop} [Decidable p] (h : p) (e : ε) :
    (require p e : Outcome ε PUnit.{v + 1}) = ok ⟨⟩ := if_pos h

theorem require_neg {p : Prop} [Decidable p] (h : ¬ p) (e : ε) :
    (require p e : Outcome ε PUnit.{v + 1}) = err e := if_neg h

theorem require_eq_err {p : Prop} [Decidable p] {e e' : ε} :
    (require p e : Outcome ε PUnit.{v + 1}) = err e' ↔ ¬ p ∧ e = e' := by
  unfold require; split_ifs with h <;> simp [h]

theorem require_eq_ok {p : Prop} [Decidable p] {e : ε} {a : PUnit.{v + 1}} :
    require p e = ok a ↔ p := by
  unfold require; split_ifs with h <;> simp [h]

end Outcome

end Checked
