import ToyAmm.Outcome

/-!
# Runs of a fallible step function

A step function either moves to a new state or fails. `applyAll` performs a list of actions all of
which must succeed, and `atomic` rolls the whole list back if one fails. `run` performs a list of
actions with rollback: a failed one leaves the state as it was, and `accepted` counts among them.
Each has one induction rule, in which the property proved of the last state may mention the first
one, so it serves invariants and two-state laws alike. `Meets` is a condition on each action in the
state in which a list reaches it.
-/

namespace Transition

open Checked

universe u v w

variable {σ : Type v} {α : Type w} {ε : Type u} (step : σ → α → Outcome ε σ)

/-- Perform all actions, failing with the first one that fails. -/
def applyAll : σ → List α → Outcome ε σ
  | s, [] => .ok s
  | s, a :: as => do
    let s' ← step s a
    applyAll s' as

/-- The state after an action: unchanged if it fails. -/
def next (s : σ) (a : α) : σ :=
  match step s a with
  | .ok s' => s'
  | _ => s

/-- The state after a list of actions, each rolled back if it fails. -/
def run (s : σ) (as : List α) : σ := as.foldl (next step) s

/-- All of the actions, or none of them if one fails. -/
def atomic (s : σ) (as : List α) : σ :=
  match applyAll step s as with
  | .ok s' => s'
  | _ => s

/-- Every action that is reached, those before it having succeeded, satisfies `P` in the state in
which it is reached. -/
def Meets (P : σ → α → Prop) : σ → List α → Prop
  | _, [] => True
  | s, a :: as => P s a ∧ ∀ s', step s a = .ok s' → Meets P s' as

/-- How many actions of a run succeed in a state with which they satisfy `p`. -/
def accepted (p : σ → α → Bool) : σ → List α → ℕ
  | _, [] => 0
  | s, a :: as =>
    match step s a with
    | .ok s' => (p s a).toNat + accepted p s' as
    | _ => accepted p s as

variable {step}

@[simp] theorem run_nil (s : σ) : run step s [] = s := rfl

@[simp] theorem run_cons (s : σ) (a : α) (as : List α) :
    run step s (a :: as) = run step (next step s a) as := rfl

theorem run_append (s : σ) (as bs : List α) :
    run step s (as ++ bs) = run step (run step s as) bs := List.foldl_append

theorem next_of_ok {s s' : σ} {a : α} (h : step s a = .ok s') : next step s a = s' := by
  rw [next, h]

theorem eq_ok_next {s : σ} {a : α} (h : (step s a).isOk = true) :
    step s a = .ok (next step s a) := by
  obtain ⟨s', hs'⟩ := Outcome.isOk_iff.mp h
  rw [next_of_ok hs', hs']

/-- A list of actions either succeeds or changes nothing. -/
theorem atomic_induction {P : σ → Prop} {s : σ} {as : List α} (hs : P s)
    (hall : ∀ s', applyAll step s as = .ok s' → P s') : P (atomic step s as) := by
  unfold atomic
  cases h : applyAll step s as with
  | ok s' => exact hall s' h
  | err e => exact hs
  | panic => exact hs

/-- An action either succeeds or changes nothing. -/
theorem next_induction {P : σ → Prop} {s : σ} {a : α} (hs : P s)
    (hstep : ∀ s', step s a = .ok s' → P s') : P (next step s a) := by
  unfold next
  cases h : step s a with
  | ok s' => exact hstep s' h
  | err e => exact hs
  | panic => exact hs

/-- What holds at the start and is kept by every successful step holds after every run. -/
theorem run_induction {P : σ → Prop} {admissible : α → Prop}
    (hstep : ∀ s a s', P s → admissible a → step s a = .ok s' → P s') {s : σ} (hs : P s)
    {as : List α} (has : ∀ a ∈ as, admissible a) : P (run step s as) := by
  induction as generalizing s with
  | nil => exact hs
  | cons a as ih =>
    obtain ⟨ha, has⟩ := List.forall_mem_cons.mp has
    exact ih (next_induction hs fun s' h => hstep s a s' hs ha h) has

/-- The same with a count of the successful actions that satisfy `p`. -/
theorem accepted_induction {p : σ → α → Bool} {P : σ → ℕ → Prop} {admissible : α → Prop}
    (hstep : ∀ s a s' n, P s n → admissible a → step s a = .ok s' → P s' (n + (p s a).toNat))
    {s : σ} {n : ℕ} (hs : P s n) {as : List α} (has : ∀ a ∈ as, admissible a) :
    P (run step s as) (n + accepted step p s as) := by
  induction as generalizing s n with
  | nil => exact hs
  | cons a as ih =>
    obtain ⟨ha, has⟩ := List.forall_mem_cons.mp has
    rw [run_cons, next, accepted]
    cases h : step s a with
    | ok s' =>
      have hs' := ih (hstep s a s' n hs ha h) has
      rwa [Nat.add_assoc] at hs'
    | err e => exact ih hs has
    | panic => exact ih hs has

/-- What holds at the start and is kept by every successful step holds after a list of actions
that all succeed. -/
theorem applyAll_induction {P : σ → Prop} {s : σ} (hs : P s)
    (hstep : ∀ t a t', P t → step t a = .ok t' → P t') {as : List α} {t : σ}
    (h : applyAll step s as = .ok t) : P t := by
  induction as generalizing s with
  | nil =>
    obtain rfl := Outcome.ok.inj h
    exact hs
  | cons a as ih =>
    obtain ⟨s', hs', h⟩ := Outcome.bind_eq_ok.mp h
    exact ih (hstep s a s' hs hs') h

theorem Meets.of_append {P : σ → α → Prop} {s : σ} {as bs : List α}
    (h : Meets step P s (as ++ bs)) : Meets step P s as := by
  induction as generalizing s with
  | nil => trivial
  | cons a as ih => exact ⟨h.1, fun s' hs' => ih (h.2 s' hs')⟩

/-- The same where every action satisfies `P` in the state in which it is reached. -/
theorem Meets.induction {P : σ → α → Prop} {Q : σ → Prop} {admissible : α → Prop}
    (hstep : ∀ s a s', Q s → admissible a → P s a → step s a = .ok s' → Q s') {s t : σ}
    {as : List α} (hs : Q s) (has : ∀ a ∈ as, admissible a) (hm : Meets step P s as)
    (h : applyAll step s as = .ok t) : Q t := by
  induction as generalizing s with
  | nil =>
    obtain rfl := Outcome.ok.inj h
    exact hs
  | cons a as ih =>
    obtain ⟨s', hs', h⟩ := Outcome.bind_eq_ok.mp h
    obtain ⟨ha, has⟩ := List.forall_mem_cons.mp has
    obtain ⟨hP, hm⟩ := hm
    exact ih (hstep s a s' hs ha hP hs') has (hm s' hs') h

end Transition
