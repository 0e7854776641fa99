import ToyAmm.Observation

/-!
# Runs that an abstract machine shows

A call `Shows` as an abstract one if a client that looks at its value through `f`, and at its errors
through `see`, sees exactly the abstract outcome; what the call has then established is `Q`. The
relation passes through `bind`, so a call is related step by step. A machine each of whose
steps shows as a step of an abstract machine, and keeps what that takes, shows as it over every run
(`run_shows`, `trace_shows`). Actions and abstract actions are only related: neither need be
computed from the other.
-/

namespace Checked

namespace Outcome

universe u v

variable {ε ε' : Type u} {α β γ δ : Type v} {see : ε → Option ε'}

/-- Go on if `p` holds, abort otherwise. -/
def demand (p : Prop) [Decidable p] : Outcome ε PUnit.{v + 1} :=
  if p then ok ⟨⟩ else panic

/-- Looked at through `see` and `f`, the outcome of `x` is `y`; and a value of `x` satisfies `Q`. -/
structure Shows (see : ε → Option ε') (f : α → β) (Q : α → Prop) (x : Outcome ε α)
    (y : Outcome ε' β) : Prop where
  eq : y = map f (x.observe see)
  post : ∀ a, x = ok a → Q a

namespace Shows

variable {f : α → β} {Q : α → Prop} {x : Outcome ε α} {y : Outcome ε' β}

theorem ok {a : α} (ha : Q a) : Shows see f Q (.ok a) (.ok (f a)) :=
  ⟨rfl, fun _ h => Outcome.ok.inj h ▸ ha⟩

theorem ok_iff (h : Shows see f Q x y) {b : β} :
    y = Outcome.ok b ↔ ∃ a, x = Outcome.ok a ∧ f a = b := by
  rw [h.eq, map_eq_ok]
  simp only [observe_eq_ok]

theorem bind {g : γ → δ} {Q' : γ → Prop} {k : α → Outcome ε γ} {k' : β → Outcome ε' δ}
    (h : Shows see f Q x y) (hk : ∀ a, Q a → Shows see g Q' (k a) (k' (f a))) :
    Shows see g Q' (x >>= k) (y >>= k') where
  eq := by
    rw [observe_bind, h.eq, bind_map, map_bind]
    have hpost := h.post
    cases x with
    | ok a => exact (hk a (hpost a rfl)).eq
    | panic => rfl
    | err e =>
      show (see e).elim panic err >>= _ = (see e).elim panic err >>= _
      cases see e <;> rfl
  post c hc := by
    obtain ⟨a, ha, hc⟩ := bind_eq_ok.mp hc
    exact (hk a (h.post a ha)).post c hc

/-- A check with an error that is seen. -/
theorem require {p q : Prop} [Decidable p] [Decidable q] {e : ε} {e' : ε'} (he : see e = some e')
    (hpq : p ↔ q) :
    Shows see id (fun _ => p) (require p e : Outcome ε PUnit.{v + 1}) (.require q e') := by
  refine ⟨?_, fun _ => require_eq_ok.mp⟩
  by_cases hp : p
  · rw [require_pos hp, require_pos (hpq.mp hp)]
    rfl
  · rw [require_neg hp, require_neg fun hq => hp (hpq.mpr hq)]
    show err e' = map id ((see e).elim panic err)
    rw [he]
    rfl

/-- A missing value, with an error that is seen. -/
theorem okOr {o : Option α} {e : ε} {e' : ε'} (he : see e = some e') :
    Shows see id (fun a => o = some a) (okOr e o) (.okOr e' o) := by
  refine ⟨?_, fun _ => okOr_eq_ok.mp⟩
  cases o with
  | some a => rfl
  | none =>
    show err e' = map id ((see e).elim panic err)
    rw [he]
    rfl

/-- A call without seen errors shows as an option, absent if it fails. -/
theorem of_unseen {o : Option β} (hx : Unseen see x)
    (hok : ∀ a, x = Outcome.ok a → Q a ∧ o = some (f a))
    (hsome : ∀ b, o = some b → ∃ a, x = Outcome.ok a) : Shows see f Q x (orPanic o) := by
  refine ⟨?_, fun a ha => (hok a ha).1⟩
  by_cases h : ∃ a, x = Outcome.ok a
  · obtain ⟨a, ha⟩ := h
    rw [ha, (hok a ha).2]
    rfl
  · have ho : o = none := by
      by_contra hne
      obtain ⟨b, hb⟩ := Option.ne_none_iff_exists'.mp hne
      exact h (hsome b hb)
    rw [ho, hx.observe fun a ha => h ⟨a, ha⟩]
    rfl

/-- Checks without seen errors show as a demand. -/
theorem demand {p : Prop} [Decidable p] (hx : Unseen see x)
    (hok : ∀ a, x = Outcome.ok a → Q a ∧ p) (hp : p → ∃ a, x = Outcome.ok a) :
    Shows see (fun _ => PUnit.unit.{v + 1}) Q x (.demand p) := by
  have ho : (.demand p : Outcome ε' PUnit.{v + 1}) = orPanic (if p then some ⟨⟩ else none) := by
    unfold Outcome.demand
    split_ifs <;> rfl
  rw [ho]
  refine of_unseen hx (fun a ha => ⟨(hok a ha).1, if_pos (hok a ha).2⟩) fun b hb => ?_
  exact hp (Option.ite_none_right_eq_some.mp hb).1

/-- A call that begins with an unseen failure shows as an abort. -/
theorem panic {g : γ → δ} {Q' : γ → Prop} {k : α → Outcome ε γ} (hx : Unseen see x)
    (hok : ∀ a, x ≠ Outcome.ok a) : Shows see g Q' (x >>= k) .panic := by
  have hfail : Shows see (fun _ => PUnit.unit.{v + 1}) (fun _ => False) x (.demand False) :=
    demand hx (fun a ha => absurd ha (hok a)) False.elim
  have hnone : Shows see g Q' (x >>= k) (.demand False >>= fun _ => (.panic : Outcome ε' δ)) :=
    hfail.bind fun _ hf => hf.elim
  exact hnone

end Shows

end Outcome

end Checked

namespace Transition

open Checked

universe u v w

variable {σ τ : Type v} {α β : Type w} {ε ε' : Type u} {see : ε → Option ε'}
  {step : σ → α → Outcome ε σ} {step' : τ → β → Outcome ε' τ} {φ : σ → τ} {P : σ → Prop}

theorem next_shows {s : σ} {a : α} {b : β}
    (h : Outcome.Shows see φ P (step s a) (step' (φ s) b)) :
    next step' (φ s) b = φ (next step s a) := by
  by_cases hok : ∃ t, step s a = .ok t
  · obtain ⟨t, ht⟩ := hok
    rw [next_of_ok ht, next_of_ok (h.ok_iff.mpr ⟨t, ht, rfl⟩)]
  · have hs : next step s a = s :=
      next_induction (P := fun t => t = s) rfl fun t ht => absurd ⟨t, ht⟩ hok
    have hs' : next step' (φ s) b = φ s := by
      refine next_induction (P := fun t => t = φ s) rfl ?_
      intro t ht
      obtain ⟨t₀, ht₀, -⟩ := h.ok_iff.mp ht
      exact absurd ⟨t₀, ht₀⟩ hok
    rw [hs, hs']

section Runs

variable {R : α → β → Prop}
  (hstep : ∀ s a b, P s → R a b → Outcome.Shows see φ P (step s a) (step' (φ s) b))
include hstep

/-- If every step shows as an abstract one then the end of every run does. -/
theorem run_shows {s : σ} (hs : P s) {as : List α} {bs : List β} (h : List.Forall₂ R as bs) :
    run step' (φ s) bs = φ (run step s as) := by
  induction h generalizing s with
  | nil => rfl
  | cons hab _ ih =>
    have hshows := hstep s _ _ hs hab
    rw [run_cons, run_cons, next_shows hshows]
    exact ih (next_induction hs hshows.post)

/-- And so does the outcome of each of its steps. -/
theorem trace_shows {s : σ} (hs : P s) {as : List α} {bs : List β} (h : List.Forall₂ R as bs) :
    trace some step' (φ s) bs = (trace see step s as).map (Outcome.map φ) := by
  induction h generalizing s with
  | nil => rfl
  | cons hab _ ih =>
    have hshows := hstep s _ _ hs hab
    have hseen : ∀ y : Outcome ε' τ, y.observe some = y := by
      intro y
      cases y <;> rfl
    rw [trace, trace, List.map_cons, next_shows hshows, hseen, hshows.eq]
    rw [ih (next_induction hs hshows.post)]

end Runs

end Transition
