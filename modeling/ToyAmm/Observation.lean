import ToyAmm.Transition

/-!
# What a client sees of a run

A client sees whether a call succeeded, and some of the errors: `observe` keeps that much of an
outcome, and `trace` of every step of a run. Two calls `Agree` along a map of their values if a
client sees the same of both. Agreement passes through `bind`, and if every step agrees along a map
of the states then so does every run (`run_commutes`, `trace_commutes`).
-/

namespace Checked

namespace Outcome

universe u v

variable {ε ε' : Type u} {α β γ δ : Type v}

theorem bind_assoc (x : Outcome ε α) (f : α → Outcome ε β) (g : β → Outcome ε γ) :
    (x >>= f) >>= g = x >>= fun a => f a >>= g := by
  cases x <;> rfl

theorem map_bind (g : β → γ) (x : Outcome ε α) (f : α → Outcome ε β) :
    map g (x >>= f) = x >>= fun a => map g (f a) := by
  cases x <;> rfl

theorem bind_map (g : α → β) (x : Outcome ε α) (f : β → Outcome ε γ) :
    map g x >>= f = x >>= fun a => f (g a) := by
  cases x <;> rfl

theorem map_mapErr (g : ε → ε') (f : α → β) (x : Outcome ε α) :
    map f (mapErr g x) = mapErr g (map f x) := by
  cases x <;> rfl

theorem map_injective {f : α → β} (hf : Function.Injective f) :
    Function.Injective (map f : Outcome ε α → Outcome ε β) := by
  intro x y h
  cases x <;> cases y <;> simp_all [hf.eq_iff]

/-- Two checks with one error can be made in either order. -/
theorem require_comm {p q : Prop} [Decidable p] [Decidable q] {e : ε} (k : Outcome ε α) :
    ((require p e : Outcome ε PUnit.{v + 1}) >>= fun _ => require q e >>= fun _ => k) =
      (require q e : Outcome ε PUnit.{v + 1}) >>= fun _ => require p e >>= fun _ => k := by
  unfold require
  split_ifs <;> rfl

/-! ## Observation -/

/-- What is seen of an outcome; a failure that is not seen as one of `ε'` is an abort. -/
def observe (see : ε → Option ε') : Outcome ε α → Outcome ε' α
  | ok a => ok a
  | err e => (see e).elim panic err
  | panic => panic

variable {see : ε → Option ε'}

@[simp] theorem observe_ok (a : α) : (ok a : Outcome ε α).observe see = ok a := rfl

@[simp] theorem observe_panic : (panic : Outcome ε α).observe see = panic := rfl

theorem observe_bind (x : Outcome ε α) (f : α → Outcome ε β) :
    (x >>= f).observe see = x.observe see >>= fun a => (f a).observe see := by
  cases x with
  | ok a => rfl
  | panic => rfl
  | err e =>
    show (see e).elim panic err = (see e).elim panic err >>= _
    cases see e <;> rfl

theorem observe_eq_ok {x : Outcome ε α} {a : α} : x.observe see = ok a ↔ x = ok a := by
  cases x with
  | ok b => simp
  | panic => simp
  | err e =>
    show (see e).elim panic err = ok a ↔ _
    cases see e <;> simp

/-- None of its errors is seen. -/
def Unseen (see : ε → Option ε') (x : Outcome ε α) : Prop := ∀ e, x = err e → see e = none

theorem Unseen.observe {x : Outcome ε α} (h : Unseen see x) (hx : ∀ a, x ≠ ok a) :
    x.observe see = panic := by
  cases x with
  | ok a => exact absurd rfl (hx a)
  | panic => rfl
  | err e =>
    show (see e).elim panic err = panic
    rw [h e rfl]
    rfl

/-- The same is seen of both, up to `f`. -/
def Agree (see : ε → Option ε') (f : α → β) (x : Outcome ε α) (y : Outcome ε β) : Prop :=
  y.observe see = map f (x.observe see)

namespace Agree

variable {f : α → β} {x : Outcome ε α} {y : Outcome ε β}

theorem ok_iff (h : Agree see f x y) {b : β} : y = ok b ↔ ∃ a, x = ok a ∧ f a = b := by
  have hobs : y.observe see = ok b ↔ ∃ a, x.observe see = ok a ∧ f a = b := by
    rw [h, map_eq_ok]
  simpa only [observe_eq_ok] using hobs

theorem of_map (x : Outcome ε α) : Agree see f x (map f x) := by
  cases x with
  | ok a => rfl
  | panic => rfl
  | err e =>
    show (see e).elim panic err = map f ((see e).elim panic err)
    cases see e <;> rfl

theorem bind {g : γ → δ} {k : α → Outcome ε γ} {k' : β → Outcome ε δ} (h : Agree see f x y)
    (hk : ∀ a, x = ok a → Agree see g (k a) (k' (f a))) : Agree see g (x >>= k) (y >>= k') := by
  unfold Agree at *
  rw [observe_bind, observe_bind, h, bind_map, map_bind]
  cases x with
  | ok a => exact hk a rfl
  | panic => rfl
  | err e =>
    show (see e).elim panic err >>= _ = (see e).elim panic err >>= _
    cases see e <;> rfl

theorem refl (x : Outcome ε α) : Agree see id x x := by
  rw [Agree]
  cases x.observe see <;> rfl

theorem map (h : Agree see f x y) (g : β → γ) : Agree see (g ∘ f) x (Outcome.map g y) := by
  have hg : Agree see g y (Outcome.map g y) := of_map y
  rw [Agree, hg, h]
  cases x.observe see <;> rfl

/-- Two steps that are followed by the same may agree only together. -/
theorem bind_pair {ζ : Type v} {k : α → Outcome ε γ} {k' : β → Outcome ε γ}
    {r r' : γ → Outcome ε ζ} (h : Agree see id (x >>= k) (y >>= k'))
    (hr : ∀ c, Agree see id (r c) (r' c)) :
    Agree see id (x >>= fun a => k a >>= r) (y >>= fun b => k' b >>= r') := by
  rw [← bind_assoc, ← bind_assoc]
  exact h.bind fun c _ => hr c

/-- Outcomes without seen errors agree if they succeed together. -/
theorem of_unseen (hx : Unseen see x) (hy : Unseen see y) (hxy : ∀ a, x = ok a → y = ok (f a))
    (hyx : ∀ b, y = ok b → ∃ a, x = ok a) : Agree see f x y := by
  by_cases hok : ∃ a, x = ok a
  · obtain ⟨a, ha⟩ := hok
    rw [Agree, ha, hxy a ha]
    rfl
  · rw [Agree, hx.observe fun a ha => hok ⟨a, ha⟩, hy.observe fun b hb => hok (hyx b hb)]
    rfl

/-- A call and its image under an involution agree, if success carries over to images. -/
theorem of_involution {ι : Type*} (run : ι → Outcome ε α) (g : ι → ι) (f : ι → α → α)
    (hg : ∀ i, g (g i) = i) (hrun : ∀ i, Unseen see (run i))
    (hok : ∀ i a, run i = ok a → run (g i) = ok (f i a)) (i : ι) :
    Agree see (f i) (run i) (run (g i)) := by
  refine of_unseen (hrun i) (hrun (g i)) (hok i) ?_
  intro b hb
  have hback := hok (g i) b hb
  rw [hg] at hback
  exact ⟨f (g i) b, hback⟩

end Agree

end Outcome

end Checked

namespace Transition

open Checked

universe u v w

variable {σ τ : Type v} {α β : Type w} {ε ε' : Type u} {see : ε → Option ε'}

/-- What is seen of each step of a run. -/
def trace (see : ε → Option ε') (step : σ → α → Outcome ε σ) : σ → List α → List (Outcome ε' σ)
  | _, [] => []
  | s, a :: as => (step s a).observe see :: trace see step (next step s a) as

variable {step : σ → α → Outcome ε σ} {step' : τ → β → Outcome ε τ} {φ : σ → τ} {ψ : α → β}

theorem next_commutes {s : σ} {a : α} (h : Outcome.Agree see φ (step s a) (step' (φ s) (ψ a))) :
    next step' (φ s) (ψ a) = φ (next step s a) := by
  by_cases hok : ∃ t, step s a = .ok t
  · obtain ⟨t, ht⟩ := hok
    rw [next_of_ok ht, next_of_ok (h.ok_iff.mpr ⟨t, ht, rfl⟩)]
  · have hs : next step s a = s :=
      next_induction (P := fun t => t = s) rfl fun t ht => absurd ⟨t, ht⟩ hok
    have hs' : next step' (φ s) (ψ a) = φ s := by
      refine next_induction (P := fun t => t = φ s) rfl ?_
      intro t ht
      obtain ⟨t₀, ht₀, -⟩ := h.ok_iff.mp ht
      exact absurd ⟨t₀, ht₀⟩ hok
    rw [hs, hs']

section Runs

variable {P : σ → Prop} {admissible : α → Prop}
  (hP : ∀ s a s', P s → admissible a → step s a = .ok s' → P s')
  (hstep : ∀ s a, P s → admissible a → Outcome.Agree see φ (step s a) (step' (φ s) (ψ a)))
include hP hstep

/-- If every step agrees along `φ` then so does the end of every run. -/
theorem run_commutes {s : σ} (hs : P s) {as : List α} (has : ∀ a ∈ as, admissible a) :
    run step' (φ s) (as.map ψ) = φ (run step s as) := by
  induction as generalizing s with
  | nil => rfl
  | cons a as ih =>
    obtain ⟨ha, has⟩ := List.forall_mem_cons.mp has
    rw [List.map_cons, run_cons, run_cons, next_commutes (hstep s a hs ha)]
    exact ih (next_induction hs fun s' h => hP s a s' hs ha h) has

/-- And so does what is seen of each of its steps. -/
theorem trace_commutes {s : σ} (hs : P s) {as : List α} (has : ∀ a ∈ as, admissible a) :
    trace see step' (φ s) (as.map ψ) = (trace see step s as).map (Outcome.map φ) := by
  induction as generalizing s with
  | nil => rfl
  | cons a as ih =>
    obtain ⟨ha, has⟩ := List.forall_mem_cons.mp has
    rw [List.map_cons, trace, trace, List.map_cons, next_commutes (hstep s a hs ha)]
    congr 1
    · exact hstep s a hs ha
    · exact ih (next_induction hs fun s' h => hP s a s' hs ha h) has

end Runs

end Transition
