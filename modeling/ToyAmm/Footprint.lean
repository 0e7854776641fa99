import ToyAmm.Transition

/-!
# Steps with a footprint

A state is read cell by cell, and every action declares the cells that it names and which of them it
may write (`Locks`). A step function `Respects` the declaration if it writes no other cells, and if
what it does depends on the named ones alone. Then actions without a conflict can be exchanged
(`Respects.next_comm`), and a scheduler that only keeps conflicting actions in their order does not
change anything: neither the last state (`Respects.run_schedule`) nor how a single action ends
(`Respects.report_schedule`).

A list of actions that is performed as a whole has the union of their footprints
(`Respects.applyAll`), so all of this holds for transactions as well.
-/

namespace Checked

namespace Outcome

universe u v

variable {ε ε' : Type u} {α β γ δ : Type v}

/-- Both return, and the values are related; or both end with one error, or both abort. -/
inductive Alike (R : α → β → Prop) : Outcome ε α → Outcome ε β → Prop where
  | ok {a : α} {b : β} (rel : R a b) : Alike R (ok a) (ok b)
  | err (e : ε) : Alike R (err e) (err e)
  | panic : Alike R panic panic

/-- How a call ends, without its value. -/
def ending (x : Outcome ε α) : Outcome ε PUnit.{v + 1} := x.map fun _ => ⟨⟩

namespace Alike

variable {R : α → β → Prop} {S : γ → δ → Prop} {x : Outcome ε α} {y : Outcome ε β}

theorem ending_eq (h : Alike R x y) : x.ending = y.ending := by
  cases h <;> rfl

theorem imp {R' : α → β → Prop} (h : Alike R x y)
    (himp : ∀ a b, x = Outcome.ok a → y = Outcome.ok b → R a b → R' a b) : Alike R' x y := by
  cases h with
  | ok rel => exact .ok (himp _ _ rfl rfl rel)
  | err e => exact .err e
  | panic => exact .panic

theorem mapErr (h : Alike R x y) (g : ε → ε') : Alike R (x.mapErr g) (y.mapErr g) := by
  cases h with
  | ok rel => exact .ok rel
  | err e => exact .err (g e)
  | panic => exact .panic

theorem bind {k : α → Outcome ε γ} {k' : β → Outcome ε δ} (h : Alike R x y)
    (hk : ∀ a b, x = Outcome.ok a → y = Outcome.ok b → R a b → Alike S (k a) (k' b)) :
    Alike S (x >>= k) (y >>= k') := by
  cases h with
  | ok rel => exact hk _ _ rfl rfl rel
  | err e => exact .err e
  | panic => exact .panic

/-- Two calls that begin with the same one. -/
theorem bind_eq {S : γ → δ → Prop} {x y : Outcome ε α} {k : α → Outcome ε γ}
    {k' : α → Outcome ε δ} (hxy : x = y) (hk : ∀ a, x = Outcome.ok a → Alike S (k a) (k' a)) :
    Alike S (x >>= k) (y >>= k') := by
  subst hxy
  cases x with
  | ok a => exact hk a rfl
  | err e => exact .err e
  | panic => exact .panic

theorem bind_same {S : γ → δ → Prop} {k : α → Outcome ε γ} {k' : α → Outcome ε δ}
    (x : Outcome ε α) (hk : ∀ a, x = Outcome.ok a → Alike S (k a) (k' a)) :
    Alike S (x >>= k) (x >>= k') :=
  bind_eq rfl hk

end Alike

end Outcome

end Checked

namespace Footprint

open Checked Transition

universe u v w

variable {σ : Type v} {ι κ : Type*} {α : Type w} {ε : Type u}

/-! ## Declared cells -/

/-- The cells in `K` are the same. -/
def SameOn (cell : σ → ι → κ) (K : List ι) (s t : σ) : Prop := ∀ i ∈ K, cell s i = cell t i

/-- What each action declares: the cells that it names, and which of them it may write. -/
structure Locks (α : Type w) (ι : Type*) where
  named : α → List ι
  writable : α → List ι
  writable_subset (a : α) : writable a ⊆ named a

namespace Locks

variable (locks : Locks α ι)

/-- Both name a cell that one of them may write. -/
def Conflict (a b : α) : Prop :=
  ∃ i ∈ locks.named a, i ∈ locks.named b ∧ (i ∈ locks.writable a ∨ i ∈ locks.writable b)

instance [DecidableEq ι] (a b : α) : Decidable (locks.Conflict a b) :=
  inferInstanceAs (Decidable (∃ i ∈ _, _))

/-- A list of actions declares what its members declare. -/
def all : Locks (List α) ι where
  named as := as.flatMap locks.named
  writable as := as.flatMap locks.writable
  writable_subset as := by
    intro i hi
    obtain ⟨a, ha, hia⟩ := List.mem_flatMap.mp hi
    exact List.mem_flatMap.mpr ⟨a, ha, locks.writable_subset a hia⟩

variable {locks} {a b : α} {i : ι}

theorem Conflict.symm (h : locks.Conflict a b) : locks.Conflict b a := by
  obtain ⟨i, ha, hb, hw⟩ := h
  exact ⟨i, hb, ha, hw.symm⟩

theorem not_writable_of_named (h : ¬ locks.Conflict a b) (hi : i ∈ locks.named b) :
    i ∉ locks.writable a :=
  fun hw => h ⟨i, locks.writable_subset a hw, hi, .inl hw⟩

end Locks

/-! ## One step -/

/-- A step writes only what its action declares writable, and depends only on what it names. -/
structure Respects (cell : σ → ι → κ) (locks : Locks α ι) (step : σ → α → Outcome ε σ) :
    Prop where
  frame : ∀ {s a s'}, step s a = .ok s' → ∀ i, i ∉ locks.writable a → cell s' i = cell s i
  alike : ∀ {s t a}, SameOn cell (locks.named a) s t →
    Outcome.Alike (SameOn cell (locks.named a)) (step s a) (step t a)

namespace Respects

variable {cell : σ → ι → κ} {locks : Locks α ι} {step : σ → α → Outcome ε σ} {s t : σ} {a b : α}

/-- States that agree on more than the named cells go on to agree there: the other ones are left
as they are. -/
theorem alike_of_subset (h : Respects cell locks step) {K : List ι} (hK : locks.named a ⊆ K)
    (hs : SameOn cell K s t) : Outcome.Alike (SameOn cell K) (step s a) (step t a) := by
  refine (h.alike fun i hi => hs i (hK hi)).imp ?_
  intro s' t' hs' ht' hsame i hi
  by_cases hn : i ∈ locks.named a
  · exact hsame i hn
  · have hw : i ∉ locks.writable a := fun hw => hn (locks.writable_subset a hw)
    rw [h.frame hs' i hw, h.frame ht' i hw]
    exact hs i hi

theorem next_frame (h : Respects cell locks step) (s : σ) {i : ι} (hi : i ∉ locks.writable a) :
    cell (next step s a) i = cell s i :=
  next_induction (P := fun s' => cell s' i = cell s i) rfl fun _ hs' => h.frame hs' i hi

theorem next_sameOn (h : Respects cell locks step) (hs : SameOn cell (locks.named a) s t) :
    SameOn cell (locks.named a) (next step s a) (next step t a) := by
  have hal := h.alike hs
  unfold next
  generalize step s a = x, step t a = y at hal ⊢
  cases hal with
  | ok rel => exact rel
  | err => exact hs
  | panic => exact hs

/-- An action leaves alone what is named by one that it has no conflict with. -/
theorem sameOn_next (h : Respects cell locks step) (hab : ¬ locks.Conflict a b) (s : σ) :
    SameOn cell (locks.named b) (next step s a) s :=
  fun _ hi => h.next_frame s (locks.not_writable_of_named hab hi)

theorem ending_next (h : Respects cell locks step) (hab : ¬ locks.Conflict a b) (s : σ) :
    (step (next step s a) b).ending = (step s b).ending :=
  (h.alike (h.sameOn_next hab s)).ending_eq

/-- Actions without a conflict can be exchanged. -/
theorem next_comm (h : Respects cell locks step) (hcell : Function.Injective cell)
    (hab : ¬ locks.Conflict a b) (s : σ) :
    next step (next step s a) b = next step (next step s b) a := by
  have hba : ¬ locks.Conflict b a := fun hc => hab hc.symm
  have hafter : SameOn cell (locks.named b) (next step (next step s a) b) (next step s b) :=
    h.next_sameOn (h.sameOn_next hab s)
  have hafter' : SameOn cell (locks.named a) (next step (next step s b) a) (next step s a) :=
    h.next_sameOn (h.sameOn_next hba s)
  apply hcell
  funext i
  by_cases ha : i ∈ locks.writable a
  · have hi : i ∈ locks.named a := locks.writable_subset a ha
    rw [h.next_frame _ (locks.not_writable_of_named hba hi), hafter' i hi]
  · rw [h.next_frame (next step s b) ha]
    by_cases hb : i ∈ locks.writable b
    · exact hafter i (locks.writable_subset b hb)
    · rw [h.next_frame _ hb, h.next_frame _ hb, h.next_frame _ ha]

/-! ## Lists of actions -/

theorem applyAll_frame (h : Respects cell locks step) {as : List α} {s s' : σ}
    (hs : applyAll step s as = .ok s') {i : ι} (hi : ∀ a ∈ as, i ∉ locks.writable a) :
    cell s' i = cell s i := by
  induction as generalizing s with
  | nil =>
    obtain rfl := Outcome.ok.inj hs
    rfl
  | cons a as ih =>
    obtain ⟨s₁, h₁, hs⟩ := Outcome.bind_eq_ok.mp hs
    obtain ⟨ha, hi⟩ := List.forall_mem_cons.mp hi
    rw [ih hs hi, h.frame h₁ i ha]

theorem applyAll_alike (h : Respects cell locks step) {K : List ι} {as : List α}
    (hK : ∀ a ∈ as, locks.named a ⊆ K) (hs : SameOn cell K s t) :
    Outcome.Alike (SameOn cell K) (applyAll step s as) (applyAll step t as) := by
  induction as generalizing s t with
  | nil => exact .ok hs
  | cons a as ih =>
    obtain ⟨ha, hK⟩ := List.forall_mem_cons.mp hK
    exact (h.alike_of_subset ha hs).bind fun _ _ _ _ hs' => ih hK hs'

/-- Performed as a whole, a list of actions has the footprint of all its members. -/
theorem applyAll (h : Respects cell locks step) :
    Respects cell locks.all (Transition.applyAll step) where
  frame hs _ hi := h.applyAll_frame hs fun a ha hia => hi (List.mem_flatMap.mpr ⟨a, ha, hia⟩)
  alike hs := h.applyAll_alike (fun a ha _ hi => List.mem_flatMap.mpr ⟨a, ha, hi⟩) hs

end Respects

/-! ## Schedules -/

/-- An order in which a scheduler may perform the actions of a list: next comes always one that
conflicts with none of those before it. -/
inductive Schedule (locks : Locks α ι) : List α → List α → Prop where
  | nil : Schedule locks [] []
  | pick {pre post order : List α} {a : α} (free : ∀ b ∈ pre, ¬ locks.Conflict b a)
      (rest : Schedule locks (pre ++ post) order) :
      Schedule locks (pre ++ a :: post) (a :: order)

/-- How each action of a run ends. -/
def report (step : σ → α → Outcome ε σ) : σ → List α → List (α × Outcome ε PUnit.{v + 1})
  | _, [] => []
  | s, a :: as => (a, (step s a).ending) :: report step (next step s a) as

theorem report_append (step : σ → α → Outcome ε σ) (s : σ) (as bs : List α) :
    report step s (as ++ bs) = report step s as ++ report step (run step s as) bs := by
  induction as generalizing s with
  | nil => rfl
  | cons a as ih => rw [List.cons_append, report, report, ih, List.cons_append, run_cons]

namespace Respects

variable {cell : σ → ι → κ} {locks : Locks α ι} {step : σ → α → Outcome ε σ} {a : α}
  {as pre order : List α}

/-- An action can be moved before others that it has no conflict with. -/
theorem run_next (h : Respects cell locks step) (hcell : Function.Injective cell)
    (hfree : ∀ b ∈ pre, ¬ locks.Conflict b a) (s : σ) :
    run step (next step s a) pre = next step (run step s pre) a := by
  induction pre generalizing s with
  | nil => rfl
  | cons b pre ih =>
    obtain ⟨hb, hfree⟩ := List.forall_mem_cons.mp hfree
    rw [run_cons, run_cons, ← h.next_comm hcell hb, ih hfree]

/-- And neither it nor they notice. -/
theorem report_next (h : Respects cell locks step) (hcell : Function.Injective cell)
    (hfree : ∀ b ∈ pre, ¬ locks.Conflict b a) (s : σ) :
    report step (next step s a) pre = report step s pre ∧
      (step (run step s pre) a).ending = (step s a).ending := by
  induction pre generalizing s with
  | nil => exact ⟨rfl, rfl⟩
  | cons b pre ih =>
    obtain ⟨hb, hfree⟩ := List.forall_mem_cons.mp hfree
    obtain ⟨hreport, hend⟩ := ih hfree (next step s b)
    rw [report, report, run_cons, hend, h.ending_next (fun hc => hb hc.symm),
      ← h.next_comm hcell hb, hreport]
    exact ⟨rfl, h.ending_next hb s⟩

/-- A schedule ends in the state that the list in its own order ends in. -/
theorem run_schedule (h : Respects cell locks step) (hcell : Function.Injective cell)
    (hsched : Schedule locks as order) (s : σ) : run step s order = run step s as := by
  induction hsched generalizing s with
  | nil => rfl
  | @pick pre post order a free rest ih =>
    rw [run_cons, ih, run_append, run_append, run_cons, h.run_next hcell free]

/-- And every action ends in it as it would have ended. -/
theorem report_schedule (h : Respects cell locks step) (hcell : Function.Injective cell)
    (hsched : Schedule locks as order) (s : σ) :
    (report step s order).Perm (report step s as) := by
  induction hsched generalizing s with
  | nil => exact .refl _
  | @pick pre post order a free rest ih =>
    obtain ⟨hreport, hend⟩ := h.report_next hcell free s
    have hrest := ih (next step s a)
    rw [report_append, hreport, h.run_next hcell free] at hrest
    rw [report, report_append, report, hend]
    exact (hrest.cons _).trans List.perm_middle.symm

/-! ## Batches without conflicts -/

theorem run_frame (h : Respects cell locks step) {i : ι} (hi : ∀ a ∈ as, i ∉ locks.writable a)
    (s : σ) : cell (run step s as) i = cell s i := by
  induction as generalizing s with
  | nil => rfl
  | cons a as ih =>
    obtain ⟨ha, hi⟩ := List.forall_mem_cons.mp hi
    rw [run_cons, ih hi, h.next_frame s ha]

/-- Every action of a batch leaves what it names as if it had been alone. -/
theorem run_batch (h : Respects cell locks step)
    (hfree : as.Pairwise fun a b => ¬ locks.Conflict a b) (s : σ) :
    ∀ a ∈ as, SameOn cell (locks.named a) (run step s as) (next step s a) := by
  induction as generalizing s with
  | nil => exact List.forall_mem_nil _
  | cons b as ih =>
    obtain ⟨hb, hfree⟩ := List.pairwise_cons.mp hfree
    refine List.forall_mem_cons.mpr ⟨fun i hi => ?_, fun a ha i hi => ?_⟩
    · rw [run_cons]
      refine h.run_frame (fun a ha => ?_) _
      exact locks.not_writable_of_named (fun hc => hb a ha hc.symm) hi
    · rw [run_cons, ih hfree _ a ha i hi]
      exact h.next_sameOn (h.sameOn_next (hb a ha) s) i hi

/-- And it ends as if it had been alone. -/
theorem report_batch (h : Respects cell locks step)
    (hfree : as.Pairwise fun a b => ¬ locks.Conflict a b) (s : σ) :
    report step s as = as.map fun a => (a, (step s a).ending) := by
  induction as generalizing s with
  | nil => rfl
  | cons b as ih =>
    obtain ⟨hb, hfree⟩ := List.pairwise_cons.mp hfree
    rw [report, ih hfree, List.map_cons]
    congr 1
    refine List.map_congr_left fun a ha => ?_
    rw [h.ending_next (hb a ha)]

end Respects

end Footprint
