import Mathlib.Order.OrderIsoNat
import DrElephant.Library.StepSystem

namespace transition

variable {σ τ : Type*}

/-- A map under which each step from a state with the invariant is a step of
the other system, or leaves the image as it is. -/
structure Simulation (M : System σ) (N : System τ) (p : σ → Prop) (f : σ → τ) : Prop where
  init : ∀ s, M.init s → N.init (f s)
  step : ∀ s t, p s → M.step s t → N.step (f s) (f t) ∨ f t = f s

namespace Simulation

variable {M : System σ} {N : System τ} {p : σ → Prop} {f : σ → τ}

/-- A run between states with the invariant is a run of their images. -/
theorem run (h : Simulation M N p f) (hp : ∀ s t, p s → M.step s t → p t) {s t : σ} (hs : p s)
    (hrun : M.Run s t) : N.Run (f s) (f t) := by
  have hboth : N.Run (f s) (f t) ∧ p t := by
    refine hrun.preserves (p := fun t => N.Run (f s) (f t) ∧ p t) ?_ ⟨.refl, hs⟩
    rintro t u ⟨ih, ht⟩ hstep
    refine ⟨?_, hp t u ht hstep⟩
    rcases h.step t u ht hstep with hbelow | hstutter
    · exact ih.tail hbelow
    · rwa [hstutter]
  exact hboth.1

theorem reachable (h : Simulation M N p f) (hp : M.Invariant p) {s : σ} (hs : M.Reachable s) :
    N.Reachable (f s) := by
  obtain ⟨start, hstart, hrun⟩ := hs
  exact ⟨f start, h.init start hstart, h.run hp.step (hp.init start hstart) hrun⟩

end Simulation

namespace System

variable {M : System σ}

/-- No run from a state goes on for ever. -/
def Terminates (M : System σ) (s : σ) : Prop :=
  ¬ ∃ run : Nat → σ, run 0 = s ∧ ∀ k, M.step (run k) (run (k + 1))

/-- Runs come to an end where every step lowers a measure. -/
theorem terminates_of_measure {α : Type*} [Preorder α] [WellFoundedLT α] (measure : σ → α)
    {p : σ → Prop} (hp : ∀ s t, p s → M.step s t → p t)
    (hlower : ∀ s t, p s → M.step s t → measure t < measure s) {s : σ} (hs : p s) :
    M.Terminates s := by
  rintro ⟨run, rfl, hrun⟩
  have hkept : ∀ k, p (run k) := by
    intro k
    induction k with
    | zero => exact hs
    | succ k ih => exact hp _ _ ih (hrun k)
  exact not_strictAnti_of_wellFoundedLT (fun k => measure (run k))
    (strictAnti_nat_of_succ_lt fun k => hlower _ _ (hkept k) (hrun k))

/-- A run with the number of its steps that are of a kind. -/
inductive CountedRun (M : System σ) (kind : σ → σ → Prop) (start : σ) : Nat → σ → Prop
  | refl : CountedRun M kind start 0 start
  | other {steps : Nat} {s t : σ} (hrun : CountedRun M kind start steps s) (hstep : M.step s t)
      (hkind : ¬ kind s t) : CountedRun M kind start steps t
  | counted {steps : Nat} {s t : σ} (hrun : CountedRun M kind start steps s) (hstep : M.step s t)
      (hkind : kind s t) : CountedRun M kind start (steps + 1) t

theorem CountedRun.run {kind : σ → σ → Prop} {start t : σ} {steps : Nat}
    (h : M.CountedRun kind start steps t) : M.Run start t := by
  induction h with
  | refl => exact .refl
  | other _ hstep _ ih => exact ih.tail hstep
  | counted _ hstep _ ih => exact ih.tail hstep

theorem Run.counted {s t : σ} (hrun : M.Run s t) (kind : σ → σ → Prop) :
    ∃ steps, M.CountedRun kind s steps t := by
  induction hrun with
  | refl => exact ⟨0, .refl⟩
  | @tail u v _ hstep ih =>
    obtain ⟨steps, hcounted⟩ := ih
    by_cases hkind : kind u v
    · exact ⟨steps + 1, hcounted.counted hstep hkind⟩
    · exact ⟨steps, hcounted.other hstep hkind⟩

/-- A quantity that the counted steps raise by one, and no other step changes,
counts them. -/
theorem CountedRun.eq_add {kind : σ → σ → Prop} (work : σ → Nat) {p : σ → Prop}
    (hp : ∀ s t, p s → M.step s t → p t)
    (hcounted : ∀ s t, p s → M.step s t → kind s t → work t = work s + 1)
    (hother : ∀ s t, p s → M.step s t → ¬ kind s t → work t = work s)
    {start t : σ} {steps : Nat} (hstart : p start) (h : M.CountedRun kind start steps t) :
    work t = work start + steps := by
  induction h with
  | refl => rfl
  | other hrun hstep hkind ih =>
    rw [hother _ _ (hrun.run.preserves hp hstart) hstep hkind, ih]
  | counted hrun hstep hkind ih =>
    rw [hcounted _ _ (hrun.run.preserves hp hstart) hstep hkind, ih, Nat.add_assoc]

/-- Where each counted step uses up one of what is left, and no other step gives
any back, no more steps are counted than were left. -/
theorem CountedRun.add_le {kind : σ → σ → Prop} (left : σ → Nat) {p : σ → Prop}
    (hp : ∀ s t, p s → M.step s t → p t)
    (hcounted : ∀ s t, p s → M.step s t → kind s t → left t + 1 ≤ left s)
    (hother : ∀ s t, p s → M.step s t → left t ≤ left s)
    {start t : σ} {steps : Nat} (hstart : p start) (h : M.CountedRun kind start steps t) :
    steps + left t ≤ left start := by
  induction h with
  | refl => exact (Nat.zero_add _).le
  | other hrun hstep _ ih =>
    have hstays := hother _ _ (hrun.run.preserves hp hstart) hstep
    omega
  | counted hrun hstep hkind ih =>
    have huses := hcounted _ _ (hrun.run.preserves hp hstart) hstep hkind
    omega

end System

end transition
