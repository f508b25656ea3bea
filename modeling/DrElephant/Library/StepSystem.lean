import Mathlib.Data.List.Infix
import Mathlib.Logic.Relation
import Mathlib.Order.Bounds.Basic

namespace transition

/-- A transition system: the states a run may begin in, and one step. -/
structure System (σ : Type*) where
  init : σ → Prop
  step : σ → σ → Prop

namespace System

variable {σ : Type*} (M : System σ)

/-- A finite run between two states. -/
def Run : σ → σ → Prop := Relation.ReflTransGen M.step

def Reachable (s : σ) : Prop := ∃ start, M.init start ∧ M.Run start s

/-- A predicate that holds initially and that every step preserves. -/
structure Invariant (p : σ → Prop) : Prop where
  init : ∀ s, M.init s → p s
  step : ∀ s t, p s → M.step s t → p t

variable {M}

theorem Run.single {s t : σ} (h : M.step s t) : M.Run s t := Relation.ReflTransGen.single h

theorem Run.trans {s t u : σ} (h : M.Run s t) (h' : M.Run t u) : M.Run s u :=
  Relation.ReflTransGen.trans h h'

/-- A system with more steps has more runs. -/
theorem Run.mono {N : System σ} (h : ∀ s t, M.step s t → N.step s t) {s t : σ} (hrun : M.Run s t) :
    N.Run s t := by
  induction hrun with
  | refl => exact .refl
  | tail _ hlast ih => exact ih.tail (h _ _ hlast)

/-- A predicate preserved by each step is preserved by every run. -/
theorem Run.preserves {p : σ → Prop} (hstep : ∀ s t, p s → M.step s t → p t) {s t : σ}
    (hrun : M.Run s t) (hs : p s) : p t := by
  induction hrun with
  | refl => exact hs
  | tail _ hlast ih => exact hstep _ _ ih hlast

theorem Invariant.of_reachable {p : σ → Prop} (hp : M.Invariant p) {s : σ} (hs : M.Reachable s) :
    p s := by
  obtain ⟨start, hstart, hrun⟩ := hs
  exact hrun.preserves hp.step (hp.init start hstart)

theorem Reachable.step {s t : σ} (hs : M.Reachable s) (hst : M.step s t) : M.Reachable t := by
  obtain ⟨start, hstart, hrun⟩ := hs
  exact ⟨start, hstart, hrun.tail hst⟩

theorem Reachable.run {s t : σ} (hs : M.Reachable s) (hrun : M.Run s t) : M.Reachable t :=
  hrun.preserves (fun _ _ hs hst => hs.step hst) hs

/-- A second invariant may assume one already established. -/
theorem Invariant.and {p q : σ → Prop} (hp : M.Invariant p) (hinit : ∀ s, M.init s → q s)
    (hstep : ∀ s t, p s → q s → M.step s t → q t) : M.Invariant fun s => p s ∧ q s where
  init s hs := ⟨hp.init s hs, hinit s hs⟩
  step s t hpq hst := ⟨hp.step s t hpq.1 hst, hstep s t hpq.1 hpq.2 hst⟩

end System

section peak

variable {σ α β : Type*} [LinearOrder β] {step : σ → α → σ} {level peak : σ → β} {start : σ}

/-- The states that a run of events passes, its first and its last included. -/
def passed (step : σ → α → σ) (start : σ) (events : List α) : Set σ :=
  {s | ∃ seen, seen <+: events ∧ s = seen.foldl step start}

theorem passed_mono {seen events : List α} (h : seen <+: events) :
    passed step start seen ⊆ passed step start events := by
  rintro s ⟨seen', hseen', hs⟩
  exact ⟨seen', hseen'.trans h, hs⟩

theorem passed_snoc (events : List α) (event : α) :
    passed step start (events ++ [event]) =
      insert ((events ++ [event]).foldl step start) (passed step start events) := by
  ext s
  simp only [passed, Set.mem_ofPred_eq, Set.mem_insert_iff, List.prefix_concat_iff]
  constructor
  · rintro ⟨seen, rfl | hseen, hs⟩
    · exact .inl hs
    · exact .inr ⟨seen, hseen, hs⟩
  · rintro (hs | ⟨seen, hseen, hs⟩)
    · exact ⟨_, .inl rfl, hs⟩
    · exact ⟨seen, .inr hseen, hs⟩

/-- A peak that each step raises to the level it leads to. A step may rely on
the peak being above the level so far, and where it began. -/
structure Peak (step : σ → α → σ) (level peak : σ → β) (start : σ) : Prop where
  start_eq : peak start = level start
  step_eq : ∀ s a, level s ≤ peak s → peak start ≤ peak s →
    peak (step s a) = max (peak s) (level (step s a))

private theorem Peak.greatest_and_ge (h : Peak step level peak start) (events : List α) :
    IsGreatest (level '' passed step start events) (peak (events.foldl step start)) ∧
      peak start ≤ peak (events.foldl step start) := by
  induction events using List.reverseRecOn with
  | nil =>
    refine ⟨⟨⟨start, ⟨[], List.prefix_rfl, rfl⟩, h.start_eq.symm⟩, ?_⟩, le_rfl⟩
    rintro _ ⟨s, ⟨seen, hseen, rfl⟩, rfl⟩
    rw [List.prefix_nil.mp hseen]
    exact h.start_eq.ge
  | append_singleton events event ih =>
    obtain ⟨hgreatest, hle⟩ := ih
    have hlevel : level (events.foldl step start) ≤ peak (events.foldl step start) :=
      hgreatest.2 ⟨_, ⟨events, List.prefix_rfl, rfl⟩, rfl⟩
    have hpeak := h.step_eq _ event hlevel hle
    have hlast : (events ++ [event]).foldl step start = step (events.foldl step start) event :=
      List.foldl_concat _ _ _ _
    rw [← hlast] at hpeak
    refine ⟨?_, ?_⟩
    · rw [passed_snoc, Set.image_insert_eq, hpeak, max_comm]
      exact hgreatest.insert _
    · rw [hpeak]
      exact hle.trans (le_max_left _ _)

/-- The peak is the greatest level of the run so far. -/
theorem Peak.isGreatest (h : Peak step level peak start) (events : List α) :
    IsGreatest (level '' passed step start events) (peak (events.foldl step start)) :=
  (h.greatest_and_ge events).1

theorem Peak.mono (h : Peak step level peak start) {seen events : List α} (hseen : seen <+: events) :
    peak (seen.foldl step start) ≤ peak (events.foldl step start) :=
  (h.isGreatest seen).mono (h.isGreatest events) (Set.image_mono (passed_mono hseen))

end peak

end transition
