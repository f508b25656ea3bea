import Mathlib.Order.Basic
import DrElephant.Library.Binary64

open ieee

namespace drelephant.analysis

/-- The severities that a heuristic can report. -/
inductive Severity
  | CRITICAL
  | SEVERE
  | MODERATE
  | LOW
  | NONE
  deriving DecidableEq, Repr

namespace Severity

def getValue : Severity → Int
  | CRITICAL => 4
  | SEVERE => 3
  | MODERATE => 2
  | LOW => 1
  | NONE => 0

def values : List Severity := [CRITICAL, SEVERE, MODERATE, LOW, NONE]

/-- The severity of a value, NONE for a value that is none. -/
def byValue (value : Int) : Severity := (values.find? fun s => s.getValue == value).getD NONE

def max (a b : Severity) : Severity := if a.getValue > b.getValue then a else b

def min (a b : Severity) : Severity := if a.getValue < b.getValue then a else b

/-- The maximum of any number of severities. -/
def maxAll (severities : List Severity) : Severity := severities.foldl max NONE

theorem byValue_getValue (s : Severity) : byValue s.getValue = s := by cases s <;> rfl

theorem getValue_injective {a b : Severity} (h : a.getValue = b.getValue) : a = b := by
  rw [← byValue_getValue a, h, byValue_getValue]

theorem getValue_max (a b : Severity) : (max a b).getValue = Max.max a.getValue b.getValue := by
  unfold max
  split <;> omega

theorem getValue_min (a b : Severity) : (min a b).getValue = Min.min a.getValue b.getValue := by
  unfold min
  split <;> omega

theorem getValue_nonneg (s : Severity) : 0 ≤ s.getValue := by cases s <;> decide

private theorem foldl_max_spec (l : List Severity) (s : Severity) :
    s.getValue ≤ (l.foldl max s).getValue ∧ (∀ x ∈ l, x.getValue ≤ (l.foldl max s).getValue) ∧
      (l.foldl max s = s ∨ l.foldl max s ∈ l) := by
  induction l generalizing s with
  | nil => simp
  | cons x l ih =>
    obtain ⟨hstart, hall, hmem⟩ := ih (max s x)
    rw [getValue_max] at hstart
    refine ⟨by simp only [List.foldl_cons]; omega, ?_, ?_⟩
    · intro y hy
      rcases List.mem_cons.mp hy with rfl | hy
      · simp only [List.foldl_cons]
        omega
      · exact hall y hy
    · rw [List.foldl_cons]
      rcases hmem with heq | hmem
      · rw [heq, max]
        split
        · exact Or.inl rfl
        · exact Or.inr (List.mem_cons_self ..)
      · exact Or.inr (List.mem_cons_of_mem _ hmem)

/-- The maximum is one of the severities and bounds all of them. -/
theorem maxAll_spec {l : List Severity} (hl : l ≠ []) :
    maxAll l ∈ l ∧ ∀ s ∈ l, s.getValue ≤ (maxAll l).getValue := by
  obtain ⟨-, hall, hmem⟩ := foldl_max_spec l NONE
  refine ⟨?_, hall⟩
  rcases hmem with heq | hmem
  · -- Only severities that are NONE themselves leave the maximum at its start.
    obtain ⟨s, hs⟩ := List.exists_mem_of_ne_nil l hl
    have hle := hall s hs
    rw [heq] at hle
    have hnone : s = NONE := by
      apply getValue_injective
      have := getValue_nonneg s
      simp only [getValue] at hle ⊢
      cases s <;> simp_all [getValue]
    rw [maxAll, heq, ← hnone]
    exact hs
  · exact hmem

/-- The maximum does not depend on the order of the severities. -/
theorem foldl_max_perm {l l' : List Severity} (h : l.Perm l') (s : Severity) : l.foldl max s = l'.foldl max s := by
  have hcomm : RightCommutative max := by
    constructor
    intro a b c
    apply getValue_injective
    rw [getValue_max, getValue_max, getValue_max, getValue_max]
    omega
  exact h.foldl_eq s

/-- The thresholds of the four levels above NONE, in any order. -/
structure Limits where
  low : Binary64
  moderate : Binary64
  severe : Binary64
  critical : Binary64
  deriving DecidableEq, Repr

/-- The severity of a value for which more is worse. -/
def getSeverityAscending (value : Binary64) (limits : Limits) : Severity :=
  if limits.critical.le value then CRITICAL
  else if limits.severe.le value then SEVERE
  else if limits.moderate.le value then MODERATE
  else if limits.low.le value then LOW
  else NONE

/-- The severity of a value for which less is worse. -/
def getSeverityDescending (value : Binary64) (limits : Limits) : Severity :=
  if value.le limits.critical then CRITICAL
  else if value.le limits.severe then SEVERE
  else if value.le limits.moderate then MODERATE
  else if value.le limits.low then LOW
  else NONE

/-- Positive thresholds, the lowest one first. -/
structure Limits.PositiveAscending (limits : Limits) : Prop where
  positive : (Binary64.finite 0).lt limits.low = true
  moderate : limits.low.le limits.moderate = true
  severe : limits.moderate.le limits.severe = true
  critical : limits.severe.le limits.critical = true

theorem Limits.positiveAscending_ofInt {low moderate severe critical : Int} (hpositive : 0 < low)
    (hlow : low ≤ 2 ^ 53) (hmoderate : low ≤ moderate) (hsevere : moderate ≤ severe)
    (hcritical : severe ≤ critical) :
    PositiveAscending ⟨.ofInt low, .ofInt moderate, .ofInt severe, .ofInt critical⟩ := by
  refine ⟨?_, Binary64.ofInt_mono hmoderate, Binary64.ofInt_mono hsevere, Binary64.ofInt_mono hcritical⟩
  have hpos : (0 : ℚ) < low := by exact_mod_cast hpositive
  rw [Binary64.ofInt_eq_finite (abs_le.mpr ⟨by omega, hlow⟩)]
  simpa [Binary64.lt, Binary64.le] using ⟨hpositive.le, hpositive⟩

/-- A value is NONE when it does not reach the lowest threshold. -/
theorem getSeverityAscending_eq_none_iff {limits : Limits} (h : limits.PositiveAscending)
    (value : Binary64) : getSeverityAscending value limits = NONE ↔ limits.low.le value = false := by
  constructor
  · intro hnone
    by_contra hlow
    simp [getSeverityAscending, Bool.eq_true_of_not_eq_false hlow] at hnone
    split_ifs at hnone
  · intro hlow
    -- A value that reaches a higher threshold reaches the lowest one.
    have hbelow : ∀ limit : Binary64, limits.low.le limit = true → limit.le value = false := by
      intro limit hle
      by_contra hreached
      rw [Binary64.le_trans hle (Bool.eq_true_of_not_eq_false hreached)] at hlow
      cases hlow
    have hsevere := Binary64.le_trans h.moderate h.severe
    rw [getSeverityAscending, hbelow _ (Binary64.le_trans hsevere h.critical), hbelow _ hsevere,
      hbelow _ h.moderate, hlow]
    rfl

theorem getSeverityAscending_zero {limits : Limits} (h : limits.PositiveAscending) :
    getSeverityAscending (.finite 0) limits = NONE := by
  rw [getSeverityAscending_eq_none_iff h]
  have hpositive := h.positive
  rw [Binary64.lt, Bool.and_eq_true, Bool.not_eq_true'] at hpositive
  exact hpositive.2

@[simp] theorem getSeverityAscending_nan (limits : Limits) : getSeverityAscending .nan limits = NONE := by
  simp [getSeverityAscending]

theorem getSeverityAscending_posInf {limits : Limits} (h : limits.PositiveAscending) :
    getSeverityAscending .posInf limits = CRITICAL := by
  have hnumber : limits.critical ≠ .nan := by
    intro hnan
    have hcritical := h.critical
    rw [hnan, Binary64.not_le_nan] at hcritical
    cases hcritical
  have hreached : limits.critical.le .posInf = true := by
    cases hcritical : limits.critical <;> simp_all [Binary64.le]
  rw [getSeverityAscending, if_pos hreached]

/-- A value that reaches every level another one reaches is no less severe,
whatever the order of the thresholds. -/
private theorem cascade_mono {low moderate severe critical low' moderate' severe' critical' : Bool}
    (hlow : low = true → low' = true) (hmoderate : moderate = true → moderate' = true)
    (hsevere : severe = true → severe' = true) (hcritical : critical = true → critical' = true) :
    (if critical then CRITICAL else if severe then SEVERE else if moderate then MODERATE
      else if low then LOW else NONE).getValue ≤
    (if critical' then CRITICAL else if severe' then SEVERE else if moderate' then MODERATE
      else if low' then LOW else NONE).getValue := by
  cases critical <;> cases severe <;> cases moderate <;> cases low <;> simp_all <;>
    split_ifs <;> decide

/-- Larger values are no less severe; no number is NONE. -/
theorem getSeverityAscending_mono {a b : Binary64} (h : a = .nan ∨ a.le b = true) (limits : Limits) :
    (getSeverityAscending a limits).getValue ≤ (getSeverityAscending b limits).getValue := by
  have hreach : ∀ limit : Binary64, limit.le a = true → limit.le b = true := by
    intro limit hlimit
    rcases h with rfl | h
    · simp at hlimit
    · exact Binary64.le_trans hlimit h
  exact cascade_mono (hreach _) (hreach _) (hreach _) (hreach _)

/-- Larger values are no more severe. -/
theorem getSeverityDescending_anti {a b : Binary64} (h : a.le b = true) (limits : Limits) :
    (getSeverityDescending b limits).getValue ≤ (getSeverityDescending a limits).getValue :=
  cascade_mono (Binary64.le_trans h) (Binary64.le_trans h) (Binary64.le_trans h)
    (Binary64.le_trans h)

end Severity

end drelephant.analysis
