import Mathlib.Algebra.Order.BigOperators.Group.List
import Mathlib.Data.List.GetD
import Mathlib.Data.List.Sort
import DrElephant.Java.Exception
import DrElephant.Java.Text
import DrElephant.Library.Binary64
import DrElephant.Library.MachineInt

open ieee java.lang machine

namespace drelephant.math

/-- How numbers are written as text: `FileUtils.byteCountToDisplaySize`,
`Double.toString` and the format "%.2f". -/
structure NumberFormats where
  byteCountToDisplaySize : Int → String
  doubleToString : Binary64 → String
  twoDecimals : Binary64 → String

namespace Statistics

section average

/-- The average of longs, computed in doubles. No values average to 0. -/
def average (values : List Int) : Int :=
  ((Binary64.sum values).div (.ofInt values.length)).toLong

@[simp] theorem average_nil : average [] = 0 := by
  have hzero : Binary64.ofInt 0 = .finite 0 := Binary64.ofInt_eq_finite (by simp)
  simp [average, Binary64.sum, hzero, Binary64.div, Binary64.toLong]

theorem average_singleton {value : Int} (h : |value| ≤ 2 ^ 53) : average [value] = value := by
  have hone : Binary64.ofInt 1 = .finite 1 := Binary64.ofInt_eq_finite (by decide)
  have hquotient : (Binary64.finite value).div (.finite 1) = .finite value := by
    simp only [Binary64.div, one_ne_zero, if_false, div_one]
    exact Binary64.ofInt_eq_finite h
  have hsum : Binary64.sum [value] = .finite value := by
    simpa using Binary64.sum_eq_finite (by simpa using h : ([value].map abs).sum ≤ 2 ^ 53)
  obtain ⟨hlo, hhi⟩ := abs_le.mp h
  rw [average, hsum, show ((([value].length : Nat) : Int)) = 1 from rfl, hone, hquotient]
  simp only [Binary64.toLong, Binary64.truncate, Int.floor_intCast, Int.ceil_intCast, ite_self]
  omega

/-- Values whose sum a double holds exactly, whatever the order they are added in. -/
def Exact (values : List Int) : Prop := (values.map abs).sum ≤ 2 ^ 53

/-- Averages do not depend on the order of values with an exact sum. -/
theorem average_perm {values values' : List Int} (h : values.Perm values')
    (hexact : Exact values) : average values = average values' := by
  have hexact' : Exact values' := by
    rwa [Exact, ← (h.map abs).sum_eq]
  rw [average, average, Binary64.sum_eq_finite hexact, Binary64.sum_eq_finite hexact', h.sum_eq,
    h.length_eq]

/-- The average of values with an exact sum is their mean without its fraction. -/
theorem average_eq {values : List Int} (hne : values ≠ []) (hnonneg : ∀ value ∈ values, 0 ≤ value)
    (hsum : values.sum < 2 ^ 53) : average values = values.sum / values.length := by
  have habs : values.map abs = values := by
    simpa using List.map_congr_left fun value hvalue => abs_of_nonneg (hnonneg value hvalue)
  have hpos := List.length_pos_iff.mpr hne
  rw [average, Binary64.sum_eq_finite (by rw [habs]; exact hsum.le)]
  exact Binary64.toLong_div_ofInt (List.sum_nonneg hnonneg) hsum (by exact_mod_cast hpos)

theorem average_range (values : List Int) : -2 ^ 63 ≤ average values ∧ average values ≤ 2 ^ 63 - 1 :=
  Binary64.toLong_range _

/-- Raising values raises their average, or leaves it as it is. -/
theorem average_mono {values values' : List Int} (h : List.Forall₂ (· ≤ ·) values values')
    (hlo : ∀ value ∈ values, -2 ^ 63 ≤ value) (hhi : ∀ value ∈ values', value ≤ 2 ^ 63) :
    average values ≤ average values' := by
  obtain ⟨x, y, hx, hy, hxy⟩ := Binary64.sum_mono h hlo hhi
  rw [average, average, hx, hy, ← h.length_eq]
  cases h with
  | nil => rw [show x = y from Binary64.finite.inj (hx.symm.trans hy)]
  | cons _ _ => exact Binary64.toLong_mono (Binary64.div_ofInt_mono hxy (by simp))

theorem average_nonneg {values : List Int} (hlo : ∀ value ∈ values, 0 ≤ value)
    (hhi : ∀ value ∈ values, value ≤ 2 ^ 63) : 0 ≤ average values := by
  cases values with
  | nil => exact average_nil.ge
  | cons value rest =>
    -- Zeros in place of the values add up to zero.
    have hzeros : List.Forall₂ (· ≤ ·) ((value :: rest).map fun _ => (0 : Int)) (value :: rest) := by
      rw [List.forall₂_map_left_iff]
      exact List.forall₂_same.mpr hlo
    obtain ⟨x, y, hx, hy, hxy⟩ := Binary64.sum_mono hzeros (by simp) hhi
    have hzero := Binary64.sum_eq_finite
      (by simp : (((value :: rest).map fun _ => (0 : Int)).map abs).sum ≤ 2 ^ 53)
    rw [hx] at hzero
    have hxzero : x = 0 := by simpa using Binary64.finite.inj hzero
    rw [average, hy]
    exact Binary64.toLong_nonneg (Binary64.zero_le_div_ofInt (hxzero ▸ hxy) (by simp))

/-- Non-negative values can be lowered to any smaller sum. -/
private theorem exists_lowered {values : List Int} (hnonneg : ∀ value ∈ values, 0 ≤ value) {target : Int}
    (hlo : 0 ≤ target) (hhi : target ≤ values.sum) :
    ∃ lowered, List.Forall₂ (· ≤ ·) lowered values ∧ (∀ value ∈ lowered, 0 ≤ value) ∧
      lowered.sum = target := by
  induction values generalizing target with
  | nil => exact ⟨[], .nil, by simp, le_antisymm hlo hhi⟩
  | cons value rest ih =>
    obtain ⟨hvalue, hrest⟩ := List.forall_mem_cons.mp hnonneg
    rw [List.sum_cons] at hhi
    obtain ⟨lowered, hle, hlowered, hsum⟩ := ih hrest (le_max_left 0 (target - value)) (by
      have := List.sum_nonneg hrest
      omega)
    refine ⟨min value target :: lowered, .cons (min_le_left _ _) hle, ?_, ?_⟩
    · exact List.forall_mem_cons.mpr ⟨le_min hvalue hlo, hlowered⟩
    · rw [List.sum_cons, hsum]
      omega

/-- The average of longs is zero when they do not add up to one for each, however
their sum is rounded. The length of a list is an int. -/
theorem average_eq_zero_iff {values : List Int} (hne : values ≠ [])
    (hrange : ∀ value ∈ values, 0 ≤ value ∧ value < 2 ^ 63) (hlength : values.length < 2 ^ 31) :
    average values = 0 ↔ values.sum < values.length := by
  have hnonneg : ∀ value ∈ values, 0 ≤ value := fun value hvalue => (hrange value hvalue).1
  have hpos := List.length_pos_iff.mpr hne
  constructor
  · intro hzero
    by_contra hlarge
    -- Values lowered to one for each have an average of one.
    obtain ⟨lowered, hle, hlowered, hsum⟩ :=
      exists_lowered hnonneg (Int.natCast_nonneg values.length) (not_lt.mp hlarge)
    have hmono := average_mono hle (fun value hvalue => (by decide : (-2 ^ 63 : Int) ≤ 0).trans
      (hlowered value hvalue)) fun value hvalue => (hrange value hvalue).2.le
    have hone : average lowered = 1 := by
      rw [average_eq (by rw [← List.length_pos_iff, hle.length_eq]; exact hpos) hlowered
        (by rw [hsum]; omega), hsum, hle.length_eq]
      exact Int.ediv_self (by omega)
    omega
  · intro hsmall
    rw [average_eq hne hnonneg (by omega)]
    exact Int.ediv_eq_zero_of_lt (List.sum_nonneg hnonneg) hsmall

end average

section extremes

/-- The running minimum of the heuristics, 0 when no value lowered it. -/
def minimum (values : List Int) : Int :=
  let min := values.foldl Min.min (2 ^ 63 - 1)
  if min = 2 ^ 63 - 1 then 0 else min

/-- The running maximum of the heuristics, which begins at 0. -/
def maximum (values : List Int) : Int := values.foldl Max.max 0

theorem minimum_perm {values values' : List Int} (h : values.Perm values') :
    minimum values = minimum values' := by
  rw [minimum, minimum, h.foldl_eq]

theorem maximum_perm {values values' : List Int} (h : values.Perm values') :
    maximum values = maximum values' :=
  h.foldl_eq 0

end extremes

section median

/-- The element at an index. -/
def elementAt (values : List Int) (i : Nat) : Except JavaException Int :=
  match values[i]? with
  | some value => .ok value
  | none => .error .indexOutOfBounds

/-- The median of a list, which is sorted for it. -/
def median (values : List Int) : Except JavaException Int :=
  if values.length = 0 then .error (.other "IllegalArgumentException")
  else do
    let sorted := values.insertionSort (· ≤ ·)
    let middle := sorted.length / 2
    if sorted.length % 2 = 0 then
      let lower ← elementAt sorted (middle - 1)
      let upper ← elementAt sorted middle
      pure ((wrap64 (lower + upper)).tdiv 2)
    else elementAt sorted middle

theorem median_perm {values values' : List Int} (h : values.Perm values') :
    median values = median values' := by
  have hsorted : values.insertionSort (· ≤ ·) = values'.insertionSort (· ≤ ·) :=
    List.Perm.eq_of_pairwise' (r := (· ≤ ·)) (List.pairwise_insertionSort _ _)
      (List.pairwise_insertionSort _ _)
      ((List.perm_insertionSort _ _).trans (h.trans (List.perm_insertionSort _ _).symm))
  rw [median, median, hsorted, h.length_eq]

private theorem elementAt_of_lt {values : List Int} {i : Nat} (h : i < values.length) :
    elementAt values i = .ok (values.getD i 0) := by
  rw [elementAt, List.getElem?_eq_getElem h, List.getD_eq_getElem _ _ h]

/-- The values on both sides of the middle. An odd number of values has one in
the middle, which is both. -/
def lowerMiddle (values : List Int) : Int :=
  (values.insertionSort (· ≤ ·)).getD ((values.length - 1) / 2) 0

def upperMiddle (values : List Int) : Int :=
  (values.insertionSort (· ≤ ·)).getD (values.length / 2) 0

section middle

variable {values : List Int}

private theorem getD_insertionSort_mem {i : Nat} (h : i < values.length) :
    (values.insertionSort (· ≤ ·)).getD i 0 ∈ values := by
  have hperm := List.perm_insertionSort (· ≤ ·) values
  rw [List.getD_eq_getElem _ _ (by rwa [hperm.length_eq])]
  exact hperm.mem_iff.mp (List.getElem_mem _)

theorem lowerMiddle_mem (h : values ≠ []) : lowerMiddle values ∈ values := by
  have := List.length_pos_iff.mpr h
  exact getD_insertionSort_mem (by omega)

theorem upperMiddle_mem (h : values ≠ []) : upperMiddle values ∈ values := by
  have := List.length_pos_iff.mpr h
  exact getD_insertionSort_mem (by omega)

theorem lowerMiddle_le_upperMiddle (h : values ≠ []) : lowerMiddle values ≤ upperMiddle values := by
  have hpos := List.length_pos_iff.mpr h
  have hperm := List.perm_insertionSort (· ≤ ·) values
  have hsorted := List.pairwise_insertionSort (· ≤ ·) values
  rw [lowerMiddle, upperMiddle, List.getD_eq_getElem _ _ (by rw [hperm.length_eq]; omega),
    List.getD_eq_getElem _ _ (by rw [hperm.length_eq]; omega)]
  rcases (show (values.length - 1) / 2 ≤ values.length / 2 by omega).lt_or_eq with hlt | heq
  · exact List.pairwise_iff_getElem.mp hsorted _ _ _ _ hlt
  · simp only [heq]
    exact le_rfl

/-- The median of an odd number of values is the one in the middle, the median
of an even number the average of two, added up in a long. -/
theorem median_eq (h : values ≠ []) : median values = .ok
    (if values.length % 2 = 0 then (wrap64 (lowerMiddle values + upperMiddle values)).tdiv 2
      else upperMiddle values) := by
  have hpos := List.length_pos_iff.mpr h
  have hlength := (List.perm_insertionSort (· ≤ ·) values).length_eq
  rw [median, if_neg (by omega)]
  simp only [hlength, lowerMiddle, upperMiddle]
  split
  · rw [elementAt_of_lt (by omega), elementAt_of_lt (by omega),
      show (values.length - 1) / 2 = values.length / 2 - 1 by omega]
    rfl
  · exact elementAt_of_lt (by omega)

end middle

end median

section findTwoGroups

/-- The values below a middle and the others. -/
def twoMeans (values : List Int) (middle : Int) : List Int × List Int :=
  values.partition (· < middle)

def findTwoGroupsRecursive (values : List Int) (middle : Int) : Nat → List Int × List Int
  | 0 => twoMeans values middle
  | levels + 1 =>
    let result := twoMeans values middle
    let newMiddle := wrap64 (average result.2 - average result.1)
    findTwoGroupsRecursive values newMiddle levels

def findTwoGroups (values : List Int) : List Int × List Int :=
  findTwoGroupsRecursive values (average values) 2

private theorem twoMeans_perm {values values' : List Int} (h : values.Perm values') (middle : Int) :
    (twoMeans values middle).1.Perm (twoMeans values' middle).1 ∧
      (twoMeans values middle).2.Perm (twoMeans values' middle).2 := by
  simp only [twoMeans, List.partition_eq_filter_filter]
  exact ⟨h.filter _, h.filter _⟩

private theorem sum_abs_filter_le (values : List Int) (p : Int → Bool) :
    ((values.filter p).map abs).sum ≤ (values.map abs).sum :=
  (List.filter_sublist.map abs).sum_le_sum fun a ha => by
    obtain ⟨b, -, rfl⟩ := List.mem_map.mp ha
    exact abs_nonneg b

theorem twoMeans_exact {values : List Int} (hexact : Exact values) (middle : Int) :
    Exact (twoMeans values middle).1 ∧ Exact (twoMeans values middle).2 := by
  simp only [twoMeans, List.partition_eq_filter_filter]
  exact ⟨(sum_abs_filter_le _ _).trans hexact, (sum_abs_filter_le _ _).trans hexact⟩

private theorem findTwoGroupsRecursive_perm {values values' : List Int} (h : values.Perm values')
    (hexact : Exact values) (middle : Int) (levels : Nat) :
    (findTwoGroupsRecursive values middle levels).1.Perm
        (findTwoGroupsRecursive values' middle levels).1 ∧
      (findTwoGroupsRecursive values middle levels).2.Perm
        (findTwoGroupsRecursive values' middle levels).2 := by
  induction levels generalizing middle with
  | zero => exact twoMeans_perm h middle
  | succ levels ih =>
    obtain ⟨hsmaller, hlarger⟩ := twoMeans_perm h middle
    obtain ⟨hexact1, hexact2⟩ := twoMeans_exact hexact middle
    simp only [findTwoGroupsRecursive]
    rw [← average_perm hsmaller hexact1, ← average_perm hlarger hexact2]
    exact ih _

theorem findTwoGroups_perm {values values' : List Int} (h : values.Perm values')
    (hexact : Exact values) :
    (findTwoGroups values).1.Perm (findTwoGroups values').1 ∧
      (findTwoGroups values).2.Perm (findTwoGroups values').2 := by
  rw [findTwoGroups, findTwoGroups, average_perm h hexact]
  exact findTwoGroupsRecursive_perm h hexact _ _

/-- The groups have exact sums when all values together do. -/
theorem findTwoGroups_exact {values : List Int} (hexact : Exact values) :
    Exact (findTwoGroups values).1 ∧ Exact (findTwoGroups values).2 :=
  twoMeans_exact hexact _

end findTwoGroups

/-- A ratio with a suffix, nothing for the ratio of zeros. -/
def describeFactor (formats : NumberFormats) (value compare : Int) (suffix : String) : String :=
  let factor := (Binary64.ofInt value).div (.ofInt compare)
  if factor = .nan then "" else "(" ++ formats.twoDecimals factor ++ suffix ++ ")"

/-- Milliseconds as hours, minutes and seconds. -/
def readableTimespan (milliseconds : Int) : String :=
  if milliseconds = 0 then "0 sec"
  else
    let seconds := milliseconds.tdiv 1000
    let minutes := seconds.tdiv 60
    let hours := minutes.tdiv 60
    let minutes := minutes.tmod 60
    let seconds := seconds.tmod 60
    trim ((if hours > 0 then toString hours ++ " hr " else "") ++
      (if minutes > 0 then toString minutes ++ " min " else "") ++
      (if seconds > 0 then toString seconds ++ " sec " else ""))

end Statistics

end drelephant.math
