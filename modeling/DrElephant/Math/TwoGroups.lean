import DrElephant.Math.Statistics

open machine

namespace drelephant.math.Statistics

/-- The mean of values without its fraction, 0 of no values. -/
def mean (values : List Int) : Int := values.sum / values.length

/-- How far the mean of the values from a middle on is above the mean of the others. -/
def meanDifference (values : List Int) (middle : Int) : Int :=
  mean (values.filter (middle ≤ ·)) - mean (values.filter (· < middle))

/-- Values split into smaller and larger ones, of which there are some, and
some smaller ones when not all values reach the average. -/
structure TwoGroups (values : List Int) (groups : List Int × List Int) : Prop where
  perm : (groups.1 ++ groups.2).Perm values
  sublists : groups.1.Sublist values ∧ groups.2.Sublist values
  separated : ∀ smaller ∈ groups.1, ∀ larger ∈ groups.2, smaller < larger
  larger : groups.2 ≠ []
  smaller : (∃ value ∈ values, value < average values) → groups.1 ≠ []

section mean

variable {values : List Int}

@[simp] theorem mean_nil : mean [] = 0 := rfl

theorem le_mean {lower : Int} (hne : values ≠ []) (hlower : ∀ value ∈ values, lower ≤ value) :
    lower ≤ mean values :=
  ((List.le_min_iff hne).mpr hlower).trans (List.min_le_sum_div_length_int hne)

theorem mean_le {upper : Int} (hne : values ≠ []) (hupper : ∀ value ∈ values, value ≤ upper) :
    mean values ≤ upper :=
  (List.sum_div_length_le_max_int hne).trans ((List.max_le_iff hne).mpr hupper)

theorem exists_mean_le (hne : values ≠ []) : ∃ value ∈ values, mean values ≤ value :=
  ⟨values.max hne, List.max_mem hne, List.sum_div_length_le_max_int hne⟩

theorem mean_mul_length_le (hne : values ≠ []) : mean values * values.length ≤ values.sum := by
  have hpos := List.length_pos_iff.mpr hne
  exact Int.ediv_mul_le values.sum (by omega : (values.length : Int) ≠ 0)

private theorem not_decide_lt (middle : Int) :
    (fun value : Int => !decide (value < middle)) = fun value => decide (middle ≤ value) := by
  funext value
  rw [← decide_not, decide_eq_decide, not_lt]

theorem sum_eq_filter_add_filter (values : List Int) (middle : Int) :
    values.sum = (values.filter (· < middle)).sum + (values.filter (middle ≤ ·)).sum := by
  rw [← List.sum_append, ← not_decide_lt]
  exact (List.filter_append_perm _ values).sum_eq.symm

theorem length_eq_filter_add_filter (values : List Int) (middle : Int) :
    values.length = (values.filter (· < middle)).length + (values.filter (middle ≤ ·)).length := by
  rw [← not_decide_lt]
  exact List.length_eq_length_filter_add _

/-- The larger values have a larger mean. -/
theorem mean_le_mean_filter {middle : Int} (hlarger : values.filter (middle ≤ ·) ≠ []) :
    mean values ≤ mean (values.filter (middle ≤ ·)) := by
  have hne : values ≠ [] := fun hnil => hlarger (by rw [hnil, List.filter_nil])
  have hpos := List.length_pos_iff.mpr hlarger
  rw [mean, mean, Int.le_ediv_iff_mul_le (by omega), ← mean]
  by_cases hmean : mean values ≤ middle
  · have hsum := List.card_nsmul_le_sum (values.filter (middle ≤ ·)) (mean values) fun value hvalue => by
      have hmiddle : middle ≤ value := by simpa using (List.mem_filter.mp hvalue).2
      exact hmean.trans hmiddle
    rwa [nsmul_eq_mul, mul_comm] at hsum
  · have hsum := List.sum_le_card_nsmul (values.filter (· < middle)) (mean values) fun value hvalue => by
      have hmiddle : value < middle := by simpa using (List.mem_filter.mp hvalue).2
      omega
    have htotal := mean_mul_length_le hne
    rw [sum_eq_filter_add_filter values middle, length_eq_filter_add_filter values middle, Nat.cast_add,
      mul_add] at htotal
    rw [nsmul_eq_mul, mul_comm] at hsum
    omega

/-- The smaller values have a smaller mean. -/
theorem mean_filter_le_mean {middle : Int} (hsmaller : values.filter (· < middle) ≠ []) :
    mean (values.filter (· < middle)) ≤ mean values := by
  have hne : values ≠ [] := fun hnil => hsmaller (by rw [hnil, List.filter_nil])
  have hpos := List.length_pos_iff.mpr hne
  have hmean : mean (values.filter (· < middle)) ≤ middle := mean_le hsmaller fun value hvalue => by
    have hmiddle : value < middle := by simpa using (List.mem_filter.mp hvalue).2
    omega
  have hsum := List.card_nsmul_le_sum (values.filter (middle ≤ ·)) (mean (values.filter (· < middle)))
    fun value hvalue => by
      have hmiddle : middle ≤ value := by simpa using (List.mem_filter.mp hvalue).2
      exact hmean.trans hmiddle
  have hpart := mean_mul_length_le hsmaller
  rw [nsmul_eq_mul, mul_comm] at hsum
  rw [mean.eq_def values, Int.le_ediv_iff_mul_le (by omega), sum_eq_filter_add_filter values middle,
    length_eq_filter_add_filter values middle, Nat.cast_add, mul_add]
  omega

/-- Non-negative longs whose sum is less than `2 ^ 53`. -/
structure Small (values : List Int) : Prop where
  nonneg : ∀ value ∈ values, 0 ≤ value
  sum : values.sum < 2 ^ 53

theorem Small.filter (h : Small values) (p : Int → Bool) : Small (values.filter p) :=
  ⟨fun value hvalue => h.nonneg value (List.mem_filter.mp hvalue).1,
    (List.filter_sublist.sum_le_sum h.nonneg).trans_lt h.sum⟩

theorem Small.average_eq (h : Small values) : average values = mean values := by
  by_cases hne : values = []
  · rw [hne, average_nil, mean_nil]
  · exact Statistics.average_eq hne h.nonneg h.sum

theorem Small.mean_range (h : Small values) : 0 ≤ mean values ∧ mean values < 2 ^ 53 := by
  have hsum := List.sum_nonneg h.nonneg
  refine ⟨Int.ediv_nonneg hsum (Int.natCast_nonneg _), ?_⟩
  exact (Int.ediv_le_self _ hsum).trans_lt h.sum

end mean

section findTwoGroups

variable {values : List Int}

theorem twoMeans_eq (values : List Int) (middle : Int) :
    twoMeans values middle = (values.filter (· < middle), values.filter (middle ≤ ·)) := by
  rw [twoMeans, List.partition_eq_filter_filter, ← not_decide_lt]
  rfl

/-- Every value is in one of the groups. -/
theorem length_findTwoGroups (values : List Int) :
    (findTwoGroups values).1.length + (findTwoGroups values).2.length = values.length := by
  have hsplit : ∀ middle, (twoMeans values middle).1.length + (twoMeans values middle).2.length =
      values.length := by
    intro middle
    rw [twoMeans_eq, ← not_decide_lt]
    exact (List.length_eq_length_filter_add _).symm
  exact hsplit _

/-- Every level of the recursion replaces the middle by a difference of means. -/
theorem findTwoGroupsRecursive_eq (h : Small values) (middle : Int) (levels : Nat) :
    findTwoGroupsRecursive values middle levels =
      twoMeans values ((meanDifference values)^[levels] middle) := by
  induction levels generalizing middle with
  | zero => rfl
  | succ levels ih =>
    have hsmaller := (h.filter fun value => decide (value < middle)).mean_range
    have hlarger := (h.filter fun value => decide (middle ≤ value)).mean_range
    rw [findTwoGroupsRecursive, Function.iterate_succ_apply, ← ih, twoMeans_eq]
    simp only [(h.filter _).average_eq]
    rw [wrap64_eq_self (by omega) (by omega), meanDifference]

theorem findTwoGroups_eq (h : Small values) : findTwoGroups values =
    twoMeans values (meanDifference values (meanDifference values (mean values))) := by
  rw [findTwoGroups, findTwoGroupsRecursive_eq h, h.average_eq]
  rfl

/-- A difference of means does not exceed all values. -/
theorem exists_meanDifference_le (h : Small values) (hne : values ≠ []) (middle : Int) :
    ∃ value ∈ values, meanDifference values middle ≤ value := by
  have hsmaller := (h.filter fun value => decide (value < middle)).mean_range
  rw [meanDifference]
  by_cases hlarger : values.filter (middle ≤ ·) = []
  · obtain ⟨value, hvalue⟩ := List.exists_mem_of_ne_nil values hne
    have := h.nonneg value hvalue
    rw [hlarger, mean_nil]
    exact ⟨value, hvalue, by omega⟩
  · obtain ⟨value, hvalue, hle⟩ := exists_mean_le hlarger
    exact ⟨value, (List.mem_filter.mp hvalue).1, by omega⟩

/-- A middle that no value is below has the mean of all values behind it. -/
theorem meanDifference_of_le {middle : Int} (hmiddle : ∀ value ∈ values, middle ≤ value) :
    meanDifference values middle = mean values := by
  have hsmaller : values.filter (· < middle) = [] :=
    List.filter_eq_nil_iff.mpr fun value hvalue => by simpa using hmiddle value hvalue
  have hlarger : values.filter (middle ≤ ·) = values :=
    List.filter_eq_self.mpr fun value hvalue => by simpa using hmiddle value hvalue
  rw [meanDifference, hsmaller, hlarger, mean_nil, sub_zero]

/-- What splitting at a middle always gives. -/
theorem twoGroups_twoMeans_iff {middle : Int} (hlarger : ∃ value ∈ values, middle ≤ value) :
    TwoGroups values (twoMeans values middle) ↔
      ((∃ value ∈ values, value < average values) → ∃ value ∈ values, value < middle) := by
  have hne : values.filter (· < middle) ≠ [] ↔ ∃ value ∈ values, value < middle := by
    simp [List.filter_eq_nil_iff]
  rw [twoMeans_eq]
  constructor
  · exact fun hgroups haverage => hne.mp (hgroups.smaller haverage)
  · intro hsmaller
    refine ⟨?_, ⟨List.filter_sublist, List.filter_sublist⟩, ?_, ?_, fun haverage => hne.mpr (hsmaller haverage)⟩
    · simpa only [not_decide_lt] using List.filter_append_perm (fun value => decide (value < middle)) values
    · intro smaller hmem larger hmem'
      have hlt : smaller < middle := by simpa using (List.mem_filter.mp hmem).2
      have hle : middle ≤ larger := by simpa using (List.mem_filter.mp hmem').2
      omega
    · obtain ⟨value, hvalue, hle⟩ := hlarger
      exact List.ne_nil_of_mem (List.mem_filter.mpr ⟨hvalue, by simpa using hle⟩)

/-- Two groups are found unless no value is below the last middle. -/
theorem twoGroups_iff_lt_meanDifference (h : Small values) (hne : values ≠ []) :
    TwoGroups values (findTwoGroups values) ↔
      ((∃ value ∈ values, value < mean values) →
        values.min hne < meanDifference values (meanDifference values (mean values))) := by
  rw [findTwoGroups_eq h, twoGroups_twoMeans_iff (exists_meanDifference_le h hne _), h.average_eq]
  refine forall_congr' fun _ => ⟨?_, fun hlt => ⟨_, List.min_mem hne, hlt⟩⟩
  rintro ⟨value, hvalue, hlt⟩
  exact (List.min_le_of_mem hvalue).trans_lt hlt

theorem meanDifference_congr {middle middle' : Int}
    (hsame : ∀ value ∈ values, value < middle ↔ value < middle') :
    meanDifference values middle = meanDifference values middle' := by
  have hsmaller : values.filter (· < middle) = values.filter (· < middle') :=
    List.filter_congr fun value hvalue => decide_eq_decide.mpr (hsame value hvalue)
  have hlarger : values.filter (middle ≤ ·) = values.filter (middle' ≤ ·) :=
    List.filter_congr fun value hvalue => decide_eq_decide.mpr (by
      have := hsame value hvalue
      omega)
  rw [meanDifference, meanDifference, hsmaller, hlarger]

/-- A middle splits like the least value that reaches it. -/
theorem exists_value_meanDifference_eq {middle : Int} (hlarger : ∃ value ∈ values, middle ≤ value) :
    ∃ cut ∈ values, middle ≤ cut ∧ (∀ value ∈ values, middle ≤ value → cut ≤ value) ∧
      meanDifference values cut = meanDifference values middle := by
  obtain ⟨value, hvalue, hle⟩ := hlarger
  have hne : values.filter (middle ≤ ·) ≠ [] :=
    List.ne_nil_of_mem (List.mem_filter.mpr ⟨hvalue, by simpa using hle⟩)
  obtain ⟨hcut, hmiddle⟩ := List.mem_filter.mp (List.min_mem hne)
  have hreach : middle ≤ (values.filter (middle ≤ ·)).min hne := by simpa using hmiddle
  have hleast : ∀ value ∈ values, middle ≤ value → (values.filter (middle ≤ ·)).min hne ≤ value :=
    fun value hvalue hle => List.min_le_of_mem (List.mem_filter.mpr ⟨hvalue, by simpa using hle⟩)
  refine ⟨_, hcut, hreach, hleast, meanDifference_congr fun value hvalue => ?_⟩
  have := hleast value hvalue
  omega

/-- A first difference of means above the mean of all values leads to a second
one that some value is below. -/
theorem lt_meanDifference_of_mean_lt (h : Small values) (hne : values ≠ [])
    (hbelow : ∃ value ∈ values, value < mean values)
    (hmean : mean values < meanDifference values (mean values)) :
    values.min hne < meanDifference values (meanDifference values (mean values)) := by
  obtain ⟨below, hbelow, hlt⟩ := hbelow
  obtain ⟨above, habove, hle⟩ := exists_meanDifference_le h hne (mean values)
  have hsmaller : values.filter (· < mean values) ≠ [] :=
    List.ne_nil_of_mem (List.mem_filter.mpr ⟨hbelow, by simpa using hlt⟩)
  have hsmaller' : values.filter (· < meanDifference values (mean values)) ≠ [] :=
    List.ne_nil_of_mem (List.mem_filter.mpr ⟨hbelow, by simpa using hlt.trans hmean⟩)
  have hmin : values.min hne ≤ mean (values.filter (· < mean values)) :=
    le_mean hsmaller fun value hvalue => List.min_le_of_mem (List.mem_filter.mp hvalue).1
  -- What reaches the difference of means is part of what reaches the mean.
  have hlargest : (values.filter (mean values ≤ ·)).filter (meanDifference values (mean values) ≤ ·) =
      values.filter (meanDifference values (mean values) ≤ ·) := by
    rw [List.filter_filter]
    refine List.filter_congr fun value _ => ?_
    rw [← Bool.decide_and, decide_eq_decide]
    omega
  have hupper : mean (values.filter (mean values ≤ ·)) ≤
      mean (values.filter (meanDifference values (mean values) ≤ ·)) := by
    have hpart : (values.filter (mean values ≤ ·)).filter
        (meanDifference values (mean values) ≤ ·) ≠ [] := by
      rw [hlargest]
      exact List.ne_nil_of_mem (List.mem_filter.mpr ⟨habove, by simpa using hle⟩)
    have hmono := mean_le_mean_filter hpart
    rwa [hlargest] at hmono
  have hlower := mean_filter_le_mean hsmaller'
  have hfirst : meanDifference values (mean values) = mean (values.filter (mean values ≤ ·)) -
      mean (values.filter (· < mean values)) := rfl
  rw [meanDifference]
  omega

theorem meanDifference_le_min (hne : values ≠ []) {middle : Int} (hbelow : ∃ value ∈ values, value < middle)
    (habove : ∃ value ∈ values, middle ≤ value) (hratio : ∀ value ∈ values, value ≤ 2 * values.min hne) :
    meanDifference values middle ≤ values.min hne := by
  obtain ⟨below, hbelow, hlt⟩ := hbelow
  obtain ⟨above, habove, hle⟩ := habove
  have hlower : values.min hne ≤ mean (values.filter (· < middle)) :=
    le_mean (List.ne_nil_of_mem (List.mem_filter.mpr ⟨hbelow, by simpa using hlt⟩))
      fun value hvalue => List.min_le_of_mem (List.mem_filter.mp hvalue).1
  have hupper : mean (values.filter (middle ≤ ·)) ≤ 2 * values.min hne :=
    mean_le (List.ne_nil_of_mem (List.mem_filter.mpr ⟨habove, by simpa using hle⟩))
      fun value hvalue => hratio value (List.mem_filter.mp hvalue).1
  rw [meanDifference]
  omega

/-- Two groups are found where the largest value is at most twice the smallest
one, and where every cut of the values at one below the mean leaves two parts
whose means differ by more than the smallest value. They are not found where
every such cut leaves parts whose means differ by less, but not the cut at the
mean, and that difference is exceeded below the mean. -/
theorem findTwoGroups_twoGroups_of_cuts (values : List Int) (hne : values ≠ [])
    (hnonneg : ∀ value ∈ values, 0 ≤ value) (hsum : values.sum < 2 ^ 53) :
    ((∀ value ∈ values, value ≤ 2 * values.min hne) ∨
        (∀ cut ∈ values, values.min hne < cut → cut < mean values →
          values.min hne < meanDifference values cut) →
      TwoGroups values (findTwoGroups values)) ∧
    ((∀ cut ∈ values, values.min hne < cut → cut < mean values →
          meanDifference values cut ≤ values.min hne) →
      values.min hne < meanDifference values (mean values) →
      (∃ cut ∈ values, cut < mean values ∧ meanDifference values (mean values) ≤ cut) →
      ¬ TwoGroups values (findTwoGroups values)) := by
  have h : Small values := ⟨hnonneg, hsum⟩
  obtain ⟨cut, hcut, hreach, hleast, hsame⟩ :=
    exists_value_meanDifference_eq (exists_meanDifference_le h hne (mean values))
  rw [twoGroups_iff_lt_meanDifference h hne]
  constructor
  · intro hcuts hbelow
    by_cases hmean : mean values < meanDifference values (mean values)
    · exact lt_meanDifference_of_mean_lt h hne hbelow hmean
    by_cases hsmall : meanDifference values (mean values) ≤ values.min hne
    · rw [meanDifference_of_le fun value hvalue => hsmall.trans (List.min_le_of_mem hvalue)]
      obtain ⟨value, hvalue, hlt⟩ := hbelow
      exact (List.min_le_of_mem hvalue).trans_lt hlt
    by_cases hcutMean : cut < mean values
    · cases hcuts with
      | inl hratio =>
        refine absurd ?_ hsmall
        exact meanDifference_le_min hne hbelow (exists_mean_le hne) hratio
      | inr hwide =>
        rw [← hsame]
        exact hwide cut hcut (by omega) hcutMean
    · -- No value is between the two middles, which split alike.
      have halike : ∀ value ∈ values,
          value < meanDifference values (mean values) ↔ value < mean values := by
        intro value hvalue
        have := hleast value hvalue
        omega
      rw [meanDifference_congr halike]
      omega
  · rintro hnarrow hwide ⟨value, hvalue, hlt, hle⟩ hgroups
    have hcutMean : cut < mean values := (hleast value hvalue hle).trans_lt hlt
    have hfound := hgroups ⟨value, hvalue, hlt⟩
    rw [← hsame] at hfound
    exact absurd hfound (not_lt.mpr (hnarrow cut hcut (by omega) hcutMean))

theorem findTwoGroups_twoGroups_tasks :
    TwoGroups [10, 60, 12, 14, 50] (findTwoGroups [10, 60, 12, 14, 50]) ∧
      TwoGroups [10, 20, 11] (findTwoGroups [10, 20, 11]) ∧
      ¬ TwoGroups [20, 24, 44] (findTwoGroups [20, 24, 44]) :=
  ⟨(findTwoGroups_twoGroups_of_cuts [10, 60, 12, 14, 50] (by decide) (by decide) (by decide)).1
      (.inr (by decide)),
    (findTwoGroups_twoGroups_of_cuts [10, 20, 11] (by decide) (by decide) (by decide)).1
      (.inl (by decide)),
    (findTwoGroups_twoGroups_of_cuts [20, 24, 44] (by decide) (by decide) (by decide)).2
      (by decide) (by decide) (by decide)⟩

/-- The mean is 14, and with it the next middles are 11 and 7. -/
theorem not_twoGroups_empty : ¬ TwoGroups [10, 12, 22] (findTwoGroups [10, 12, 22]) := by
  have h : Small [10, 12, 22] := ⟨by decide, by decide⟩
  intro hgroups
  refine hgroups.smaller ⟨10, by decide, ?_⟩ ?_
  · rw [h.average_eq]
    decide
  · rw [findTwoGroups_eq h]
    decide

end findTwoGroups

end drelephant.math.Statistics
