import Mathlib
import DrElephant.MapReduce.Heuristics.MapperSpill
import DrElephant.MapReduce.SampledTasks

open drelephant.analysis drelephant.math ieee java.lang machine

namespace drelephant.mapreduce

/-- The mean of the values that were read, without its fraction. -/
def truncatedMean (values : List Int) : Int := values.sum.tdiv values.length

section truncatedMean

variable {values : List Int}

theorem exists_le_truncatedMean (hne : values ≠ []) : ∃ value ∈ values, value ≤ truncatedMean values := by
  by_contra hcontra
  push Not at hcontra
  have hpos : (0 : Int) < values.length := by exact_mod_cast List.length_pos_iff.mpr hne
  have hsum := List.card_nsmul_le_sum values (truncatedMean values + 1) fun value hvalue =>
    hcontra value hvalue
  have hmean := Int.mul_tdiv_add_tmod values.sum values.length
  have hrest := Int.tmod_lt_of_pos values.sum hpos
  rw [nsmul_eq_mul, mul_add, mul_one] at hsum
  change values.length * truncatedMean values + _ = _ at hmean
  omega

theorem exists_truncatedMean_le (hne : values ≠ []) : ∃ value ∈ values, truncatedMean values ≤ value := by
  by_contra hcontra
  push Not at hcontra
  have hpos : (0 : Int) < values.length := by exact_mod_cast List.length_pos_iff.mpr hne
  have hsum := List.sum_le_card_nsmul values (truncatedMean values - 1) fun value hvalue =>
    Int.le_sub_one_of_lt (hcontra value hvalue)
  have hmean := Int.mul_tdiv_add_tmod values.sum values.length
  have hrest := Int.lt_tmod_of_pos values.sum hpos
  rw [nsmul_eq_mul, mul_sub, mul_one] at hsum
  change values.length * truncatedMean values + _ = _ at hmean
  omega

/-- A larger divisor gives the same quotient if the dividend has that many of it. -/
theorem tdiv_eq_tdiv_iff {sum : Int} {sampled numTasks : Nat} (hpos : 0 < sampled)
    (hle : sampled ≤ numTasks) : sum.tdiv numTasks = sum.tdiv sampled ↔
      numTasks * (sum.tdiv sampled).natAbs ≤ sum.natAbs := by
  have hnat : ∀ n : Nat, n / numTasks = n / sampled ↔ numTasks * (n / sampled) ≤ n := by
    intro n
    constructor
    · intro heq
      rw [← heq]
      exact Nat.mul_div_le n numTasks
    · intro hfits
      refine le_antisymm (Nat.div_le_div_left hle hpos) ?_
      exact (Nat.le_div_iff_mul_le (hpos.trans_le hle)).mpr (by rwa [mul_comm])
  cases sum with
  | ofNat n =>
    rw [show (Int.ofNat n).tdiv numTasks = ((n / numTasks : Nat) : Int) from rfl,
      show (Int.ofNat n).tdiv sampled = ((n / sampled : Nat) : Int) from rfl, Int.natCast_inj,
      Int.natAbs_natCast]
    exact hnat n
  | negSucc n =>
    rw [show (Int.negSucc n).tdiv numTasks = -((n + 1) / numTasks : Nat) from rfl,
      show (Int.negSucc n).tdiv sampled = -((n + 1) / sampled : Nat) from rfl, neg_inj, Int.natCast_inj,
      Int.natAbs_neg, Int.natAbs_natCast, Int.natAbs_negSucc]
    exact hnat (n + 1)

/-- A sum that has wrapped around does not have the quotient of the exact sum. -/
theorem wrap64_tdiv_ne {sum : Int} {sampled numTasks : Nat} (hpos : 0 < sampled)
    (hle : sampled ≤ numTasks) (hlength : numTasks < 2 ^ 31) (hout : ¬ (-2 ^ 63 ≤ sum ∧ sum < 2 ^ 63)) :
    (wrap64 sum).tdiv numTasks ≠ sum.tdiv sampled := by
  intro heq
  obtain ⟨hlo, hhi⟩ := wrap64_range sum
  -- The equal quotients bound the exact sum by the wrapped one.
  have hwrapped : numTasks * (sum.tdiv sampled).natAbs ≤ (wrap64 sum).natAbs := by
    rw [← heq, Int.natAbs_tdiv, Int.natAbs_natCast]
    exact Nat.mul_div_le _ _
  have hexact : sum.natAbs < numTasks * (sum.tdiv sampled).natAbs + numTasks := by
    rw [Int.natAbs_tdiv, Int.natAbs_natCast, ← Nat.mul_succ]
    exact (Nat.lt_mul_div_succ _ hpos).trans_le (Nat.mul_le_mul_right _ hle)
  have hquotient : sum.tdiv sampled ≠ 0 := by
    intro hzero
    rw [hzero, Int.natAbs_zero, mul_zero] at hexact
    omega
  rcases lt_or_ge sum 0 with hneg | hnonneg
  · have hwrap : wrap64 sum = sum + 2 ^ 64 := by
      rw [wrap64, Int.bmod_eq_emod]
      split <;> omega
    have hwrapped' : 0 ≤ (wrap64 sum).tdiv numTasks := Int.tdiv_nonneg (by omega) (by omega)
    have hexact' := Int.tdiv_le_tdiv (by omega : (0 : Int) < sampled) hneg.le
    rw [Int.zero_tdiv] at hexact'
    omega
  · have hwrap := wrap64_eq_sub (by omega : 2 ^ 63 ≤ sum) (by omega)
    have hwrapped' := Int.tdiv_le_tdiv (by omega : (0 : Int) < numTasks) (by omega : wrap64 sum ≤ 0)
    have hexact' : 0 ≤ sum.tdiv sampled := Int.tdiv_nonneg hnonneg (by omega)
    rw [Int.zero_tdiv] at hwrapped'
    omega

/-- The total of the values fits in a long and divided by the number of all tasks
it has the same quotient as divided by the number of the values. -/
structure MeanFits (numTasks : Nat) (values : List Int) : Prop where
  sum : -2 ^ 63 ≤ values.sum ∧ values.sum < 2 ^ 63
  mean : numTasks * (truncatedMean values).natAbs ≤ values.sum.natAbs

theorem sum64_tdiv_eq_iff {numTasks : Nat} (hne : values ≠ []) (hle : values.length ≤ numTasks)
    (hlength : numTasks < 2 ^ 31) :
    (sum64 values).tdiv numTasks = truncatedMean values ↔ MeanFits numTasks values := by
  have hpos := List.length_pos_iff.mpr hne
  rw [sum64_eq]
  by_cases hsum : -2 ^ 63 ≤ values.sum ∧ values.sum < 2 ^ 63
  · rw [wrap64_eq_self hsum.1 hsum.2, truncatedMean, tdiv_eq_tdiv_iff hpos hle]
    exact ⟨fun hmean => ⟨hsum, hmean⟩, MeanFits.mean⟩
  · exact ⟨fun heq => absurd heq (wrap64_tdiv_ne hpos hle hlength hsum), fun hfits => absurd hfits.sum hsum⟩

end truncatedMean

namespace MapperSpillHeuristic

/-- A value is displayed that is the mean of what was read, and so lies between
the smallest and the largest of it. -/
structure DisplaysMean (result : HeuristicResult) (name : String) (values : List Int) : Prop where
  mean : result.detail name = some (toString (truncatedMean values))
  smallest : ∃ value ∈ values, value ≤ truncatedMean values
  largest : ∃ value ∈ values, truncatedMean values ≤ value

/-- The averages that are reported are those of the sampled mappers. -/
def ReportsAverages (heuristic : MapperSpillHeuristic) (formats : NumberFormats)
    (data : MapReduceApplicationData) (mappers : List MapReduceTaskData) : Prop :=
  let sampled := mappers.filter MapReduceTaskData.sampled
  ∃ result, heuristic.apply formats data = .ok (some result) ∧
    DisplaysMean result "Avg spilled records per task" (sampled.map (·.counterValue .SPILLED_RECORDS)) ∧
    DisplaysMean result "Avg output records per task" (sampled.map (·.counterValue .MAP_OUTPUT_RECORDS))

variable {heuristic : MapperSpillHeuristic} {formats : NumberFormats} {data : MapReduceApplicationData}
  {mappers : List MapReduceTaskData}

private theorem displaysMean_iff {result : HeuristicResult} {name : String} {values : List Int}
    {numTasks : Nat} (hne : values ≠ []) (hle : values.length ≤ numTasks) (hlength : numTasks < 2 ^ 31)
    (hdetail : result.detail name = some (toString ((sum64 values).tdiv numTasks))) :
    DisplaysMean result name values ↔ MeanFits numTasks values := by
  rw [← sum64_tdiv_eq_iff hne hle hlength]
  constructor
  · intro hmean
    exact Int.repr_injective (Option.some.inj (hdetail.symm.trans hmean.mean))
  · intro heq
    exact ⟨by rw [hdetail, heq], exists_le_truncatedMean hne, exists_truncatedMean_le hne⟩

private theorem apply_eq (h : data.SampledTasks .mapper mappers) :
    heuristic.apply formats data = .ok (some (heuristic.report formats mappers.length
      ((mappers.filter MapReduceTaskData.sampled).map fun task =>
        ⟨task.counterValue .SPILLED_RECORDS, task.counterValue .MAP_OUTPUT_RECORDS⟩))) := by
  refine h.apply_eq (fun task htask => ?_) (heuristic.report formats)
  simp only [read, h.counter htask, bind, Except.bind]
  rfl

/-- The averages are divided by the number of all mappers, sampled or not. -/
private theorem report_detail (heuristic : MapperSpillHeuristic) (formats : NumberFormats) {numTasks : Nat}
    (metrics : List SpillMetrics) (hnum : numTasks ≠ 0) :
    (heuristic.report formats numTasks metrics).detail "Avg spilled records per task" =
        some (toString ((sum64 (metrics.map SpillMetrics.spills)).tdiv numTasks)) ∧
      (heuristic.report formats numTasks metrics).detail "Avg output records per task" =
        some (toString ((sum64 (metrics.map SpillMetrics.outputRecords)).tdiv numTasks)) := by
  simp [report, HeuristicResult.detail, hnum]

/-- The averages are those of the sampled mappers when they and their number
leave the same quotients as all mappers do; so when all mappers are sampled. -/
theorem reportsAverages_iff (heuristic : MapperSpillHeuristic) (formats : NumberFormats)
    (h : data.SampledTasks .mapper mappers) :
    let sampled := mappers.filter MapReduceTaskData.sampled
    heuristic.ReportsAverages formats data mappers ↔
      MeanFits mappers.length (sampled.map (·.counterValue .SPILLED_RECORDS)) ∧
        MeanFits mappers.length (sampled.map (·.counterValue .MAP_OUTPUT_RECORDS)) := by
  intro sampled
  have hle : sampled.length ≤ mappers.length := List.length_filter_le _ _
  have hne : ∀ counterName, sampled.map (·.counterValue counterName) ≠ [] := fun _ =>
    mt List.map_eq_nil_iff.mp h.sampled
  have hnum : mappers.length ≠ 0 := fun hzero =>
    h.sampled (by rw [List.length_eq_zero_iff.mp hzero]; rfl)
  obtain ⟨hspills, houtput⟩ := report_detail heuristic formats
    (sampled.map fun task => ⟨task.counterValue .SPILLED_RECORDS, task.counterValue .MAP_OUTPUT_RECORDS⟩) hnum
  rw [List.map_map] at hspills houtput
  simp only [ReportsAverages, apply_eq h, Except.ok.injEq, Option.some.injEq, exists_eq_left']
  rw [displaysMean_iff (hne _) (by simpa using hle) h.length hspills,
    displaysMean_iff (hne _) (by simpa using hle) h.length houtput]

section alikeMappers

open MapReduceApplicationData

/-- The limits of one to four. -/
private def lowLimits : MapperSpillHeuristic :=
  let limits : Severity.Limits := ⟨.ofInt 1, .ofInt 2, .ofInt 3, .ofInt 4⟩
  ⟨⟨"Mapper Spill", "MapperSpillHeuristic"⟩, limits, limits⟩

/-- A mapper that has spilled a thousand records. -/
private def spillingMapper : MapReduceTaskData := taskWithCounter .SPILLED_RECORDS 1000

private theorem sampledTasks_spillingMappers {sampled unsampled : Nat} (hsampled : 0 < sampled)
    (hlength : sampled + unsampled < 2 ^ 31) : (partlySampled spillingMapper sampled unsampled).SampledTasks
      .mapper (partlySampledTasks spillingMapper sampled unsampled) :=
  sampledTasks_partlySampled hsampled hlength (counters_taskWithCounter (by decide) (by decide))

private theorem counterValue_spillingMapper (counterName : CounterName) :
    spillingMapper.counterValue counterName = if counterName = .SPILLED_RECORDS then 1000 else 0 :=
  Except.ok.inj (counter_taskWithCounter .SPILLED_RECORDS counterName 1000)

theorem reportsAverages_allSampled : lowLimits.ReportsAverages ⟨toString, fun _ => "", fun _ => ""⟩
    (partlySampled spillingMapper 3 0) (partlySampledTasks spillingMapper 3 0) := by
  refine (reportsAverages_iff _ _ (sampledTasks_spillingMappers (by decide) (by decide))).mpr ?_
  rw [counterValues_partlySampledTasks, counterValues_partlySampledTasks, counterValue_spillingMapper,
    counterValue_spillingMapper, length_partlySampledTasks]
  exact ⟨⟨by decide, by decide⟩, ⟨by decide, by decide⟩⟩

/-- Of 201 mappers with a thousand spilled records each 200 are sampled, and an
average of 995 is reported. -/
theorem not_reportsAverages_sample : ¬ lowLimits.ReportsAverages ⟨toString, fun _ => "", fun _ => ""⟩
    (partlySampled spillingMapper 200 1) (partlySampledTasks spillingMapper 200 1) := by
  rintro ⟨result, hresult, hspills, -⟩
  rw [apply_eq (sampledTasks_spillingMappers (by decide) (by decide))] at hresult
  obtain rfl := Option.some.inj (Except.ok.inj hresult)
  have hnum : (partlySampledTasks spillingMapper 200 1).length = 201 := length_partlySampledTasks ..
  have hvalues := counterValues_partlySampledTasks spillingMapper 200 1 .SPILLED_RECORDS
  have hdetail := (report_detail lowLimits ⟨toString, fun _ => "", fun _ => ""⟩
    (((partlySampledTasks spillingMapper 200 1).filter MapReduceTaskData.sampled).map fun task =>
      ⟨task.counterValue .SPILLED_RECORDS, task.counterValue .MAP_OUTPUT_RECORDS⟩)
    (by rw [hnum]; decide : (partlySampledTasks spillingMapper 200 1).length ≠ 0)).1
  rw [List.map_map] at hdetail
  have hmean := Int.repr_injective (Option.some.inj (hdetail.symm.trans hspills.mean))
  change (sum64 (List.map (fun task => MapReduceTaskData.counterValue task .SPILLED_RECORDS) _)).tdiv _ =
    _ at hmean
  rw [hvalues, hnum, counterValue_spillingMapper, sum64_eq, truncatedMean, List.sum_replicate,
    List.length_replicate] at hmean
  revert hmean
  decide

end alikeMappers

end MapperSpillHeuristic

end drelephant.mapreduce
