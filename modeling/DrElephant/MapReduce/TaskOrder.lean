import DrElephant.MapReduce.Heuristics.MapReduceHeuristic

open drelephant.analysis drelephant.math java.lang

namespace drelephant.mapreduce

namespace MapReduceHeuristic

/-- The sums that a heuristic adds up in doubles are exact. The other two
heuristics have none: medians and sums of longs are computed in longs. -/
def ExactSums (data : MapReduceApplicationData) : MapReduceHeuristic → Prop
  | mapperDataSkew conf numTasksLimits deviationLimits filesLimits =>
    data.SampledSatisfy .mapper
      (MapperDataSkewHeuristic conf numTasksLimits deviationLimits filesLimits).read Statistics.Exact
  | mapperGC _ _ _ => data.SampledSatisfy .mapper GenericGCHeuristic.read GenericGCHeuristic.ExactSums
  | mapperTime _ => data.SampledSatisfy .mapper MapperTimeHeuristic.read MapperTimeHeuristic.ExactSums
  | mapperMemory _ _ _ =>
    data.SampledSatisfy .mapper GenericMemoryHeuristic.read GenericMemoryHeuristic.ExactSums
  | reducerDataSkew conf numTasksLimits deviationLimits filesLimits =>
    data.SampledSatisfy .reducer
      (ReducerDataSkewHeuristic conf numTasksLimits deviationLimits filesLimits).read Statistics.Exact
  | reducerGC _ _ _ => data.SampledSatisfy .reducer GenericGCHeuristic.read GenericGCHeuristic.ExactSums
  | reducerTime _ => data.SampledSatisfy .reducer ReducerTimeHeuristic.read Statistics.Exact
  | reducerMemory _ _ _ =>
    data.SampledSatisfy .reducer GenericMemoryHeuristic.read GenericMemoryHeuristic.ExactSums
  | shuffleSort _ =>
    data.SampledSatisfy .reducer ShuffleSortHeuristic.read ShuffleSortHeuristic.ExactSums
  | mapperSpeed _ => True
  | mapperSpill _ => True
  | exception _ => True

section reordered

variable {α : Type} {data data' : MapReduceApplicationData} {array : TaskArray}
  {read : MapReduceTaskData → Except JavaException α} {property : List α → Prop}

/-- A report that does not depend on the order of what it is made of does not
depend on the order of the tasks. -/
private theorem bind_report_reordered
    (report : Nat → List α → Except JavaException (Option HeuristicResult))
    (h : data.Reordered data') (hproperty : data.SampledSatisfy array read property)
    (hreport : ∀ numTasks metrics metrics', metrics.Perm metrics' → property metrics →
      report numTasks metrics = report numTasks metrics') (result : Option HeuristicResult) :
    (data.sampledMetrics array read >>= fun sampled => report sampled.1 sampled.2) = .ok result ↔
      (data'.sampledMetrics array read >>= fun sampled => report sampled.1 sampled.2) = .ok result :=
  h.bind_sampledMetrics (fun numTasks metrics metrics' hmetrics hperm =>
    hreport numTasks metrics metrics' hperm (hproperty numTasks metrics hmetrics)) result

/-- The shape that all heuristics but the one for memory have. -/
private theorem report_reordered
    (report : Nat → List α → Except JavaException (Option HeuristicResult))
    (h : data.Reordered data') (hproperty : data.SampledSatisfy array read property)
    (hreport : ∀ numTasks metrics metrics', metrics.Perm metrics' → property metrics →
      report numTasks metrics = report numTasks metrics') (result : Option HeuristicResult) :
    (if !data.succeeded then .ok none
      else data.sampledMetrics array read >>= fun sampled => report sampled.1 sampled.2) = .ok result ↔
    (if !data'.succeeded then .ok none
      else data'.sampledMetrics array read >>= fun sampled => report sampled.1 sampled.2) =
        .ok result := by
  rw [h.succeeded]
  split
  · rfl
  · exact bind_report_reordered report h hproperty hreport result

end reordered

section heuristics

variable {formats : NumberFormats} {digit : Char → Option Nat} {data data' : MapReduceApplicationData}

private theorem genericDataSkew_reordered {heuristic : GenericDataSkewHeuristic}
    (h : data.Reordered data')
    (hexact : data.SampledSatisfy heuristic.tasks heuristic.read Statistics.Exact)
    (result : Option HeuristicResult) :
    heuristic.apply formats data = .ok result ↔ heuristic.apply formats data' = .ok result := by
  refine report_reordered (fun numTasks inputBytes =>
    pure (some (heuristic.report formats numTasks inputBytes))) h hexact ?_ result
  intro numTasks inputBytes inputBytes' hperm hexact
  rw [heuristic.report_perm formats hperm hexact]

private theorem genericGC_reordered {heuristic : GenericGCHeuristic} (h : data.Reordered data')
    (hexact : data.SampledSatisfy heuristic.tasks GenericGCHeuristic.read GenericGCHeuristic.ExactSums)
    (result : Option HeuristicResult) :
    heuristic.apply formats data = .ok result ↔ heuristic.apply formats data' = .ok result := by
  refine report_reordered (fun numTasks metrics =>
    pure (some (heuristic.report formats numTasks metrics))) h hexact ?_ result
  intro numTasks metrics metrics' hperm hexact
  rw [heuristic.report_perm formats hperm hexact]

private theorem genericMemory_reordered {heuristic : GenericMemoryHeuristic}
    (h : data.Reordered data')
    (hexact : data.SampledSatisfy heuristic.tasks GenericMemoryHeuristic.read
      GenericMemoryHeuristic.ExactSums) (result : Option HeuristicResult) :
    heuristic.apply formats digit data = .ok result ↔
      heuristic.apply formats digit data' = .ok result := by
  simp only [GenericMemoryHeuristic.apply, h.succeeded, h.jobConf]
  split
  · rfl
  rw [bind_eq_ok_iff, bind_eq_ok_iff]
  refine exists_congr fun conf => and_congr_right fun _ => ?_
  cases conf heuristic.containerMemConf with
  | none => rfl
  | some containerSizeStr =>
    -- The container size is read before the tasks are.
    simp only
    rw [bind_eq_ok_iff, bind_eq_ok_iff]
    refine exists_congr fun containerMem => and_congr_right fun _ => ?_
    refine bind_report_reordered (fun numTasks metrics =>
      pure (some (heuristic.report formats _ numTasks metrics))) h hexact ?_ result
    intro numTasks metrics metrics' hperm hexact
    rw [heuristic.report_perm formats hperm hexact]

private theorem mapperSpeed_reordered {heuristic : MapperSpeedHeuristic} (h : data.Reordered data')
    (result : Option HeuristicResult) :
    heuristic.apply formats data = .ok result ↔ heuristic.apply formats data' = .ok result := by
  refine report_reordered (fun numTasks metrics => do
    let medians ← MapperSpeedHeuristic.medians numTasks metrics
    pure (some (heuristic.report formats numTasks medians))) h (fun _ _ _ => trivial) ?_ result
  intro numTasks metrics metrics' hperm _
  rw [MapperSpeedHeuristic.medians_perm hperm]

private theorem mapperSpill_reordered {heuristic : MapperSpillHeuristic} (h : data.Reordered data')
    (result : Option HeuristicResult) :
    heuristic.apply formats data = .ok result ↔ heuristic.apply formats data' = .ok result := by
  refine report_reordered (fun numTasks metrics =>
    pure (some (heuristic.report formats numTasks metrics))) h (fun _ _ _ => trivial) ?_ result
  intro numTasks metrics metrics' hperm _
  rw [heuristic.report_perm formats hperm]

private theorem mapperTime_reordered {heuristic : TaskTimeHeuristic} (h : data.Reordered data')
    (hexact : data.SampledSatisfy .mapper MapperTimeHeuristic.read MapperTimeHeuristic.ExactSums)
    (result : Option HeuristicResult) :
    MapperTimeHeuristic.apply heuristic formats data = .ok result ↔
      MapperTimeHeuristic.apply heuristic formats data' = .ok result := by
  refine report_reordered (fun numTasks metrics =>
    pure (some (MapperTimeHeuristic.report heuristic formats numTasks metrics))) h hexact ?_ result
  intro numTasks metrics metrics' hperm hexact
  rw [MapperTimeHeuristic.report_perm heuristic formats hperm hexact]

private theorem reducerTime_reordered {heuristic : TaskTimeHeuristic} (h : data.Reordered data')
    (hexact : data.SampledSatisfy .reducer ReducerTimeHeuristic.read Statistics.Exact)
    (result : Option HeuristicResult) :
    ReducerTimeHeuristic.apply heuristic data = .ok result ↔
      ReducerTimeHeuristic.apply heuristic data' = .ok result := by
  refine report_reordered (fun numTasks runTimesMs =>
    pure (some (ReducerTimeHeuristic.report heuristic numTasks runTimesMs))) h hexact ?_ result
  intro numTasks runTimesMs runTimesMs' hperm hexact
  rw [ReducerTimeHeuristic.report_perm heuristic hperm hexact]

private theorem shuffleSort_reordered {heuristic : ShuffleSortHeuristic} (h : data.Reordered data')
    (hexact : data.SampledSatisfy .reducer ShuffleSortHeuristic.read ShuffleSortHeuristic.ExactSums)
    (result : Option HeuristicResult) :
    heuristic.apply formats data = .ok result ↔ heuristic.apply formats data' = .ok result := by
  refine report_reordered (fun numTasks metrics =>
    pure (some (heuristic.report formats numTasks metrics))) h hexact ?_ result
  intro numTasks metrics metrics' hperm hexact
  rw [heuristic.report_perm formats hperm hexact]

end heuristics

/-- A heuristic returns the same result for the tasks of a job in any order, as
long as the sums it adds up in doubles are exact. -/
theorem apply_reordered (heuristic : MapReduceHeuristic) (formats : NumberFormats)
    (digit : Char → Option Nat) {data data' : MapReduceApplicationData} (h : data.Reordered data')
    (hexact : heuristic.ExactSums data) (result : Option HeuristicResult) :
    heuristic.apply formats digit data = .ok result ↔
      heuristic.apply formats digit data' = .ok result := by
  cases heuristic with
  | mapperDataSkew | reducerDataSkew =>
    apply genericDataSkew_reordered h
    exact hexact
  | mapperGC | reducerGC =>
    apply genericGC_reordered h
    exact hexact
  | mapperMemory | reducerMemory =>
    apply genericMemory_reordered h
    exact hexact
  | mapperTime => exact mapperTime_reordered h hexact result
  | mapperSpeed => exact mapperSpeed_reordered h result
  | mapperSpill => exact mapperSpill_reordered h result
  | reducerTime => exact reducerTime_reordered h hexact result
  | shuffleSort => exact shuffleSort_reordered h hexact result
  | exception => simp only [apply, ExceptionHeuristic.apply, h.succeeded, h.diagnosticInfo]

/-- A job with two sampled reducers that have run for the given times. -/
def twoReducers (time time' : Int) : MapReduceApplicationData where
  mapperData := some []
  reducerData := some ([time, time'].map fun time =>
    ({ taskId := "task", attemptId := "attempt" } : MapReduceTaskData).setTime (time, 0, 0))

theorem apply_reordered_twoReducers :
    let heuristic := reducerTime {
      heuristicConfData := ⟨"Reducer Time", "ReducerTimeHeuristic"⟩
      shortRuntimeLimits := ⟨.ofInt 600000, .ofInt 240000, .ofInt 120000, .ofInt 60000⟩
      longRuntimeLimits := ⟨.ofInt 900000, .ofInt 1800000, .ofInt 3600000, .ofInt 7200000⟩
      numTasksLimits := ⟨.ofInt 50, .ofInt 101, .ofInt 500, .ofInt 1000⟩ }
    let formats : NumberFormats := ⟨toString, fun _ => "", fun _ => ""⟩
    ∃ result,
      heuristic.apply formats (fun _ => none) (twoReducers 1000 5000) = .ok (some result) ∧
      heuristic.apply formats (fun _ => none) (twoReducers 5000 1000) = .ok (some result) := by
  intro heuristic formats
  have hreport : ∀ heuristic : TaskTimeHeuristic,
      (reducerTime heuristic).apply formats (fun _ => none) (twoReducers 1000 5000) =
        .ok (some (ReducerTimeHeuristic.report heuristic 2 [1000, 5000])) := fun _ => rfl
  have hreordered : (twoReducers 1000 5000).Reordered (twoReducers 5000 1000) :=
    ⟨.some (.refl _), .some (.swap _ _ _), rfl⟩
  refine ⟨_, hreport _, (apply_reordered heuristic formats _ hreordered ?_ _).mp (hreport _)⟩
  rintro numTasks metrics hmetrics
  obtain ⟨-, rfl⟩ := Prod.mk.inj (Except.ok.inj hmetrics)
  change |(1000 : Int)| + (|5000| + 0) ≤ 2 ^ 53
  norm_num

end MapReduceHeuristic

end drelephant.mapreduce
