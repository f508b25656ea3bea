import Mathlib
import DrElephant.MapReduce.Heuristics.GenericGC
import DrElephant.MapReduce.SampledTasks

open drelephant.analysis drelephant.math ieee java.lang

namespace drelephant.mapreduce

/-- What is read of a task with counters. -/
def MapReduceTaskData.gcMetrics (task : MapReduceTaskData) : GCMetrics where
  runtimeMs := task.totalTimeMs
  gcMs := task.counterValue .GC_MILLISECONDS
  cpuMs := task.counterValue .CPU_MILLISECONDS

namespace GenericGCHeuristic

/-- The ratio of the averages that is displayed. -/
def displayedRatio (metrics : List GCMetrics) : Binary64 :=
  let avgCpuMs := Statistics.average (metrics.map GCMetrics.cpuMs)
  let avgGcMs := Statistics.average (metrics.map GCMetrics.gcMs)
  if avgCpuMs ≠ 0 then ((Binary64.ofInt avgGcMs).mul (.ofInt 1)).div (.ofInt avgCpuMs) else .ofInt 0

/-- The severity follows from the ratio and the run time that are displayed,
however numbers are written, and no ratio is no problem. -/
def Explained (heuristic : GenericGCHeuristic) (data : MapReduceApplicationData) : Prop :=
  ∃ ratio runtimeMs severity,
    (∀ formats, ∃ result, heuristic.apply formats data = .ok (some result) ∧
      result.detail "Task GC/CPU ratio" = some (formats.doubleToString ratio) ∧
      result.detail "Avg task runtime (ms)" = some (toString runtimeMs) ∧ result.severity = severity) ∧
    severity = Severity.min (Severity.getSeverityAscending ratio heuristic.gcRatioLimits)
      (Severity.getSeverityAscending (.ofInt runtimeMs) heuristic.runtimeLimits) ∧
    (ratio = .ofInt 0 → severity = .NONE)

section report

variable (heuristic : GenericGCHeuristic) (formats : NumberFormats) {numTasks : Nat}
  {metrics : List GCMetrics}

theorem report_ratio : (heuristic.report formats numTasks metrics).detail "Task GC/CPU ratio" =
    some (formats.doubleToString (displayedRatio metrics)) := rfl

theorem report_runtime : (heuristic.report formats numTasks metrics).detail "Avg task runtime (ms)" =
    some (toString (Statistics.average (metrics.map GCMetrics.runtimeMs))) := rfl

theorem report_severity (hnum : numTasks ≠ 0) : (heuristic.report formats numTasks metrics).severity =
    heuristic.getGcRatioSeverity (Statistics.average (metrics.map GCMetrics.runtimeMs))
      (Statistics.average (metrics.map GCMetrics.cpuMs))
      (Statistics.average (metrics.map GCMetrics.gcMs)) := by
  simp only [report, HeuristicResult.addResultDetail_severity, HeuristicResult.new_severity, if_neg hnum]

end report

section getGcRatioSeverity

variable {heuristic : GenericGCHeuristic} {runtimeMs cpuMs gcMs : Int}

theorem min_none (severity : Severity) : Severity.min .NONE severity = .NONE := by
  cases severity <;> rfl

theorem min_critical (severity : Severity) : Severity.min .CRITICAL severity = severity := by
  cases severity <;> rfl

/-- Without CPU time any garbage collection makes an infinite ratio. -/
theorem getGcRatioSeverity_zero (hlimits : heuristic.gcRatioLimits.PositiveAscending) (hgc : 0 ≤ gcMs)
    (hbound : gcMs < 2 ^ 63) : heuristic.getGcRatioSeverity runtimeMs 0 gcMs =
      if gcMs = 0 then .NONE else heuristic.getRuntimeSeverity runtimeMs := by
  have hzero : Binary64.ofInt 0 = .finite 0 := Binary64.ofInt_eq_finite (by decide)
  obtain ⟨hfinite, -⟩ := Binary64.ofInt_of_range (by omega : -2 ^ 63 ≤ gcMs) hbound.le
  rw [getGcRatioSeverity, hzero]
  split
  · rename_i hnone
    rw [hnone, hzero]
    simp [Binary64.div, min_none]
  · have hpos : 0 < roundFinite gcMs := Binary64.roundFinite_pos (by omega)
    have hratio : (Binary64.ofInt gcMs).div (.finite 0) = .posInf := by
      rw [hfinite]
      simp [Binary64.div, Binary64.infinity, hpos.ne', hpos.le]
    rw [hratio, Severity.getSeverityAscending_posInf hlimits, min_critical]

end getGcRatioSeverity

section explained

variable {heuristic : GenericGCHeuristic} {data : MapReduceApplicationData}
  {tasks : List MapReduceTaskData}

private theorem apply_eq (formats : NumberFormats) (h : data.SampledTasks heuristic.tasks tasks) :
    heuristic.apply formats data = .ok (some (heuristic.report formats tasks.length
      ((tasks.filter MapReduceTaskData.sampled).map MapReduceTaskData.gcMetrics))) := by
  refine h.apply_eq (fun task htask => ?_) (heuristic.report formats)
  simp only [read, h.counter htask, bind, Except.bind]
  rfl

/-- Only one ratio and one run time are displayed whatever the formats. -/
private theorem explained_iff_severity (h : data.SampledTasks heuristic.tasks tasks)
    (hlimits : heuristic.gcRatioLimits.PositiveAscending) {metrics : List GCMetrics}
    (hmetrics : (tasks.filter MapReduceTaskData.sampled).map MapReduceTaskData.gcMetrics = metrics) :
    heuristic.Explained data ↔
      heuristic.getGcRatioSeverity (Statistics.average (metrics.map GCMetrics.runtimeMs))
          (Statistics.average (metrics.map GCMetrics.cpuMs))
          (Statistics.average (metrics.map GCMetrics.gcMs)) =
        Severity.min (Severity.getSeverityAscending (displayedRatio metrics) heuristic.gcRatioLimits)
          (heuristic.getRuntimeSeverity (Statistics.average (metrics.map GCMetrics.runtimeMs))) := by
  have hnum : tasks.length ≠ 0 := fun hzero =>
    h.sampled (by rw [List.length_eq_zero_iff.mp hzero]; rfl)
  constructor
  · rintro ⟨ratio, runtimeMs, severity, hdisplayed, hseverity, -⟩
    -- Formats that write the displayed ratio as no other one tell which one it is.
    obtain ⟨result, hresult, hratio, hruntime, hreported⟩ := hdisplayed
      ⟨fun _ => "", fun x => if x = displayedRatio metrics then "displayed" else "other", fun _ => ""⟩
    rw [apply_eq _ h, hmetrics] at hresult
    obtain rfl := Option.some.inj (Except.ok.inj hresult)
    have hratio : ratio = displayedRatio metrics := by
      by_contra hother
      simp [report_ratio, hother] at hratio
    have hruntime : Statistics.average (metrics.map GCMetrics.runtimeMs) = runtimeMs :=
      Int.repr_injective (Option.some.inj hruntime)
    rw [report_severity _ _ hnum] at hreported
    rw [hreported, hseverity, hratio, ← hruntime]
    rfl
  · intro hseverity
    refine ⟨displayedRatio metrics, Statistics.average (metrics.map GCMetrics.runtimeMs), _,
      fun formats => ⟨_, apply_eq formats h, ?_⟩, hseverity, fun hzero => ?_⟩
    · rw [hmetrics]
      exact ⟨report_ratio .., report_runtime .., report_severity _ _ hnum⟩
    · have hnone := Severity.getSeverityAscending_zero hlimits
      rw [hseverity, hzero, Binary64.ofInt_eq_finite (by decide), Int.cast_zero, hnone, min_none]

/-- The displayed severity is the reported one unless an infinite ratio is
displayed as zero. -/
private theorem severity_iff (hlimits : heuristic.gcRatioLimits.PositiveAscending) {metrics : List GCMetrics}
    (hgc : 0 ≤ Statistics.average (metrics.map GCMetrics.gcMs)) :
    heuristic.getGcRatioSeverity (Statistics.average (metrics.map GCMetrics.runtimeMs))
        (Statistics.average (metrics.map GCMetrics.cpuMs))
        (Statistics.average (metrics.map GCMetrics.gcMs)) =
      Severity.min (Severity.getSeverityAscending (displayedRatio metrics) heuristic.gcRatioLimits)
        (heuristic.getRuntimeSeverity (Statistics.average (metrics.map GCMetrics.runtimeMs))) ↔
    ¬ (Statistics.average (metrics.map GCMetrics.cpuMs) = 0 ∧
      Statistics.average (metrics.map GCMetrics.gcMs) ≠ 0 ∧
      heuristic.getRuntimeSeverity (Statistics.average (metrics.map GCMetrics.runtimeMs)) ≠ .NONE) := by
  obtain ⟨hlo, hhi⟩ := Statistics.average_range (metrics.map GCMetrics.gcMs)
  simp only [displayedRatio]
  generalize Statistics.average (metrics.map GCMetrics.gcMs) = gcMs at *
  generalize Statistics.average (metrics.map GCMetrics.cpuMs) = cpuMs
  generalize Statistics.average (metrics.map GCMetrics.runtimeMs) = runtimeMs
  by_cases hcpu : cpuMs = 0
  · subst hcpu
    rw [getGcRatioSeverity_zero hlimits hgc (by omega), if_neg (not_not.mpr rfl : ¬ (0 : Int) ≠ 0),
      Binary64.ofInt_eq_finite (by decide : |(0 : Int)| ≤ 2 ^ 53), Int.cast_zero,
      Severity.getSeverityAscending_zero hlimits, min_none]
    by_cases hzero : gcMs = 0 <;> simp [hzero]
  · rw [if_pos hcpu, Binary64.mul_ofInt_one (by omega) (by omega)]
    simp [getGcRatioSeverity, hcpu]

end explained

/-- The displayed ratio explains the severity unless the CPU times add up to less
than one millisecond for each sampled task, the GC times to one at least, and
the tasks run so long that they are not NONE. -/
theorem explained_iff (heuristic : GenericGCHeuristic) {data : MapReduceApplicationData}
    {tasks : List MapReduceTaskData} (h : data.SampledTasks heuristic.tasks tasks)
    (hnonneg : ∀ task ∈ tasks.filter MapReduceTaskData.sampled, ∀ counterName,
      0 ≤ task.counterValue counterName)
    (hratio : heuristic.gcRatioLimits.PositiveAscending)
    (hruntime : heuristic.runtimeLimits.PositiveAscending) :
    let sampled := tasks.filter MapReduceTaskData.sampled
    heuristic.Explained data ↔
      ¬ ((sampled.map (·.counterValue .CPU_MILLISECONDS)).sum < sampled.length ∧
        sampled.length ≤ (sampled.map (·.counterValue .GC_MILLISECONDS)).sum ∧
        heuristic.runtimeLimits.low.le
          (.ofInt (Statistics.average (sampled.map MapReduceTaskData.totalTimeMs))) = true) := by
  intro sampled
  have hlength : sampled.length < 2 ^ 31 := (List.length_filter_le _ _).trans_lt h.length
  have hzero : ∀ counterName, Statistics.average (sampled.map (·.counterValue counterName)) = 0 ↔
      (sampled.map (·.counterValue counterName)).sum < sampled.length := by
    intro counterName
    have hrange : ∀ value ∈ sampled.map (·.counterValue counterName), 0 ≤ value ∧ value < 2 ^ 63 :=
      List.forall_mem_map.mpr fun task htask =>
        ⟨hnonneg task htask counterName, (h.counterValue_range htask counterName).2⟩
    simpa using Statistics.average_eq_zero_iff (mt List.map_eq_nil_iff.mp h.sampled) hrange (by simpa using hlength)
  have hgc : 0 ≤ Statistics.average ((sampled.map MapReduceTaskData.gcMetrics).map GCMetrics.gcMs) := by
    rw [List.map_map]
    refine Statistics.average_nonneg (List.forall_mem_map.mpr fun task htask => ?_)
      (List.forall_mem_map.mpr fun task htask => ?_)
    · exact hnonneg task htask _
    · exact (h.counterValue_range htask _).2.le
  rw [explained_iff_severity h hratio rfl, severity_iff hratio hgc]
  simp only [List.map_map, getRuntimeSeverity, ne_eq, Severity.getSeverityAscending_eq_none_iff hruntime,
    Bool.not_eq_false]
  rw [← not_lt, ← hzero, ← hzero]
  rfl

/-- Thresholds of one to four for the ratio, and of five to fifteen minutes. -/
def minuteLimits : GenericGCHeuristic :=
  MapperGCHeuristic ⟨"Mapper GC", "MapperGCHeuristic"⟩ ⟨.ofInt 1, .ofInt 2, .ofInt 3, .ofInt 4⟩
    ⟨.ofInt 300000, .ofInt 600000, .ofInt 720000, .ofInt 900000⟩

private theorem minuteLimits_positiveAscending : minuteLimits.gcRatioLimits.PositiveAscending ∧
    minuteLimits.runtimeLimits.PositiveAscending :=
  ⟨Severity.Limits.positiveAscending_ofInt (by decide) (by decide) (by decide) (by decide) (by decide),
    Severity.Limits.positiveAscending_ofInt (by decide) (by decide) (by decide) (by decide) (by decide)⟩

/-- A task of ten minutes with a single counter. -/
def longTask (counterName : CounterName) (value : Int) : MapReduceTaskData :=
  (taskWithCounter counterName value).setTime (600000, 0, 0)

private theorem sampledTasks_longTask (counterName : CounterName) :
    (oneTask (longTask counterName 5)).SampledTasks minuteLimits.tasks [longTask counterName 5] := by
  refine ⟨rfl, rfl, (by decide : 1 < 2 ^ 31), List.cons_ne_nil _ _, fun task htask => ?_⟩
  obtain rfl := List.mem_singleton.mp (List.mem_filter.mp htask).1
  exact counters_taskWithCounter (by decide) (by decide)

/-- A task of ten minutes that spends time on the CPU and on collecting garbage. -/
def busyTask (gcMs cpuMs : Int) : MapReduceTaskData :=
  (taskWithCounters [(.GC_MILLISECONDS, gcMs), (.CPU_MILLISECONDS, cpuMs)]).setTime (600000, 0, 0)

private theorem counterValue_busyTask (gcMs cpuMs : Int) (name : CounterName) :
    (busyTask gcMs cpuMs).counterValue name =
      if name = .GC_MILLISECONDS then gcMs else if name = .CPU_MILLISECONDS then cpuMs else 0 := by
  cases name <;> rfl

theorem explained_busyTasks : minuteLimits.Explained (ofTasks [busyTask 4000 1000, busyTask 50 2000]) := by
  have hvalue : ∀ task ∈ [busyTask 4000 1000, busyTask 50 2000], ∀ name,
      0 ≤ task.counterValue name ∧ task.counterValue name < 2 ^ 63 := by
    intro task htask name
    rcases List.mem_pair.mp htask with rfl | rfl
    · rw [counterValue_busyTask]
      split <;> [decide; split <;> decide]
    · rw [counterValue_busyTask]
      split <;> [decide; split <;> decide]
  have hsampled : (ofTasks [busyTask 4000 1000, busyTask 50 2000]).SampledTasks minuteLimits.tasks
      [busyTask 4000 1000, busyTask 50 2000] := by
    refine ⟨rfl, rfl, (by decide : 2 < 2 ^ 31), List.cons_ne_nil _ _, fun task htask => ?_⟩
    have hmem := (List.mem_filter.mp htask).1
    have hholder : ∃ counters, task.counterHolder = some counters := by
      rcases List.mem_pair.mp hmem with rfl | rfl
      · exact ⟨_, rfl⟩
      · exact ⟨_, rfl⟩
    obtain ⟨counters, hcounters⟩ := hholder
    refine ⟨counters, hcounters, fun name => ?_⟩
    have hrange := hvalue task hmem name
    rw [MapReduceTaskData.counterValue, hcounters] at hrange
    exact ⟨(by decide : (-2 ^ 63 : Int) ≤ 0).trans hrange.1, hrange.2⟩
  refine (explained_iff minuteLimits hsampled
    (fun task htask name => (hvalue task (List.mem_filter.mp htask).1 name).1)
    minuteLimits_positiveAscending.1 minuteLimits_positiveAscending.2).mpr ?_
  rintro ⟨hcpu, -⟩
  exact absurd hcpu (by decide)

/-- Without a CPU counter the ratio 0.0 is displayed, and the severity is that of
the run time. -/
theorem not_explained_longTask : ¬ minuteLimits.Explained (oneTask (longTask .GC_MILLISECONDS 5)) := by
  obtain ⟨hlimits, hruntimeLimits⟩ := minuteLimits_positiveAscending
  have hgc : Statistics.average [5] = 5 := Statistics.average_singleton (by decide)
  have hcpu : Statistics.average [0] = 0 := Statistics.average_singleton (by decide)
  have hruntime : Statistics.average [600000] = 600000 := Statistics.average_singleton (by decide)
  have hmetrics : ([longTask .GC_MILLISECONDS 5].filter MapReduceTaskData.sampled).map
      MapReduceTaskData.gcMetrics = [⟨600000, 5, 0⟩] := rfl
  rw [explained_iff_severity (sampledTasks_longTask _) hlimits hmetrics, severity_iff hlimits]
  all_goals simp only [List.map_cons, List.map_nil, hgc, hcpu, hruntime]
  · have hreached : minuteLimits.runtimeLimits.low.le (.ofInt 600000) = true :=
      Binary64.ofInt_mono (by decide)
    refine not_not.mpr ⟨trivial, by decide, ?_⟩
    rw [getRuntimeSeverity, ne_eq, Severity.getSeverityAscending_eq_none_iff hruntimeLimits, hreached]
    decide
  · decide

end GenericGCHeuristic

end drelephant.mapreduce
