import DrElephant.Analysis.HeuristicResult
import DrElephant.MapReduce.MapReduceData
import DrElephant.Math.Statistics
import DrElephant.Util.Utils

open drelephant.analysis drelephant.math drelephant.util ieee java.lang

namespace drelephant.mapreduce

/-- Looks for tasks that spend their time on garbage collection. -/
structure GenericGCHeuristic where
  tasks : TaskArray
  heuristicConfData : HeuristicConfigurationData
  gcRatioLimits : Severity.Limits
  runtimeLimits : Severity.Limits

def MapperGCHeuristic (heuristicConfData : HeuristicConfigurationData)
    (gcRatioLimits runtimeLimits : Severity.Limits) : GenericGCHeuristic :=
  ⟨.mapper, heuristicConfData, gcRatioLimits, runtimeLimits⟩

def ReducerGCHeuristic (heuristicConfData : HeuristicConfigurationData)
    (gcRatioLimits runtimeLimits : Severity.Limits) : GenericGCHeuristic :=
  ⟨.reducer, heuristicConfData, gcRatioLimits, runtimeLimits⟩

/-- What is read of a sampled task. -/
structure GCMetrics where
  runtimeMs : Int
  gcMs : Int
  cpuMs : Int

namespace GenericGCHeuristic

variable (heuristic : GenericGCHeuristic) (formats : NumberFormats)

def getRuntimeSeverity (runtimeMs : Int) : Severity :=
  Severity.getSeverityAscending (.ofInt runtimeMs) heuristic.runtimeLimits

def getGcRatioSeverity (runtimeMs cpuMs gcMs : Int) : Severity :=
  let gcRatio := (Binary64.ofInt gcMs).div (.ofInt cpuMs)
  let ratioSeverity := Severity.getSeverityAscending gcRatio heuristic.gcRatioLimits
  -- Severity is reduced if task runtime is insignificant
  let runtimeSeverity := heuristic.getRuntimeSeverity runtimeMs
  Severity.min ratioSeverity runtimeSeverity

def read (task : MapReduceTaskData) : Except JavaException GCMetrics := do
  let gcMs ← task.counter .GC_MILLISECONDS
  let cpuMs ← task.counter .CPU_MILLISECONDS
  pure { runtimeMs := task.totalTimeMs, gcMs, cpuMs }

/-- What is reported of the sampled tasks. -/
def report (numTasks : Nat) (metrics : List GCMetrics) : HeuristicResult :=
  let avgRuntimeMs := Statistics.average (metrics.map GCMetrics.runtimeMs)
  let avgCpuMs := Statistics.average (metrics.map GCMetrics.cpuMs)
  let avgGcMs := Statistics.average (metrics.map GCMetrics.gcMs)
  let ratio :=
    if avgCpuMs ≠ 0 then ((Binary64.ofInt avgGcMs).mul (.ofInt 1)).div (.ofInt avgCpuMs)
    else .ofInt 0
  let severity :=
    if numTasks = 0 then .NONE else heuristic.getGcRatioSeverity avgRuntimeMs avgCpuMs avgGcMs
  HeuristicResult.new heuristic.heuristicConfData severity (Utils.getHeuristicScore severity numTasks)
    |>.addResultDetail "Number of tasks" (toString numTasks)
    |>.addResultDetail "Avg task runtime (ms)" (toString avgRuntimeMs)
    |>.addResultDetail "Avg task CPU time (ms)" (toString avgCpuMs)
    |>.addResultDetail "Avg task GC time (ms)" (toString avgGcMs)
    |>.addResultDetail "Task GC/CPU ratio" (formats.doubleToString ratio)

def apply (data : MapReduceApplicationData) : Except JavaException (Option HeuristicResult) :=
  if !data.succeeded then .ok none
  else do
    let (numTasks, metrics) ← data.sampledMetrics heuristic.tasks read
    pure (some (heuristic.report formats numTasks metrics))

/-- The sums behind the averages are exact. -/
structure ExactSums (metrics : List GCMetrics) : Prop where
  runtimes : Statistics.Exact (metrics.map GCMetrics.runtimeMs)
  cpu : Statistics.Exact (metrics.map GCMetrics.cpuMs)
  gc : Statistics.Exact (metrics.map GCMetrics.gcMs)

theorem report_perm {metrics metrics' : List GCMetrics} (h : metrics.Perm metrics')
    (hexact : ExactSums metrics) (numTasks : Nat) :
    heuristic.report formats numTasks metrics = heuristic.report formats numTasks metrics' := by
  simp only [report, Statistics.average_perm (h.map _) hexact.runtimes,
    Statistics.average_perm (h.map _) hexact.cpu, Statistics.average_perm (h.map _) hexact.gc]

end GenericGCHeuristic

end drelephant.mapreduce
