import DrElephant.Analysis.HeuristicResult
import DrElephant.MapReduce.MapReduceData
import DrElephant.Math.Statistics
import DrElephant.Util.Utils

open drelephant.analysis drelephant.math drelephant.util ieee java.lang

namespace drelephant.mapreduce

/-- What the heuristics for the run time of mappers and of reducers have in
common. -/
structure TaskTimeHeuristic where
  heuristicConfData : HeuristicConfigurationData
  shortRuntimeLimits : Severity.Limits
  longRuntimeLimits : Severity.Limits
  numTasksLimits : Severity.Limits

namespace TaskTimeHeuristic

variable (heuristic : TaskTimeHeuristic)

def getShortRuntimeSeverity (runtimeMs : Int) : Severity :=
  Severity.getSeverityDescending (.ofInt runtimeMs) heuristic.shortRuntimeLimits

def getLongRuntimeSeverity (runtimeMs : Int) : Severity :=
  Severity.getSeverityAscending (.ofInt runtimeMs) heuristic.longRuntimeLimits

def getNumTasksSeverity (numTasks : Int) : Severity :=
  Severity.getSeverityAscending (.ofInt numTasks) heuristic.numTasksLimits

/-- Severity is reduced if number of tasks is small. -/
def shortTaskSeverity (numTasks averageTimeMs : Int) : Severity :=
  Severity.min (heuristic.getShortRuntimeSeverity averageTimeMs)
    (heuristic.getNumTasksSeverity numTasks)

/-- Severity is not reduced if the number of tasks is large. -/
def longTaskSeverity (averageTimeMs : Int) : Severity :=
  heuristic.getLongRuntimeSeverity averageTimeMs

def severity (numTasks averageTimeMs : Int) : Severity :=
  Severity.max (heuristic.shortTaskSeverity numTasks averageTimeMs)
    (heuristic.longTaskSeverity averageTimeMs)

end TaskTimeHeuristic

/-- What is read of a sampled mapper. -/
structure MapperTimeMetrics where
  inputBytes : Int
  taskTime : Int

namespace MapperTimeHeuristic

variable (heuristic : TaskTimeHeuristic) (formats : NumberFormats)

def read (task : MapReduceTaskData) : Except JavaException MapperTimeMetrics := do
  let inputBytes ← task.counter .HDFS_BYTES_READ
  pure { inputBytes, taskTime := task.totalTimeMs }

/-- What is reported of the sampled tasks. -/
def report (numTasks : Nat) (metrics : List MapperTimeMetrics) : HeuristicResult :=
  let runtimesMs := metrics.map MapperTimeMetrics.taskTime
  let taskMinMs := Statistics.minimum runtimesMs
  let taskMaxMs := Statistics.maximum runtimesMs
  let averageSize := Statistics.average (metrics.map MapperTimeMetrics.inputBytes)
  let averageTimeMs := Statistics.average runtimesMs
  let severity := heuristic.severity numTasks averageTimeMs
  HeuristicResult.new heuristic.heuristicConfData severity (Utils.getHeuristicScore severity numTasks)
    |>.addResultDetail "Number of tasks" (toString numTasks)
    |>.addResultDetail "Average task input size" (formats.byteCountToDisplaySize averageSize)
    |>.addResultDetail "Average task runtime" (Statistics.readableTimespan averageTimeMs)
    |>.addResultDetail "Max task runtime" (Statistics.readableTimespan taskMaxMs)
    |>.addResultDetail "Min task runtime" (Statistics.readableTimespan taskMinMs)

def apply (data : MapReduceApplicationData) : Except JavaException (Option HeuristicResult) :=
  if !data.succeeded then .ok none
  else do
    let (numTasks, metrics) ← data.sampledMetrics .mapper read
    pure (some (report heuristic formats numTasks metrics))

/-- The sums behind the averages are exact. -/
structure ExactSums (metrics : List MapperTimeMetrics) : Prop where
  inputBytes : Statistics.Exact (metrics.map MapperTimeMetrics.inputBytes)
  runtimes : Statistics.Exact (metrics.map MapperTimeMetrics.taskTime)

theorem report_perm {metrics metrics' : List MapperTimeMetrics} (h : metrics.Perm metrics')
    (hexact : ExactSums metrics) (numTasks : Nat) :
    report heuristic formats numTasks metrics = report heuristic formats numTasks metrics' := by
  simp only [report, Statistics.average_perm (h.map _) hexact.inputBytes,
    Statistics.average_perm (h.map _) hexact.runtimes,
    Statistics.minimum_perm (h.map MapperTimeMetrics.taskTime),
    Statistics.maximum_perm (h.map MapperTimeMetrics.taskTime)]

end MapperTimeHeuristic

namespace ReducerTimeHeuristic

variable (heuristic : TaskTimeHeuristic)

def read (task : MapReduceTaskData) : Except JavaException Int := pure task.totalTimeMs

/-- What is reported of the run times of the sampled tasks. -/
def report (numTasks : Nat) (runTimesMs : List Int) : HeuristicResult :=
  let taskMinMs := Statistics.minimum runTimesMs
  let taskMaxMs := Statistics.maximum runTimesMs
  let averageRuntimeMs := Statistics.average runTimesMs
  let severity := heuristic.severity numTasks averageRuntimeMs
  HeuristicResult.new heuristic.heuristicConfData severity (Utils.getHeuristicScore severity numTasks)
    |>.addResultDetail "Number of tasks" (toString numTasks)
    |>.addResultDetail "Average task runtime" (Statistics.readableTimespan averageRuntimeMs)
    |>.addResultDetail "Max task runtime" (Statistics.readableTimespan taskMaxMs)
    |>.addResultDetail "Min task runtime" (Statistics.readableTimespan taskMinMs)

def apply (data : MapReduceApplicationData) : Except JavaException (Option HeuristicResult) :=
  if !data.succeeded then .ok none
  else do
    let (numTasks, runTimesMs) ← data.sampledMetrics .reducer read
    pure (some (report heuristic numTasks runTimesMs))

theorem report_perm {runTimesMs runTimesMs' : List Int} (h : runTimesMs.Perm runTimesMs')
    (hexact : Statistics.Exact runTimesMs) (numTasks : Nat) :
    report heuristic numTasks runTimesMs = report heuristic numTasks runTimesMs' := by
  simp only [report, Statistics.average_perm h hexact, Statistics.minimum_perm h,
    Statistics.maximum_perm h]

end ReducerTimeHeuristic

end drelephant.mapreduce
