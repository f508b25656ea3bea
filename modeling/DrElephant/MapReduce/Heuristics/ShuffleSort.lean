import DrElephant.Analysis.HeuristicResult
import DrElephant.MapReduce.MapReduceData
import DrElephant.Math.Statistics
import DrElephant.Util.Utils

open drelephant.analysis drelephant.math drelephant.util ieee java.lang machine

namespace drelephant.mapreduce

/-- Looks for reducers that shuffle and sort for long. -/
structure ShuffleSortHeuristic where
  heuristicConfData : HeuristicConfigurationData
  runtimeRatioLimits : Severity.Limits
  runtimeLimits : Severity.Limits

/-- What is read of a sampled task. -/
structure ShuffleSortMetrics where
  execTimeMs : Int
  shuffleTimeMs : Int
  sortTimeMs : Int

namespace ShuffleSortHeuristic

variable (heuristic : ShuffleSortHeuristic) (formats : NumberFormats)

def getShuffleSortSeverity (runtimeMs codetimeMs : Int) : Severity :=
  let runtimeSeverity :=
    Severity.getSeverityAscending (.ofInt runtimeMs) heuristic.runtimeLimits
  if codetimeMs ≤ 0 then runtimeSeverity
  else
    let value := (wrap64 (runtimeMs * 2)).tdiv codetimeMs
    let runtimeRatioSeverity :=
      Severity.getSeverityAscending (.ofInt value) heuristic.runtimeRatioLimits
    Severity.min runtimeSeverity runtimeRatioSeverity

def read (task : MapReduceTaskData) : Except JavaException ShuffleSortMetrics :=
  pure { execTimeMs := task.getCodeExecutionTimeMs
         shuffleTimeMs := task.shuffleTimeMs
         sortTimeMs := task.sortTimeMs }

/-- What is reported of the sampled tasks. -/
def report (numTasks : Nat) (metrics : List ShuffleSortMetrics) : HeuristicResult :=
  let avgExecTimeMs := Statistics.average (metrics.map ShuffleSortMetrics.execTimeMs)
  let avgShuffleTimeMs := Statistics.average (metrics.map ShuffleSortMetrics.shuffleTimeMs)
  let avgSortTimeMs := Statistics.average (metrics.map ShuffleSortMetrics.sortTimeMs)
  let shuffleSeverity := heuristic.getShuffleSortSeverity avgShuffleTimeMs avgExecTimeMs
  let sortSeverity := heuristic.getShuffleSortSeverity avgSortTimeMs avgExecTimeMs
  let severity := Severity.max shuffleSeverity sortSeverity
  let shuffleFactor := Statistics.describeFactor formats avgShuffleTimeMs avgExecTimeMs "x"
  let sortFactor := Statistics.describeFactor formats avgSortTimeMs avgExecTimeMs "x"
  HeuristicResult.new heuristic.heuristicConfData severity (Utils.getHeuristicScore severity numTasks)
    |>.addResultDetail "Number of tasks" (toString numTasks)
    |>.addResultDetail "Average code runtime" (Statistics.readableTimespan avgExecTimeMs)
    |>.addResultDetail "Average shuffle time"
      (Statistics.readableTimespan avgShuffleTimeMs ++ " " ++ shuffleFactor)
    |>.addResultDetail "Average sort time"
      (Statistics.readableTimespan avgSortTimeMs ++ " " ++ sortFactor)

def apply (data : MapReduceApplicationData) : Except JavaException (Option HeuristicResult) :=
  if !data.succeeded then .ok none
  else do
    let (numTasks, metrics) ← data.sampledMetrics .reducer read
    pure (some (heuristic.report formats numTasks metrics))

/-- The sums behind the averages are exact. -/
structure ExactSums (metrics : List ShuffleSortMetrics) : Prop where
  exec : Statistics.Exact (metrics.map ShuffleSortMetrics.execTimeMs)
  shuffle : Statistics.Exact (metrics.map ShuffleSortMetrics.shuffleTimeMs)
  sort : Statistics.Exact (metrics.map ShuffleSortMetrics.sortTimeMs)

theorem report_perm {metrics metrics' : List ShuffleSortMetrics} (h : metrics.Perm metrics')
    (hexact : ExactSums metrics) (numTasks : Nat) :
    heuristic.report formats numTasks metrics = heuristic.report formats numTasks metrics' := by
  simp only [report, Statistics.average_perm (h.map _) hexact.exec,
    Statistics.average_perm (h.map _) hexact.shuffle,
    Statistics.average_perm (h.map _) hexact.sort]

end ShuffleSortHeuristic

end drelephant.mapreduce
