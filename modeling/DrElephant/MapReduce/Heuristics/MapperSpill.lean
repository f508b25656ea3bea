import DrElephant.Analysis.HeuristicResult
import DrElephant.MapReduce.MapReduceData
import DrElephant.Math.Statistics
import DrElephant.Util.Utils

open drelephant.analysis drelephant.math drelephant.util ieee java.lang machine

namespace drelephant.mapreduce

def THRESHOLD_SPILL_FACTOR : Int := 10000

/-- Looks for mappers that spill their records more than once. -/
structure MapperSpillHeuristic where
  heuristicConfData : HeuristicConfigurationData
  numTasksLimits : Severity.Limits
  spillLimits : Severity.Limits

/-- What is read of a sampled task. -/
structure SpillMetrics where
  spills : Int
  outputRecords : Int

namespace MapperSpillHeuristic

variable (heuristic : MapperSpillHeuristic) (formats : NumberFormats)

def getSpillSeverity (ratioSpills : Binary64) : Severity :=
  -- Normalize the ratio to integer.
  let normalizedSpillRatio := (ratioSpills.mul (.ofInt THRESHOLD_SPILL_FACTOR)).toLong
  Severity.getSeverityAscending (.ofInt normalizedSpillRatio) heuristic.spillLimits

def getNumTasksSeverity (numTasks : Int) : Severity :=
  Severity.getSeverityAscending (.ofInt numTasks) heuristic.numTasksLimits

def read (task : MapReduceTaskData) : Except JavaException SpillMetrics := do
  let spills ← task.counter .SPILLED_RECORDS
  let outputRecords ← task.counter .MAP_OUTPUT_RECORDS
  pure { spills, outputRecords }

/-- If both totals are zero then the ratio is zero. -/
def ratioSpills (totalSpills totalOutputRecords : Int) : Binary64 :=
  if totalSpills = 0 then .ofInt 0
  else (Binary64.ofInt totalSpills).div (.ofInt totalOutputRecords)

/-- What is reported of the sampled tasks. -/
def report (numTasks : Nat) (metrics : List SpillMetrics) : HeuristicResult :=
  let totalSpills := sum64 (metrics.map SpillMetrics.spills)
  let totalOutputRecords := sum64 (metrics.map SpillMetrics.outputRecords)
  let ratioSpills := ratioSpills totalSpills totalOutputRecords
  let severity := heuristic.getSpillSeverity ratioSpills
  -- Severity is reduced if number of tasks is small
  let taskSeverity := heuristic.getNumTasksSeverity numTasks
  let severity := Severity.min severity taskSeverity
  HeuristicResult.new heuristic.heuristicConfData severity (Utils.getHeuristicScore severity numTasks)
    |>.addResultDetail "Number of tasks" (toString numTasks)
    |>.addResultDetail "Avg spilled records per task"
      (if numTasks = 0 then "0" else toString (totalSpills.tdiv numTasks))
    |>.addResultDetail "Avg output records per task"
      (if numTasks = 0 then "0" else toString (totalOutputRecords.tdiv numTasks))
    |>.addResultDetail "Ratio of spilled records to output records"
      (formats.doubleToString ratioSpills)

def apply (data : MapReduceApplicationData) : Except JavaException (Option HeuristicResult) :=
  if !data.succeeded then .ok none
  else do
    let (numTasks, metrics) ← data.sampledMetrics .mapper read
    pure (some (heuristic.report formats numTasks metrics))

theorem report_perm {metrics metrics' : List SpillMetrics} (h : metrics.Perm metrics')
    (numTasks : Nat) :
    heuristic.report formats numTasks metrics = heuristic.report formats numTasks metrics' := by
  simp only [report, sum64_eq, (h.map SpillMetrics.spills).sum_eq,
    (h.map SpillMetrics.outputRecords).sum_eq]

end MapperSpillHeuristic

end drelephant.mapreduce
