import DrElephant.Analysis.HeuristicResult
import DrElephant.MapReduce.MapReduceData
import DrElephant.Math.Statistics
import DrElephant.Util.Utils

open drelephant.analysis drelephant.math drelephant.util ieee java.lang machine

namespace drelephant.mapreduce

/-- Looks for tasks with much more input than the others. -/
structure GenericDataSkewHeuristic where
  counterName : CounterName
  tasks : TaskArray
  heuristicConfData : HeuristicConfigurationData
  numTasksLimits : Severity.Limits
  deviationLimits : Severity.Limits
  filesLimits : Severity.Limits

def MapperDataSkewHeuristic (heuristicConfData : HeuristicConfigurationData)
    (numTasksLimits deviationLimits filesLimits : Severity.Limits) : GenericDataSkewHeuristic where
  counterName := .HDFS_BYTES_READ
  tasks := .mapper
  heuristicConfData := heuristicConfData
  numTasksLimits := numTasksLimits
  deviationLimits := deviationLimits
  filesLimits := filesLimits

def ReducerDataSkewHeuristic (heuristicConfData : HeuristicConfigurationData)
    (numTasksLimits deviationLimits filesLimits : Severity.Limits) : GenericDataSkewHeuristic where
  counterName := .REDUCE_SHUFFLE_BYTES
  tasks := .reducer
  heuristicConfData := heuristicConfData
  numTasksLimits := numTasksLimits
  deviationLimits := deviationLimits
  filesLimits := filesLimits

namespace GenericDataSkewHeuristic

variable (heuristic : GenericDataSkewHeuristic) (formats : NumberFormats)

def getDeviationSeverity (averageMin averageDiff : Int) : Severity :=
  let averageMin := if averageMin ≤ 0 then 1 else averageMin
  let value := averageDiff.tdiv averageMin
  Severity.getSeverityAscending (.ofInt value) heuristic.deviationLimits

def getFilesSeverity (value : Int) : Severity :=
  Severity.getSeverityAscending (.ofInt value) heuristic.filesLimits

def read (task : MapReduceTaskData) : Except JavaException Int := task.counter heuristic.counterName

/-- What is reported of the input bytes of the sampled tasks. The ratio of all
tasks to the sampled ones is computed there too, but nothing uses it. -/
def report (numTasks : Nat) (inputBytes : List Int) : HeuristicResult :=
  let groups := Statistics.findTwoGroups inputBytes
  let avg1 := Statistics.average groups.1
  let avg2 := Statistics.average groups.2
  let min := Min.min avg1 avg2
  let diff := wrap64 |wrap64 (avg2 - avg1)|
  let severity := heuristic.getDeviationSeverity min diff
  -- This reduces severity if the largest file sizes are insignificant
  let severity := Severity.min severity (heuristic.getFilesSeverity avg2)
  -- This reduces severity if number of tasks is insignificant
  let severity := Severity.min severity
    (Severity.getSeverityAscending (.ofInt groups.1.length) heuristic.numTasksLimits)
  HeuristicResult.new heuristic.heuristicConfData severity (Utils.getHeuristicScore severity numTasks)
    |>.addResultDetail "Number of tasks" (toString numTasks)
    |>.addResultDetail "Group A"
      (toString groups.1.length ++ " tasks @ " ++ formats.byteCountToDisplaySize avg1 ++ " avg")
    |>.addResultDetail "Group B"
      (toString groups.2.length ++ " tasks @ " ++ formats.byteCountToDisplaySize avg2 ++ " avg")

def apply (data : MapReduceApplicationData) : Except JavaException (Option HeuristicResult) :=
  if !data.succeeded then .ok none
  else do
    let (numTasks, inputBytes) ← data.sampledMetrics heuristic.tasks heuristic.read
    pure (some (heuristic.report formats numTasks inputBytes))

theorem report_perm {inputBytes inputBytes' : List Int} (h : inputBytes.Perm inputBytes')
    (hexact : Statistics.Exact inputBytes) (numTasks : Nat) :
    heuristic.report formats numTasks inputBytes = heuristic.report formats numTasks inputBytes' := by
  obtain ⟨hgroup1, hgroup2⟩ := Statistics.findTwoGroups_perm h hexact
  obtain ⟨hexact1, hexact2⟩ := Statistics.findTwoGroups_exact hexact
  simp only [report, Statistics.average_perm hgroup1 hexact1,
    Statistics.average_perm hgroup2 hexact2, hgroup1.length_eq, hgroup2.length_eq]

end GenericDataSkewHeuristic

end drelephant.mapreduce
