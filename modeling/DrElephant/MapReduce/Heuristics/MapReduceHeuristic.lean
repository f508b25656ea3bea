import DrElephant.MapReduce.Heuristics.GenericDataSkew
import DrElephant.MapReduce.Heuristics.GenericGC
import DrElephant.MapReduce.Heuristics.GenericMemory
import DrElephant.MapReduce.Heuristics.MapperSpeed
import DrElephant.MapReduce.Heuristics.MapperSpill
import DrElephant.MapReduce.Heuristics.ShuffleSort
import DrElephant.MapReduce.Heuristics.TaskTime

open drelephant.analysis drelephant.math java.lang

namespace drelephant.mapreduce

/-- Reports the stack trace of a failed job. -/
def ExceptionHeuristic.apply (heuristicConfData : HeuristicConfigurationData)
    (data : MapReduceApplicationData) : Except JavaException (Option HeuristicResult) :=
  if data.succeeded then .ok none
  else
    let result := HeuristicResult.new heuristicConfData .MODERATE 0
    match data.diagnosticInfo with
    | some diagnosticInfo => .ok (some (result.addResultDetail "Error" "Stacktrace" diagnosticInfo))
    | none =>
      let msg := "Unable to find stacktrace info. Please find the real problem in the Jobhistory link above." ++
        "Exception can happen either in task log or Application Master log."
      .ok (some (result.addResultDetail "Error" msg))

/-- The heuristics that HeuristicConf.xml configures for mapreduce, each with
the thresholds it has loaded. -/
inductive MapReduceHeuristic
  | mapperDataSkew (heuristicConfData : HeuristicConfigurationData)
      (numTasksLimits deviationLimits filesLimits : Severity.Limits)
  | mapperGC (heuristicConfData : HeuristicConfigurationData)
      (gcRatioLimits runtimeLimits : Severity.Limits)
  | mapperTime (heuristic : TaskTimeHeuristic)
  | mapperSpeed (heuristic : MapperSpeedHeuristic)
  | mapperSpill (heuristic : MapperSpillHeuristic)
  | mapperMemory (heuristicConfData : HeuristicConfigurationData)
      (memRatioLimits memoryLimits : Severity.Limits)
  | reducerDataSkew (heuristicConfData : HeuristicConfigurationData)
      (numTasksLimits deviationLimits filesLimits : Severity.Limits)
  | reducerGC (heuristicConfData : HeuristicConfigurationData)
      (gcRatioLimits runtimeLimits : Severity.Limits)
  | reducerTime (heuristic : TaskTimeHeuristic)
  | reducerMemory (heuristicConfData : HeuristicConfigurationData)
      (memRatioLimits memoryLimits : Severity.Limits)
  | shuffleSort (heuristic : ShuffleSortHeuristic)
  | exception (heuristicConfData : HeuristicConfigurationData)

namespace MapReduceHeuristic

variable (formats : NumberFormats) (digit : Char → Option Nat)

def apply : MapReduceHeuristic → Heuristic MapReduceApplicationData
  | mapperDataSkew conf numTasksLimits deviationLimits filesLimits =>
    (MapperDataSkewHeuristic conf numTasksLimits deviationLimits filesLimits).apply formats
  | mapperGC conf gcRatioLimits runtimeLimits =>
    (MapperGCHeuristic conf gcRatioLimits runtimeLimits).apply formats
  | mapperTime heuristic => MapperTimeHeuristic.apply heuristic formats
  | mapperSpeed heuristic => heuristic.apply formats
  | mapperSpill heuristic => heuristic.apply formats
  | mapperMemory conf memRatioLimits memoryLimits =>
    (MapperMemoryHeuristic conf memRatioLimits memoryLimits).apply formats digit
  | reducerDataSkew conf numTasksLimits deviationLimits filesLimits =>
    (ReducerDataSkewHeuristic conf numTasksLimits deviationLimits filesLimits).apply formats
  | reducerGC conf gcRatioLimits runtimeLimits =>
    (ReducerGCHeuristic conf gcRatioLimits runtimeLimits).apply formats
  | reducerTime heuristic => ReducerTimeHeuristic.apply heuristic
  | reducerMemory conf memRatioLimits memoryLimits =>
    (ReducerMemoryHeuristic conf memRatioLimits memoryLimits).apply formats digit
  | shuffleSort heuristic => heuristic.apply formats
  | exception conf => ExceptionHeuristic.apply conf

end MapReduceHeuristic

end drelephant.mapreduce
