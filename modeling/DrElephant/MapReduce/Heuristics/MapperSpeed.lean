import DrElephant.Analysis.HeuristicResult
import DrElephant.MapReduce.MapReduceData
import DrElephant.Math.Statistics
import DrElephant.Util.Utils

open drelephant.analysis drelephant.math drelephant.util ieee java.lang machine

namespace drelephant.mapreduce

/-- Looks for mappers that read their input slowly. -/
structure MapperSpeedHeuristic where
  heuristicConfData : HeuristicConfigurationData
  diskSpeedLimits : Severity.Limits
  runtimeLimits : Severity.Limits

/-- What is read of a sampled task. -/
structure SpeedMetrics where
  inputBytes : Int
  runtimeMs : Int
  speed : Int

/-- The medians that are judged. -/
structure SpeedMedians where
  speed : Int := 0
  size : Int := 0
  runtimeMs : Int := 0

namespace MapperSpeedHeuristic

variable (heuristic : MapperSpeedHeuristic) (formats : NumberFormats)

def getDiskSpeedSeverity (speed : Int) : Severity :=
  Severity.getSeverityDescending (.ofInt speed) heuristic.diskSpeedLimits

def getRuntimeSeverity (runtimeMs : Int) : Severity :=
  Severity.getSeverityAscending (.ofInt runtimeMs) heuristic.runtimeLimits

/-- Speed is bytes per second. -/
def read (task : MapReduceTaskData) : Except JavaException SpeedMetrics := do
  let inputBytes ← task.counter .HDFS_BYTES_READ
  let runtimeMs := task.totalTimeMs
  let speed ← divideLong (wrap64 (1000 * inputBytes)) runtimeMs
  pure { inputBytes, runtimeMs, speed }

/-- The medians over the sampled tasks, zeros for a job without mappers. -/
def medians (numTasks : Nat) (metrics : List SpeedMetrics) : Except JavaException SpeedMedians :=
  if numTasks ≠ 0 then do
    let speed ← Statistics.median (metrics.map SpeedMetrics.speed)
    let size ← Statistics.median (metrics.map SpeedMetrics.inputBytes)
    let runtimeMs ← Statistics.median (metrics.map SpeedMetrics.runtimeMs)
    pure { speed, size, runtimeMs }
  else pure {}

/-- What is reported of the medians. -/
def report (numTasks : Nat) (medians : SpeedMedians) : HeuristicResult :=
  let severity := heuristic.getDiskSpeedSeverity medians.speed
  -- This reduces severity if task runtime is insignificant
  let severity := Severity.min severity (heuristic.getRuntimeSeverity medians.runtimeMs)
  HeuristicResult.new heuristic.heuristicConfData severity (Utils.getHeuristicScore severity numTasks)
    |>.addResultDetail "Number of tasks" (toString numTasks)
    |>.addResultDetail "Median task input size" (formats.byteCountToDisplaySize medians.size)
    |>.addResultDetail "Median task runtime" (Statistics.readableTimespan medians.runtimeMs)
    |>.addResultDetail "Median task speed" (formats.byteCountToDisplaySize medians.speed ++ "/s")

def apply (data : MapReduceApplicationData) : Except JavaException (Option HeuristicResult) :=
  if !data.succeeded then .ok none
  else do
    let (numTasks, metrics) ← data.sampledMetrics .mapper read
    let medians ← medians numTasks metrics
    pure (some (heuristic.report formats numTasks medians))

theorem medians_perm {metrics metrics' : List SpeedMetrics} (h : metrics.Perm metrics')
    (numTasks : Nat) : medians numTasks metrics = medians numTasks metrics' := by
  simp only [medians, Statistics.median_perm (h.map SpeedMetrics.speed),
    Statistics.median_perm (h.map SpeedMetrics.inputBytes),
    Statistics.median_perm (h.map SpeedMetrics.runtimeMs)]

end MapperSpeedHeuristic

end drelephant.mapreduce
