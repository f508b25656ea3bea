import DrElephant.Math.Statistics
import DrElephant.Spark.SparkApplicationData
import DrElephant.Util.MemoryFormatUtils

open drelephant.analysis drelephant.math drelephant.util ieee java.lang machine

namespace drelephant.spark

/-- The values of one metric over the executors, with their extremes so far. -/
structure ValueObserver where
  values : List Int
  min : Option Int := none
  max : Option Int := none

namespace ValueObserver

/-- An observer of a fixed number of values, all 0 until they are set. -/
def new (size : Nat) : ValueObserver where
  values := List.replicate size 0

def set (observer : ValueObserver) (index : Nat) (value : Int) : Except JavaException ValueObserver :=
  if index < observer.values.length then
    .ok { values := observer.values.set index value
          min := some (observer.min.elim value (Min.min value))
          max := some (observer.max.elim value (Max.max value)) }
  else .error .indexOutOfBounds

def getMin (observer : ValueObserver) : Int := observer.min.getD 0

def getMax (observer : ValueObserver) : Int := observer.max.getD 0

def getAvg (observer : ValueObserver) : Int := Statistics.average observer.values

/-- Max(|max-avg|, |min-avg|) / avg -/
def getDeviationFactor (observer : ValueObserver) : Binary64 :=
  let avg := observer.getAvg
  if avg = 0 then .ofInt 0
  else
    let diff := Max.max (wrap64 (observer.getMax - avg)) (wrap64 (avg - observer.getMin))
    ((Binary64.ofInt diff).mul (.ofInt 1)).div (.ofInt avg)

/-- The average of the values and their extremes in brackets. -/
def describe (observer : ValueObserver) (format : Int → Except JavaException String) :
    Except JavaException String := do
  let avg ← format observer.getAvg
  let min ← format observer.getMin
  let max ← format observer.getMax
  pure (avg ++ " (" ++ min ++ "~" ++ max ++ ")")

end ValueObserver

/-- What is observed of the executors and how many of them have been visited. -/
structure ExecutorMetrics where
  visited : Nat := 0
  peakMems : ValueObserver
  durations : ValueObserver
  inputBytes : ValueObserver
  outputBytes : ValueObserver

/-- This heuristic rule observes load details of executors. -/
structure ExecutorLoadHeuristic where
  heuristicConfData : HeuristicConfigurationData
  looserMetDevLimits : Severity.Limits
  metDevLimits : Severity.Limits

namespace ExecutorLoadHeuristic

variable (heuristic : ExecutorLoadHeuristic) (platform : Platform)

def MEMORY_OBSERVATION_THRESHOLD : Except JavaException Int :=
  MemoryFormatUtils.stringToBytes platform.formats (some "1 MB")

/-- Some metrics by nature could deviate a bit more than other metrics. -/
def getLooserMetricDeviationSeverity (ob : ValueObserver) : Severity :=
  Severity.getSeverityAscending ob.getDeviationFactor heuristic.looserMetDevLimits

def getMetricDeviationSeverity (ob : ValueObserver) : Severity :=
  Severity.getSeverityAscending ob.getDeviationFactor heuristic.metDevLimits

/-- Observes one executor unless it is the driver. -/
def observe (threshold : Int) (executorData : SparkExecutorData) (metrics : ExecutorMetrics)
    (exeId : String) : Except JavaException ExecutorMetrics :=
  if exeId = EXECUTOR_DRIVER_NAME then .ok metrics
  else do
    let info ← dereference (executorData.getExecutorInfo exeId)
    -- The deviation of memory usage in KB level is too fluctuating to track.
    let peakMems ← metrics.peakMems.set metrics.visited (if info.memUsed < threshold then 0 else info.memUsed)
    let durations ← metrics.durations.set metrics.visited info.duration
    let inputBytes ← metrics.inputBytes.set metrics.visited info.inputBytes
    let outputBytes ← metrics.outputBytes.set metrics.visited info.outputBytes
    pure { visited := metrics.visited + 1, peakMems, durations, inputBytes, outputBytes }

def observeAll (threshold : Int) (executorData : SparkExecutorData) : Except JavaException ExecutorMetrics :=
  let executors := executorData.getExecutors
  let numNonDriverExe :=
    if EXECUTOR_DRIVER_NAME ∈ executors then executors.length - 1 else executors.length
  let observer := ValueObserver.new numNonDriverExe
  executors.foldlM (observe threshold executorData)
    { peakMems := observer, durations := observer, inputBytes := observer, outputBytes := observer }

def severity (metrics : ExecutorMetrics) : Severity :=
  Severity.maxAll
    [heuristic.getLooserMetricDeviationSeverity metrics.peakMems,
      heuristic.getMetricDeviationSeverity metrics.durations,
      heuristic.getMetricDeviationSeverity metrics.inputBytes,
      heuristic.getLooserMetricDeviationSeverity metrics.outputBytes]

def report (severity : Severity) (peakMems runtimes inputBytes outputBytes : String) : HeuristicResult :=
  HeuristicResult.new heuristic.heuristicConfData severity 0
    |>.addResultDetail "Average peak storage memory" peakMems
    |>.addResultDetail "Average runtime" runtimes
    |>.addResultDetail "Average input size" inputBytes
    |>.addResultDetail "Average output size" outputBytes

def apply (data : SparkApplicationData) : Except JavaException (Option HeuristicResult) := do
  let threshold ← MEMORY_OBSERVATION_THRESHOLD platform
  let metrics ← observeAll threshold data.executorData
  let peakMems ← metrics.peakMems.describe MemoryFormatUtils.bytesToString
  let runtimes ← metrics.durations.describe fun duration => pure (Statistics.readableTimespan duration)
  let inputBytes ← metrics.inputBytes.describe MemoryFormatUtils.bytesToString
  let outputBytes ← metrics.outputBytes.describe MemoryFormatUtils.bytesToString
  pure (some (heuristic.report (heuristic.severity metrics) peakMems runtimes inputBytes outputBytes))

end ExecutorLoadHeuristic

end drelephant.spark
