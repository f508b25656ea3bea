import DrElephant.Spark.Heuristics.ExecutorLoad
import DrElephant.Spark.Heuristics.MemoryLimit
import DrElephant.Spark.Heuristics.StageRuntime

open drelephant.analysis drelephant.util ieee java.lang

namespace drelephant.spark

section BestPropertiesConvention

def SPARK_SERIALIZER : String := "spark.serializer"
def SPARK_SHUFFLE_MANAGER : String := "spark.shuffle.manager"
def SPARK_EXECUTOR_CORES : String := "spark.executor.cores"

/-- This heuristic rule check some of the most commonly set spark properties and
make sure the user is following a best convention of them. -/
structure BestPropertiesConventionHeuristic where
  heuristicConfData : HeuristicConfigurationData
  numCoreLimit : Binary64
  driverMemLimits : Severity.Limits

namespace BestPropertiesConventionHeuristic

variable (heuristic : BestPropertiesConventionHeuristic) (platform : Platform)

def getCoreNumSeverity (cores : Int) : Severity :=
  if heuristic.numCoreLimit.lt (.ofInt cores) then .CRITICAL else .NONE

def getDriverMemorySeverity (mem : Int) : Severity :=
  Severity.getSeverityAscending (.ofInt mem) heuristic.driverMemLimits

def binarySeverity (expectedValue : String) (actualValue : Option String) (ignoreNull : Bool)
    (severity : Severity) : Severity :=
  match actualValue with
  | none => if ignoreNull then .NONE else severity
  | some actualValue => if actualValue = expectedValue then .NONE else severity

def propertyToString (val : Option String) : String := val.getD "Not presented. Using default"

def report (severity : Severity)
    (sparkSerializer sparkDriverMemory sparkShuffleManager sparkExecutorCores : Option String) :
    HeuristicResult :=
  HeuristicResult.new heuristic.heuristicConfData severity 0
    |>.addResultDetail SPARK_SERIALIZER (propertyToString sparkSerializer)
    |>.addResultDetail SPARK_DRIVER_MEMORY (propertyToString sparkDriverMemory)
    |>.addResultDetail SPARK_SHUFFLE_MANAGER (propertyToString sparkShuffleManager)
    |>.addResultDetail SPARK_EXECUTOR_CORES (propertyToString sparkExecutorCores)

def apply (data : SparkApplicationData) : Except JavaException (Option HeuristicResult) := do
  let env := data.environmentData
  let sparkSerializer := env.getSparkProperty SPARK_SERIALIZER
  let sparkDriverMemory := env.getSparkProperty SPARK_DRIVER_MEMORY
  let sparkShuffleManager := env.getSparkProperty SPARK_SHUFFLE_MANAGER
  let sparkExecutorCores := env.getSparkProperty SPARK_EXECUTOR_CORES
  let coreNum ← sparkExecutorCores.elim (.ok 1) (parseProperty platform)
  let driverMem ← MemoryFormatUtils.stringToBytes platform.formats sparkDriverMemory
  let severity := Severity.maxAll
    [binarySeverity "org.apache.spark.serializer.KryoSerializer" sparkSerializer true .MODERATE,
      heuristic.getDriverMemorySeverity driverMem,
      binarySeverity "sort" sparkShuffleManager true .MODERATE,
      heuristic.getCoreNumSeverity coreNum]
  pure (some (heuristic.report severity sparkSerializer sparkDriverMemory sparkShuffleManager
    sparkExecutorCores))

end BestPropertiesConventionHeuristic

end BestPropertiesConvention

/-- This is a safeguard heuristic rule that makes sure if a log size passes the
limit, we do not automatically approve it. -/
def EventLogLimitHeuristic.apply (heuristicConfData : HeuristicConfigurationData)
    (data : SparkApplicationData) : Except JavaException (Option HeuristicResult) :=
  if data.isThrottled then
    .ok (some ((HeuristicResult.new heuristicConfData .CRITICAL 0).addResultDetail "Large Log File"
      ("Spark job's event log passes the limit. No actual log data is fetched." ++
        " All other heuristic rules will not make sense.")))
  else .ok (some (HeuristicResult.new heuristicConfData .NONE 0))

/-- The heuristics that HeuristicConf.xml configures for spark, each with the
thresholds it has loaded. -/
inductive SparkHeuristic
  | bestPropertiesConvention (heuristic : BestPropertiesConventionHeuristic)
  | memoryLimit (heuristic : MemoryLimitHeuristic)
  | stageRuntime (heuristic : StageRuntimeHeuristic)
  | jobRuntime (heuristic : JobRuntimeHeuristic)
  | executorLoad (heuristic : ExecutorLoadHeuristic)
  | eventLogLimit (heuristicConfData : HeuristicConfigurationData)

def SparkHeuristic.apply (platform : Platform) : SparkHeuristic → Heuristic SparkApplicationData
  | bestPropertiesConvention heuristic => heuristic.apply platform
  | memoryLimit heuristic => heuristic.apply platform
  | stageRuntime heuristic => heuristic.apply platform
  | jobRuntime heuristic => heuristic.apply platform
  | executorLoad heuristic => heuristic.apply platform
  | eventLogLimit conf => EventLogLimitHeuristic.apply conf

end drelephant.spark
