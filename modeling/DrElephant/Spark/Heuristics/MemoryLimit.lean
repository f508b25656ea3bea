import DrElephant.Spark.SparkApplicationData
import DrElephant.Util.MemoryFormatUtils

open drelephant.analysis drelephant.util ieee java.lang machine

namespace drelephant.spark

def SPARK_EXECUTOR_MEMORY : String := "spark.executor.memory"
def SPARK_DRIVER_MEMORY : String := "spark.driver.memory"
def SPARK_EXECUTOR_INSTANCES : String := "spark.executor.instances"
def SPARK_STORAGE_MEMORY_FRACTION : String := "spark.storage.memoryFraction"

/-- `String.valueOf(DEFAULT_SPARK_STORAGE_MEMORY_FRACTION)` -/
def DEFAULT_SPARK_STORAGE_MEMORY_FRACTION : String := "0.6"

/-- This heuristic checks for memory consumption. -/
structure MemoryLimitHeuristic where
  heuristicConfData : HeuristicConfigurationData
  memUtilLimits : Severity.Limits
  totalMemLimits : Severity.Limits

/-- `Integer.parseInt` of a property. -/
def parseProperty (platform : Platform) (value : String) : Except JavaException Int :=
  (parseInt platform.digit value).elim (.error .numberFormat) .ok

namespace MemoryLimitHeuristic

variable (heuristic : MemoryLimitHeuristic) (platform : Platform)

/-- Get the storage memory fraction ratio used for storage. -/
def getStorageMemoryFraction (data : SparkEnvironmentData) : Except JavaException Binary64 :=
  let ratio := (data.getSparkProperty SPARK_STORAGE_MEMORY_FRACTION).getD
    ((platform.sparkConf SPARK_STORAGE_MEMORY_FRACTION).getD DEFAULT_SPARK_STORAGE_MEMORY_FRACTION)
  (Double.parseDouble ratio).elim (.error .numberFormat) .ok

/-- Get the total driver memory. -/
def getTotalDriverMem (data : SparkApplicationData) : Except JavaException Int := do
  let bytes ← MemoryFormatUtils.stringToBytes platform.formats
    (data.environmentData.getSparkProperty SPARK_DRIVER_MEMORY)
  -- spark.driver.memory might not be present, in which case we would infer it from the executor data
  if bytes = 0 then
    match data.executorData.getExecutorInfo EXECUTOR_DRIVER_NAME with
    | none => pure 0
    | some info =>
      -- This maximum memory only counts in memory for storage
      let fraction ← getStorageMemoryFraction platform data.environmentData
      pure ((Binary64.ofInt info.maxMem).div fraction).toLong
  else pure bytes

/-- A memory size summed up over the executors. -/
def sumOverExecutors (data : SparkApplicationData) (size : ExecutorInfo → Int) :
    Except JavaException Int := do
  let infos ← data.executorData.getExecutors.mapM fun id => dereference (data.executorData.getExecutorInfo id)
  pure (sum64 (infos.map size))

/-- Get the peak storage memory used during all running time of the spark application. -/
def getStoragePeakMemory (data : SparkApplicationData) : Except JavaException Int :=
  sumOverExecutors data ExecutorInfo.memUsed

/-- Get the total memory allocated for storage. -/
def getTotalStorageMem (data : SparkApplicationData) : Except JavaException Int :=
  sumOverExecutors data ExecutorInfo.maxMem

def getTotalMemorySeverity (memory : Int) : Severity :=
  Severity.getSeverityAscending (.ofInt memory) heuristic.totalMemLimits

/-- The share of the storage memory that was used at peak. -/
def utilization (peakMemory totalStorageMemory : Int) : Binary64 :=
  ((Binary64.ofInt peakMemory).mul (.ofInt 1)).div (.ofInt totalStorageMemory)

def getMemoryUtilizationSeverity (peakMemory totalStorageMemory : Int) : Except JavaException Severity := do
  let limit ← MemoryFormatUtils.stringToBytes platform.formats (some "500 GB")
  if totalStorageMemory < limit then pure .NONE
  else pure (Severity.getSeverityDescending (utilization peakMemory totalStorageMemory) heuristic.memUtilLimits)

def report (severity : Severity) (totalExecutorMem totalDriverMem totalStorageMem peakMem rate : String) :
    HeuristicResult :=
  HeuristicResult.new heuristic.heuristicConfData severity 0
    |>.addResultDetail "Total executor memory allocated" totalExecutorMem
    |>.addResultDetail "Total driver memory allocated" totalDriverMem
    |>.addResultDetail "Total memory allocated for storage" totalStorageMem
    |>.addResultDetail "Total memory used at peak" peakMem
    |>.addResultDetail "Memory utilization rate" rate

def apply (data : SparkApplicationData) : Except JavaException (Option HeuristicResult) := do
  let env := data.environmentData
  let executorNum ← parseProperty platform (env.getSparkPropertyOrDefault SPARK_EXECUTOR_INSTANCES "0")
  let perExecutorMem ← MemoryFormatUtils.stringToBytes platform.formats
    (some (env.getSparkPropertyOrDefault SPARK_EXECUTOR_MEMORY "0"))
  let totalExecutorMem := wrap64 (executorNum * perExecutorMem)
  let totalStorageMem ← getTotalStorageMem data
  let totalDriverMem ← getTotalDriverMem platform data
  let peakMem ← getStoragePeakMemory data
  let memoryUtilizationSeverity ← heuristic.getMemoryUtilizationSeverity platform peakMem totalStorageMem
  let severity := Severity.max (heuristic.getTotalMemorySeverity totalExecutorMem) memoryUtilizationSeverity
  let totalExecutorText ← MemoryFormatUtils.bytesToString totalExecutorMem
  let perExecutorText ← MemoryFormatUtils.bytesToString perExecutorMem
  let totalDriverText ← MemoryFormatUtils.bytesToString totalDriverMem
  let totalStorageText ← MemoryFormatUtils.bytesToString totalStorageMem
  let peakText ← MemoryFormatUtils.bytesToString peakMem
  pure (some (heuristic.report severity
    (totalExecutorText ++ " (" ++ perExecutorText ++ " x " ++ toString executorNum ++ ")") totalDriverText
    totalStorageText peakText (platform.threeDecimals (utilization peakMem totalStorageMem))))

end MemoryLimitHeuristic

end drelephant.spark
