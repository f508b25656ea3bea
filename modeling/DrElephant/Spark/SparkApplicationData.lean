import DrElephant.Analysis.ElephantContext
import DrElephant.Library.Binary64
import DrElephant.Library.MachineInt
import DrElephant.Library.OrderedMap
import DrElephant.Math.Statistics

open collections drelephant.analysis ieee java.lang machine

namespace drelephant.spark

/-- What the heuristics use of the JVM and of Spark: the digits of all scripts,
the formats of numbers ("%.3f" and "%1.3f" are the same one) and the
configuration that `new SparkConf()` has loaded. -/
structure Platform where
  formats : drelephant.math.NumberFormats
  digit : Char → Option Nat
  threeDecimals : Binary64 → String
  sparkConf : Properties

/-- A platform without formats and without a configuration. -/
def Platform.plain : Platform := ⟨⟨toString, fun _ => "", fun _ => ""⟩, fun _ => none, fun _ => "", fun _ => none⟩

structure SparkEnvironmentData where
  sparkProperties : Properties

namespace SparkEnvironmentData

def getSparkProperty (data : SparkEnvironmentData) (key : String) : Option String :=
  data.sparkProperties key

def getSparkPropertyOrDefault (data : SparkEnvironmentData) (key defaultValue : String) : String :=
  (data.getSparkProperty key).getD defaultValue

end SparkEnvironmentData

def EXECUTOR_DRIVER_NAME : String := "driver"

structure ExecutorInfo where
  execId : String
  memUsed : Int := 0
  maxMem : Int := 0
  duration : Int := 0
  inputBytes : Int := 0
  outputBytes : Int := 0
  deriving DecidableEq, Repr

structure SparkExecutorData where
  executorInfoMap : OrderedMap String ExecutorInfo := .empty
  order : HashOrder String ExecutorInfo

namespace SparkExecutorData

def getExecutorInfo (data : SparkExecutorData) (executorId : String) : Option ExecutorInfo :=
  data.executorInfoMap.get? executorId

def getExecutors (data : SparkExecutorData) : List String :=
  (data.order.iterate data.executorInfoMap.entries).map Prod.fst

end SparkExecutorData

/-- The share of what failed, 0 for nothing at all. -/
def getFailureRate (numCompleted numFailed : Int) : Binary64 :=
  let num := wrap32 (numCompleted + numFailed)
  if num = 0 then .ofInt 0 else ((Binary64.ofInt numFailed).mul (.ofInt 1)).div (.ofInt num)

structure StageAttemptId where
  stageId : Int
  attemptId : Int
  deriving DecidableEq, Repr

def StageAttemptId.toString (id : StageAttemptId) : String :=
  "id: " ++ ToString.toString id.stageId ++ " # attemptId: " ++ ToString.toString id.attemptId

structure JobInfo where
  stageIds : List Int := []
  numCompletedTasks : Int := 0
  numFailedTasks : Int := 0
  deriving DecidableEq, Repr

def JobInfo.getFailureRate (info : JobInfo) : Binary64 :=
  spark.getFailureRate info.numCompletedTasks info.numFailedTasks

structure StageInfo where
  numCompleteTasks : Int := 0
  numFailedTasks : Int := 0
  duration : Int := 0
  name : Option String := none
  deriving DecidableEq, Repr

def StageInfo.getFailureRate (info : StageInfo) : Binary64 :=
  spark.getFailureRate info.numCompleteTasks info.numFailedTasks

/-- The jobs and the stages of an application. Sets are iterated in the order
of their hash tables. -/
structure SparkJobProgressData where
  jobIdToInfo : OrderedMap Int JobInfo := .empty
  completedJobs : OrderedMap Int Unit := .empty
  failedJobs : OrderedMap Int Unit := .empty
  stageIdToInfo : OrderedMap StageAttemptId StageInfo := .empty
  completedStages : OrderedMap StageAttemptId Unit := .empty
  failedStages : OrderedMap StageAttemptId Unit := .empty
  jobOrder : HashOrder Int Unit
  stageOrder : HashOrder StageAttemptId Unit

namespace SparkJobProgressData

variable (data : SparkJobProgressData)

def getCompletedJobs : List Int := (data.jobOrder.iterate data.completedJobs.entries).map Prod.fst

def getFailedJobs : List Int := (data.jobOrder.iterate data.failedJobs.entries).map Prod.fst

def getCompletedStages : List StageAttemptId :=
  (data.stageOrder.iterate data.completedStages.entries).map Prod.fst

def getFailedStages : List StageAttemptId :=
  (data.stageOrder.iterate data.failedStages.entries).map Prod.fst

def getJobFailureRate : Binary64 := getFailureRate data.completedJobs.size data.failedJobs.size

def getStageFailureRate : Binary64 := getFailureRate data.completedStages.size data.failedStages.size

def getJobInfo (jobId : Int) : Option JobInfo := data.jobIdToInfo.get? jobId

def getStageInfo (stageId attemptId : Int) : Option StageInfo :=
  data.stageIdToInfo.get? ⟨stageId, attemptId⟩

/-- Job itself does not have a name, it will use its latest stage as the name. -/
def getJobDescription (jobId : Int) : Except JavaException (Option String) := do
  let info ← dereference (data.jobIdToInfo.get? jobId)
  let id := info.stageIds.foldl max (-1)
  if id = -1 then pure none
  else
    let stage ← dereference (data.stageIdToInfo.get? ⟨id, 0⟩)
    pure stage.name

def getFailedJobDescriptions : Except JavaException (List (Option String)) :=
  data.getFailedJobs.mapM data.getJobDescription

end SparkJobProgressData

/-- What the listeners have collected of an application. -/
structure SparkApplicationData where
  isThrottled : Bool
  applicationId : Option String
  environmentData : SparkEnvironmentData
  executorData : SparkExecutorData
  jobProgressData : SparkJobProgressData

def APPLICATION_TYPE : ApplicationType := ⟨"SPARK"⟩

instance : HadoopApplicationData SparkApplicationData where
  getAppId data := data.applicationId
  getConf data := some data.environmentData.sparkProperties
  getApplicationType _ := APPLICATION_TYPE
  isEmpty data := !data.isThrottled && data.executorData.getExecutors.isEmpty

end drelephant.spark

namespace org.apache.commons.lang.StringUtils

/-- `StringUtils.join` writes nothing for a null. -/
def join (names : List (Option String)) (separator : String) : String :=
  String.intercalate separator (names.map (·.getD ""))

end org.apache.commons.lang.StringUtils
