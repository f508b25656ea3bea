import DrElephant.Library.MachineInt
import DrElephant.Spark.SparkApplicationData
import DrElephant.Spark.StorageStatusTrackingListener

open collections drelephant.analysis drelephant.spark machine org.apache.spark.storage

namespace org.apache.spark.deploy.history

/-- Bytes or milliseconds as the listeners add them up: a long that is not negative. -/
def Amount : Type := { amount : Int // 0 ≤ amount ∧ amount < 2 ^ 63 }

def Amount.value (amount : Amount) : Int := amount.1

/-- `getOrElse(id, 0L)` -/
def getOrZero (amounts : OrderedMap String Amount) (id : String) : Int :=
  (amounts.get? id).elim 0 Amount.value

theorem getOrZero_range (amounts : OrderedMap String Amount) (id : String) :
    0 ≤ getOrZero amounts id ∧ getOrZero amounts id < 2 ^ 63 := by
  rw [getOrZero]
  cases amounts.get? id with
  | none => exact ⟨le_refl _, by decide⟩
  | some amount => exact amount.2

/-- A status of the storage status list. -/
structure ExecutorStatus where
  blockManagerId : BlockManagerId
  maxMem : Int

structure ExecutorsListener where
  storageStatusList : List ExecutorStatus := []
  executorToDuration : OrderedMap String Amount := .empty
  executorToInputBytes : OrderedMap String Amount := .empty
  executorToOutputBytes : OrderedMap String Amount := .empty

structure JobUIData where
  jobId : Int
  stageIds : List Int
  numCompletedTasks : Int := 0
  numFailedTasks : Int := 0

structure StageUIData where
  numCompleteTasks : Int := 0
  numFailedTasks : Int := 0

/-- Spark's own information of a stage attempt. -/
structure SparkStageInfo where
  stageId : Int
  attemptId : Int
  name : Option String
  submissionTime : Option Int := none
  completionTime : Option Int := none

structure JobProgressListener where
  jobIdToData : OrderedMap Int JobUIData := .empty
  stageIdToData : OrderedMap StageAttemptId StageUIData := .empty
  stageIdToInfo : OrderedMap Int SparkStageInfo := .empty
  completedJobs : List JobUIData := []
  failedJobs : List JobUIData := []
  completedStages : List SparkStageInfo := []
  failedStages : List SparkStageInfo := []

/-- The state of the listeners after the events of an application. -/
structure Listeners (storage : Storage) where
  applicationId : Option String
  sparkProperties : Properties
  storageStatusTrackingListener : StorageStatusTrackingListener storage
  executorsListener : ExecutorsListener
  jobProgressListener : JobProgressListener
  maxUsedMem_range : ∀ execId,
    0 ≤ StorageStatusTrackingListener.maxUsedMem execId storageStatusTrackingListener ∧
      StorageStatusTrackingListener.maxUsedMem execId storageStatusTrackingListener < 2 ^ 63

/-- The orders in which the hash tables of the data are walked. -/
structure DataOrders where
  executors : HashOrder String ExecutorInfo
  jobs : HashOrder Int Unit
  stages : HashOrder StageAttemptId Unit

def DataOrders.insertion : DataOrders := ⟨.insertion, .insertion, .insertion⟩

namespace SparkDataCollection

variable {storage : Storage} (listeners : Listeners storage) (orders : DataOrders)

/-- What is kept of an executor. The bytes it has written are not copied. -/
def toExecutorInfo (status : ExecutorStatus) : ExecutorInfo :=
  let execId := status.blockManagerId.executorId
  { execId
    -- Use a customized listener to fetch the peak memory used, the data contained in status are
    -- the current used memory that is not useful in offline settings.
    memUsed := StorageStatusTrackingListener.maxUsedMem execId listeners.storageStatusTrackingListener
    maxMem := status.maxMem
    duration := getOrZero listeners.executorsListener.executorToDuration execId
    inputBytes := getOrZero listeners.executorsListener.executorToInputBytes execId }

def getExecutorData : SparkExecutorData where
  executorInfoMap := listeners.executorsListener.storageStatusList.foldl
    (fun executorInfoMap status =>
      let info := toExecutorInfo listeners status
      executorInfoMap.put info.execId info)
    .empty
  order := orders.executors

def toJobInfo (data : JobUIData) : JobInfo where
  stageIds := data.stageIds
  numCompletedTasks := data.numCompletedTasks
  numFailedTasks := data.numFailedTasks

/-- A stage attempt goes by the information of its stage, if there is any. -/
def toStageInfo (sparkStageInfo : Option SparkStageInfo) (data : StageUIData) : StageInfo where
  name := sparkStageInfo.elim (some "") SparkStageInfo.name
  duration := sparkStageInfo.elim 0 fun info =>
    let submissionTime := info.submissionTime.getD 0
    wrap64 (info.completionTime.getD submissionTime - submissionTime)
  numCompleteTasks := data.numCompleteTasks
  numFailedTasks := data.numFailedTasks

/-- The elements of a list as a hash set. -/
def toSet {α κ : Type} [BEq κ] (elements : List α) (id : α → κ) : OrderedMap κ Unit :=
  elements.foldl (fun set element => set.put (id element) ()) .empty

def getJobProgressData : SparkJobProgressData :=
  let listener := listeners.jobProgressListener
  { jobIdToInfo := listener.jobIdToData.mapValues toJobInfo
    stageIdToInfo := listener.stageIdToData.mapWithKey fun id data =>
      toStageInfo (listener.stageIdToInfo.get? id.stageId) data
    completedJobs := toSet listener.completedJobs JobUIData.jobId
    failedJobs := toSet listener.failedJobs JobUIData.jobId
    completedStages := toSet listener.completedStages fun info => ⟨info.stageId, info.attemptId⟩
    failedStages := toSet listener.failedStages fun info => ⟨info.stageId, info.attemptId⟩
    jobOrder := orders.jobs
    stageOrder := orders.stages }

/-- The data that the heuristics read. -/
def applicationData : SparkApplicationData where
  isThrottled := false
  applicationId := listeners.applicationId
  environmentData := ⟨listeners.sparkProperties⟩
  executorData := getExecutorData listeners orders
  jobProgressData := getJobProgressData listeners orders

section sets

variable {α κ : Type} [BEq κ] [LawfulBEq κ]

theorem mem_keys_toSet {elements : List α} {id : α → κ} {key : κ} :
    key ∈ (toSet elements id).keys ↔ ∃ element ∈ elements, id element = key := by
  have hset : toSet elements id = OrderedMap.empty.putAll (elements.map fun element => (id element, ())) := by
    rw [toSet, OrderedMap.putAll, List.foldl_map]
  rw [OrderedMap.mem_keys_iff, hset, OrderedMap.containsKey_putAll, Bool.or_eq_true, List.any_map,
    List.any_eq_true]
  simp [OrderedMap.containsKey]

/-- The elements of a set in whatever order it is walked. -/
theorem mem_iterate_toSet {elements : List α} {id : α → κ} {order : HashOrder κ Unit} {key : κ} :
    key ∈ (order.iterate (toSet elements id).entries).map Prod.fst ↔ ∃ element ∈ elements, id element = key := by
  rw [((order.perm _).map Prod.fst).mem_iff]
  exact mem_keys_toSet

end sets

section lookup

variable {listeners orders}

theorem get?_jobIdToInfo (jobId : Int) : (getJobProgressData listeners orders).jobIdToInfo.get? jobId =
    (listeners.jobProgressListener.jobIdToData.get? jobId).map toJobInfo :=
  OrderedMap.get?_mapValues _ _ _

theorem get?_stageIdToInfo (id : StageAttemptId) :
    (getJobProgressData listeners orders).stageIdToInfo.get? id =
      (listeners.jobProgressListener.stageIdToData.get? id).map
        (toStageInfo (listeners.jobProgressListener.stageIdToInfo.get? id.stageId)) :=
  OrderedMap.get?_mapWithKey _ _ _

end lookup

end SparkDataCollection

end org.apache.spark.deploy.history
