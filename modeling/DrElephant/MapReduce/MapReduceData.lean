import DrElephant.Analysis.ElephantContext
import DrElephant.Java.Exception
import DrElephant.Library.OrderedMap

open collections drelephant.analysis java.lang machine

namespace drelephant.mapreduce

inductive GroupName
  | FileInput
  | FileSystemCounters
  | MapReduce
  | FileOutput
  deriving DecidableEq, Repr

def GroupName.name : GroupName → String
  | FileInput => "FileInput"
  | FileSystemCounters => "FileSystemCounters"
  | MapReduce => "MapReduce"
  | FileOutput => "FileOutput"

inductive CounterName
  | BYTES_READ
  | BYTES_WRITTEN
  | FILE_BYTES_READ
  | FILE_BYTES_WRITTEN
  | HDFS_BYTES_READ
  | HDFS_BYTES_WRITTEN
  | MAP_INPUT_RECORDS
  | MAP_OUTPUT_RECORDS
  | MAP_OUTPUT_BYTES
  | MAP_OUTPUT_MATERIALIZED_BYTES
  | SPLIT_RAW_BYTES
  | REDUCE_INPUT_GROUPS
  | REDUCE_SHUFFLE_BYTES
  | REDUCE_OUTPUT_RECORDS
  | REDUCE_INPUT_RECORDS
  | COMBINE_INPUT_RECORDS
  | COMBINE_OUTPUT_RECORDS
  | SPILLED_RECORDS
  | CPU_MILLISECONDS
  | GC_MILLISECONDS
  | COMMITTED_HEAP_BYTES
  | PHYSICAL_MEMORY_BYTES
  | VIRTUAL_MEMORY_BYTES
  deriving DecidableEq, Repr

namespace CounterName

def getGroupName : CounterName → String
  | BYTES_READ => GroupName.FileInput.name
  | BYTES_WRITTEN => GroupName.FileOutput.name
  | FILE_BYTES_READ => GroupName.FileSystemCounters.name
  | FILE_BYTES_WRITTEN => GroupName.FileSystemCounters.name
  | HDFS_BYTES_READ => GroupName.FileSystemCounters.name
  | HDFS_BYTES_WRITTEN => GroupName.FileSystemCounters.name
  | _ => GroupName.MapReduce.name

def getName : CounterName → String
  | BYTES_READ => "BYTES_READ"
  | BYTES_WRITTEN => "BYTES_WRITTEN"
  | FILE_BYTES_READ => "FILE_BYTES_READ"
  | FILE_BYTES_WRITTEN => "FILE_BYTES_WRITTEN"
  | HDFS_BYTES_READ => "HDFS_BYTES_READ"
  | HDFS_BYTES_WRITTEN => "HDFS_BYTES_WRITTEN"
  | MAP_INPUT_RECORDS => "MAP_INPUT_RECORDS"
  | MAP_OUTPUT_RECORDS => "MAP_OUTPUT_RECORDS"
  | MAP_OUTPUT_BYTES => "MAP_OUTPUT_BYTES"
  | MAP_OUTPUT_MATERIALIZED_BYTES => "MAP_OUTPUT_MATERIALIZED_BYTES"
  | SPLIT_RAW_BYTES => "SPLIT_RAW_BYTES"
  | REDUCE_INPUT_GROUPS => "REDUCE_INPUT_GROUPS"
  | REDUCE_SHUFFLE_BYTES => "REDUCE_SHUFFLE_BYTES"
  | REDUCE_OUTPUT_RECORDS => "REDUCE_OUTPUT_RECORDS"
  | REDUCE_INPUT_RECORDS => "REDUCE_INPUT_RECORDS"
  | COMBINE_INPUT_RECORDS => "COMBINE_INPUT_RECORDS"
  | COMBINE_OUTPUT_RECORDS => "COMBINE_OUTPUT_RECORDS"
  | SPILLED_RECORDS => "SPILLED_RECORDS"
  | CPU_MILLISECONDS => "CPU_MILLISECONDS"
  | GC_MILLISECONDS => "GC_TIME_MILLIS"
  | COMMITTED_HEAP_BYTES => "COMMITTED_HEAP_BYTES"
  | PHYSICAL_MEMORY_BYTES => "PHYSICAL_MEMORY_BYTES"
  | VIRTUAL_MEMORY_BYTES => "VIRTUAL_MEMORY_BYTES"

/-- A counter is known by its name. -/
theorem getName_injective {a b : CounterName} (h : a.getName = b.getName) : a = b := by
  cases a <;> cases b <;> first | rfl | simp [getName] at h

end CounterName

/-- The counters of a job or a task by group. The groups come in the order in
which their hash map is iterated. -/
structure MapReduceCounterData where
  pubCounters : OrderedMap String (OrderedMap String Int) := .empty
  order : HashOrder String (OrderedMap String Int)

namespace MapReduceCounterData

/-- The value of a counter in the first group that has it, 0 if not present. -/
def get (data : MapReduceCounterData) (counterName : CounterName) : Int :=
  match (data.order.iterate data.pubCounters.entries).find? fun counterGrp =>
      counterGrp.2.containsKey counterName.getName with
  | some counterGrp => (counterGrp.2.get? counterName.getName).getD 0
  | none => 0

def set (data : MapReduceCounterData) (groupName counterName : String) (value : Int) :
    MapReduceCounterData :=
  let counterMap := (data.pubCounters.get? groupName).getD .empty
  { data with pubCounters := data.pubCounters.put groupName (counterMap.put counterName value) }

end MapReduceCounterData

/-- A task of a finished job. Only sampled tasks have counters and times. -/
structure MapReduceTaskData where
  taskId : String
  attemptId : String
  counterHolder : Option MapReduceCounterData := none
  totalTimeMs : Int := 0
  shuffleTimeMs : Int := 0
  sortTimeMs : Int := 0
  sampled : Bool := false

namespace MapReduceTaskData

def setCounter (task : MapReduceTaskData) (counterHolder : MapReduceCounterData) :
    MapReduceTaskData :=
  { task with counterHolder := some counterHolder, sampled := true }

def setTime (task : MapReduceTaskData) (time : Int × Int × Int) : MapReduceTaskData :=
  { task with
    totalTimeMs := time.1
    shuffleTimeMs := time.2.1
    sortTimeMs := time.2.2
    sampled := true }

def getCodeExecutionTimeMs (task : MapReduceTaskData) : Int :=
  wrap64 (wrap64 (task.totalTimeMs - task.shuffleTimeMs) - task.sortTimeMs)

/-- `task.getCounters().get(counterName)` -/
def counter (task : MapReduceTaskData) (counterName : CounterName) : Except JavaException Int := do
  let counterHolder ← dereference task.counterHolder
  pure (counterHolder.get counterName)

/-- The loop of a heuristic over the sampled tasks of an array. -/
def readSampled {α : Type} (read : MapReduceTaskData → Except JavaException α)
    (tasks : List MapReduceTaskData) : Except JavaException (List α) :=
  (tasks.filter MapReduceTaskData.sampled).mapM read

theorem readSampled_perm {α : Type} {read : MapReduceTaskData → Except JavaException α}
    {tasks tasks' : List MapReduceTaskData} {metrics : List α} (h : tasks.Perm tasks')
    (hread : readSampled read tasks = .ok metrics) :
    ∃ metrics', readSampled read tasks' = .ok metrics' ∧ metrics.Perm metrics' :=
  mapM_perm (h.filter _) hread

end MapReduceTaskData

/-- What the fetcher knows of a job. The arrays are null until they are set. -/
structure MapReduceApplicationData where
  succeeded : Bool := true
  diagnosticInfo : Option String := some ""
  appId : String := ""
  jobId : String := ""
  counterHolder : Option MapReduceCounterData := none
  mapperData : Option (List MapReduceTaskData) := none
  reducerData : Option (List MapReduceTaskData) := none
  jobConf : Option Properties := none

/-- The array of tasks that a heuristic is about. -/
inductive TaskArray
  | mapper
  | reducer
  deriving DecidableEq, Repr

namespace MapReduceApplicationData

def isEmpty (data : MapReduceApplicationData) : Except JavaException Bool :=
  if data.succeeded then do
    let mapperData ← dereference data.mapperData
    if mapperData.length = 0 then
      let reducerData ← dereference data.reducerData
      pure (reducerData.length == 0)
    else pure false
  else .ok false

def getTasks (data : MapReduceApplicationData) : TaskArray → Except JavaException (List MapReduceTaskData)
  | .mapper => dereference data.mapperData
  | .reducer => dereference data.reducerData

/-- The number of tasks in an array, and what is read of the sampled ones. -/
def sampledMetrics {α : Type} (data : MapReduceApplicationData) (array : TaskArray)
    (read : MapReduceTaskData → Except JavaException α) : Except JavaException (Nat × List α) := do
  let tasks ← data.getTasks array
  let metrics ← MapReduceTaskData.readSampled read tasks
  pure (tasks.length, metrics)

/-- Whatever a heuristic reads of the sampled tasks has a property. -/
def SampledSatisfy {α : Type} (data : MapReduceApplicationData) (array : TaskArray)
    (read : MapReduceTaskData → Except JavaException α) (property : List α → Prop) : Prop :=
  ∀ numTasks metrics, data.sampledMetrics array read = .ok (numTasks, metrics) → property metrics

/-- The same job but for its arrays of tasks, which are related. -/
structure Related (related : List MapReduceTaskData → List MapReduceTaskData → Prop)
    (data data' : MapReduceApplicationData) : Prop where
  mapperData : Option.Rel related data.mapperData data'.mapperData
  reducerData : Option.Rel related data.reducerData data'.reducerData
  others : { data' with mapperData := none, reducerData := none } =
    { data with mapperData := none, reducerData := none }

/-- The same job with its tasks in another order. -/
abbrev Reordered : MapReduceApplicationData → MapReduceApplicationData → Prop := Related List.Perm

section related

variable {related : List MapReduceTaskData → List MapReduceTaskData → Prop}
  {data data' : MapReduceApplicationData}

private theorem dereference_related {reference reference' : Option (List MapReduceTaskData)}
    {tasks : List MapReduceTaskData} (h : Option.Rel related reference reference')
    (htasks : dereference reference = .ok tasks) :
    ∃ tasks', dereference reference' = .ok tasks' ∧ related tasks tasks' := by
  cases h with
  | some hrelated =>
    obtain rfl := Option.some.inj (dereference_eq_ok_iff.mp htasks)
    exact ⟨_, rfl, hrelated⟩
  | none => cases htasks

theorem Related.getTasks (h : Related related data data') {array : TaskArray}
    {tasks : List MapReduceTaskData} (htasks : data.getTasks array = .ok tasks) :
    ∃ tasks', data'.getTasks array = .ok tasks' ∧ related tasks tasks' := by
  cases array with
  | mapper => exact dereference_related h.mapperData htasks
  | reducer => exact dereference_related h.reducerData htasks

theorem Related.succeeded (h : Related related data data') : data'.succeeded = data.succeeded := by
  simpa using congrArg MapReduceApplicationData.succeeded h.others

theorem Related.jobConf (h : Related related data data') : data'.jobConf = data.jobConf := by
  simpa using congrArg MapReduceApplicationData.jobConf h.others

theorem Related.diagnosticInfo (h : Related related data data') :
    data'.diagnosticInfo = data.diagnosticInfo := by
  simpa using congrArg MapReduceApplicationData.diagnosticInfo h.others

end related

private theorem perm_symm {reference reference' : Option (List MapReduceTaskData)}
    (h : Option.Rel List.Perm reference reference') : Option.Rel List.Perm reference' reference := by
  cases h with
  | some hperm => exact .some hperm.symm
  | none => exact .none

theorem Reordered.symm {data data' : MapReduceApplicationData} (h : Reordered data data') :
    Reordered data' data :=
  ⟨perm_symm h.mapperData, perm_symm h.reducerData, h.others.symm⟩

section sampledMetrics

variable {α β : Type} {read : MapReduceTaskData → Except JavaException α} {array : TaskArray}
  {data data' : MapReduceApplicationData}

theorem Reordered.sampledMetrics {numTasks : Nat} {metrics : List α} (h : Reordered data data')
    (hmetrics : data.sampledMetrics array read = .ok (numTasks, metrics)) :
    ∃ metrics', data'.sampledMetrics array read = .ok (numTasks, metrics') ∧
      metrics.Perm metrics' := by
  simp only [MapReduceApplicationData.sampledMetrics, bind_eq_ok_iff, pure_eq_ok_iff] at hmetrics ⊢
  obtain ⟨tasks, htasks, read, hread, hpair⟩ := hmetrics
  obtain ⟨rfl, rfl⟩ := Prod.mk.inj hpair
  obtain ⟨tasks', htasks', hperm⟩ := h.getTasks htasks
  obtain ⟨metrics', hread', hmetrics⟩ := MapReduceTaskData.readSampled_perm hperm hread
  exact ⟨metrics', ⟨tasks', htasks', metrics', hread', by rw [hperm.length_eq]⟩, hmetrics⟩

/-- What is made of the metrics of a job does not depend on the order of its
tasks when it does not depend on the order of the metrics. -/
theorem Reordered.bind_sampledMetrics (h : Reordered data data')
    {report : Nat × List α → Except JavaException β}
    (hreport : ∀ numTasks metrics metrics', data.sampledMetrics array read = .ok (numTasks, metrics) →
      metrics.Perm metrics' → report (numTasks, metrics) = report (numTasks, metrics')) (result : β) :
    (data.sampledMetrics array read >>= report) = .ok result ↔
      (data'.sampledMetrics array read >>= report) = .ok result := by
  rw [bind_eq_ok_iff, bind_eq_ok_iff]
  constructor
  · rintro ⟨⟨numTasks, metrics⟩, hmetrics, hresult⟩
    obtain ⟨metrics', hmetrics', hperm⟩ := h.sampledMetrics hmetrics
    exact ⟨_, hmetrics', hreport _ _ _ hmetrics hperm ▸ hresult⟩
  · rintro ⟨⟨numTasks, metrics'⟩, hmetrics', hresult⟩
    obtain ⟨metrics, hmetrics, hperm⟩ := h.symm.sampledMetrics hmetrics'
    exact ⟨_, hmetrics, (hreport _ _ _ hmetrics hperm.symm).symm ▸ hresult⟩

end sampledMetrics

end MapReduceApplicationData

def APPLICATION_TYPE : ApplicationType := ⟨"MAPREDUCE"⟩

/-- The data of a job whose arrays are set if it has succeeded. -/
abbrev CompleteApplicationData :=
  {data : MapReduceApplicationData //
    data.succeeded = true → data.mapperData.isSome ∧ data.reducerData.isSome}

instance : HadoopApplicationData CompleteApplicationData where
  getAppId data := some data.val.appId
  getConf data := data.val.jobConf
  getApplicationType _ := APPLICATION_TYPE
  isEmpty data :=
    data.val.succeeded && data.val.mapperData.any List.isEmpty && data.val.reducerData.any List.isEmpty

theorem CompleteApplicationData.isEmpty_eq (data : CompleteApplicationData) :
    data.val.isEmpty = .ok (HadoopApplicationData.isEmpty data) := by
  obtain ⟨data, hcomplete⟩ := data
  simp only [MapReduceApplicationData.isEmpty, HadoopApplicationData.isEmpty]
  cases hsucceeded : data.succeeded with
  | false => rfl
  | true =>
    obtain ⟨hmapper, hreducer⟩ := hcomplete hsucceeded
    obtain ⟨mapperData, hmapperData⟩ := Option.isSome_iff_exists.mp hmapper
    obtain ⟨reducerData, hreducerData⟩ := Option.isSome_iff_exists.mp hreducer
    rw [hmapperData, hreducerData]
    cases mapperData <;> cases reducerData <;> rfl

section examples

/-- A job with the same tasks in each array. -/
def ofTasks (tasks : List MapReduceTaskData) : MapReduceApplicationData where
  mapperData := some tasks
  reducerData := some tasks
  jobConf := some fun _ => some "1"

theorem complete_ofTasks (tasks : List MapReduceTaskData) (_ : (ofTasks tasks).succeeded = true) :
    (ofTasks tasks).mapperData.isSome ∧ (ofTasks tasks).reducerData.isSome := ⟨rfl, rfl⟩

/-- A job with one sampled task in each array. -/
def oneTask (task : MapReduceTaskData) : MapReduceApplicationData := ofTasks [task]

/-- A sampled task with several counters. -/
def taskWithCounters (counters : List (CounterName × Int)) : MapReduceTaskData :=
  ({ taskId := "task", attemptId := "attempt" } : MapReduceTaskData).setCounter
    (counters.foldl (fun data counter => data.set counter.1.getGroupName counter.1.getName counter.2)
      { order := .insertion })

/-- A sampled task with one counter. -/
def taskWithCounter (counterName : CounterName) (value : Int) : MapReduceTaskData :=
  ({ taskId := "task", attemptId := "attempt" } : MapReduceTaskData).setCounter
    (MapReduceCounterData.set { order := .insertion } counterName.getGroupName counterName.getName value)

/-- A sampled task with the given times. -/
def taskWithTimes (totalTimeMs shuffleTimeMs sortTimeMs : Int) : MapReduceTaskData :=
  ({ taskId := "task", attemptId := "attempt" } : MapReduceTaskData).setTime
    (totalTimeMs, shuffleTimeMs, sortTimeMs)

theorem counter_taskWithCounter (counterName name : CounterName) (value : Int) :
    (taskWithCounter counterName value).counter name = .ok (if name = counterName then value else 0) := by
  have hname : (counterName.getName == name.getName) = decide (name = counterName) := by
    rw [Bool.eq_iff_iff, beq_iff_eq, decide_eq_true_iff]
    exact ⟨fun h => (CounterName.getName_injective h).symm, fun h => by rw [h]⟩
  by_cases h : name = counterName <;>
    simp [MapReduceTaskData.counter, taskWithCounter, MapReduceTaskData.setCounter, bind, Except.bind,
      pure, Except.pure, MapReduceCounterData.get, MapReduceCounterData.set, HashOrder.insertion,
      OrderedMap.put, OrderedMap.putEntry, OrderedMap.containsKey, OrderedMap.get?, OrderedMap.empty,
      hname, h]

end examples

end drelephant.mapreduce
