import DrElephant.Java.JsonNode
import DrElephant.MapReduce.MapReduceData

open collections drelephant.analysis jackson java.lang machine

namespace drelephant.util

def Utils.getJobIdFromApplicationId (appId : String) : String := appId.replace "application" "job"

end drelephant.util

namespace drelephant.mapreduce

section diagnosticPattern

/-- The character class `[\s\u00A0]`. -/
def isSpace (c : Char) : Bool :=
  c.toNat = 32 ∨ (9 ≤ c.toNat ∧ c.toNat ≤ 13) ∨ c.toNat = 160

/-- What a dot does not match. -/
def isLineTerminator (c : Char) : Bool :=
  c.toNat = 10 ∨ c.toNat = 13 ∨ c.toNat = 133 ∨ c.toNat = 8232 ∨ c.toNat = 8233

def skipSpaces (text : List Char) : Option (List Char) :=
  if text.takeWhile isSpace = [] then none else some (text.dropWhile isSpace)

def skipWord (word : String) (text : List Char) : Option (List Char) := text.dropPrefix? word.toList

/-- Matches the pattern behind its first group and yields the digit. -/
def matchFailedTimes (text : List Char) : Option Nat := do
  let text ← skipSpaces text
  let text ← skipWord "failed" text
  match ← skipSpaces text with
  | [] => none
  | digit :: text =>
    let text ← skipSpaces text
    let text ← skipWord "times" text
    let text ← skipSpaces text
    if digit.isDigit ∧ text = [] then some (digit.toNat - '0'.toNat) else none

/-- The groups of the pattern `Task[\s\u00A0]+(.*)[\s\u00A0]+failed[\s\u00A0]+([0-9])[\s\u00A0]+times[\s\u00A0]+`
for a text that it matches whole. The example it is made for is "Task
task_1443068695259_9143_m_000475 failed 1 times". -/
def diagnosticMatcher (diagnosticInfo : String) : Option (String × Nat) := do
  let text ← skipWord "Task" diagnosticInfo.toList
  -- Both the spaces and the first group take as many characters as they can.
  (List.range (text.takeWhile isSpace).length).reverse.findSome? fun spaces =>
    let text := text.drop (spaces + 1)
    (List.range ((text.takeWhile (!isLineTerminator ·)).length + 1)).reverse.findSome? fun length => do
      let times ← matchFailedTimes (text.drop length)
      some (String.ofList (text.take length), times)

end diagnosticPattern

/-- A limit for the tasks of each kind whose counters and times are fetched. -/
def MAX_SAMPLE_SIZE : Nat := 200

/-- `Collections.shuffle` brings a list into any order. -/
structure Shuffle where
  shuffle : List MapReduceTaskData → List MapReduceTaskData
  perm : ∀ tasks, (shuffle tasks).Perm tasks

/-- The fetcher with what it meets outside: the answers of the history server
to its urls, the outcomes of the two shuffles and the order of hash maps. -/
structure MapReduceFetcherHadoop2 where
  jhistoryAddr : String
  readJsonNode : String → Except JavaException JsonNode
  shuffleMappers : Shuffle
  shuffleReducers : Shuffle
  order : HashOrder String (OrderedMap String Int)

namespace MapReduceFetcherHadoop2

variable (fetcher : MapReduceFetcherHadoop2)

section URLFactory

def restRoot : String := "http://" ++ fetcher.jhistoryAddr ++ "/ws/v1/history/mapreduce/jobs"

def getJobURL (jobId : String) : String := fetcher.restRoot ++ "/" ++ jobId

def getJobConfigURL (jobId : String) : String := fetcher.restRoot ++ "/" ++ jobId ++ "/conf"

def getJobCounterURL (jobId : String) : String := fetcher.restRoot ++ "/" ++ jobId ++ "/counters"

def getTaskListURL (jobId : String) : String := fetcher.restRoot ++ "/" ++ jobId ++ "/tasks"

def getTaskCounterURL (jobId taskId : String) : String :=
  fetcher.restRoot ++ "/" ++ jobId ++ "/tasks/" ++ taskId ++ "/counters"

def getTaskAllAttemptsURL (jobId taskId : String) : String :=
  fetcher.restRoot ++ "/" ++ jobId ++ "/tasks/" ++ taskId ++ "/attempts"

def getTaskAttemptURL (jobId taskId attemptId : String) : String :=
  fetcher.restRoot ++ "/" ++ jobId ++ "/tasks/" ++ taskId ++ "/attempts/" ++ attemptId

end URLFactory

section JSONFactory

/-- The text of a field, which has to be there. -/
def getText (node : JsonNode) (field : String) : Except JavaException String := do
  pure (← node.getOrThrow field).getValueAsText

/-- The long in a field, which has to be there. -/
def getLong (node : JsonNode) (field : String) : Except JavaException Int := do
  pure (← node.getOrThrow field).getLongValue

/-- A field of the job; a missing one is null. -/
def readJobField (url field : String) : Except JavaException (Option String) := do
  let rootNode ← fetcher.readJsonNode url
  pure ((JsonNode.path (JsonNode.path (some rootNode) "job") field).map JsonNode.getValueAsText)

def getState (url : String) : Except JavaException (Option String) := fetcher.readJobField url "state"

def getDiagnosticInfo (url : String) : Except JavaException (Option String) :=
  fetcher.readJobField url "diagnostics"

def getProperties (url : String) : Except JavaException Properties := do
  let rootNode ← fetcher.readJsonNode url
  let configs := JsonNode.path (JsonNode.path (some rootNode) "conf") "property"
  (JsonNode.getElements configs).foldlM (fun jobConf conf => do
    let key ← getText conf "name"
    let val ← getText conf "value"
    pure fun name => if name = key then some val else jobConf name) fun _ => none

/-- Collects the counters of a document that has them in groups. -/
def readCounters (url root groups value : String) : Except JavaException MapReduceCounterData := do
  let rootNode ← fetcher.readJsonNode url
  let groups := JsonNode.path (JsonNode.path (some rootNode) root) groups
  (JsonNode.getElements groups).foldlM (fun holder group =>
    (JsonNode.getElements (JsonNode.path (some group) "counter")).foldlM (fun holder counter => do
      let name ← getText counter "name"
      let groupName ← getText group "counterGroupName"
      let value ← getLong counter value
      pure (holder.set groupName name value)) holder) { order := fetcher.order }

def getJobCounter (url : String) : Except JavaException MapReduceCounterData :=
  fetcher.readCounters url "jobCounters" "counterGroup" "totalCounterValue"

def getTaskCounter (url : String) : Except JavaException MapReduceCounterData :=
  fetcher.readCounters url "jobTaskCounters" "taskCounterGroup" "value"

/-- The total, shuffle and sort times of a task. -/
def getTaskExecTime (url : String) : Except JavaException (Int × Int × Int) := do
  let rootNode ← fetcher.readJsonNode url
  -- A missing attempt has no fields either.
  let taskAttempt := (JsonNode.path (some rootNode) "taskAttempt").getD .null
  let startTime ← getLong taskAttempt "startTime"
  let finishTime ← getLong taskAttempt "finishTime"
  let isMapper := (← getText taskAttempt "type") == "MAP"
  if isMapper then
    -- No shuffle sort time in Mapper
    pure (wrap64 (finishTime - startTime), 0, 0)
  else
    let shuffleTime ← getLong taskAttempt "elapsedShuffleTime"
    let sortTime ← getLong taskAttempt "elapsedMergeTime"
    pure (wrap64 (finishTime - startTime), shuffleTime, sortTime)

/-- Fetches the counters and the times of one task. -/
def sampleTask (jobId : String) (data : MapReduceTaskData) : Except JavaException MapReduceTaskData := do
  let taskCounter ← fetcher.getTaskCounter (fetcher.getTaskCounterURL jobId data.taskId)
  let taskExecTime ← fetcher.getTaskExecTime (fetcher.getTaskAttemptURL jobId data.taskId data.attemptId)
  pure ((data.setCounter taskCounter).setTime taskExecTime)

/-- Samples a list of tasks, shuffled first when it is too long. -/
def getTaskData (shuffle : Shuffle) (jobId : String) (taskList : List MapReduceTaskData) :
    Except JavaException (List MapReduceTaskData) := do
  let taskList := if taskList.length > MAX_SAMPLE_SIZE then shuffle.shuffle taskList else taskList
  let sampleSize := min taskList.length MAX_SAMPLE_SIZE
  let sampled ← (taskList.take sampleSize).mapM (fetcher.sampleTask jobId)
  pure (sampled ++ taskList.drop sampleSize)

/-- A task of the list with whether it is a mapper, none for one that has not succeeded. -/
def readTask (task : JsonNode) : Except JavaException (Option (Bool × MapReduceTaskData)) := do
  let state ← getText task "state"
  if state ≠ "SUCCEEDED" then
    -- This is a failed task.
    pure none
  else
    let taskId ← getText task "id"
    let attemptId ← getText task "successfulAttempt"
    let isMapper := (← getText task "type") == "MAP"
    pure (some (isMapper, { taskId, attemptId }))

/-- The list of tasks behind a url. -/
def taskNodes (url : String) : Except JavaException (List JsonNode) := do
  let rootNode ← fetcher.readJsonNode url
  pure (JsonNode.getElements (JsonNode.path (JsonNode.path (some rootNode) "tasks") "task"))

/-- The mappers and the reducers of a job. -/
def getTaskDataAll (url jobId : String) :
    Except JavaException (List MapReduceTaskData × List MapReduceTaskData) := do
  let tasks ← (← fetcher.taskNodes url).mapM readTask
  let mapperList := tasks.filterMap fun task => (task.filter (·.1)).map Prod.snd
  let reducerList := tasks.filterMap fun task => (task.filter (!·.1)).map Prod.snd
  let mapperData ← fetcher.getTaskData fetcher.shuffleMappers jobId mapperList
  let reducerData ← fetcher.getTaskData fetcher.shuffleReducers jobId reducerList
  pure (mapperData, reducerData)

/-- The stack trace of the first failed attempt. -/
def getTaskFailedStackTrace (taskAllAttemptsUrl : String) : Except JavaException String := do
  let rootNode ← fetcher.readJsonNode taskAllAttemptsUrl
  let tasks := JsonNode.path (JsonNode.path (some rootNode) "taskAttempts") "taskAttempt"
  firstFailed (JsonNode.getElements tasks)
where
  firstFailed : List JsonNode → Except JavaException String
    | [] => .error (.runtime "No failed task attempt in this failed task.")
    | task :: tasks => do
      let state ← getText task "state"
      if state ≠ "FAILED" then firstFailed tasks
      else
        let stacktrace ← getText task "diagnostics"
        if stacktrace.startsWith "Error:" then pure stacktrace
        -- This is not a valid stacktrace. Might due to a bug in hadoop2.3 and fixed in 2.4
        else .error (.runtime "This is not a valid stack trace.")

end JSONFactory

def parseException (jobId diagnosticInfo : String) : Except JavaException String :=
  match diagnosticMatcher diagnosticInfo with
  | some (taskId, times) =>
    if times = 0 then
      -- This is due to bug in hadoop 2.3 and should be fixed in 2.4
      .error (.runtime "Error in diagnosticInfo")
    else fetcher.getTaskFailedStackTrace (fetcher.getTaskAllAttemptsURL jobId taskId)
  -- Diagnostic info not present in the job. Usually due to exception during AM setup
  | none => .error (.runtime "No sufficient diagnostic Info")

/-- What is fetched of a job by its id. -/
def fetchJob (appId jobId : String) : Except JavaException MapReduceApplicationData := do
  let jobConf ← fetcher.getProperties (fetcher.getJobConfigURL jobId)
  let jobURL := fetcher.getJobURL jobId
  let state ← dereference (← fetcher.getState jobURL)
  if state = "SUCCEEDED" then
    let jobCounter ← fetcher.getJobCounter (fetcher.getJobCounterURL jobId)
    let (mapperData, reducerData) ← fetcher.getTaskDataAll (fetcher.getTaskListURL jobId) jobId
    pure { appId, jobId, jobConf := some jobConf, succeeded := true, counterHolder := some jobCounter,
           mapperData := some mapperData, reducerData := some reducerData }
  else if state = "FAILED" then
    let parsed : Except JavaException String := do
      let diagnosticInfo ← dereference (← fetcher.getDiagnosticInfo jobURL)
      fetcher.parseException jobId diagnosticInfo
    let diagnosticInfo := match parsed with
      | .ok diagnosticInfo => some diagnosticInfo
      | .error _ => none
    pure { appId, jobId, jobConf := some jobConf, succeeded := false, diagnosticInfo }
  else
    -- Should not reach here
    .error (.runtime "Job state not supported. Should be either SUCCEEDED or FAILED")

/-- The tracking url of the job is changed to its job history page at once. -/
def fetchData : ElephantFetcher MapReduceApplicationData := fun analyticJob =>
  let jobId := drelephant.util.Utils.getJobIdFromApplicationId analyticJob.appId
  ((fetcher.fetchJob analyticJob.appId jobId).map some,
    some ("http://" ++ fetcher.jhistoryAddr ++ "/jobhistory/job/" ++ jobId))

end MapReduceFetcherHadoop2

end drelephant.mapreduce
