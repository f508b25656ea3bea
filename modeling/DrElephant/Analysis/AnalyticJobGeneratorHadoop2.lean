import DrElephant.Analysis.ElephantContext
import DrElephant.Java.JsonNode
import DrElephant.Java.Text
import DrElephant.Library.Heap
import DrElephant.Models.AppResult

open jackson java.lang memory models

namespace drelephant.analysis

/-- One minute job fetch delay due to the job sending lag from AM/NM to JobHistoryServer HDFS. -/
def FETCH_DELAY : Int := 60000

def RESOURCE_MANAGER_ADDRESS : String := "yarn.resourcemanager.webapp.address"
def IS_RM_HA_ENABLED : String := "yarn.resourcemanager.ha.enabled"
def RESOURCE_MANAGER_IDS : String := "yarn.resourcemanager.ha.rm-ids"

/-- `String.valueOf` of a reference, as string concatenation and `%s` use it. -/
def textOrNull (text : Option String) : String := text.getD "null"

/-- A query for the applications that finished in a window of time, both ends included. -/
structure AppsUrl where
  resourceManagerAddress : Option String
  finalStatus : String
  finishedTimeBegin : Int
  finishedTimeEnd : Int

def AppsUrl.toText (url : AppsUrl) : String :=
  "http://" ++ textOrNull url.resourceManagerAddress ++ "/ws/v1/cluster/apps?finalStatus=" ++
    url.finalStatus ++ "&finishedTimeBegin=" ++ toString url.finishedTimeBegin ++
    "&finishedTimeEnd=" ++ toString url.finishedTimeEnd

/-- The state of a generator. Jobs waiting to be retried are objects other
threads know too, so the queue holds references to them. -/
structure AnalyticJobGeneratorHadoop2 where
  resourceManagerAddress : Option String
  lastTime : Int
  currentTime : Int
  tokenUpdatedTime : Int
  TOKEN_UPDATE_INTERVAL : Int
  retryQueue : List Nat

namespace AnalyticJobGeneratorHadoop2

/-- Authenticate and update the token, when the old one has served its time. -/
def updateAuthToken (newToken : Except JavaException Unit) (generator : AnalyticJobGeneratorHadoop2) :
    Except JavaException Unit × AnalyticJobGeneratorHadoop2 :=
  if generator.currentTime - generator.tokenUpdatedTime > generator.TOKEN_UPDATE_INTERVAL then
    match newToken with
    | .error e => (.error e, generator)
    | .ok () => (.ok (), { generator with tokenUpdatedTime := generator.currentTime })
  else (.ok (), generator)

def addIntoRetries (generator : AnalyticJobGeneratorHadoop2) (promise : Nat) :
    AnalyticJobGeneratorHadoop2 :=
  { generator with retryQueue := generator.retryQueue ++ [promise] }

section updateResourceManagerAddresses

/-- The state a resource manager reports of itself. -/
def haState (rootNode : JsonNode) : Option String :=
  (JsonNode.path (JsonNode.path (some rootNode) "clusterInfo") "haState").map JsonNode.getValueAsText

/-- Asks the resource managers in order. `some` is the address of the first
active one; checked exceptions are logged, all others end the search. -/
def findActive (configuration : String → Option String)
    (readState : String → Except JavaException JsonNode) :
    List String → Except JavaException (Option (Option String))
  | [] => .ok none
  | id :: ids =>
    let resourceManager := configuration (RESOURCE_MANAGER_ADDRESS ++ "." ++ id)
    match readState ("http://" ++ textOrNull resourceManager ++ "/ws/v1/cluster/info") with
    | .error (.authentication _) => findActive configuration readState ids
    | .error (.io _) => findActive configuration readState ids
    | .error e => .error e
    | .ok rootNode =>
      match haState rootNode with
      | none => .error .nullPointer
      | some status =>
        if status = "ACTIVE" then .ok (some resourceManager)
        else findActive configuration readState ids

/-- The final check of the address. -/
def requireAddress (generator : AnalyticJobGeneratorHadoop2) : Except JavaException Unit :=
  match generator.resourceManagerAddress with
  | some _ => .ok ()
  | none => .error (.runtime ("Cannot get YARN resource manager address from Hadoop Configuration " ++
      "property: [" ++ RESOURCE_MANAGER_ADDRESS ++ "]."))

/-- The configured resource manager, or the first active one under HA. -/
def updateResourceManagerAddresses (configuration : String → Option String)
    (readState : String → Except JavaException JsonNode) (now : Int)
    (newToken : Except JavaException Unit) (generator : AnalyticJobGeneratorHadoop2) :
    Except JavaException Unit × AnalyticJobGeneratorHadoop2 :=
  if booleanValueOf (configuration IS_RM_HA_ENABLED) then
    match configuration RESOURCE_MANAGER_IDS with
    | none => (generator.requireAddress, generator)
    | some resourceManagers =>
      match updateAuthToken newToken { generator with currentTime := now } with
      | (.error e, generator) => (.error e, generator)
      | (.ok (), generator) =>
        match findActive configuration readState (split ',' resourceManagers) with
        | .error e => (.error e, generator)
        | .ok none => (generator.requireAddress, generator)
        | .ok (some address) =>
          let generator := { generator with resourceManagerAddress := address }
          (generator.requireAddress, generator)
  else
    let generator := { generator with
      resourceManagerAddress := configuration RESOURCE_MANAGER_ADDRESS }
    (generator.requireAddress, generator)

end updateResourceManagerAddresses

section readApps

variable {δ : Type}

/-- One application of the answer, null when its type is not supported. -/
def readApp (context : ElephantContext δ) (app : JsonNode) (appId : String) :
    Except JavaException (Option AnalyticJob) := do
  let user := (← app.getOrThrow "user").getValueAsText
  let name := (← app.getOrThrow "name").getValueAsText
  let queueName := (← app.getOrThrow "queue").getValueAsText
  let trackingUrl := (app.get? "trackingUrl").map JsonNode.getValueAsText
  let startTime := (← app.getOrThrow "startedTime").getLongValue
  let finishTime := (← app.getOrThrow "finishedTime").getLongValue
  let typeName := (← app.getOrThrow "applicationType").getValueAsText
  pure ((context.getApplicationTypeForName typeName).map fun type =>
    let analyticJob : AnalyticJob :=
      { type, appId, name, queueName, user, trackingUrl, startTime := 0, finishTime := 0 }
    (analyticJob.setStartTime startTime).setFinishTime finishTime)

/-- When called first time after launch, hit the DB and avoid duplicated
analytic jobs that have been analyzed before. -/
def isNew (lastTime : Int) (byId : String → Except JavaException (Option AppResult))
    (appId : String) : Except JavaException Bool :=
  if lastTime > 0 then .ok true
  else if lastTime = 0 then do
    let row ← byId appId
    pure row.isNone
  else .ok false

/-- The loop over the applications of an answer. -/
def readElements (context : ElephantContext δ) (lastTime : Int)
    (byId : String → Except JavaException (Option AppResult)) :
    List JsonNode → Except JavaException (List AnalyticJob)
  | [] => .ok []
  | app :: apps => do
    let appId := (← app.getOrThrow "id").getValueAsText
    let new ← isNew lastTime byId appId
    let job ← bif new then readApp context app appId else .ok none
    let jobs ← readElements context lastTime byId apps
    pure (job.toList ++ jobs)

/-- Parse the returned json from the resource manager. -/
def readApps (context : ElephantContext δ) (lastTime : Int)
    (byId : String → Except JavaException (Option AppResult)) (rootNode : JsonNode) :
    Except JavaException (List AnalyticJob) :=
  readElements context lastTime byId
    (JsonNode.getElements (JsonNode.path (JsonNode.path (some rootNode) "apps") "app"))

/-- A property of what each application is read as holds of all jobs. -/
theorem forall_readElements {property : AnalyticJob → Prop} {context : ElephantContext δ} {lastTime : Int}
    {byId : String → Except JavaException (Option AppResult)} {apps : List JsonNode}
    {jobs : List AnalyticJob}
    (happ : ∀ app appId job, readApp context app appId = .ok (some job) → property job)
    (h : readElements context lastTime byId apps = .ok jobs) : ∀ job ∈ jobs, property job := by
  induction apps generalizing jobs with
  | nil =>
    cases h
    simp
  | cons app apps ih =>
    simp only [readElements, bind_eq_ok_iff, pure_eq_ok_iff] at h
    obtain ⟨node, -, new, -, job, hjob, rest, hrest, rfl⟩ := h
    intro job' hjob'
    rcases List.mem_append.mp hjob' with hmem | hmem
    · obtain rfl := Option.mem_toList.mp hmem
      cases new with
      | true => exact happ _ _ _ hjob
      | false => cases hjob
    · exact ih hrest job' hmem

theorem readApp_retries {context : ElephantContext δ} {app : JsonNode} {appId : String}
    {job : AnalyticJob} (h : readApp context app appId = .ok (some job)) : job.retries = 0 := by
  simp only [readApp, bind_eq_ok_iff, pure_eq_ok_iff] at h
  obtain ⟨_, -, _, -, _, -, _, -, _, -, _, -, hjob⟩ := h
  obtain ⟨_, -, rfl⟩ := Option.map_eq_some_iff.mp hjob
  rfl

/-- The jobs that an answer is read as have not been tried yet. -/
theorem readElements_retries {context : ElephantContext δ} {lastTime : Int}
    {byId : String → Except JavaException (Option AppResult)} {apps : List JsonNode}
    {jobs : List AnalyticJob} (h : readElements context lastTime byId apps = .ok jobs) :
    ∀ job ∈ jobs, job.retries = 0 :=
  forall_readElements (fun _ _ _ happ => readApp_retries happ) h

/-- An application is read as a job of the type that is registered for its name. -/
theorem readApp_type {context : ElephantContext δ} {app : JsonNode} {appId : String}
    {job : AnalyticJob} (h : readApp context app appId = .ok (some job)) :
    ∃ typeName, context.getApplicationTypeForName typeName = some job.type := by
  simp only [readApp, bind_eq_ok_iff, pure_eq_ok_iff] at h
  obtain ⟨_, -, _, -, _, -, _, -, _, -, typeNode, -, hjob⟩ := h
  obtain ⟨type, htype, rfl⟩ := Option.map_eq_some_iff.mp hjob
  exact ⟨typeNode.getValueAsText, htype⟩

end readApps

section fetchAnalyticJobs

variable {δ : Type}

/-- What a fetch meets: the clock, a new token if it needs one, the answers of
the resource manager and the table. -/
structure FetchEnvironment where
  currentTimeMillis : Int
  newToken : Except JavaException Unit
  readJsonNode : AppsUrl → Except JavaException JsonNode
  byId : String → Except JavaException (Option AppResult)

/-- The cursor of this fetch and its token. -/
def beginFetch (now : Int) (newToken : Except JavaException Unit)
    (generator : AnalyticJobGeneratorHadoop2) :
    Except JavaException Unit × AnalyticJobGeneratorHadoop2 :=
  updateAuthToken newToken { generator with currentTime := now - FETCH_DELAY }

def appsUrl (generator : AnalyticJobGeneratorHadoop2) (finalStatus : String) : AppsUrl where
  resourceManagerAddress := generator.resourceManagerAddress
  finalStatus := finalStatus
  finishedTimeBegin := generator.lastTime + 1
  finishedTimeEnd := generator.currentTime

/-- `Queue.poll`, null on an empty queue. -/
def poll : List Nat → Option Nat × List Nat
  | [] => (none, [])
  | promise :: rest => (some promise, rest)

/-- A queue that is not empty has its head polled. -/
theorem eq_cons_of_poll {retryQueue rest : List Nat} {promise : Option Nat} (hretries : retryQueue ≠ [])
    (hpoll : poll retryQueue = (promise, rest)) : ∃ job, promise = some job ∧ retryQueue = job :: rest := by
  cases retryQueue with
  | nil => exact absurd rfl hretries
  | cons job jobs =>
    cases hpoll
    exact ⟨job, rfl, rfl⟩

/-- Append promises from the retry queue at the end of the list. -/
def drainRetries (appList : List (Option Nat)) : List Nat → List (Option Nat)
  | [] => appList
  | promise :: rest => drainRetries (appList ++ [(poll (promise :: rest)).1]) rest

/-- The retry queue is drained: the cursor moves to the end of the window. -/
def endFetch (generator : AnalyticJobGeneratorHadoop2) : AnalyticJobGeneratorHadoop2 :=
  { generator with lastTime := generator.currentTime }

/-- The two queries of one fetch and their answers read. -/
def readWindow (context : ElephantContext δ) (env : FetchEnvironment)
    (generator : AnalyticJobGeneratorHadoop2) : Except JavaException (List AnalyticJob) := do
  let succeededApps ←
    readApps context generator.lastTime env.byId (← env.readJsonNode (generator.appsUrl "SUCCEEDED"))
  let failedApps ←
    readApps context generator.lastTime env.byId (← env.readJsonNode (generator.appsUrl "FAILED"))
  pure (succeededApps ++ failedApps)

/-- Fetch all the succeeded and failed applications since the last fetch, as
new objects on the heap, and behind them the jobs to be retried. -/
def fetchAnalyticJobs (context : ElephantContext δ) (env : FetchEnvironment)
    (generator : AnalyticJobGeneratorHadoop2) (heap : Heap AnalyticJob) :
    Except JavaException (List (Option Nat)) × AnalyticJobGeneratorHadoop2 × Heap AnalyticJob :=
  match generator.beginFetch env.currentTimeMillis env.newToken with
  | (.error e, generator) => (.error e, generator, heap)
  | (.ok (), generator) =>
    match readWindow context env generator with
    | .error e => (.error e, generator, heap)
    | .ok jobs =>
      let (appList, heap) := heap.allocAll jobs
      let todos := drainRetries (appList.map some) generator.retryQueue
      (.ok todos, endFetch { generator with retryQueue := [] }, heap)

section beginFetch

variable (newToken : Except JavaException Unit) (generator : AnalyticJobGeneratorHadoop2)

private theorem updateAuthToken_snd : (generator.updateAuthToken newToken).2 = generator ∨
    (generator.updateAuthToken newToken).2 =
      { generator with tokenUpdatedTime := generator.currentTime } := by
  unfold updateAuthToken
  split
  · cases newToken with
    | error e => exact .inl rfl
    | ok _ => exact .inr rfl
  · exact .inl rfl

@[simp] theorem updateAuthToken_resourceManagerAddress :
    (generator.updateAuthToken newToken).2.resourceManagerAddress = generator.resourceManagerAddress := by
  rcases updateAuthToken_snd newToken generator with h | h <;> rw [h]

@[simp] theorem updateAuthToken_lastTime :
    (generator.updateAuthToken newToken).2.lastTime = generator.lastTime := by
  rcases updateAuthToken_snd newToken generator with h | h <;> rw [h]

@[simp] theorem updateAuthToken_currentTime :
    (generator.updateAuthToken newToken).2.currentTime = generator.currentTime := by
  rcases updateAuthToken_snd newToken generator with h | h <;> rw [h]

@[simp] theorem updateAuthToken_retryQueue :
    (generator.updateAuthToken newToken).2.retryQueue = generator.retryQueue := by
  rcases updateAuthToken_snd newToken generator with h | h <;> rw [h]

variable (now : Int)

@[simp] theorem beginFetch_resourceManagerAddress :
    (generator.beginFetch now newToken).2.resourceManagerAddress = generator.resourceManagerAddress := by
  simp [beginFetch]

@[simp] theorem beginFetch_lastTime :
    (generator.beginFetch now newToken).2.lastTime = generator.lastTime := by
  simp [beginFetch]

@[simp] theorem beginFetch_currentTime :
    (generator.beginFetch now newToken).2.currentTime = now - FETCH_DELAY := by
  simp [beginFetch]

@[simp] theorem beginFetch_retryQueue :
    (generator.beginFetch now newToken).2.retryQueue = generator.retryQueue := by
  simp [beginFetch]

variable {now newToken generator} {result : Except JavaException Unit}
  {begun : AnalyticJobGeneratorHadoop2}

/-- The beginning of a fetch sets the time of the current fetch and moves neither
the cursor nor the retry queue. -/
theorem frame_of_beginFetch (hbegin : generator.beginFetch now newToken = (result, begun)) :
    begun.lastTime = generator.lastTime ∧ begun.currentTime = now - FETCH_DELAY ∧
      begun.retryQueue = generator.retryQueue := by
  obtain rfl : (generator.beginFetch now newToken).2 = begun := by rw [hbegin]
  exact ⟨beginFetch_lastTime .., beginFetch_currentTime .., beginFetch_retryQueue ..⟩

end beginFetch

/-- Looking for the active resource manager moves neither the cursor nor the
retry queue, although it sets the time of the current fetch. -/
theorem updateResourceManagerAddresses_frame (configuration : String → Option String)
    (readState : String → Except JavaException JsonNode) (now : Int)
    (newToken : Except JavaException Unit) (generator : AnalyticJobGeneratorHadoop2) :
    let generator' :=
      (generator.updateResourceManagerAddresses configuration readState now newToken).2
    generator'.lastTime = generator.lastTime ∧ generator'.retryQueue = generator.retryQueue := by
  have hlast := updateAuthToken_lastTime newToken { generator with currentTime := now }
  have hretries := updateAuthToken_retryQueue newToken { generator with currentTime := now }
  unfold updateResourceManagerAddresses
  split
  · split
    · exact ⟨rfl, rfl⟩
    · generalize updateAuthToken newToken { generator with currentTime := now } = updated
        at hlast hretries ⊢
      obtain ⟨_ | _, updated⟩ := updated
      · exact ⟨hlast, hretries⟩
      · dsimp only
        split <;> exact ⟨hlast, hretries⟩
  · exact ⟨rfl, rfl⟩

theorem frame_of_updateResourceManagerAddresses {configuration : String → Option String}
    {readState : String → Except JavaException JsonNode} {now : Int}
    {newToken result : Except JavaException Unit} {generator updated : AnalyticJobGeneratorHadoop2}
    (hupdate : generator.updateResourceManagerAddresses configuration readState now newToken =
      (result, updated)) :
    updated.lastTime = generator.lastTime ∧ updated.retryQueue = generator.retryQueue := by
  have hframe := updateResourceManagerAddresses_frame configuration readState now newToken generator
  rwa [hupdate] at hframe

/-- The drain loop never meets an empty queue, so it appends no null. -/
theorem drainRetries_eq (appList : List (Option Nat)) (retryQueue : List Nat) :
    drainRetries appList retryQueue = appList ++ retryQueue.map some := by
  induction retryQueue generalizing appList with
  | nil => simp [drainRetries]
  | cons promise rest ih => simp [drainRetries, poll, ih]

/-- A fetch that throws has moved neither the cursor nor the retry queue. -/
theorem fetchAnalyticJobs_error {context : ElephantContext δ} {env : FetchEnvironment}
    {generator generator' : AnalyticJobGeneratorHadoop2} {heap heap' : Heap AnalyticJob}
    {e : JavaException}
    (h : fetchAnalyticJobs context env generator heap = (.error e, generator', heap')) :
    generator' = (generator.beginFetch env.currentTimeMillis env.newToken).2 ∧ heap' = heap := by
  unfold fetchAnalyticJobs at h
  generalize generator.beginFetch env.currentTimeMillis env.newToken = begun at h ⊢
  obtain ⟨_ | _, generator⟩ := begun
  · simp only [Prod.mk.injEq] at h
    exact ⟨h.2.1.symm, h.2.2.symm⟩
  · cases hread : readWindow context env generator with
    | error e' =>
      simp only [hread, Prod.mk.injEq] at h
      exact ⟨h.2.1.symm, h.2.2.symm⟩
    | ok jobs => simp [hread] at h

/-- A fetch that returns has read the window, made its jobs new objects, put
the drained retry queue behind them and moved the cursor. -/
theorem fetchAnalyticJobs_ok {context : ElephantContext δ} {env : FetchEnvironment}
    {generator generator' : AnalyticJobGeneratorHadoop2} {heap heap' : Heap AnalyticJob}
    {todos : List (Option Nat)}
    (h : fetchAnalyticJobs context env generator heap = (.ok todos, generator', heap')) :
    ∃ jobs, readWindow context env (generator.beginFetch env.currentTimeMillis env.newToken).2 =
        .ok jobs ∧
      heap' = (heap.allocAll jobs).2 ∧
      todos = ((heap.allocAll jobs).1 ++ generator.retryQueue).map some ∧
      generator'.lastTime = env.currentTimeMillis - FETCH_DELAY ∧
      generator'.currentTime = env.currentTimeMillis - FETCH_DELAY ∧ generator'.retryQueue = [] := by
  have hcurrent := beginFetch_currentTime env.newToken generator env.currentTimeMillis
  have hretries := beginFetch_retryQueue env.newToken generator env.currentTimeMillis
  unfold fetchAnalyticJobs at h
  generalize generator.beginFetch env.currentTimeMillis env.newToken = begun at h hcurrent hretries ⊢
  obtain ⟨_ | _, begun⟩ := begun
  · simp at h
  · cases hread : readWindow context env begun with
    | error e => simp [hread] at h
    | ok jobs =>
      simp only [hread, Prod.mk.injEq, Except.ok.injEq] at h
      obtain ⟨rfl, rfl, rfl⟩ := h
      refine ⟨jobs, rfl, rfl, ?_, hcurrent, hcurrent, rfl⟩
      rw [drainRetries_eq, ← List.map_append, ← hretries]

end fetchAnalyticJobs

end AnalyticJobGeneratorHadoop2

end drelephant.analysis
