import DrElephant.Analysis.ElephantContext
import DrElephant.Models.AppResult
import DrElephant.Models.Schema
import DrElephant.Util.Utils

open java.lang drelephant.analysis models

namespace drelephant.util

/-- What a scheduler instance answers about the application it was made for. -/
structure Scheduler where
  getSchedulerName : Option String
  isEmpty : Bool
  getJobDefId : Option String
  getJobExecId : Option String
  getFlowDefId : Option String
  getFlowExecId : Option String
  getJobDefUrl : Option String
  getJobExecUrl : Option String
  getFlowDefUrl : Option String
  getFlowExecUrl : Option String
  getJobName : Option String
  getWorkflowDepth : Int

/-- The ways in which a class fails to be loaded or its constructor to be called. -/
inductive InstantiationFailure
  | classNotFound
  | instantiation
  | illegalAccess
  | runtime
  | invocationTarget
  | noSuchMethod

def InstantiationFailure.message (className : String) : InstantiationFailure → String
  | classNotFound => "Could not find class " ++ className
  | instantiation => "Could not instantiate class " ++ className
  | illegalAccess => "Could not access constructor for class" ++ className
  | runtime => className ++ " is not a valid Fetcher class."
  | invocationTarget => "Could not invoke class " ++ className
  | noSuchMethod => "Could not find constructor for class " ++ className

/-- A scheduler class configured in SchedulerConf.xml and its constructor. -/
structure SchedulerClass where
  className : String
  newInstance : Option String → Properties → Except InstantiationFailure Scheduler

namespace InfoExtractor

/-- The configured schedulers, and how the properties that they read are
retrieved from the data of an application. -/
structure Setup (δ : Type) where
  schedulers : List SchedulerClass
  retrieveProperties : δ → Except JavaException (Option Properties)

/-- The first configured scheduler that could parse the properties. -/
def firstScheduler (appId : Option String) (properties : Properties) :
    List SchedulerClass → Except JavaException (Option Scheduler)
  | [] => .ok none
  | schedulerClass :: rest =>
    match schedulerClass.newInstance appId properties with
    | .error failure => .error (.runtime (failure.message schedulerClass.className))
    | .ok scheduler =>
      if scheduler.isEmpty then firstScheduler appId properties rest else .ok (some scheduler)

def getSchedulerInstance (schedulers : List SchedulerClass) (appId : Option String)
    (properties : Option Properties) : Except JavaException (Option Scheduler) :=
  match properties with
  | none => .ok none
  | some properties => firstScheduler appId properties schedulers

/-- Update the application result with adhoc (not scheduled by a scheduler) information. -/
def loadNoSchedulerInfo (result : AppResult) : AppResult :=
  { result with
    scheduler := none
    workflowDepth := 0
    jobExecId := some ""
    jobDefId := some ""
    flowExecId := some ""
    flowDefId := some ""
    jobExecUrl := some ""
    jobDefUrl := some ""
    flowExecUrl := some ""
    flowDefUrl := some ""
    jobName := some "" }

/-- A null name or url is stored as the empty string. -/
def textOrEmpty (field : Option String) (limit : Nat) : Option String :=
  if field.isSome then Utils.truncateField field limit else some ""

/-- Dr. Elephant expects all the 4 ids to be set and treats the job as adhoc otherwise. -/
def loadSchedulerInfo (result : AppResult) (scheduler : Scheduler) : AppResult :=
  let result := { result with
    jobDefId := Utils.truncateField scheduler.getJobDefId AppResult.URL_LEN_LIMIT
    jobExecId := Utils.truncateField scheduler.getJobExecId AppResult.URL_LEN_LIMIT
    flowDefId := Utils.truncateField scheduler.getFlowDefId AppResult.URL_LEN_LIMIT
    flowExecId := Utils.truncateField scheduler.getFlowExecId AppResult.FLOW_EXEC_ID_LIMIT }
  if !Utils.isSet result.jobDefId || !Utils.isSet result.jobExecId ||
      !Utils.isSet result.flowDefId || !Utils.isSet result.flowExecId then
    loadNoSchedulerInfo result
  else
    { result with
      scheduler := Utils.truncateField scheduler.getSchedulerName AppResult.SCHEDULER_LIMIT
      workflowDepth := scheduler.getWorkflowDepth
      jobName := textOrEmpty scheduler.getJobName AppResult.JOB_NAME_LIMIT
      jobDefUrl := textOrEmpty scheduler.getJobDefUrl AppResult.URL_LEN_LIMIT
      jobExecUrl := textOrEmpty scheduler.getJobExecUrl AppResult.URL_LEN_LIMIT
      flowDefUrl := textOrEmpty scheduler.getFlowDefUrl AppResult.URL_LEN_LIMIT
      flowExecUrl := textOrEmpty scheduler.getFlowExecUrl AppResult.URL_LEN_LIMIT }

variable {δ : Type} [HadoopApplicationData δ]

def loadInfo (setup : Setup δ) (result : AppResult) (data : Option δ) :
    Except JavaException AppResult :=
  match data with
  | none => .error .nullPointer
  | some data => do
    let properties ← setup.retrieveProperties data
    let scheduler ←
      getSchedulerInstance setup.schedulers (HadoopApplicationData.getAppId data) properties
    match scheduler with
    | some scheduler => pure (loadSchedulerInfo result scheduler)
    | none => pure (loadNoSchedulerInfo result)

theorem loadInfo_eq {setup : Setup δ} {data : δ} {properties : Option Properties}
    {scheduler : Option Scheduler} (hproperties : setup.retrieveProperties data = .ok properties)
    (hscheduler : getSchedulerInstance setup.schedulers (HadoopApplicationData.getAppId data) properties =
      .ok scheduler) (result : AppResult) : loadInfo setup result (some data) =
      .ok (scheduler.elim (loadNoSchedulerInfo result) (loadSchedulerInfo result)) := by
  simp only [loadInfo, hproperties, hscheduler, bind, Except.bind]
  cases scheduler <;> rfl

/-- What is loaded comes from a scheduler, or there is none. -/
theorem loadInfo_cases {setup : Setup δ} {result loaded : AppResult} {data : Option δ}
    (h : loadInfo setup result data = .ok loaded) :
    loaded = loadNoSchedulerInfo result ∨ ∃ scheduler, loaded = loadSchedulerInfo result scheduler := by
  cases data with
  | none => cases h
  | some data =>
    have hload := h
    simp only [loadInfo, bind_eq_ok_iff] at hload
    obtain ⟨properties, hproperties, scheduler, hscheduler, -⟩ := hload
    rw [loadInfo_eq hproperties hscheduler] at h
    obtain rfl := Except.ok.inj h
    cases scheduler with
    | none => exact .inl rfl
    | some scheduler => exact .inr ⟨scheduler, rfl⟩

/-- The fields of a result that are none of the eleven scheduler fields. -/
def withoutSchedulerInfo (result : AppResult) : AppResult := loadNoSchedulerInfo result

theorem withoutSchedulerInfo_loadSchedulerInfo (result : AppResult) (scheduler : Scheduler) :
    withoutSchedulerInfo (loadSchedulerInfo result scheduler) = withoutSchedulerInfo result := by
  simp only [loadSchedulerInfo]
  split <;> rfl

/-- Loading the scheduler information changes nothing else in the result. -/
theorem withoutSchedulerInfo_loadInfo {setup : Setup δ} {result loaded : AppResult}
    {data : Option δ} (h : loadInfo setup result data = .ok loaded) :
    withoutSchedulerInfo loaded = withoutSchedulerInfo result := by
  obtain rfl | ⟨scheduler, rfl⟩ := loadInfo_cases h
  · rfl
  · exact withoutSchedulerInfo_loadSchedulerInfo result scheduler

section schedulerColumns

/-- The result of a job that a scheduler has run, by all that the scheduler
says about it. -/
structure Scheduled (result : AppResult) (scheduler : Scheduler) : Prop where
  jobDefId : Utils.isSet result.jobDefId = true
  jobExecId : Utils.isSet result.jobExecId = true
  flowDefId : Utils.isSet result.flowDefId = true
  flowExecId : Utils.isSet result.flowExecId = true
  schedulerInfo : result.scheduler =
      Utils.truncateField scheduler.getSchedulerName AppResult.SCHEDULER_LIMIT ∧
    result.workflowDepth = scheduler.getWorkflowDepth
  texts : result.jobName ≠ none ∧ result.jobDefUrl ≠ none ∧ result.jobExecUrl ≠ none ∧
    result.flowDefUrl ≠ none ∧ result.flowExecUrl ≠ none

/-- The result of a job that no scheduler has run, as far as is known. -/
structure AdHoc (result : AppResult) : Prop where
  schedulerInfo : result.scheduler = none ∧ result.workflowDepth = 0
  ids : result.jobDefId = some "" ∧ result.jobExecId = some "" ∧ result.flowDefId = some "" ∧
    result.flowExecId = some ""
  texts : result.jobName = some "" ∧ result.jobDefUrl = some "" ∧ result.jobExecUrl = some "" ∧
    result.flowDefUrl = some "" ∧ result.flowExecUrl = some ""

theorem adHoc_loadNoSchedulerInfo (result : AppResult) : AdHoc (loadNoSchedulerInfo result) :=
  ⟨⟨rfl, rfl⟩, ⟨rfl, rfl, rfl, rfl⟩, rfl, rfl, rfl, rfl, rfl⟩

theorem varchar_truncateField {field : Option String} {limit : Nat} (hlimit : 3 < limit) :
    Varchar limit (Utils.truncateField field limit) :=
  fun text htext => (length_le_utf16Length text).trans (Utils.utf16Length_truncateField hlimit htext)

theorem truncateField_ne_none {text : String} {limit : Nat} :
    Utils.truncateField (some text) limit ≠ none := by
  simp only [Utils.truncateField]
  split <;> simp

/-- A text is stored as one that fits. -/
theorem varcharNotNull_truncateField {text : String} {limit : Nat} (hlimit : 3 < limit) :
    VarcharNotNull limit (Utils.truncateField (some text) limit) :=
  ⟨truncateField_ne_none, varchar_truncateField hlimit⟩

private theorem varcharNotNull_of_isSet {field : Option String} {limit : Nat}
    (h : Utils.isSet field = true) (hlimit : Varchar limit field) : VarcharNotNull limit field := by
  refine ⟨?_, hlimit⟩
  rintro rfl
  cases h

private theorem varcharNotNull_textOrEmpty {field : Option String} {limit : Nat} (hlimit : 3 < limit) :
    VarcharNotNull limit (textOrEmpty field limit) := by
  cases field with
  | none => exact ⟨by simp [textOrEmpty], by simp [textOrEmpty, Varchar]⟩
  | some text =>
    rw [textOrEmpty, Option.isSome_some, if_pos rfl]
    exact varcharNotNull_truncateField hlimit

theorem schedulerColumns_loadNoSchedulerInfo (result : AppResult) :
    (loadNoSchedulerInfo result).SchedulerColumns := by
  have hempty : ∀ width, VarcharNotNull width (some "") := by simp [VarcharNotNull, Varchar]
  refine ⟨?_, hempty _, hempty _, hempty _, hempty _, hempty _, hempty _, hempty _, hempty _, hempty _⟩
  simp [Varchar, loadNoSchedulerInfo]

/-- What a scheduler says is loaded as a whole or not at all. -/
theorem loadSchedulerInfo_spec (result : AppResult) (scheduler : Scheduler) :
    (Scheduled (loadSchedulerInfo result scheduler) scheduler ∨
        AdHoc (loadSchedulerInfo result scheduler)) ∧
      (loadSchedulerInfo result scheduler).SchedulerColumns := by
  simp only [loadSchedulerInfo]
  split
  · exact ⟨.inr (adHoc_loadNoSchedulerInfo _), schedulerColumns_loadNoSchedulerInfo _⟩
  · rename_i hset
    simp only [Bool.or_eq_true, Bool.not_eq_true', not_or, Bool.not_eq_false] at hset
    obtain ⟨⟨⟨hjobDef, hjobExec⟩, hflowDef⟩, hflowExec⟩ := hset
    have hurl : ∀ url, VarcharNotNull 800 (textOrEmpty url AppResult.URL_LEN_LIMIT) :=
      fun _ => varcharNotNull_textOrEmpty (by decide)
    have hname : VarcharNotNull 255 (textOrEmpty scheduler.getJobName AppResult.JOB_NAME_LIMIT) :=
      varcharNotNull_textOrEmpty (by decide)
    have hid : ∀ id, Utils.isSet (Utils.truncateField id AppResult.URL_LEN_LIMIT) = true →
        VarcharNotNull 800 (Utils.truncateField id AppResult.URL_LEN_LIMIT) :=
      fun _ h => varcharNotNull_of_isSet h (varchar_truncateField (by decide))
    refine ⟨.inl ⟨hjobDef, hjobExec, hflowDef, hflowExec, ⟨rfl, rfl⟩, hname.1, (hurl _).1, (hurl _).1,
      (hurl _).1, (hurl _).1⟩, ?_⟩
    exact ⟨varchar_truncateField (by decide), hname, hid _ hjobExec,
      varcharNotNull_of_isSet hflowExec (varchar_truncateField (by decide)), hid _ hjobDef,
      hid _ hflowDef, hurl _, hurl _, hurl _, hurl _⟩

/-- Whatever a scheduler says fits the columns it is stored in. -/
theorem schedulerColumns_loadInfo {setup : Setup δ} {result loaded : AppResult} {data : Option δ}
    (h : loadInfo setup result data = .ok loaded) : loaded.SchedulerColumns := by
  obtain rfl | ⟨scheduler, rfl⟩ := loadInfo_cases h
  · exact schedulerColumns_loadNoSchedulerInfo result
  · exact (loadSchedulerInfo_spec result scheduler).2

/-- The scheduler fields of a result that fits its columns do not decide whether
it can be inserted. -/
theorem storable_withoutSchedulerInfo {result : AppResult} (hcolumns : result.SchedulerColumns) :
    (withoutSchedulerInfo result).Storable ↔ result.Storable := by
  constructor
  · rintro ⟨id, name, username, trackingUrl, jobType, -, score, rows⟩
    exact ⟨id, name, username, trackingUrl, jobType, hcolumns, score, rows⟩
  · rintro ⟨id, name, username, trackingUrl, jobType, -, score, rows⟩
    exact ⟨id, name, username, trackingUrl, jobType, schedulerColumns_loadNoSchedulerInfo result,
      score, rows⟩

end schedulerColumns

/-- After loading, the eleven scheduler fields are either all from a scheduler
that has set its four ids or all those of an ad hoc job. They fit their
columns, and no other field has changed. -/
theorem loadInfo_all_or_nothing (setup : Setup δ) (result : AppResult) {data : δ}
    {properties : Option Properties} {scheduler : Option Scheduler}
    (hproperties : setup.retrieveProperties data = .ok properties)
    (hscheduler : getSchedulerInstance setup.schedulers (HadoopApplicationData.getAppId data) properties =
      .ok scheduler) :
    ∃ loaded, loadInfo setup result (some data) = .ok loaded ∧
      ((∃ found ∈ scheduler, Scheduled loaded found) ∨ AdHoc loaded) ∧ loaded.SchedulerColumns ∧
      withoutSchedulerInfo loaded = withoutSchedulerInfo result := by
  refine ⟨_, loadInfo_eq hproperties hscheduler result, ?_⟩
  cases scheduler with
  | none =>
    exact ⟨.inr (adHoc_loadNoSchedulerInfo result), schedulerColumns_loadNoSchedulerInfo result, rfl⟩
  | some found =>
    obtain ⟨hfields, hcolumns⟩ := loadSchedulerInfo_spec result found
    refine ⟨hfields.imp_left fun h => ⟨found, rfl, h⟩, hcolumns, ?_⟩
    exact withoutSchedulerInfo_loadSchedulerInfo result found

/-- A scheduler that does not know the flow execution. -/
def shortScheduler : Scheduler where
  getSchedulerName := some "azkaban"
  isEmpty := false
  getJobDefId := some "job"
  getJobExecId := some "job 1"
  getFlowDefId := some "flow"
  getFlowExecId := none
  getJobDefUrl := none
  getJobExecUrl := none
  getFlowDefUrl := none
  getFlowExecUrl := none
  getJobName := none
  getWorkflowDepth := 1

theorem loadInfo_all_or_nothing_shortScheduler : ∃ loaded,
    loadInfo ⟨[⟨"Azkaban", fun _ _ => .ok shortScheduler⟩], fun () => .ok (some fun _ => none)⟩
        (AppResult.row "application_1" "job" "exec" 1000) (some ()) = .ok loaded ∧
      ((∃ found ∈ some shortScheduler, Scheduled loaded found) ∨ AdHoc loaded) ∧
      loaded.SchedulerColumns ∧
      withoutSchedulerInfo loaded =
        withoutSchedulerInfo (AppResult.row "application_1" "job" "exec" 1000) :=
  loadInfo_all_or_nothing _ _ rfl rfl

end InfoExtractor

end drelephant.util
