import DrElephant.Schedulers.Schedulers

open drelephant.analysis drelephant.schedulers java.lang models

namespace drelephant.util

/-- A scheduler that yields texts for all four ids. -/
def Scheduler.complete (scheduler : Scheduler) : Bool :=
  Utils.isSet scheduler.getJobDefId && Utils.isSet scheduler.getJobExecId &&
    Utils.isSet scheduler.getFlowDefId && Utils.isSet scheduler.getFlowExecId

theorem Scheduler.complete_iff {scheduler : Scheduler} : scheduler.complete = true ↔
    Utils.isSet scheduler.getJobDefId = true ∧ Utils.isSet scheduler.getJobExecId = true ∧
      Utils.isSet scheduler.getFlowDefId = true ∧ Utils.isSet scheduler.getFlowExecId = true := by
  simp [Scheduler.complete, and_assoc]

namespace InfoExtractor

/-- The ids of a scheduler as the columns hold them. -/
structure CarriesIds (result : AppResult) (scheduler : Scheduler) : Prop where
  jobDefId : result.jobDefId = Utils.truncateField scheduler.getJobDefId AppResult.URL_LEN_LIMIT
  jobExecId : result.jobExecId = Utils.truncateField scheduler.getJobExecId AppResult.URL_LEN_LIMIT
  flowDefId : result.flowDefId = Utils.truncateField scheduler.getFlowDefId AppResult.URL_LEN_LIMIT
  flowExecId : result.flowExecId = Utils.truncateField scheduler.getFlowExecId AppResult.FLOW_EXEC_ID_LIMIT

section schedulers

variable {configured : List (SchedulerKind × SchedulerConfigurationData)} {properties : Properties}
  {scheduler : Scheduler} {schedulers : List Scheduler}

/-- The instances of the configured schedulers for the properties of an application. -/
def instances (configured : List (SchedulerKind × SchedulerConfigurationData)) (properties : Properties) :
    List Scheduler :=
  configured.map fun conf => conf.1.newInstance conf.2 properties

theorem firstScheduler_eq (appId : Option String) (properties : Properties)
    (configured : List (SchedulerKind × SchedulerConfigurationData)) :
    firstScheduler appId properties (configured.map fun conf => conf.1.schedulerClass conf.2) =
      .ok ((instances configured properties).find? fun scheduler => !scheduler.isEmpty) := by
  induction configured with
  | nil => rfl
  | cons conf configured ih =>
    simp only [List.map_cons, firstScheduler, SchedulerKind.schedulerClass, instances, List.find?_cons] at ih ⊢
    cases hempty : (conf.1.newInstance conf.2 properties).isEmpty with
    | true => simpa using ih
    | false => simp

/-- A scheduler that lacks an id has no instance for the properties, but not the
other way round. -/
theorem isEmpty_eq_false_of_complete {kind : SchedulerKind} {conf : SchedulerConfigurationData}
    (hcomplete : (kind.newInstance conf properties).complete = true) :
    (kind.newInstance conf properties).isEmpty = false := by
  have hset : ∀ field, Utils.isSet field = true → field ≠ none := by
    rintro field hfield rfl
    cases hfield
  obtain ⟨hjobDef, hjobExec, hflowDef, hflowExec⟩ := Scheduler.complete_iff.mp hcomplete
  cases kind with
  | azkaban =>
    simp only [SchedulerKind.newInstance, AzkabanScheduler, Bool.or_eq_false_iff,
      Option.isNone_eq_false_iff, Option.isSome_iff_ne_none]
    exact ⟨⟨⟨hset _ hjobDef, hset _ hjobExec⟩, hset _ hflowDef⟩, hset _ hflowExec⟩
  | airflow =>
    have hnone := hset _ hjobExec
    simp only [SchedulerKind.newInstance, AirflowScheduler, ne_eq, Utils.formatStringOrNull_eq_none_iff,
      List.mem_cons, List.not_mem_nil, or_false, not_or, eq_comm (a := none)] at hnone
    obtain ⟨hdag, hrun, htask, hdate⟩ := hnone
    simp only [SchedulerKind.newInstance, AirflowScheduler, Bool.or_eq_false_iff,
      Option.isNone_eq_false_iff, Option.isSome_iff_ne_none]
    exact ⟨⟨⟨htask, hdate⟩, hdag⟩, hrun⟩

variable {result : AppResult}

theorem loadSchedulerInfo_of_complete (hcomplete : scheduler.complete = true) (result : AppResult) :
    CarriesIds (loadSchedulerInfo result scheduler) scheduler := by
  obtain ⟨hjobDef, hjobExec, hflowDef, hflowExec⟩ := Scheduler.complete_iff.mp hcomplete
  simp only [loadSchedulerInfo, Utils.isSet_truncateField, hjobDef, hjobExec, hflowDef, hflowExec]
  exact ⟨rfl, rfl, rfl, rfl⟩

theorem loadSchedulerInfo_of_not_complete (hcomplete : scheduler.complete = false) (result : AppResult) :
    AdHoc (loadSchedulerInfo result scheduler) := by
  have hids : (!Utils.isSet scheduler.getJobDefId || !Utils.isSet scheduler.getJobExecId ||
      !Utils.isSet scheduler.getFlowDefId || !Utils.isSet scheduler.getFlowExecId) = true := by
    rw [Scheduler.complete] at hcomplete
    rw [← Bool.not_and, ← Bool.not_and, ← Bool.not_and, hcomplete]
    rfl
  simp only [loadSchedulerInfo, Utils.isSet_truncateField]
  rw [if_pos hids]
  exact adHoc_loadNoSchedulerInfo _

/-- The result of a complete scheduler is not that of an ad hoc job. -/
theorem not_adHoc_of_carriesIds (hcomplete : scheduler.complete = true) (hids : CarriesIds result scheduler) :
    ¬ AdHoc result := by
  intro hadHoc
  have hset := (Scheduler.complete_iff.mp hcomplete).1
  rw [← Utils.isSet_truncateField _ AppResult.URL_LEN_LIMIT, ← hids.jobDefId, hadHoc.ids.1] at hset
  cases hset

variable {δ : Type} [HadoopApplicationData δ] {setup : Setup δ} {data : δ}

/-- The application is loaded with the ids of the first complete scheduler, and
as an ad hoc job only if there is none. -/
def FirstCompleteWins (setup : Setup δ) (result : AppResult) (data : δ) (schedulers : List Scheduler) : Prop :=
  ∃ loaded, loadInfo setup result (some data) = .ok loaded ∧
    (∀ scheduler ∈ schedulers.find? Scheduler.complete, CarriesIds loaded scheduler) ∧
    (AdHoc loaded → schedulers.find? Scheduler.complete = none)

theorem loadInfo_configured (configured : List (SchedulerKind × SchedulerConfigurationData))
    (hschedulers : setup.schedulers = configured.map fun conf => conf.1.schedulerClass conf.2)
    (hproperties : setup.retrieveProperties data = .ok (some properties)) (result : AppResult) :
    loadInfo setup result (some data) = .ok
      (((instances configured properties).find? fun scheduler => !scheduler.isEmpty).elim
        (loadNoSchedulerInfo result) (loadSchedulerInfo result)) := by
  simp only [loadInfo, hproperties, getSchedulerInstance, hschedulers, firstScheduler_eq, bind, Except.bind]
  cases (instances configured properties).find? fun scheduler => !scheduler.isEmpty <;> rfl

/-- The first element of a kind, and the first of a wider kind: they are the
same unless the elements before have one of the wider kind. -/
theorem find?_wider {α : Type*} {narrow wide : α → Bool} {l : List α} {first : α}
    (hwide : ∀ a ∈ l, narrow a = true → wide a = true) (hfirst : l.find? narrow = some first) :
    ((∀ a ∈ l.takeWhile (fun a => !narrow a), wide a = false) ∧ l.find? wide = some first) ∨
      ∃ a ∈ l.takeWhile (fun a => !narrow a), wide a = true ∧ narrow a = false ∧ l.find? wide = some a := by
  obtain ⟨hnarrow, before, after, rfl, hbefore⟩ := List.find?_eq_some_iff_append.mp hfirst
  rw [List.takeWhile_append_of_pos hbefore, List.takeWhile_cons_of_neg (by simp [hnarrow]),
    List.append_nil, List.find?_append]
  cases hfound : before.find? wide with
  | none =>
    have hfirst := hwide first (by simp) hnarrow
    exact .inl ⟨by simpa using hfound, by simp [hfirst]⟩
  | some found =>
    have hmem := List.mem_of_find?_eq_some hfound
    exact .inr ⟨found, hmem, List.find?_some hfound, by simpa using hbefore found hmem, rfl⟩

/-- The first complete scheduler wins unless one before it has all ids, one of
them as an empty text. -/
theorem firstCompleteWins_iff
    (hschedulers : setup.schedulers = configured.map fun conf => conf.1.schedulerClass conf.2)
    (hproperties : setup.retrieveProperties data = .ok (some properties)) (result : AppResult) :
    let schedulers := instances configured properties
    FirstCompleteWins setup result data schedulers ↔
      (schedulers.any Scheduler.complete = true →
        ∀ scheduler ∈ schedulers.takeWhile (fun scheduler => !scheduler.complete), scheduler.isEmpty = true) := by
  intro schedulers
  have hload : loadInfo setup result (some data) = .ok ((schedulers.find? fun scheduler =>
      !scheduler.isEmpty).elim (loadNoSchedulerInfo result) (loadSchedulerInfo result)) :=
    loadInfo_configured configured hschedulers hproperties result
  have hany : schedulers.any Scheduler.complete = (schedulers.find? Scheduler.complete).isSome :=
    List.isSome_find?.symm
  have hwide : ∀ scheduler ∈ schedulers, scheduler.complete = true → (!scheduler.isEmpty) = true := by
    intro scheduler hmem hcomplete
    obtain ⟨conf, -, rfl⟩ := List.mem_map.mp hmem
    rw [isEmpty_eq_false_of_complete hcomplete, Bool.not_false]
  cases hfirst : schedulers.find? Scheduler.complete with
  | none =>
    rw [hany, hfirst]
    refine iff_of_true ⟨_, hload, fun scheduler hscheduler => ?_, fun _ => hfirst⟩ fun hnone => ?_
    · rw [hfirst] at hscheduler
      exact absurd hscheduler (Option.not_mem_none scheduler)
    · exact absurd hnone Bool.false_ne_true
  | some first =>
    have hcomplete := List.find?_some hfirst
    rcases find?_wider hwide hfirst with ⟨hskipped, hfound⟩ | ⟨other, hmem, hother, hincomplete, hfound⟩
    · have hids := loadSchedulerInfo_of_complete hcomplete result
      rw [hfound] at hload
      refine iff_of_true ⟨_, hload, ?_, fun hadHoc => absurd hadHoc (not_adHoc_of_carriesIds hcomplete hids)⟩
        fun _ scheduler hscheduler => by simpa using hskipped scheduler hscheduler
      intro scheduler hscheduler
      obtain rfl := Option.some.inj (hfirst.symm.trans hscheduler)
      exact hids
    · rw [hfound] at hload
      refine iff_of_false ?_ fun hempty => ?_
      · rintro ⟨loaded, hloaded, -, hadHoc⟩
        obtain rfl := Except.ok.inj (hload.symm.trans hloaded)
        rw [hadHoc (loadSchedulerInfo_of_not_complete hincomplete result)] at hfirst
        cases hfirst
      · rw [hempty (by rw [hany, hfirst]; rfl) other hmem] at hother
        cases hother

section examples

/-- Azkaban before Airflow. -/
def azkabanAirflow : List (SchedulerKind × SchedulerConfigurationData) :=
  [(.azkaban, { schedulerName := "azkaban", className := "AzkabanScheduler" }),
    (.airflow, { schedulerName := "airflow", className := "AirflowScheduler" })]

def azkabanAirflowSetup (properties : Properties) : Setup Unit where
  schedulers := azkabanAirflow.map fun conf => conf.1.schedulerClass conf.2
  retrieveProperties _ := .ok (some properties)

/-- All keys have texts but for the url of the Azkaban job. -/
def withJobUrl (jobUrl : Option String) : Properties := fun key =>
  if key = AZKABAN_JOB_URL then jobUrl else some key

theorem firstCompleteWins_withoutJobUrl : FirstCompleteWins (azkabanAirflowSetup (withJobUrl none))
    (AppResult.row "application_1" "job" "exec" 1000) () (instances azkabanAirflow (withJobUrl none)) :=
  (firstCompleteWins_iff rfl rfl _).mpr fun _ => by decide +kernel

/-- Azkaban has an empty url of the job, and the ids of Airflow are not loaded. -/
theorem not_firstCompleteWins_emptyJobUrl :
    ¬ FirstCompleteWins (azkabanAirflowSetup (withJobUrl (some "")))
      (AppResult.row "application_1" "job" "exec" 1000) ()
      (instances azkabanAirflow (withJobUrl (some ""))) := by
  rintro ⟨loaded, hloaded, hids, -⟩
  rw [loadInfo_configured azkabanAirflow rfl rfl] at hloaded
  obtain rfl := Except.ok.inj hloaded
  have hairflow : ((instances azkabanAirflow (withJobUrl (some ""))).find? Scheduler.complete).map
      Scheduler.getFlowDefId = some (some AIRFLOW_DAG_ID) := by decide +kernel
  obtain ⟨scheduler, hscheduler, hflowDef⟩ := Option.map_eq_some_iff.mp hairflow
  have hloaded := (hids scheduler hscheduler).flowDefId
  rw [hflowDef] at hloaded
  exact absurd hloaded (by decide +kernel)

end examples

end schedulers

end InfoExtractor

end drelephant.util
