import DrElephant.Schedulers.FirstComplete
import DrElephant.Java.Text

open drelephant.analysis drelephant.util java.lang models

namespace drelephant.schedulers

section separator

variable {a b a' b' : String}

/-- What stands before the first slash is told apart from what stands behind it. -/
theorem append_slash_inj (ha : '/' ∉ a.toList) (ha' : '/' ∉ a'.toList) :
    a ++ "/" ++ b = a' ++ "/" ++ b' ↔ a = a' ∧ b = b' := by
  have htext : ∀ a b : String, (a ++ "/" ++ b).toList = a.toList ++ '/' :: b.toList := by
    intro a b
    simp
  rw [← String.toList_inj, htext, htext, append_separator_inj ha ha', String.toList_inj, String.toList_inj]

/-- The same from behind. -/
theorem append_slash_inj_right (hb : '/' ∉ b.toList) (hb' : '/' ∉ b'.toList) :
    a ++ "/" ++ b = a' ++ "/" ++ b' ↔ a = a' ∧ b = b' := by
  have htext : ∀ a b : String,
      (a ++ "/" ++ b).toList.reverse = b.toList.reverse ++ '/' :: a.toList.reverse := by
    intro a b
    simp
  rw [← String.toList_inj, ← List.reverse_inj, htext, htext, append_separator_inj (by simpa) (by simpa),
    List.reverse_inj, List.reverse_inj, String.toList_inj, String.toList_inj, and_comm]

end separator

/-- The ids and execution dates of an application that Airflow has launched. -/
structure AirflowIds where
  dagId : String
  dagRunExecutionDate : String
  taskId : String
  taskInstanceExecutionDate : String
  dagId_ne : dagId ≠ ""
  dagId_length : dagId.length ≤ 250
  dagId_slash : '/' ∉ dagId.toList
  taskId_slash : '/' ∉ taskId.toList

namespace AirflowIds

/-- Airflow puts the ids in the properties of the application. -/
structure Launched (ids : AirflowIds) (properties : Properties) : Prop where
  dagId : properties AIRFLOW_DAG_ID = some ids.dagId
  dagRunExecutionDate : properties AIRFLOW_DAG_RUN_EXECUTION_DATE = some ids.dagRunExecutionDate
  taskId : properties AIRFLOW_TASK_ID = some ids.taskId
  taskInstanceExecutionDate :
    properties AIRFLOW_TASK_INSTANCE_EXECUTION_DATE = some ids.taskInstanceExecutionDate

def jobDefId (ids : AirflowIds) : String := ids.dagId ++ "/" ++ ids.taskId

def flowExecId (ids : AirflowIds) : String := ids.dagId ++ "/" ++ ids.dagRunExecutionDate

def jobExecId (ids : AirflowIds) : String :=
  ids.flowExecId ++ "/" ++ ids.taskId ++ "/" ++ ids.taskInstanceExecutionDate

/-- The result of an application that Airflow has launched. -/
def Stored (ids : AirflowIds) (loaded : AppResult) : Prop :=
  ∃ conf properties result, ids.Launched properties ∧
    loaded = InfoExtractor.loadSchedulerInfo result (AirflowScheduler conf properties)

variable {ids ids' : AirflowIds} {loaded loaded' : AppResult} {properties : Properties}

/-- Airflow's scheduler is the one that an application is loaded with if it is
the first that has its properties. -/
theorem stored_of_loadInfo {δ : Type} [HadoopApplicationData δ] {setup : InfoExtractor.Setup δ} {data : δ}
    {result : AppResult} {conf : SchedulerConfigurationData} (hlaunched : ids.Launched properties)
    (hproperties : setup.retrieveProperties data = .ok (some properties))
    (hscheduler : InfoExtractor.getSchedulerInstance setup.schedulers (HadoopApplicationData.getAppId data)
      (some properties) = .ok (some (AirflowScheduler conf properties)))
    (hloaded : InfoExtractor.loadInfo setup result (some data) = .ok loaded) : ids.Stored loaded := by
  rw [InfoExtractor.loadInfo_eq hproperties hscheduler] at hloaded
  exact ⟨conf, properties, result, hlaunched, (Except.ok.inj hloaded).symm⟩

/-- The formats of the ids. -/
theorem airflowScheduler_ids (hlaunched : ids.Launched properties) (conf : SchedulerConfigurationData) :
    (AirflowScheduler conf properties).getJobDefId = some ids.jobDefId ∧
      (AirflowScheduler conf properties).getJobExecId = some ids.jobExecId ∧
      (AirflowScheduler conf properties).getFlowDefId = some ids.dagId ∧
      (AirflowScheduler conf properties).getFlowExecId = some ids.flowExecId := by
  simp only [AirflowScheduler, hlaunched.dagId, hlaunched.dagRunExecutionDate, hlaunched.taskId,
    hlaunched.taskInstanceExecutionDate]
  refine ⟨?_, ?_, ?_, ?_⟩ <;>
    simp [Utils.formatStringOrNull, Utils.format, jobDefId, jobExecId, flowExecId, ← String.toList_inj]

theorem Stored.carriesIds (h : ids.Stored loaded) :
    loaded.jobDefId = Utils.truncateField (some ids.jobDefId) AppResult.URL_LEN_LIMIT ∧
      loaded.jobExecId = Utils.truncateField (some ids.jobExecId) AppResult.URL_LEN_LIMIT ∧
      loaded.flowDefId = Utils.truncateField (some ids.dagId) AppResult.URL_LEN_LIMIT ∧
      loaded.flowExecId = Utils.truncateField (some ids.flowExecId) AppResult.FLOW_EXEC_ID_LIMIT := by
  obtain ⟨conf, properties, result, hlaunched, rfl⟩ := h
  obtain ⟨hjobDef, hjobExec, hflowDef, hflowExec⟩ := airflowScheduler_ids hlaunched conf
  have hset : ∀ text : String, text ≠ "" → Utils.isSet (some text) = true := fun text htext =>
    Utils.isSet_eq_true_iff.mpr ⟨text, rfl, htext⟩
  have hcomplete : (AirflowScheduler conf properties).complete = true := by
    rw [Scheduler.complete_iff, hjobDef, hjobExec, hflowDef, hflowExec]
    exact ⟨hset _ (by simp [jobDefId]), hset _ (by simp [jobExecId]), hset _ ids.dagId_ne,
      hset _ (by simp [flowExecId])⟩
  have hids := InfoExtractor.loadSchedulerInfo_of_complete hcomplete result
  rw [← hjobDef, ← hjobExec, ← hflowDef, ← hflowExec]
  exact ⟨hids.jobDefId, hids.jobExecId, hids.flowDefId, hids.flowExecId⟩

/-- What a stored id says of the text that it was: the same for the same things,
different for different things if the texts fit, and where they are cut at
least the same beginning. -/
structure Identifies (limit : Nat) (text text' : String) (alike : Prop) (stored stored' : Option String) :
    Prop where
  same : alike → stored = stored'
  different : utf16Length text ≤ limit → utf16Length text' ≤ limit → stored = stored' → alike
  beginning : stored = stored' → substringTo text (limit - 3) = substringTo text' (limit - 3)

theorem identifies_truncateField {text text' : String} {alike : Prop} (limit : Nat)
    (halike : text = text' ↔ alike) : Identifies limit text text' alike
      (Utils.truncateField (some text) limit) (Utils.truncateField (some text') limit) := by
  refine ⟨fun h => by rw [halike.mpr h], fun hfits hfits' heq => ?_, fun heq => ?_⟩
  · rw [Utils.truncateField_of_le hfits, Utils.truncateField_of_le hfits'] at heq
    exact halike.mp (Option.some.inj heq)
  · obtain ⟨stored, hstored⟩ := Utils.exists_truncateField text limit
    rw [← Utils.substringTo_truncateField hstored, Utils.substringTo_truncateField (heq ▸ hstored)]

theorem jobDefId_inj : ids.jobDefId = ids'.jobDefId ↔ ids.dagId = ids'.dagId ∧ ids.taskId = ids'.taskId :=
  append_slash_inj ids.dagId_slash ids'.dagId_slash

theorem flowExecId_inj : ids.flowExecId = ids'.flowExecId ↔
    ids.dagId = ids'.dagId ∧ ids.dagRunExecutionDate = ids'.dagRunExecutionDate :=
  append_slash_inj ids.dagId_slash ids'.dagId_slash

/-- Dates of one kind have no slash. -/
def PlainDates (ids ids' : AirflowIds) : Prop :=
  ('/' ∉ ids.dagRunExecutionDate.toList ∧ '/' ∉ ids'.dagRunExecutionDate.toList) ∨
    ('/' ∉ ids.taskInstanceExecutionDate.toList ∧ '/' ∉ ids'.taskInstanceExecutionDate.toList)

theorem jobExecId_inj (hdates : PlainDates ids ids') : ids.jobExecId = ids'.jobExecId ↔
    ids.dagId = ids'.dagId ∧ ids.dagRunExecutionDate = ids'.dagRunExecutionDate ∧
      ids.taskId = ids'.taskId ∧ ids.taskInstanceExecutionDate = ids'.taskInstanceExecutionDate := by
  rcases hdates with ⟨hrun, hrun'⟩ | ⟨hdate, hdate'⟩
  · -- The components are read from the left.
    have hassoc : ∀ ids : AirflowIds, ids.jobExecId = ids.dagId ++ "/" ++ (ids.dagRunExecutionDate ++ "/" ++
        (ids.taskId ++ "/" ++ ids.taskInstanceExecutionDate)) := fun ids => by
      simp only [jobExecId, flowExecId, String.append_assoc]
    rw [hassoc, hassoc, append_slash_inj ids.dagId_slash ids'.dagId_slash, append_slash_inj hrun hrun',
      append_slash_inj ids.taskId_slash ids'.taskId_slash]
  · -- They are read from the right, up to the flow execution.
    rw [jobExecId, jobExecId, append_slash_inj_right hdate hdate',
      append_slash_inj_right ids.taskId_slash ids'.taskId_slash, flowExecId_inj, and_assoc, and_assoc]

/-- The stored ids identify what they name as far as they fit their columns and
the dates have no slash. -/
theorem storedIds_spec (h : ids.Stored loaded) (h' : ids'.Stored loaded') :
    (loaded.flowDefId = loaded'.flowDefId ↔ ids.dagId = ids'.dagId) ∧
      Identifies AppResult.FLOW_EXEC_ID_LIMIT ids.flowExecId ids'.flowExecId
        (ids.dagId = ids'.dagId ∧ ids.dagRunExecutionDate = ids'.dagRunExecutionDate)
        loaded.flowExecId loaded'.flowExecId ∧
      Identifies AppResult.URL_LEN_LIMIT ids.jobDefId ids'.jobDefId
        (ids.dagId = ids'.dagId ∧ ids.taskId = ids'.taskId) loaded.jobDefId loaded'.jobDefId ∧
      (ids = ids' → loaded.jobExecId = loaded'.jobExecId) ∧
      (PlainDates ids ids' → Identifies AppResult.URL_LEN_LIMIT ids.jobExecId ids'.jobExecId
        (ids.dagId = ids'.dagId ∧ ids.dagRunExecutionDate = ids'.dagRunExecutionDate ∧
          ids.taskId = ids'.taskId ∧ ids.taskInstanceExecutionDate = ids'.taskInstanceExecutionDate)
        loaded.jobExecId loaded'.jobExecId) := by
  obtain ⟨hjobDef, hjobExec, hflowDef, hflowExec⟩ := h.carriesIds
  obtain ⟨hjobDef', hjobExec', hflowDef', hflowExec'⟩ := h'.carriesIds
  have hfits : ∀ ids : AirflowIds, utf16Length ids.dagId ≤ AppResult.URL_LEN_LIMIT := fun ids =>
    (utf16Length_le ids.dagId).trans ((Nat.mul_le_mul_left 2 ids.dagId_length).trans (by decide))
  rw [hjobDef, hjobDef', hjobExec, hjobExec', hflowDef, hflowDef', hflowExec, hflowExec']
  refine ⟨?_, identifies_truncateField _ flowExecId_inj, identifies_truncateField _ jobDefId_inj,
    fun heq => by rw [heq], fun hdates => identifies_truncateField _ (jobExecId_inj hdates)⟩
  rw [Utils.truncateField_of_le (hfits ids), Utils.truncateField_of_le (hfits ids'), Option.some.injEq]

/-- A column that is the same for the same components and for no others. -/
def IdentifiedBy (column : AppResult → Option String) (components : AirflowIds → List String) : Prop :=
  ∀ ids ids' : AirflowIds, ∀ loaded loaded', ids.Stored loaded → ids'.Stored loaded' →
    (column loaded = column loaded' ↔ components ids = components ids')

section examples

/-- An application that is loaded with Airflow's scheduler as the only one. -/
theorem exists_stored (ids : AirflowIds) : ∃ loaded, ids.Stored loaded := by
  let properties : Properties := fun key =>
    if key = AIRFLOW_DAG_ID then some ids.dagId
    else if key = AIRFLOW_DAG_RUN_EXECUTION_DATE then some ids.dagRunExecutionDate
    else if key = AIRFLOW_TASK_ID then some ids.taskId
    else some ids.taskInstanceExecutionDate
  let conf : SchedulerConfigurationData := { schedulerName := "airflow", className := "AirflowScheduler" }
  let setup : InfoExtractor.Setup Unit :=
    ⟨[SchedulerKind.airflow.schedulerClass conf], fun _ => .ok (some properties)⟩
  obtain ⟨loaded, hloaded⟩ : ∃ loaded, InfoExtractor.loadInfo setup
      (.row "application_1" "job" "exec" 1000) (some ()) = .ok loaded := ⟨_, rfl⟩
  have hlaunched : ids.Launched properties := ⟨rfl, rfl, rfl, rfl⟩
  exact ⟨loaded, stored_of_loadInfo hlaunched rfl rfl hloaded⟩

/-- A long name. -/
def repeated (c : Char) (n : Nat) : String := String.ofList (List.replicate n c)

@[simp] theorem length_repeated (c : Char) (n : Nat) : (repeated c n).length = n := by simp [repeated]

theorem utf16Length_repeated {c : Char} (hc : c.toNat < 0x10000) (n : Nat) : utf16Length (repeated c n) = n := by
  rw [utf16Length, repeated, String.toList_ofList,
    unitCount_of_basic fun d hd => List.eq_of_mem_replicate hd ▸ hc, List.length_replicate]

theorem not_mem_repeated {c d : Char} (hne : d ≠ c) (n : Nat) : d ∉ (repeated c n).toList := by
  simp [repeated, hne]

/-- A task of the dag `dag`. -/
def ofTask (taskId dagRunExecutionDate taskInstanceExecutionDate : String) (htask : '/' ∉ taskId.toList) :
    AirflowIds where
  dagId := "dag"
  dagRunExecutionDate := dagRunExecutionDate
  taskId := taskId
  taskInstanceExecutionDate := taskInstanceExecutionDate
  dagId_ne := by decide
  dagId_length := by decide
  dagId_slash := by decide
  taskId_slash := htask

/-- A run of a dag whose id is as long as it can be. -/
def longDag (dagRunExecutionDate : String) : AirflowIds where
  dagId := repeated 'd' 250
  dagRunExecutionDate := dagRunExecutionDate
  taskId := "task"
  taskInstanceExecutionDate := dagRunExecutionDate
  dagId_ne hempty := by simpa using congrArg String.length hempty
  dagId_length := (length_repeated 'd' 250).le
  dagId_slash := not_mem_repeated (by decide) 250
  taskId_slash := by decide

/-- A task whose id goes on behind what its column can hold. -/
def longTask (number : String) (hnumber : '/' ∉ number.toList) : AirflowIds :=
  ofTask (repeated 't' 793 ++ number) "2016-06-27" "2016-06-27"
    (by simpa using ⟨not_mem_repeated (by decide) 793, hnumber⟩)

/-- Two runs of a task. -/
theorem storedIds_spec_twoRuns : ∃ loaded loaded',
    (ofTask "task" "2016-06-27" "2016-06-28" (by decide)).Stored loaded ∧
      (ofTask "task" "2017-06-27" "2017-06-28" (by decide)).Stored loaded' ∧
      loaded.flowDefId = loaded'.flowDefId ∧ loaded.flowExecId ≠ loaded'.flowExecId ∧
      loaded.jobExecId ≠ loaded'.jobExecId := by
  obtain ⟨loaded, h⟩ := exists_stored (ofTask "task" "2016-06-27" "2016-06-28" (by decide))
  obtain ⟨loaded', h'⟩ := exists_stored (ofTask "task" "2017-06-27" "2017-06-28" (by decide))
  obtain ⟨hflowDef, hflowExec, -, -, hjobExec⟩ := storedIds_spec h h'
  refine ⟨loaded, loaded', h, h', hflowDef.mpr rfl, fun heq => ?_, fun heq => ?_⟩
  · exact absurd (hflowExec.different (by decide) (by decide) heq) (by decide)
  · exact absurd ((hjobExec (.inl (by decide))).different (by decide) (by decide) heq) (by decide)

/-- The run of a long dag is stored without most of its date. -/
theorem flowExecId_longDag (rest rest' : String) (hrest : 3 < utf16Length rest) (hrest' : 3 < utf16Length rest')
    (h : (longDag ("2" ++ rest)).Stored loaded) (h' : (longDag ("2" ++ rest')).Stored loaded') :
    loaded.flowExecId = loaded'.flowExecId := by
  have hsplit : ∀ rest, (longDag ("2" ++ rest)).flowExecId = (repeated 'd' 250 ++ "/" ++ "2") ++ rest := by
    simp only [longDag, flowExecId, String.append_assoc, implies_true]
  rw [h.carriesIds.2.2.2, h'.carriesIds.2.2.2, hsplit, hsplit]
  refine Utils.truncateField_append ?_ (by decide) hrest hrest'
  rw [utf16Length_append, utf16Length_append, utf16Length_repeated (by decide), AppResult.FLOW_EXEC_ID_LIMIT]
  rfl

/-- A job is stored without the end of its long task. -/
theorem jobDefId_longTask (number number' : String) (hnumber : '/' ∉ number.toList)
    (hnumber' : '/' ∉ number'.toList) (hlength : 3 < utf16Length number) (hlength' : 3 < utf16Length number')
    (h : (longTask number hnumber).Stored loaded) (h' : (longTask number' hnumber').Stored loaded') :
    loaded.jobDefId = loaded'.jobDefId := by
  have hsplit : ∀ number hnumber, (longTask number hnumber).jobDefId =
      ("dag" ++ "/" ++ repeated 't' 793) ++ number := by
    simp only [longTask, ofTask, jobDefId, String.append_assoc, implies_true]
  rw [h.carriesIds.1, h'.carriesIds.1, hsplit, hsplit]
  refine Utils.truncateField_append ?_ (by decide) hlength hlength'
  rw [utf16Length_append, utf16Length_append, utf16Length_repeated (by decide), AppResult.URL_LEN_LIMIT]
  rfl

/-- Runs of a long dag, jobs with long tasks and executions whose dates have a
slash are stored as the same. -/
theorem not_identifiedBy :
    ¬ IdentifiedBy AppResult.flowExecId (fun ids => [ids.dagId, ids.dagRunExecutionDate]) ∧
      ¬ IdentifiedBy AppResult.jobDefId (fun ids => [ids.dagId, ids.taskId]) ∧
      ¬ IdentifiedBy AppResult.jobExecId (fun ids => [ids.dagId, ids.dagRunExecutionDate, ids.taskId,
        ids.taskInstanceExecutionDate]) := by
  refine ⟨fun hflowExec => ?_, fun hjobDef => ?_, fun hjobExec => ?_⟩
  · obtain ⟨loaded, h⟩ := exists_stored (longDag ("2" ++ "016-06-27"))
    obtain ⟨loaded', h'⟩ := exists_stored (longDag ("2" ++ "017-06-27"))
    have heq := flowExecId_longDag _ _ (by decide) (by decide) h h'
    simpa [longDag] using (hflowExec _ _ _ _ h h').mp heq
  · obtain ⟨loaded, h⟩ := exists_stored (longTask "0001" (by decide))
    obtain ⟨loaded', h'⟩ := exists_stored (longTask "0002" (by decide))
    have heq := jobDefId_longTask _ _ _ _ (by decide) (by decide) h h'
    simpa [longTask, ofTask] using (hjobDef _ _ _ _ h h').mp heq
  · obtain ⟨loaded, h⟩ := exists_stored (ofTask "load" "27/06/load" "28" (by decide))
    obtain ⟨loaded', h'⟩ := exists_stored (ofTask "load" "27/06" "load/28" (by decide))
    have htext : (ofTask "load" "27/06/load" "28" (by decide)).jobExecId =
        (ofTask "load" "27/06" "load/28" (by decide)).jobExecId := by decide
    have heq : loaded.jobExecId = loaded'.jobExecId := by
      rw [h.carriesIds.2.1, h'.carriesIds.2.1, htext]
    simpa [ofTask] using (hjobExec _ _ _ _ h h').mp heq

end examples

end AirflowIds

end drelephant.schedulers
