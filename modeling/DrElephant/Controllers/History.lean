import Mathlib.Data.List.Pairwise
import DrElephant.Controllers.GroupJobs
import DrElephant.Java.Exception
import DrElephant.Java.Text

open collections java.lang machine models

namespace controllers

def JOB_HISTORY_LIMIT : Nat := 5000
def MAX_HISTORY_LIMIT : Nat := 15
def STAGE_LIMIT : Nat := 25

/-- The rows of a flow or job definition in the order the queries ask for,
latest finish time first. Rows that finished together come in any order. -/
structure History where
  all : List AppResult
  descending : all.Pairwise fun a b => b.finishTime ≤ a.finishTime
  primaryKey : (all.map AppResult.id).Nodup

/-- The rows that a query with a row limit returns. -/
def History.results (history : History) : List AppResult := history.all.take JOB_HISTORY_LIMIT

inductive Result (α : Type)
  | ok (content : α)
  | notFound (message : String)

/-- A field of a form, trimmed; null and the empty string count as missing. -/
def formField (value : Option String) : Option String :=
  (value.map trim).filter fun value => !value.isEmpty

section limitHistoryResults

variable {ν : Type}

/-- The number of executions to keep. -/
def executionLimit (keys size execLimit : Nat) : Int :=
  if size < JOB_HISTORY_LIMIT then
    -- No pruning needed. 100% correct.
    execLimit
  else if keys > 10 then
    -- Prune last 3 executions
    if keys > execLimit + 3 then execLimit else (keys : Int) - 3
  else
    -- Prune the last execution
    (keys : Int) - 1

def limitEntries (limit : Int) (resultMap : OrderedMap IdUrlPair ν) :
    Int → List (IdUrlPair × ν) → OrderedMap IdUrlPair ν
  | _, [] => resultMap
  | i, entry :: entries =>
    if i > limit then resultMap
    else limitEntries limit (resultMap.put entry.1 entry.2) (i + 1) entries

/-- Applies a limit on the number of executions to be displayed after trying to
maximize the correctness. -/
def limitHistoryResults (map : OrderedMap IdUrlPair ν) (size execLimit : Nat) :
    OrderedMap IdUrlPair ν :=
  limitEntries (executionLimit map.size size execLimit) .empty 1 map.entries

private theorem limitEntries_eq (limit : Int) (resultMap : OrderedMap IdUrlPair ν) (i : Int)
    (entries : List (IdUrlPair × ν)) :
    limitEntries limit resultMap i entries =
      resultMap.putAll (entries.take (limit + 1 - i).toNat) := by
  induction entries generalizing resultMap i with
  | nil => simp [limitEntries, OrderedMap.putAll]
  | cons entry entries ih =>
    unfold limitEntries
    split
    · rename_i hlimit
      rw [show (limit + 1 - i).toNat = 0 by omega]
      rfl
    · rename_i hlimit
      rw [ih, show (limit + 1 - i).toNat = (limit + 1 - (i + 1)).toNat + 1 by omega]
      rfl

/-- The limit keeps the first executions. -/
theorem limitHistoryResults_entries (map : OrderedMap IdUrlPair ν) (size execLimit : Nat) :
    (limitHistoryResults map size execLimit).entries =
      map.entries.take (executionLimit map.size size execLimit).toNat := by
  rw [limitHistoryResults, limitEntries_eq, show ∀ limit : Int, limit + 1 - 1 = limit by omega,
    OrderedMap.entries_putAll]
  · rfl
  · refine List.Pairwise.sublist ?_ map.distinct
    exact (List.take_sublist _ _).map Prod.fst

end limitHistoryResults

/-- The executions that the fetched rows belong to, each with its rows. -/
def History.fetched (history : History) : OrderedMap IdUrlPair (List AppResult) :=
  groupJobs history.results .FLOW_EXECUTION_ID

/-- The executions that are displayed. -/
def History.executions (history : History) : OrderedMap IdUrlPair (List AppResult) :=
  limitHistoryResults history.fetched history.results.length MAX_HISTORY_LIMIT

/-- `list.get(list.size() - 1).finishTime` -/
def lastFinishTime (mrJobsList : List AppResult) : Except JavaException Int :=
  match mrJobsList.getLast? with
  | some job => .ok job.finishTime
  | none => .error .indexOutOfBounds

/-- `map.get(key)` dereferenced at once. -/
def getOrThrow {ν : Type} (map : OrderedMap IdUrlPair ν) (key : IdUrlPair) : Except JavaException ν :=
  match map.get? key with
  | some value => .ok value
  | none => .error .nullPointer

section pages

structure FlowHistoryResults where
  executionMap : OrderedMap IdUrlPair (OrderedMap IdUrlPair (List AppResult)) := .empty
  filteredResults : List AppResult := []
  flowExecTimeList : List Int := []

/-- One execution of the flow history. -/
def FlowHistoryResults.add (page : FlowHistoryResults) (entry : IdUrlPair × List AppResult) :
    Except JavaException FlowHistoryResults := do
  -- Reverse the list content from desc order of finish time to increasing order.
  let mrJobsList := entry.2.reverse
  let flowExecTime ← lastFinishTime mrJobsList
  pure { flowExecTimeList := page.flowExecTimeList ++ [flowExecTime]
         filteredResults := page.filteredResults ++ mrJobsList
         executionMap := page.executionMap.put entry.1 (groupJobs mrJobsList .JOB_DEFINITION_ID) }

/-- The unique list of jobs across executions with the names to show for them. -/
def FlowHistoryResults.idPairToJobNameMap (page : FlowHistoryResults) :
    List (IdUrlPair × Option String) :=
  (groupJobs page.filteredResults .JOB_DEFINITION_ID).entries.map fun entry =>
    (entry.1, entry.2.head?.bind AppResult.jobName)

def flowHistoryResults (history : History) : Except JavaException FlowHistoryResults :=
  history.executions.entries.foldlM FlowHistoryResults.add {}

/-- Controls the flow history. -/
def flowHistory (find : String → History) (flowDefId : Option String) :
    Except JavaException (Result (Option FlowHistoryResults)) :=
  match formField flowDefId with
  | none => .ok (.ok none)
  | some flowDefId =>
    if (find flowDefId).results.length = 0 then
      .ok (.notFound ("Unable to find record on flow url: " ++ flowDefId))
    else do
      let page ← flowHistoryResults (find flowDefId)
      pure (.ok (some page))

structure JobHistoryResults where
  executionMap : OrderedMap IdUrlPair (List AppResult) := .empty
  maxStages : Nat := 0
  flowExecTimeList : List Int := []

/-- One execution of the job history. -/
def JobHistoryResults.add (flowExecIdToJobsMap : OrderedMap IdUrlPair (List AppResult))
    (page : JobHistoryResults) (entry : IdUrlPair × List AppResult) :
    Except JavaException JobHistoryResults := do
  let mrJobsList := entry.2.reverse
  let flowExecTime ← lastFinishTime mrJobsList
  let stages ← getOrThrow flowExecIdToJobsMap entry.1
  let stageSize := stages.length
  pure { flowExecTimeList := page.flowExecTimeList ++ [flowExecTime]
         maxStages := if stageSize > page.maxStages then stageSize else page.maxStages
         executionMap := page.executionMap.put entry.1 stages.reverse }

def jobHistoryResults (history : History) : Except JavaException JobHistoryResults := do
  let page ← history.executions.entries.foldlM (JobHistoryResults.add history.executions) {}
  pure { page with
    maxStages := if page.maxStages > STAGE_LIMIT then STAGE_LIMIT else page.maxStages }

/-- Controls the job history. -/
def jobHistory (find : String → History) (jobDefId : Option String) :
    Except JavaException (Result (Option JobHistoryResults)) :=
  match formField jobDefId with
  | none => .ok (.ok none)
  | some jobDefId =>
    if (find jobDefId).results.length = 0 then
      .ok (.notFound ("Unable to find record on job url: " ++ jobDefId))
    else do
      let page ← jobHistoryResults (find jobDefId)
      pure (.ok (some page))

end pages

section graphs

/-- The loop over the key list from its end, so from the earliest execution to
the latest. -/
def datasets {ρ : Type} (record : IdUrlPair → Except JavaException ρ) (keyList : List IdUrlPair) :
    Nat → Except JavaException (List ρ)
  | 0 => pure []
  | i + 1 =>
    match keyList[i]? with
    | none => .error .indexOutOfBounds
    | some flowExecPair => do
      let dataset ← record flowExecPair
      let rest ← datasets record keyList i
      pure (dataset :: rest)

structure JobScore where
  jobscore : Int
  jobdefurl : Option String
  jobexecurl : Option String
  deriving DecidableEq, Repr

structure FlowRecord where
  flowtime : Int
  score : Int
  jobscores : List JobScore
  deriving DecidableEq, Repr

/-- A job in the jobscores list. -/
def jobScore (jobDefIdToJobsMap : OrderedMap IdUrlPair (List AppResult)) (jobDefPair : IdUrlPair) :
    Except JavaException JobScore := do
  let jobs ← getOrThrow jobDefIdToJobsMap jobDefPair
  match jobs.head? with
  | none => .error .indexOutOfBounds
  | some job =>
    pure { jobscore := sum32 (jobs.map AppResult.score)
           jobdefurl := jobDefPair.url
           jobexecurl := job.jobExecUrl }

/-- The execution record of the flow history graph. -/
def flowRecord (flowExecIdToJobsMap : OrderedMap IdUrlPair (List AppResult))
    (flowExecPair : IdUrlPair) : Except JavaException FlowRecord := do
  let mrJobsList := (← getOrThrow flowExecIdToJobsMap flowExecPair).reverse
  let jobDefIdToJobsMap := groupJobs mrJobsList .JOB_DEFINITION_ID
  let jobscores ← jobDefIdToJobsMap.keys.mapM (jobScore jobDefIdToJobsMap)
  let flowtime ← lastFinishTime mrJobsList
  pure { flowtime, score := sum32 (jobscores.map JobScore.jobscore), jobscores }

/-- The data for plotting the flow history graph. -/
def flowGraphData (history : History) : Except JavaException (List FlowRecord) :=
  let keyList := history.executions.keys
  datasets (flowRecord history.executions) keyList keyList.length

def restFlowGraphData (find : String → History) (flowDefId : Option String) :
    Except JavaException (List FlowRecord) :=
  match flowDefId.filter fun flowDefId => !flowDefId.isEmpty with
  | none => .ok []
  | some flowDefId => flowGraphData (find flowDefId)

structure StageScore where
  stageid : Option String
  stagescore : Int
  deriving DecidableEq, Repr

structure JobRecord where
  flowtime : Int
  score : Int
  stagescores : List StageScore
  deriving DecidableEq, Repr

/-- A particular mr stage. -/
def stageScore (appResult : AppResult) : StageScore where
  stageid := appResult.id
  stagescore := sum32 (appResult.yarnAppHeuristicResults.map AppHeuristicResult.score)

/-- The execution record of the job history graph. -/
def jobRecord (flowExecIdToJobsMap : OrderedMap IdUrlPair (List AppResult))
    (flowExecPair : IdUrlPair) : Except JavaException JobRecord := do
  let jobs ← getOrThrow flowExecIdToJobsMap flowExecPair
  let mrJobsList := jobs.reverse
  -- The stages are taken from the list that is not reversed.
  let stagescores := jobs.map stageScore
  let flowtime ← lastFinishTime mrJobsList
  pure { flowtime, score := sum32 (stagescores.map StageScore.stagescore), stagescores }

/-- The data for plotting the job history graph. -/
def jobGraphData (history : History) : Except JavaException (List JobRecord) :=
  let keyList := history.executions.keys
  datasets (jobRecord history.executions) keyList keyList.length

def restJobGraphData (find : String → History) (jobDefId : Option String) :
    Except JavaException (List JobRecord) :=
  match jobDefId.filter fun jobDefId => !jobDefId.isEmpty with
  | none => .ok []
  | some jobDefId => jobGraphData (find jobDefId)

end graphs

section specifications

theorem History.fetched_entries (history : History) : history.fetched.entries =
    (group GroupBy.FLOW_EXECUTION_ID.idField history.results).map fun entry =>
      (GroupBy.FLOW_EXECUTION_ID.key entry, entry.2) :=
  groupJobs_entries _ _

theorem History.mem_fetched {history : History} {entry : IdUrlPair × List AppResult}
    (hentry : entry ∈ history.fetched.entries) :
    entry.2 = history.results.filter (fun result => result.flowExecId = entry.1.id) ∧
      entry.2 ≠ [] :=
  mem_groupJobs hentry

/-- The executions displayed are the first of those fetched. -/
theorem History.executions_entries (history : History) :
    history.executions.entries = history.fetched.entries.take
      (executionLimit history.fetched.size history.results.length MAX_HISTORY_LIMIT).toNat :=
  limitHistoryResults_entries _ _ _

theorem History.mem_executions {history : History} {entry : IdUrlPair × List AppResult}
    (hentry : entry ∈ history.executions.entries) :
    entry.2 = history.results.filter (fun result => result.flowExecId = entry.1.id) ∧
      entry.2 ≠ [] := by
  rw [executions_entries] at hentry
  exact mem_fetched (List.mem_of_mem_take hentry)

/-- The finish time of the first row, the latest when rows are sorted. -/
def latest (rows : List AppResult) : Int := (rows.head?.map AppResult.finishTime).getD 0

theorem lastFinishTime_reverse {rows : List AppResult} (hrows : rows ≠ []) :
    lastFinishTime rows.reverse = .ok (latest rows) := by
  cases rows with
  | nil => exact absurd rfl hrows
  | cons row rows => simp [lastFinishTime, latest]

theorem getOrThrow_of_mem {ν : Type} {map : OrderedMap IdUrlPair ν} {entry : IdUrlPair × ν}
    (hentry : entry ∈ map.entries) : getOrThrow map entry.1 = .ok entry.2 := by
  rw [getOrThrow, OrderedMap.get?_eq_some_of_mem hentry]

private theorem foldlM_flowHistory {entries : List (IdUrlPair × List AppResult)}
    (hrows : ∀ entry ∈ entries, entry.2 ≠ []) (page : FlowHistoryResults) :
    entries.foldlM FlowHistoryResults.add page = .ok
      { executionMap := page.executionMap.putAll (entries.map fun entry =>
          (entry.1, groupJobs entry.2.reverse .JOB_DEFINITION_ID))
        filteredResults := page.filteredResults ++ entries.flatMap fun entry => entry.2.reverse
        flowExecTimeList := page.flowExecTimeList ++ entries.map fun entry => latest entry.2 } := by
  induction entries generalizing page with
  | nil => simp [OrderedMap.putAll, pure, Except.pure]
  | cons entry entries ih =>
    obtain ⟨hrow, hrest⟩ := List.forall_mem_cons.mp hrows
    simp only [List.foldlM_cons, FlowHistoryResults.add, lastFinishTime_reverse hrow, bind,
      Except.bind, pure, Except.pure]
    rw [ih hrest]
    simp [OrderedMap.putAll]

theorem flowHistoryResults_eq (history : History) : ∃ page,
    flowHistoryResults history = .ok page ∧
      page.executionMap.entries = (history.executions.entries.map fun entry =>
        (entry.1, groupJobs entry.2.reverse .JOB_DEFINITION_ID)) ∧
      page.flowExecTimeList = history.executions.entries.map fun entry => latest entry.2 := by
  have hpage := foldlM_flowHistory (fun entry hentry => (history.mem_executions hentry).2) {}
  refine ⟨_, hpage, ?_, by simp⟩
  dsimp only
  rw [OrderedMap.entries_putAll]
  · rfl
  · simpa [Function.comp_def] using history.executions.distinct

/-- The rows that are filtered are those of the executions, the latest execution
first and each from its first row to its last. -/
theorem flowHistoryResults_filteredResults {history : History} {page : FlowHistoryResults}
    (h : flowHistoryResults history = .ok page) :
    page.filteredResults = history.executions.entries.flatMap fun entry => entry.2.reverse := by
  have hpage := foldlM_flowHistory (fun entry hentry => (history.mem_executions hentry).2) {}
  obtain rfl := Except.ok.inj (h.symm.trans hpage)
  simp

private theorem foldlM_jobHistory {map : OrderedMap IdUrlPair (List AppResult)}
    {entries : List (IdUrlPair × List AppResult)} (hentries : ∀ entry ∈ entries, entry ∈ map.entries)
    (hrows : ∀ entry ∈ entries, entry.2 ≠ []) (page : JobHistoryResults) :
    entries.foldlM (JobHistoryResults.add map) page = .ok
      { executionMap := page.executionMap.putAll (entries.map fun entry =>
          (entry.1, entry.2.reverse))
        maxStages := (entries.map fun entry => entry.2.length).foldl max page.maxStages
        flowExecTimeList := page.flowExecTimeList ++ entries.map fun entry => latest entry.2 } := by
  induction entries generalizing page with
  | nil => simp [OrderedMap.putAll, pure, Except.pure]
  | cons entry entries ih =>
    obtain ⟨hmem, hmems⟩ := List.forall_mem_cons.mp hentries
    obtain ⟨hrow, hrest⟩ := List.forall_mem_cons.mp hrows
    have hmax : (if entry.2.length > page.maxStages then entry.2.length else page.maxStages) =
        max page.maxStages entry.2.length := by
      split <;> omega
    simp only [List.foldlM_cons, JobHistoryResults.add, lastFinishTime_reverse hrow,
      getOrThrow_of_mem hmem, bind, Except.bind, pure, Except.pure, hmax]
    rw [ih hmems hrest]
    simp [OrderedMap.putAll]

theorem jobHistoryResults_eq (history : History) : ∃ page,
    jobHistoryResults history = .ok page ∧
      page.executionMap.entries = (history.executions.entries.map fun entry =>
        (entry.1, entry.2.reverse)) ∧
      page.maxStages = min STAGE_LIMIT
        ((history.executions.entries.map fun entry => entry.2.length).foldl max 0) ∧
      page.flowExecTimeList = history.executions.entries.map fun entry => latest entry.2 := by
  have hmem : ∀ entry ∈ history.executions.entries, entry ∈ history.executions.entries :=
    fun _ hentry => hentry
  have hpage := foldlM_jobHistory hmem (fun entry hentry => (history.mem_executions hentry).2) {}
  simp only [jobHistoryResults, hpage, bind, Except.bind, pure, Except.pure]
  refine ⟨_, rfl, ?_, ?_, by simp⟩
  · dsimp only
    rw [OrderedMap.entries_putAll]
    · rfl
    · simpa [Function.comp_def] using history.executions.distinct
  · dsimp only
    split <;> omega

/-- One record for each execution, the last execution first. -/
theorem datasets_eq {ρ ν : Type} {map : OrderedMap IdUrlPair ν}
    {record : IdUrlPair → Except JavaException ρ} {f : IdUrlPair × ν → ρ}
    (hrecord : ∀ entry ∈ map.entries, record entry.1 = .ok (f entry)) :
    datasets record map.keys map.keys.length = .ok (map.entries.reverse.map f) := by
  have htaken : ∀ i ≤ map.entries.length,
      datasets record map.keys i = .ok ((map.entries.take i).reverse.map f) := by
    intro i hi
    induction i with
    | zero => rfl
    | succ i ih =>
      have hkey : map.keys[i]? = some map.entries[i].1 := by
        simp [OrderedMap.keys, List.getElem?_eq_getElem hi]
      simp only [datasets, hkey, hrecord _ (List.getElem_mem hi), ih (by omega), bind, Except.bind,
        pure, Except.pure]
      rw [List.take_succ_eq_append_getElem (Nat.lt_of_succ_le hi), List.reverse_append, List.map_append]
      rfl
  rw [OrderedMap.keys, List.length_map]
  simpa [OrderedMap.keys] using htaken map.entries.length le_rfl

/-- What the loop over the jobs of an execution leaves for one of them. -/
def jobScoreOf (entry : IdUrlPair × List AppResult) : JobScore where
  jobscore := sum32 (entry.2.map AppResult.score)
  jobdefurl := entry.1.url
  jobexecurl := entry.2.head?.bind AppResult.jobExecUrl

def jobScoresOf (rows : List AppResult) : List JobScore :=
  (groupJobs rows.reverse .JOB_DEFINITION_ID).entries.map jobScoreOf

def flowRecordOf (rows : List AppResult) : FlowRecord where
  flowtime := latest rows
  score := sum32 ((jobScoresOf rows).map JobScore.jobscore)
  jobscores := jobScoresOf rows

def jobRecordOf (rows : List AppResult) : JobRecord where
  flowtime := latest rows
  score := sum32 ((rows.map stageScore).map StageScore.stagescore)
  stagescores := rows.map stageScore

private theorem jobScore_eq {map : OrderedMap IdUrlPair (List AppResult)}
    {entry : IdUrlPair × List AppResult} (hentry : entry ∈ map.entries) (hrows : entry.2 ≠ []) :
    jobScore map entry.1 = .ok (jobScoreOf entry) := by
  simp only [jobScore, getOrThrow_of_mem hentry, bind, Except.bind]
  cases hhead : entry.2 with
  | nil => exact absurd hhead hrows
  | cons job jobs => simp [jobScoreOf, hhead, pure, Except.pure]

theorem flowRecord_eq {map : OrderedMap IdUrlPair (List AppResult)}
    {entry : IdUrlPair × List AppResult} (hentry : entry ∈ map.entries) (hrows : entry.2 ≠ []) :
    flowRecord map entry.1 = .ok (flowRecordOf entry.2) := by
  have hjobs : (groupJobs entry.2.reverse .JOB_DEFINITION_ID).keys.mapM
      (jobScore (groupJobs entry.2.reverse .JOB_DEFINITION_ID)) = .ok (jobScoresOf entry.2) := by
    rw [OrderedMap.keys, List.mapM_map]
    exact mapM_eq_ok fun group hgroup => jobScore_eq hgroup (mem_groupJobs hgroup).2
  simp only [flowRecord, getOrThrow_of_mem hentry, hjobs, lastFinishTime_reverse hrows, bind,
    Except.bind, pure, Except.pure, flowRecordOf]

theorem jobRecord_eq {map : OrderedMap IdUrlPair (List AppResult)}
    {entry : IdUrlPair × List AppResult} (hentry : entry ∈ map.entries) (hrows : entry.2 ≠ []) :
    jobRecord map entry.1 = .ok (jobRecordOf entry.2) := by
  simp only [jobRecord, getOrThrow_of_mem hentry, lastFinishTime_reverse hrows, bind, Except.bind,
    pure, Except.pure, jobRecordOf]

theorem flowGraphData_eq (history : History) : flowGraphData history =
    .ok (history.executions.entries.reverse.map fun entry => flowRecordOf entry.2) :=
  datasets_eq fun _ hentry => flowRecord_eq hentry (History.mem_executions hentry).2

theorem jobGraphData_eq (history : History) : jobGraphData history =
    .ok (history.executions.entries.reverse.map fun entry => jobRecordOf entry.2) :=
  datasets_eq fun _ hentry => jobRecord_eq hentry (History.mem_executions hentry).2

theorem isEmpty_of_formField {value : Option String} {field : String}
    (h : formField value = some field) : field.isEmpty = false := by
  simpa using (Option.filter_eq_some_iff.mp h).2

/-- A page of the flow history shows the rows of the definition that was asked for. -/
theorem flowHistory_page {find : String → History} {flowDefId : Option String}
    {page : FlowHistoryResults} (h : flowHistory find flowDefId = .ok (.ok (some page))) :
    ∃ id, formField flowDefId = some id ∧ flowHistoryResults (find id) = .ok page := by
  unfold flowHistory at h
  cases hid : formField flowDefId with
  | none => simp [hid] at h
  | some id =>
    simp only [hid] at h
    split at h
    · cases h
    · obtain ⟨page', hpage, hresult⟩ := bind_eq_ok_iff.mp h
      cases pure_eq_ok_iff.mp hresult
      exact ⟨id, rfl, hpage⟩

theorem jobHistory_page {find : String → History} {jobDefId : Option String}
    {page : JobHistoryResults} (h : jobHistory find jobDefId = .ok (.ok (some page))) :
    ∃ id, formField jobDefId = some id ∧ jobHistoryResults (find id) = .ok page := by
  unfold jobHistory at h
  cases hid : formField jobDefId with
  | none => simp [hid] at h
  | some id =>
    simp only [hid] at h
    split at h
    · cases h
    · obtain ⟨page', hpage, hresult⟩ := bind_eq_ok_iff.mp h
      cases pure_eq_ok_iff.mp hresult
      exact ⟨id, rfl, hpage⟩

theorem restFlowGraphData_eq {find : String → History} {id : String} (hid : id.isEmpty = false) :
    restFlowGraphData find (some id) = .ok
      ((find id).executions.entries.reverse.map fun entry => flowRecordOf entry.2) := by
  simp only [restFlowGraphData, Option.filter_some, hid, Bool.not_false, if_true, flowGraphData_eq]

theorem restJobGraphData_eq {find : String → History} {id : String} (hid : id.isEmpty = false) :
    restJobGraphData find (some id) = .ok
      ((find id).executions.entries.reverse.map fun entry => jobRecordOf entry.2) := by
  simp only [restJobGraphData, Option.filter_some, hid, Bool.not_false, if_true, jobGraphData_eq]

end specifications

end controllers
