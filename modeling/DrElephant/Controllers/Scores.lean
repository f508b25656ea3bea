import DrElephant.Analysis.GetAnalysis
import DrElephant.Controllers.History

open collections drelephant.analysis drelephant.util java.lang machine models

namespace controllers

/-- The rows of `yarn_app_result`, and those of each flow definition and each
job definition in the order in which the history queries return them. -/
structure Database where
  table : List AppResult
  flows : String → History
  jobs : String → History
  flows_rows : ∀ id, (flows id).all.Perm (table.filter fun row => row.flowDefId = some id)
  jobs_rows : ∀ id, (jobs id).all.Perm (table.filter fun row => row.jobDefId = some id)

/-- The row is what an analysis returned. -/
def Analysed (row : AppResult) : Prop :=
  ∃ (δ : Type) (_ : HadoopApplicationData δ) (context : ElephantContext δ)
    (setup : InfoExtractor.Setup δ) (job : AnalyticJob), (job.getAnalysis context setup).1 = .ok row

section lookups

variable {ρ ν : Type}

/-- The element that stands in a list where the map that the list was made from
has an id. -/
def atKey (map : OrderedMap IdUrlPair ν) (data : List ρ) (id : Option String) : Option ρ :=
  ((map.keys.zip data).find? fun entry => entry.1.id = id).map Prod.snd

/-- The record that a graph shows for an execution. The first execution has the
last record. -/
def recordOf (history : History) (data : List ρ) (flowExecId : Option String) : Option ρ :=
  atKey history.executions data.reverse flowExecId

/-- What the record of an execution has in `jobscores` for a job definition. -/
def jobScoreIn (history : History) (data : List FlowRecord) (flowExecId jobDefId : Option String) :
    Option JobScore := do
  let jobs ← history.executions.get? ⟨flowExecId, none⟩
  let record ← recordOf history data flowExecId
  atKey (groupJobs jobs.reverse .JOB_DEFINITION_ID) record.jobscores jobDefId

/-- The history has an execution that it displays. -/
def History.Shows (history : History) (flowExecId : Option String) : Prop :=
  flowExecId ∈ history.executions.keys.map IdUrlPair.id

/-- The rows fetched for an execution. -/
def History.rowsOf (history : History) (flowExecId : Option String) : List AppResult :=
  history.results.filter fun row => row.flowExecId = flowExecId

theorem atKey_map {map : OrderedMap IdUrlPair ν} {id : Option String}
    (hid : id ∈ map.keys.map IdUrlPair.id) (f : IdUrlPair × ν → ρ) :
    ∃ entry ∈ map.entries, entry.1.id = id ∧ atKey map (map.entries.map f) id = some (f entry) := by
  rw [OrderedMap.keys, List.map_map, List.mem_map] at hid
  obtain ⟨witness, hmem, hwitness⟩ := hid
  cases hfind : map.entries.find? fun entry => entry.1.id = id with
  | none => exact absurd hwitness (by simpa using List.find?_eq_none.mp hfind witness hmem)
  | some entry =>
    refine ⟨entry, List.mem_of_find?_eq_some hfind, by simpa using List.find?_some hfind, ?_⟩
    rw [atKey, OrderedMap.keys, List.zip_map', List.find?_map, Option.map_map]
    simp only [Function.comp_def, hfind, Option.map_some]

variable {history : History} {flowExecId : Option String}

theorem recordOf_shown (hshows : history.Shows flowExecId) (f : List AppResult → ρ) :
    recordOf history (history.executions.entries.reverse.map fun entry => f entry.2) flowExecId =
      some (f (history.rowsOf flowExecId)) := by
  rw [recordOf, List.map_reverse, List.reverse_reverse]
  obtain ⟨entry, hentry, rfl, hfound⟩ := atKey_map hshows fun entry => f entry.2
  rw [hfound, (History.mem_executions hentry).1]
  rfl

theorem get?_shown (hshows : history.Shows flowExecId) (url : Option String) :
    history.executions.get? ⟨flowExecId, url⟩ = some (history.rowsOf flowExecId) := by
  obtain ⟨pair, hpair, rfl⟩ := List.mem_map.mp hshows
  obtain ⟨entry, hentry, rfl⟩ := List.mem_map.mp hpair
  have hsame : ((⟨entry.1.id, url⟩ : IdUrlPair) == entry.1) = true := IdUrlPair.beq_iff.mpr rfl
  rw [OrderedMap.get?_congr _ hsame, OrderedMap.get?_eq_some_of_mem hentry,
    (History.mem_executions hentry).1]
  rfl

end lookups

section scores

theorem stagescore_eq {row : AppResult} (hrow : row.Accounted) :
    (stageScore row).stagescore = row.score := by
  rw [hrow.score_eq]
  exact sum32_eq _

/-- Summing the heuristic rows of an execution gives the sum of its scores. -/
theorem jobRecordOf_score {rows : List AppResult} (hrows : ∀ row ∈ rows, row.Accounted) :
    (jobRecordOf rows).score = sum32 (rows.map AppResult.score) := by
  rw [jobRecordOf, List.map_map]
  exact congrArg sum32 (List.map_congr_left fun row hrow => stagescore_eq (hrows row hrow))

theorem jobScoresOf_atKey {rows : List AppResult} {jobDefId : Option String}
    (hid : jobDefId ∈ rows.map AppResult.jobDefId) : ∃ jobScore,
    atKey (groupJobs rows.reverse .JOB_DEFINITION_ID) (jobScoresOf rows) jobDefId = some jobScore ∧
      jobScore.jobscore =
        sum32 ((rows.filter fun row => row.jobDefId = jobDefId).map AppResult.score) := by
  have hkey : jobDefId ∈ (groupJobs rows.reverse .JOB_DEFINITION_ID).keys.map IdUrlPair.id :=
    mem_keys_groupJobs.mpr (by simpa [GroupBy.idField] using hid)
  obtain ⟨entry, hentry, rfl, hfound⟩ := atKey_map hkey jobScoreOf
  refine ⟨_, hfound, ?_⟩
  have hsum : (entry.2.map AppResult.score).sum =
      ((rows.filter fun row => row.jobDefId = entry.1.id).map AppResult.score).sum := by
    rw [(mem_groupJobs hentry).1]
    exact ((rows.reverse_perm.filter _).map _).sum_eq
  rw [jobScoreOf, sum32_eq, sum32_eq, hsum]

theorem jobScoreIn_shown {history : History} {flowExecId jobDefId : Option String}
    (hshows : history.Shows flowExecId)
    (hid : jobDefId ∈ (history.rowsOf flowExecId).map AppResult.jobDefId) : ∃ jobScore,
    jobScoreIn history
      (history.executions.entries.reverse.map fun entry => flowRecordOf entry.2) flowExecId jobDefId =
        some jobScore ∧
    jobScore.jobscore = sum32
      (((history.rowsOf flowExecId).filter fun row => row.jobDefId = jobDefId).map AppResult.score) := by
  obtain ⟨jobScore, hjobScore, hscore⟩ := jobScoresOf_atKey hid
  refine ⟨jobScore, ?_, hscore⟩
  simp only [jobScoreIn, get?_shown hshows, recordOf_shown hshows, Option.bind_eq_bind,
    Option.bind_some]
  exact hjobScore

theorem History.nodup_results (history : History) : history.results.Nodup :=
  history.primaryKey.of_map.sublist (List.take_sublist _ _)

namespace Database

/-- Both queries returned every row of a job in an execution. -/
def Fetched (database : Database) (flowDefId jobDefId : String) (flowExecId : Option String) : Prop :=
  ∀ row ∈ database.table, row.flowExecId = flowExecId → row.jobDefId = some jobDefId →
    row ∈ (database.flows flowDefId).results ∧ row ∈ (database.jobs jobDefId).results

variable {database : Database} {flowDefId jobDefId : String} {row : AppResult}

theorem of_mem_flows (hrow : row ∈ (database.flows flowDefId).results) : row ∈ database.table := by
  have hmem := (database.flows_rows flowDefId).mem_iff.mp (List.mem_of_mem_take hrow)
  exact List.mem_of_mem_filter hmem

theorem of_mem_jobs (hrow : row ∈ (database.jobs jobDefId).results) :
    row ∈ database.table ∧ row.jobDefId = some jobDefId := by
  have hmem := (database.jobs_rows jobDefId).mem_iff.mp (List.mem_of_mem_take hrow)
  simpa using hmem

variable {flowExecId : Option String}

theorem Fetched.rows_perm (h : database.Fetched flowDefId jobDefId flowExecId) :
    (((database.flows flowDefId).rowsOf flowExecId).filter fun row => row.jobDefId = some jobDefId).Perm
      ((database.jobs jobDefId).rowsOf flowExecId) := by
  refine (List.perm_ext_iff_of_nodup ?_ ?_).mpr fun row => ?_
  · exact ((History.nodup_results _).filter _).filter _
  · exact (History.nodup_results _).filter _
  · simp only [History.rowsOf, List.mem_filter, decide_eq_true_eq]
    constructor
    · rintro ⟨⟨hflow, hexec⟩, hjob⟩
      exact ⟨(h row (of_mem_flows hflow) hexec hjob).2, hexec⟩
    · rintro ⟨hmem, hexec⟩
      obtain ⟨htable, hjob⟩ := of_mem_jobs hmem
      exact ⟨⟨(h row htable hexec hjob).1, hexec⟩, hjob⟩

/-- The score of a job in an execution is the same in both graphs. -/
theorem Fetched.score_eq (h : database.Fetched flowDefId jobDefId flowExecId)
    (hrows : ∀ row ∈ database.table, row.Accounted)
    (hflow : (database.flows flowDefId).Shows flowExecId)
    (hjob : (database.jobs jobDefId).Shows flowExecId) : ∃ jobScore record,
    jobScoreIn (database.flows flowDefId)
      ((database.flows flowDefId).executions.entries.reverse.map fun entry => flowRecordOf entry.2)
      flowExecId (some jobDefId) = some jobScore ∧
    recordOf (database.jobs jobDefId)
      ((database.jobs jobDefId).executions.entries.reverse.map fun entry => jobRecordOf entry.2)
      flowExecId = some record ∧
    jobScore.jobscore = record.score := by
  -- An execution that the job graph shows has a row of the job.
  obtain ⟨row, hrow⟩ : ∃ row, row ∈ (database.jobs jobDefId).rowsOf flowExecId := by
    obtain ⟨pair, hpair, rfl⟩ := List.mem_map.mp hjob
    obtain ⟨entry, hentry, rfl⟩ := List.mem_map.mp hpair
    obtain ⟨hfetched, hne⟩ := History.mem_executions hentry
    rw [hfetched] at hne
    exact List.exists_mem_of_ne_nil _ hne
  have hfound : some jobDefId ∈
      ((database.flows flowDefId).rowsOf flowExecId).map AppResult.jobDefId := by
    have hmem := List.mem_filter.mp (h.rows_perm.mem_iff.mpr hrow)
    exact List.mem_map.mpr ⟨row, hmem.1, by simpa using hmem.2⟩
  obtain ⟨jobScore, hjobScore, hscore⟩ := jobScoreIn_shown hflow hfound
  refine ⟨jobScore, _, hjobScore, recordOf_shown hjob jobRecordOf, ?_⟩
  have haccounted : ∀ row ∈ (database.jobs jobDefId).rowsOf flowExecId, row.Accounted :=
    fun row hrow => hrows row (of_mem_jobs (List.mem_of_mem_filter hrow)).1
  rw [hscore, jobRecordOf_score haccounted, sum32_eq, sum32_eq, (h.rows_perm.map _).sum_eq]

end Database

/-- Rows account for their severity and score as an analysis returns them, and
therefore the graphs of the flow and of the job history report one score for a
job in an execution whose rows neither query cut off. -/
theorem score_consistency :
    (∀ (δ : Type) [HadoopApplicationData δ] (context : ElephantContext δ)
      (setup : InfoExtractor.Setup δ) (job : AnalyticJob) (result : AppResult),
      (job.getAnalysis context setup).1 = .ok result → result.Accounted ∧
        ∃ fetchData data results, context.typeToFetcher job.type = some fetchData ∧
          (fetchData job).1 = .ok data ∧
          AnalyticJob.HeuristicResults context job.type data results ∧
          result.yarnAppHeuristicResults = results.map HeuristicResult.toAppHeuristicResult) ∧
    ∀ (database : Database), (∀ row ∈ database.table, Analysed row) →
      ∀ flowDefId jobDefId : String, flowDefId.isEmpty = false → jobDefId.isEmpty = false →
        ∃ flowData jobData, restFlowGraphData database.flows (some flowDefId) = .ok flowData ∧
          restJobGraphData database.jobs (some jobDefId) = .ok jobData ∧
          (∀ record ∈ flowData, record.score = sum32 (record.jobscores.map JobScore.jobscore)) ∧
          (∀ record ∈ jobData, record.score = sum32 (record.stagescores.map StageScore.stagescore)) ∧
          ∀ flowExecId, (database.flows flowDefId).Shows flowExecId →
            (database.jobs jobDefId).Shows flowExecId →
            database.Fetched flowDefId jobDefId flowExecId → ∃ jobScore record,
              jobScoreIn (database.flows flowDefId) flowData flowExecId (some jobDefId) =
                some jobScore ∧
              recordOf (database.jobs jobDefId) jobData flowExecId = some record ∧
              jobScore.jobscore = record.score := by
  refine ⟨fun _ _ _ _ _ _ h => AnalyticJob.getAnalysis_accounted h, ?_⟩
  intro database hanalysed flowDefId jobDefId hflowDefId hjobDefId
  have haccounted : ∀ row ∈ database.table, row.Accounted := by
    intro row hrow
    obtain ⟨_, _, _, _, _, hresult⟩ := hanalysed row hrow
    exact (AnalyticJob.getAnalysis_accounted hresult).1
  refine ⟨_, _, restFlowGraphData_eq hflowDefId, restJobGraphData_eq hjobDefId, ?_, ?_, ?_⟩
  · intro record hrecord
    obtain ⟨_, _, rfl⟩ := List.mem_map.mp hrecord
    rfl
  · intro record hrecord
    obtain ⟨_, _, rfl⟩ := List.mem_map.mp hrecord
    rfl
  · exact fun flowExecId hflow hjob hfetched => hfetched.score_eq haccounted hflow hjob

end scores

section examples

private def mapperResults : List HeuristicResult :=
  [⟨some "Mapper Time", some "Mapper Time", .LOW, 1, []⟩, ⟨some "Mapper GC", some "Mapper GC", .MODERATE, 4, []⟩]

/-- A row as it is stored for an application with two heuristic results. -/
private def scoredRow (id jobDefId flowExecId : String) (finishTime : Int) : AppResult :=
  { AppResult.row id jobDefId flowExecId finishTime with
    jobType := some AnalyticJob.UNKNOWN_JOB_TYPE
    severity := .MODERATE
    score := 5
    yarnAppHeuristicResults := mapperResults.map HeuristicResult.toAppHeuristicResult }

private theorem analysed_scoredRow {id jobDefId flowExecId : String} (finishTime : Int)
    (hid : utf16Length id ≤ 50) (hjob : utf16Length jobDefId ≤ 255) (hflow : utf16Length flowExecId ≤ 255)
    (hids : id ≠ "" ∧ jobDefId ≠ "" ∧ flowExecId ≠ "") :
    Analysed (scoredRow id jobDefId flowExecId finishTime) := by
  let scheduler : Scheduler :=
    ⟨some "azkaban", false, some jobDefId, some id, some "flow", some flowExecId, none, none, none,
      none, some jobDefId, 0⟩
  let heuristics : List (Heuristic Unit) := mapperResults.map fun result _ => .ok (some result)
  let job : AnalyticJob := ⟨0, ⟨"MAPREDUCE"⟩, id, "", "", "", none, 1000, finishTime⟩
  refine ⟨Unit, ⟨fun _ => none, fun _ => none, fun _ => ⟨""⟩, fun _ => false⟩,
    { ElephantContext.single "MAPREDUCE" fun _ => (.ok (some ()), none) with
      typeToHeuristics := fun _ => some heuristics },
    ⟨[⟨"AzkabanScheduler", fun _ _ => .ok scheduler⟩], fun _ => .ok (some fun _ => none)⟩, job, ?_⟩
  have hloaded : InfoExtractor.loadSchedulerInfo (job.toAppResult mapperResults none) scheduler =
      scoredRow id jobDefId flowExecId finishTime := by
    have hId : Utils.truncateField (some id) AppResult.ID_LIMIT = some id :=
      Utils.truncateField_of_le hid
    have hJobExecId : Utils.truncateField (some id) AppResult.URL_LEN_LIMIT = some id :=
      Utils.truncateField_of_le (hid.trans (by decide))
    have hJobDefId : Utils.truncateField (some jobDefId) AppResult.URL_LEN_LIMIT = some jobDefId :=
      Utils.truncateField_of_le (hjob.trans (by decide))
    have hJobName : Utils.truncateField (some jobDefId) AppResult.JOB_NAME_LIMIT = some jobDefId :=
      Utils.truncateField_of_le hjob
    have hFlowExecId : Utils.truncateField (some flowExecId) AppResult.FLOW_EXEC_ID_LIMIT =
        some flowExecId := Utils.truncateField_of_le hflow
    have hFlowDefId : Utils.truncateField (some "flow") AppResult.URL_LEN_LIMIT = some "flow" := rfl
    have hset : ∀ text : String, text ≠ "" → Utils.isSet (some text) = true := by
      intro text htext
      simpa [Utils.isSet] using htext
    simp only [InfoExtractor.loadSchedulerInfo, InfoExtractor.textOrEmpty, AnalyticJob.toAppResult,
      scheduler, job, hId, hJobExecId, hJobDefId, hJobName, hFlowExecId, hFlowDefId, hset _ hids.1,
      hset _ hids.2.1, hset _ hids.2.2, hset "flow" (by decide)]
    rfl
  exact congrArg Except.ok hloaded

/-- The database of a table that is sorted already. -/
private def Database.ofSorted (table : List AppResult)
    (hdescending : table.Pairwise fun a b => b.finishTime ≤ a.finishTime)
    (hkey : (table.map AppResult.id).Nodup) : Database where
  table := table
  flows id := ⟨table.filter fun row => row.flowDefId = some id,
    hdescending.sublist List.filter_sublist, hkey.sublist (List.filter_sublist.map _)⟩
  jobs id := ⟨table.filter fun row => row.jobDefId = some id,
    hdescending.sublist List.filter_sublist, hkey.sublist (List.filter_sublist.map _)⟩
  flows_rows _ := .refl _
  jobs_rows _ := .refl _

/-- The execution that finished last is displayed, unless the fetched rows are
all of it and as many as the query may return. -/
private theorem shows_first {history : History} {first : AppResult} {rest : List AppResult}
    (hresults : history.results = first :: rest)
    (hlimit : history.results.length < JOB_HISTORY_LIMIT ∨
      ∃ row ∈ history.results, row.flowExecId ≠ first.flowExecId) :
    history.Shows first.flowExecId := by
  have hkeys : ∀ row ∈ history.results, row.flowExecId ∈ history.fetched.keys.map IdUrlPair.id :=
    fun row hrow => mem_keys_groupJobs.mpr (List.mem_map_of_mem (f := AppResult.flowExecId) hrow)
  have hpos : 0 < executionLimit history.fetched.size history.results.length MAX_HISTORY_LIMIT := by
    have hsize : history.results.length < JOB_HISTORY_LIMIT ∨ 1 < history.fetched.size := by
      refine hlimit.imp_right fun ⟨row, hrow, hne⟩ => ?_
      have hfirst := hkeys first (by simp [hresults])
      have hother := hkeys row hrow
      have hlength : history.fetched.size = (history.fetched.keys.map IdUrlPair.id).length := by
        simp [OrderedMap.size, OrderedMap.keys]
      rw [hlength]
      generalize history.fetched.keys.map IdUrlPair.id = ids at hfirst hother
      rcases ids with _ | ⟨id, _ | ⟨id', ids⟩⟩
      · cases hfirst
      · exact absurd ((List.mem_singleton.mp hother).trans (List.mem_singleton.mp hfirst).symm) hne
      · simp
    have hmax : MAX_HISTORY_LIMIT = 15 := rfl
    rw [executionLimit, hmax]
    split
    · simp
    · split
      · split <;> omega
      · omega
  rw [History.Shows, OrderedMap.keys, History.executions_entries, History.fetched_entries, hresults,
    group_cons, ← hresults]
  obtain ⟨n, hn⟩ : ∃ n, (executionLimit history.fetched.size history.results.length
      MAX_HISTORY_LIMIT).toNat = n + 1 := Nat.exists_eq_succ_of_ne_zero (by omega)
  rw [hn, List.map_cons, List.take_succ_cons]
  exact List.mem_cons_self ..

/-- An execution of a job with two applications, beside one of another job. -/
private def twoApplications : List AppResult :=
  [scoredRow "application_3" "other job" "exec" 3, scoredRow "application_2" "job" "exec" 2,
    scoredRow "application_1" "job" "exec" 1]

private def twoApplicationsDatabase : Database :=
  .ofSorted twoApplications (by simp [twoApplications, scoredRow, AppResult.row])
    (by simp [twoApplications, scoredRow, AppResult.row])

theorem score_consistency_twoApplications : (∀ row ∈ twoApplications, row.Accounted) ∧
    ∃ flowData jobData jobScore record,
      restFlowGraphData twoApplicationsDatabase.flows (some "flow") = .ok flowData ∧
      restJobGraphData twoApplicationsDatabase.jobs (some "job") = .ok jobData ∧
      jobScoreIn (twoApplicationsDatabase.flows "flow") flowData (some "exec") (some "job") = some jobScore ∧
      recordOf (twoApplicationsDatabase.jobs "job") jobData (some "exec") = some record ∧
      jobScore.jobscore = record.score := by
  have hanalysed : ∀ row ∈ twoApplications, Analysed row := by
    refine List.forall_mem_cons.mpr ⟨?_, List.forall_mem_cons.mpr ⟨?_, List.forall_mem_singleton.mpr ?_⟩⟩
    · exact analysed_scoredRow 3 (by decide) (by decide) (by decide) ⟨by decide, by decide, by decide⟩
    · exact analysed_scoredRow 2 (by decide) (by decide) (by decide) ⟨by decide, by decide, by decide⟩
    · exact analysed_scoredRow 1 (by decide) (by decide) (by decide) ⟨by decide, by decide, by decide⟩
  have hflows : (twoApplicationsDatabase.flows "flow").results = twoApplications := rfl
  have hjobs : (twoApplicationsDatabase.jobs "job").results = twoApplications.tail := rfl
  constructor
  · intro row hrow
    obtain ⟨δ, _, context, setup, job, hresult⟩ := hanalysed row hrow
    exact (score_consistency.1 δ context setup job row hresult).1
  · obtain ⟨flowData, jobData, hflow, hjob, -, -, hscores⟩ :=
      score_consistency.2 twoApplicationsDatabase hanalysed "flow" "job" (by decide) (by decide)
    have hfetched : twoApplicationsDatabase.Fetched "flow" "job" (some "exec") := by
      intro row hrow _ hjobDef
      rw [hflows, hjobs]
      refine ⟨hrow, (List.mem_cons.mp hrow).resolve_left ?_⟩
      rintro rfl
      simp [scoredRow, AppResult.row] at hjobDef
    obtain ⟨jobScore, record, hjobScore, hrecord, heq⟩ := hscores (some "exec")
      (shows_first hflows (.inl (by decide))) (shows_first hjobs (.inl (by decide))) hfetched
    exact ⟨flowData, jobData, jobScore, record, hflow, hjob, hjobScore, hrecord, heq⟩

section truncation

variable (m : Nat)

/-- The first and the last of the rows belong to one execution of a job. -/
private def truncatedRow (n : Nat) : AppResult :=
  if n = 0 ∨ n = m + 1 then scoredRow ("application_" ++ n.repr) "job" "exec" (1000000 - n)
  else scoredRow ("application_" ++ n.repr) "other job" "other exec" (1000000 - n)

private theorem truncatedRow_fields (n : Nat) :
    (truncatedRow m n).id = some ("application_" ++ n.repr) ∧
      (truncatedRow m n).finishTime = 1000000 - n ∧
      (truncatedRow m n).score = 5 ∧ (truncatedRow m n).flowDefId = some "flow" := by
  unfold truncatedRow
  split <;> exact ⟨rfl, rfl, rfl, rfl⟩

private theorem truncatedRow_jobDefId {n : Nat} :
    (truncatedRow m n).jobDefId = some "job" ↔ n = 0 ∨ n = m + 1 := by
  unfold truncatedRow
  split <;> simp [scoredRow, AppResult.row, *]

private theorem truncatedRow_flowExecId {n : Nat} :
    (truncatedRow m n).flowExecId = some "exec" ↔ n = 0 ∨ n = m + 1 := by
  unfold truncatedRow
  split <;> simp [scoredRow, AppResult.row, *]

private theorem analysed_truncatedRow {n : Nat} (hn : n < 10 ^ 4) : Analysed (truncatedRow m n) := by
  have hdigits : n.repr.length ≤ 4 := (Nat.length_repr_le_iff (by decide)).mpr hn
  have hid : utf16Length ("application_" ++ n.repr) ≤ 50 := by
    refine (utf16Length_le _).trans ?_
    rw [String.length_append, show "application_".length = 12 from rfl]
    omega
  have hne : "application_" ++ n.repr ≠ "" := by simp
  unfold truncatedRow
  split
  · exact analysed_scoredRow _ hid (by decide) (by decide) ⟨hne, by decide, by decide⟩
  · exact analysed_scoredRow _ hid (by decide) (by decide) ⟨hne, by decide, by decide⟩

private def truncated : Database :=
  .ofSorted ((List.range (m + 2)).map (truncatedRow m))
    (by
      refine List.pairwise_map.mpr (List.pairwise_lt_range.imp fun h => ?_)
      simp only [(truncatedRow_fields m _).2.1]
      omega)
    (by
      rw [List.map_map]
      refine List.nodup_range.map fun n n' h => ?_
      have hrepr : n.repr = n'.repr := by simpa [(truncatedRow_fields m _).1] using h
      have hdigits : Nat.toDigits 10 n = Nat.toDigits 10 n' := by
        rw [← Nat.toList_repr, hrepr, Nat.toList_repr]
      rw [← Nat.ofDigitChars_ten_toDigits (n := n), hdigits, Nat.ofDigitChars_ten_toDigits])

private theorem filter_range_ends {p : Nat → Bool} (hp : ∀ n, p n = true ↔ n = 0 ∨ n = m + 1) :
    (List.range (m + 1)).filter p = [0] ∧ (List.range (m + 2)).filter p = [0, m + 1] := by
  have hfirst : (List.range (m + 1)).filter p = [0] := by
    rw [List.range_succ_eq_map, List.filter_cons_of_pos (by simp [hp]), List.filter_map,
      List.filter_eq_nil_iff.mpr ?_, List.map_nil]
    intro n hn
    have := List.mem_range.mp hn
    simp only [Function.comp_apply, hp]
    omega
  refine ⟨hfirst, ?_⟩
  rw [List.range_succ, List.filter_append, hfirst, List.filter_cons_of_pos (by simp [hp])]
  rfl

private theorem truncated_flows (hm : JOB_HISTORY_LIMIT = m + 1) :
    ((truncated m).flows "flow").results = (List.range (m + 1)).map (truncatedRow m) := by
  have hall : ((truncated m).flows "flow").all = (truncated m).table :=
    List.filter_eq_self.mpr fun row hrow => by
      obtain ⟨n, -, rfl⟩ := List.mem_map.mp hrow
      simp [(truncatedRow_fields m _).2.2.2]
  rw [History.results, hall, truncated, Database.ofSorted, ← List.map_take, List.take_range, hm]
  simp

private theorem truncated_flows_rowsOf (hm : JOB_HISTORY_LIMIT = m + 1) :
    ((truncated m).flows "flow").rowsOf (some "exec") = [truncatedRow m 0] := by
  rw [History.rowsOf, truncated_flows m hm, List.filter_map,
    (filter_range_ends m fun n => by simp [truncatedRow_flowExecId]).1]
  rfl

private theorem truncated_jobs (hm : JOB_HISTORY_LIMIT = m + 1) (hpos : 0 < m) :
    ((truncated m).jobs "job").results = [truncatedRow m 0, truncatedRow m (m + 1)] := by
  have hall : ((truncated m).jobs "job").all = [truncatedRow m 0, truncatedRow m (m + 1)] := by
    show (List.map (truncatedRow m) _).filter _ = _
    rw [List.filter_map, (filter_range_ends m fun n => by simp [truncatedRow_jobDefId]).2]
    rfl
  rw [History.results, hall, hm, List.take_of_length_le (by simpa using Nat.succ_le_of_lt hpos)]

/-- The limit on the rows of the flow history cuts off a row of an execution
that is displayed, and the row limit of the job history does not. -/
theorem truncated_scores_differ :
    ¬ ∀ (database : Database), (∀ row ∈ database.table, Analysed row) →
      ∀ (flowDefId jobDefId : String) flowData jobData,
        restFlowGraphData database.flows (some flowDefId) = .ok flowData →
        restJobGraphData database.jobs (some jobDefId) = .ok jobData →
        ∀ flowExecId jobScore record,
          jobScoreIn (database.flows flowDefId) flowData flowExecId (some jobDefId) = some jobScore →
          recordOf (database.jobs jobDefId) jobData flowExecId = some record →
          jobScore.jobscore = record.score := by
  intro hsame
  obtain ⟨m, hm, hlarge⟩ : ∃ m, JOB_HISTORY_LIMIT = m + 1 ∧ 1 < m := ⟨4999, rfl, by decide⟩
  have hends : (truncatedRow m 0).flowExecId = some "exec" ∧ (truncatedRow m 0).jobDefId = some "job" :=
    ⟨(truncatedRow_flowExecId m).mpr (.inl rfl), (truncatedRow_jobDefId m).mpr (.inl rfl)⟩
  have hflow : ((truncated m).flows "flow").Shows (some "exec") := by
    have hresults := truncated_flows m hm
    rw [List.range_succ_eq_map, List.map_cons] at hresults
    rw [← hends.1]
    refine shows_first hresults (.inr ⟨truncatedRow m 1, ?_, ?_⟩)
    · rw [truncated_flows m hm]
      exact List.mem_map_of_mem (List.mem_range.mpr (by omega))
    · rw [hends.1, Ne, truncatedRow_flowExecId]
      omega
  have hjob : ((truncated m).jobs "job").Shows (some "exec") := by
    have hresults := truncated_jobs m hm (by omega)
    rw [← hends.1]
    refine shows_first hresults (.inl ?_)
    rw [hresults, List.length_cons, List.length_singleton]
    omega
  have hanalysed : ∀ row ∈ (truncated m).table, Analysed row := by
    intro row hrow
    obtain ⟨n, hn, rfl⟩ := List.mem_map.mp hrow
    have hbound := List.mem_range.mp hn
    have hlimit : JOB_HISTORY_LIMIT = 5000 := rfl
    exact analysed_truncatedRow m (by omega)
  have hfound : some "job" ∈
      (((truncated m).flows "flow").rowsOf (some "exec")).map AppResult.jobDefId := by
    simp [truncated_flows_rowsOf m hm, hends]
  obtain ⟨jobScore, hjobScore, hscore⟩ := jobScoreIn_shown hflow hfound
  have hscores := hsame (truncated m) hanalysed "flow" "job" _ _ (restFlowGraphData_eq (by decide))
    (restJobGraphData_eq (by decide)) (some "exec") jobScore _ hjobScore
    (recordOf_shown hjob jobRecordOf)
  have haccounted : ∀ row ∈ ((truncated m).jobs "job").rowsOf (some "exec"), row.Accounted := by
    intro row hrow
    obtain ⟨_, _, _, _, _, hresult⟩ :=
      hanalysed row (Database.of_mem_jobs (List.mem_of_mem_filter hrow)).1
    exact (AnalyticJob.getAnalysis_accounted hresult).1
  have hlast : (truncatedRow m (m + 1)).flowExecId = some "exec" :=
    (truncatedRow_flowExecId m).mpr (.inr rfl)
  rw [hscore, jobRecordOf_score haccounted, truncated_flows_rowsOf m hm, History.rowsOf,
    truncated_jobs m hm (by omega)] at hscores
  have hdifferent : sum32 [5] = sum32 [5, 5] := by
    simpa [hends, hlast, (truncatedRow_fields m _).2.2.1] using hscores
  exact absurd hdifferent (by decide)

end truncation

end examples

end controllers
