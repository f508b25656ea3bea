import DrElephant.Controllers.RestSearch
import DrElephant.Java.Replacement
import DrElephant.MapReduce.MapReduceFetcherHadoop2
import DrElephant.Runner.Provenance

open collections drelephant drelephant.analysis drelephant.util java.lang models

namespace controllers

/-- The id that is looked up: job ids are turned into application ids. -/
def applicationId (appId : String) : String :=
  if contains appId "job" then replaceAll appId "job" "application" else appId

/-- What the search page shows: a job, the jobs of a flow execution, or a page
of the search by parameters. -/
inductive SearchAnswer
  | job (result : Option AppResult)
  | flow (execurl : String) (results : OrderedMap IdUrlPair (List AppResult))
  | page (page : SearchPage)

/-- Controls the search feature. -/
def Application.search (digit : Char → Option Nat) (find : SearchFinder) (rows : List AppResult)
    (queryString : Option String) (form : SearchForm) : Except JavaException SearchAnswer :=
  let appId := applicationId ((form.appId.map trim).getD "")
  -- Search and display job details when job id or flow execution url is provided.
  if !appId.isEmpty then .ok (.job (find.findUnique appId))
  else
    match formField form.flowExecId with
    | some flowExecId => .ok (.flow flowExecId (groupJobs (find.findByFlowExecId flowExecId) .JOB_EXECUTION_ID))
    | none => (controllers.search digit rows form.page queryString).map .page

/-- The answer of a REST call that checks its parameter first. -/
inductive RestResult (α : Type)
  | ok (content : α)
  | badRequest (message : String)
  | notFound (message : String)

/-- Rest API for searching a particular job information. -/
def restAppResult (find : SearchFinder) (id : Option String) : RestResult AppResult :=
  match id with
  | none => .badRequest "No job id provided."
  | some id =>
    if id.isEmpty then .badRequest "No job id provided."
    else
      match find.findUnique (applicationId id) with
      | some result => .ok result
      | none => .notFound ("Unable to find record on id: " ++ applicationId id)

/-- Rest API for searching all jobs triggered by a particular scheduler job. -/
def restJobExecResult (findByJobExecId : String → List AppResult) (jobExecId : Option String) :
    RestResult (List AppResult) :=
  match jobExecId with
  | none => .badRequest "No job exec url provided."
  | some jobExecId =>
    if jobExecId.isEmpty then .badRequest "No job exec url provided."
    else
      let result := findByJobExecId jobExecId
      if result.length = 0 then .notFound ("Unable to find record on job exec url: " ++ jobExecId)
      else .ok result

/-- Rest API for searching all jobs under a particular flow execution. -/
def restFlowExecResult (find : SearchFinder) (flowExecId : Option String) :
    RestResult (OrderedMap (Option String) (List AppResult)) :=
  match flowExecId with
  | none => .badRequest "No flow exec url provided."
  | some flowExecId =>
    if flowExecId.isEmpty then .badRequest "No flow exec url provided."
    else
      let results := find.findByFlowExecId flowExecId
      if results.length = 0 then .notFound ("Unable to find record on flow exec url: " ++ flowExecId)
      else
        let groupMap := groupJobs results .JOB_EXECUTION_ID
        .ok (.putAll .empty (groupMap.entries.map fun entry => (entry.1.id, entry.2)))

section ids

/-- An id as YARN makes them, as far as the searches depend on it. -/
structure PlainId (id : String) : Prop where
  ne_empty : id ≠ ""
  noSpace : ∀ c ∈ id.toList, 32 < c.toNat
  notJob : contains id "job" = false

variable {id : String}

theorem getJobIdFromApplicationId_eq (id : String) :
    Utils.getJobIdFromApplicationId id = replaceAll id "application" "job" :=
  replace_eq_replaceAll (by decide)

/-- The job id of an application leads back to its application id. -/
theorem applicationId_getJobIdFromApplicationId (h : contains id "job" = false) :
    applicationId (Utils.getJobIdFromApplicationId id) = id := by
  have hback : replaceAll (Utils.getJobIdFromApplicationId id) "job" "application" = id := by
    rw [getJobIdFromApplicationId_eq]
    exact replaceAll_replaceAll (by decide) rfl (by decide : 'j' ∉ "ob".toList) h
  rw [applicationId]
  split
  · exact hback
  · rename_i hnot
    exact (replaceAll_of_not_contains (by simpa using hnot) "application").symm.trans hback

theorem applicationId_of_not_contains (h : contains id "job" = false) : applicationId id = id := by
  rw [applicationId, if_neg (by simp [h])]

/-- The test before the replacement saves work and nothing else. -/
theorem applicationId_eq_replaceAll (id : String) : applicationId id = replaceAll id "job" "application" := by
  rw [applicationId]
  split
  · rfl
  · rename_i hnot
    rw [replaceAll_of_not_contains (by simpa using hnot)]

/-- The ways to ask for an application. -/
def Names (given id : String) : Prop := given = id ∨ given = Utils.getJobIdFromApplicationId id

theorem Names.applicationId_eq {given : String} (h : Names given id) (hjob : contains id "job" = false) :
    applicationId given = id := by
  rcases h with rfl | rfl
  · exact applicationId_of_not_contains hjob
  · exact applicationId_getJobIdFromApplicationId hjob

theorem applicationId_empty : applicationId "" = "" := applicationId_of_not_contains (by decide)

/-- Neither way to ask has something to trim. -/
theorem Names.trim_eq {given : String} (h : Names given id) (hplain : PlainId id) : trim given = given := by
  refine trim_of_forall fun c hc => ?_
  rcases h with rfl | rfl
  · exact hplain.noSpace c hc
  · rw [getJobIdFromApplicationId_eq, replaceAll, String.toList_ofList] at hc
    rcases mem_replaceChars hc with hid | hjob
    · exact hplain.noSpace c hid
    · rcases List.mem_cons.mp hjob with rfl | hrest
      · decide
      · rcases List.mem_cons.mp hrest with rfl | hlast
        · decide
        · obtain rfl := List.mem_singleton.mp hlast
          decide

theorem Names.ne_empty {given : String} (h : Names given id) (hplain : PlainId id) : given ≠ "" := by
  rintro rfl
  have hid := h.applicationId_eq hplain.notJob
  rw [applicationId_empty] at hid
  exact hplain.ne_empty hid.symm

/-- A row is found by its id in a table that has no other row with it. -/
theorem byId_eq_some {table : List AppResult} (hnodup : (table.map AppResult.id).Nodup) {row : AppResult}
    (hrow : row ∈ table) (hid : row.id = some id) : AppResult.byId table id = some row := by
  cases hfind : AppResult.byId table id with
  | none =>
    rw [AppResult.byId_eq_none_iff] at hfind
    exact absurd (hid ▸ List.mem_map_of_mem hrow) hfind
  | some found =>
    have hmem := List.mem_of_find?_eq_some hfind
    have hsame : found.id = some id := by simpa using List.find?_some hfind
    rw [List.inj_on_of_nodup_map hnodup hmem hrow (hsame.trans hid.symm)]

end ids

section lookups

variable {δ : Type} [HadoopApplicationData δ] {n : Nat} {env : Environment δ} {rm : ResourceManager}

/-- Every row that the daemon has saved is found by the id of its application
and by the id of its job alike, on the search page and by both REST calls. The
searches by form also find it when there is white space around the id. -/
theorem found_by_either_id (htruthful : env.Truthful rm) {s : ElephantRunner n}
    (hs : (ElephantRunner.lifetimes env rm n).Reachable s) {row : AppResult} (hrow : row ∈ s.table)
    {id : String} (hid : row.id = some id) (hplain : PlainId id) {find : SearchFinder}
    (hfind : find.findUnique = AppResult.byId s.table) {given : String} (hgiven : Names given id) :
    restAppResult find (some given) = .ok row ∧
    ∀ digit rows queryString form, form.appId.map trim = some given →
      Application.search digit find rows queryString form = .ok (.job (some row)) ∧
      restSearch digit find form = .ok (.ok (.one row)) := by
  obtain ⟨hconserved, htimed, hrecovered⟩ := (ElephantRunner.lifetimes_invariant htruthful).of_reachable hs
  have hfound : find.findUnique id = some row := by
    rw [hfind]
    exact byId_eq_some (hrecovered.persisted hconserved htimed).nodup hrow hid
  have happId := hgiven.applicationId_eq hplain.notJob
  have hnotEmpty : id.isEmpty = false := by simpa using hplain.ne_empty
  constructor
  · have hne : given.isEmpty = false := by simpa using hgiven.ne_empty hplain
    simp only [restAppResult, hne, happId, hfound]
    rfl
  · intro digit rows queryString form hform
    rw [Application.search, restSearch, hform, Option.getD_some, ← applicationId_eq_replaceAll, happId]
    simp [hnotEmpty, hfound]

end lookups

open ElephantRunner in
theorem found_by_either_id_wordCount : ∃ (s : ElephantRunner 2) (row : AppResult) (find : SearchFinder),
    s.table = [row] ∧
    (∀ given ∈ [FinishedApp.wordCount.id, Utils.getJobIdFromApplicationId FinishedApp.wordCount.id],
      restAppResult find (some given) = .ok row) ∧
    ∀ digit rows queryString, ∀ form ∈ [({ appId := some (" " ++ FinishedApp.wordCount.id ++ "\n") } : SearchForm),
        { appId := some (Utils.getJobIdFromApplicationId FinishedApp.wordCount.id), flowExecId := some "flow" }],
      Application.search digit find rows queryString form = .ok (.job (some row)) ∧
      restSearch digit find form = .ok (.ok (.one row)) := by
  obtain ⟨_, s, row, htaken, -, hsaved, -, htable, hid, -⟩ := exists_run_saved
  have hs : (lifetimes wordCountEnvironment _ 2).Reachable s :=
    ⟨_, lifetimes_init_wordCount, (htaken.trans hsaved).mono fun _ _ => Or.inl⟩
  have hplain : PlainId FinishedApp.wordCount.id := ⟨by decide, by simp [FinishedApp.wordCount], by decide⟩
  let find : SearchFinder := ⟨AppResult.byId s.table, fun _ => [], fun _ _ => []⟩
  have hfound := fun given (hgiven : Names given FinishedApp.wordCount.id) =>
    found_by_either_id truthful_wordCount hs (by simp [htable]) hid hplain
      (rfl : find.findUnique = AppResult.byId s.table) hgiven
  refine ⟨s, row, find, htable, List.forall_mem_cons.mpr ⟨(hfound _ (.inl rfl)).1,
    List.forall_mem_singleton.mpr (hfound _ (.inr rfl)).1⟩, fun digit rows queryString => ?_⟩
  refine List.forall_mem_cons.mpr ⟨?_, List.forall_mem_singleton.mpr ?_⟩
  · exact (hfound _ (.inl rfl)).2 digit rows queryString _ (by decide)
  · have htrim := Names.trim_eq (.inr rfl) hplain
    exact (hfound _ (.inr rfl)).2 digit rows queryString _ (congrArg some htrim)

section flowExecutions

/-- The rows of a flow execution. -/
def flowExecRows (table : List AppResult) (flowExecId : String) : List AppResult :=
  table.filter fun row => row.flowExecId = some flowExecId

/-- The rows of a job execution. -/
def jobExecRows (table : List AppResult) (jobExecId : String) : List AppResult :=
  table.filter fun row => row.jobExecId = some jobExecId

/-- The loop of `restFlowExecResult` keeps the groups, and the ids of their keys. -/
theorem entries_resMap (results : List AppResult) :
    (OrderedMap.putAll .empty ((groupJobs results .JOB_EXECUTION_ID).entries.map fun entry =>
      (entry.1.id, entry.2)) : OrderedMap (Option String) (List AppResult)).entries =
        (groupJobs results .JOB_EXECUTION_ID).entries.map fun entry => (entry.1.id, entry.2) := by
  have hkeys : (((groupJobs results .JOB_EXECUTION_ID).entries.map fun entry => (entry.1.id, entry.2)).map
      Prod.fst).Nodup := by
    have hnodup := nodup_firstOccurrences (results.map GroupBy.JOB_EXECUTION_ID.idField)
    rw [← keys_groupJobs, OrderedMap.keys, List.map_map] at hnodup
    rw [List.map_map]
    exact hnodup
  rw [OrderedMap.entries_putAll]
  · rfl
  · exact hkeys.imp fun hne => by simpa using hne

variable {table : List AppResult} {find : SearchFinder} {findByJobExecId : String → List AppResult}

/-- The page of a flow execution and the REST call for it show the same groups,
which hold each of its rows once. The REST call fails where the page is empty.
What the REST call for a job execution lists are the rows of its group, and those
of other flow executions, if they have a job execution of that id. -/
theorem flowExec_agrees (hflow : ∀ id, (find.findByFlowExecId id).Perm (flowExecRows table id))
    (hjob : ∀ id, (findByJobExecId id).Perm (jobExecRows table id)) {flowExecId : String}
    (hne : flowExecId ≠ "") :
    let results := groupJobs (find.findByFlowExecId flowExecId) .JOB_EXECUTION_ID
    (results.entries.flatMap Prod.snd).Perm (flowExecRows table flowExecId) ∧
    (∀ digit rows queryString form, applicationId ((form.appId.map trim).getD "") = "" →
      form.flowExecId.map trim = some flowExecId →
      Application.search digit find rows queryString form = .ok (.flow flowExecId results)) ∧
    (results.entries = [] → restFlowExecResult find (some flowExecId) =
      .notFound ("Unable to find record on flow exec url: " ++ flowExecId)) ∧
    (results.entries ≠ [] → ∃ resMap, restFlowExecResult find (some flowExecId) = .ok resMap ∧
      resMap.entries = results.entries.map (fun entry => (entry.1.id, entry.2)) ∧
      ∀ jobExecId jobs, jobExecId ≠ "" → (some jobExecId, jobs) ∈ resMap.entries →
        ∃ all, restJobExecResult findByJobExecId (some jobExecId) = .ok all ∧
          (flowExecRows all flowExecId).Perm jobs) := by
  intro results
  have hempty : flowExecId.isEmpty = false := by simpa using hne
  have hflat : (results.entries.flatMap Prod.snd).Perm (find.findByFlowExecId flowExecId) := by
    rw [groupJobs_entries, List.flatMap_map]
    exact flatMap_group_perm _ _
  refine ⟨hflat.trans (hflow flowExecId), ?_, fun hnone => ?_, fun hsome => ?_⟩
  · intro digit rows queryString form happ hform
    have hfield : formField form.flowExecId = some flowExecId := by
      rw [formField, hform, Option.filter_some, if_pos (by simp [hempty])]
    rw [Application.search, happ, hfield]
    rfl
  · have hrows : find.findByFlowExecId flowExecId = [] := by
      rw [hnone] at hflat
      exact hflat.symm.eq_nil
    simp [restFlowExecResult, hempty, hrows]
  · have hrows : (find.findByFlowExecId flowExecId).length ≠ 0 := by
      intro hzero
      refine hsome ?_
      have hnil := List.length_eq_zero_iff.mp hzero
      simp only [results, hnil]
      rfl
    refine ⟨_, by simp only [restFlowExecResult, hempty, if_neg hrows]; rfl, entries_resMap _, ?_⟩
    intro jobExecId jobs hjobExec hmem
    rw [entries_resMap] at hmem
    obtain ⟨entry, hentry, heq⟩ := List.mem_map.mp hmem
    obtain ⟨hid, rfl⟩ := Prod.mk.inj heq
    obtain ⟨hgroup, hgroupNe⟩ := mem_groupJobs hentry
    rw [hid] at hgroup
    -- Both queries select rows of one table, in whatever order.
    have hboth : (flowExecRows (findByJobExecId jobExecId) flowExecId).Perm entry.2 := by
      refine ((hjob jobExecId).filter _).trans ?_
      rw [hgroup]
      refine List.Perm.trans (List.Perm.of_eq ?_) ((hflow flowExecId).filter _).symm
      rw [jobExecRows, flowExecRows, List.filter_filter, List.filter_filter]
      exact List.filter_congr fun row _ => Bool.and_comm _ _
    have hall : (findByJobExecId jobExecId).length ≠ 0 := by
      intro hzero
      rw [List.length_eq_zero_iff.mp hzero] at hboth
      exact hgroupNe (by simpa [flowExecRows] using hboth.symm.eq_nil)
    have hjobEmpty : jobExecId.isEmpty = false := by simpa using hjobExec
    exact ⟨_, by simp only [restJobExecResult, hjobEmpty, if_neg hall]; rfl, hboth⟩

/-- A table of two rows, for examples. -/
private def twoRows : List AppResult :=
  [.row "application_1" "first" "exec" 1, .row "application_2" "second" "exec" 2]

/-- The queries of the search page over `twoRows`. -/
private def twoRowsFinder : SearchFinder :=
  ⟨AppResult.byId twoRows, flowExecRows twoRows, fetchWindow twoRows⟩

theorem flowExec_agrees_twoRows : ∃ resMap,
    restFlowExecResult twoRowsFinder (some "exec") = .ok resMap ∧
    resMap.keys = [some "application_1", some "application_2"] := by
  have hflow : ∀ id, (twoRowsFinder.findByFlowExecId id).Perm (flowExecRows twoRows id) :=
    fun _ => .refl _
  have hjob : ∀ id, (jobExecRows twoRows id).Perm (jobExecRows twoRows id) := fun _ => .refl _
  obtain ⟨-, -, -, hsome⟩ := flowExec_agrees hflow hjob (show "exec" ≠ "" by decide)
  obtain ⟨resMap, hresult, hentries, -⟩ := hsome (by decide)
  refine ⟨resMap, hresult, ?_⟩
  rw [OrderedMap.keys, hentries]
  decide

end flowExecutions

end controllers
