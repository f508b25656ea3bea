import DrElephant.Controllers.History
import DrElephant.Java.HashMap

open collections java.lang java.util models

namespace controllers

/-- The columns of the table, as the view iterates the hash map from job
definitions to names. -/
def FlowHistoryResults.columns (page : FlowHistoryResults)
    (order : HashOrder IdUrlPair (Option String)) : List IdUrlPair :=
  (order.iterate page.idPairToJobNameMap).map Prod.fst

def IdUrlPair.hashCode (pair : IdUrlPair) : Nat :=
  (31 * 1 + pair.id.elim 0 java.lang.hashCode) % 2 ^ 32

section jobDefList

def pushUrl (jobDefList : List (Option String)) (jobDefUrl : Option String) : List (Option String) :=
  if jobDefUrl ∈ jobDefList then jobDefList else jobDefList ++ [jobDefUrl]

/-- Compute the jobDefId list such that the job numbers in the tooltip match
the corresponding job in the table. -/
def jobDefList (data : List FlowRecord) : List (Option String) :=
  data.reverse.foldl (fun jobDefList dataset =>
    (dataset.jobscores.map JobScore.jobdefurl).foldl pushUrl jobDefList) []

theorem jobDefList_eq (data : List FlowRecord) : jobDefList data = firstOccurrences
    (data.reverse.flatMap fun dataset => dataset.jobscores.map JobScore.jobdefurl) := by
  rw [jobDefList, ← List.foldl_flatMap]
  exact foldl_append_new (fun _ _ hold => if_pos hold) (fun _ _ hnew => if_neg hnew) _

end jobDefList

/-- The rows of the executions that are displayed: those of the latest
execution first, and those of each execution in the order of completion. -/
def History.completions (history : History) : List AppResult :=
  history.executions.entries.flatMap fun entry => entry.2.reverse

/-- The promised order: the job definitions of the latest execution in the order
of completion, followed by those that only previous executions have. -/
def History.promisedJobs (history : History) : List (Option String) :=
  firstOccurrences (history.completions.map AppResult.jobDefId)

/-- The job definitions that are put into the hash map, each with its name. -/
def History.jobColumns (history : History) : List (IdUrlPair × Option String) :=
  (group AppResult.jobDefId history.completions).map fun entry =>
    (GroupBy.JOB_DEFINITION_ID.key entry, entry.2.head?.bind AppResult.jobName)

/-- The columns of the table are in the promised order, and the job with the
number k in the tooltips is the one of the k-th column. -/
structure NumbersMatch (history : History) (columns : List IdUrlPair)
    (jobDefList : List (Option String)) : Prop where
  promised : columns.map IdUrlPair.id = history.promisedJobs
  numbers : columns.map IdUrlPair.url = jobDefList

/-- The rows of different job definitions have different urls, and no url is missing. -/
structure DistinctUrls (rows : List AppResult) : Prop where
  notNull : ∀ row ∈ rows, row.jobDefUrl ≠ none
  distinct : ∀ row ∈ rows, ∀ other ∈ rows,
    row.jobDefUrl = other.jobDefUrl → row.jobDefId = other.jobDefId

/-- The url of a job definition, that of its first row. -/
def urlOf (rows : List AppResult) (jobDefId : Option String) : Option String :=
  (rows.find? fun row => row.jobDefId == jobDefId).bind AppResult.jobDefUrl

/-- The first completed row of a job definition has the same url in every
execution that is displayed. -/
def History.OneUrl (history : History) : Prop :=
  ∀ entry ∈ history.executions.entries, ∀ other ∈ history.executions.entries,
    ∀ jobDefId ∈ entry.2.map AppResult.jobDefId, jobDefId ∈ other.2.map AppResult.jobDefId →
      urlOf entry.2.reverse jobDefId = urlOf other.2.reverse jobDefId

section columns

variable {history : History}

theorem mem_results_of_mem_completions {row : AppResult} (hrow : row ∈ history.completions) :
    row ∈ history.results := by
  obtain ⟨entry, hentry, hmem⟩ := List.mem_flatMap.mp hrow
  rw [(History.mem_executions hentry).1] at hmem
  exact List.mem_of_mem_filter (List.mem_reverse.mp hmem)

theorem idPairToJobNameMap_eq {page : FlowHistoryResults} (hpage : flowHistoryResults history = .ok page) :
    page.idPairToJobNameMap = history.jobColumns := by
  rw [FlowHistoryResults.idPairToJobNameMap, flowHistoryResults_filteredResults hpage, groupJobs_entries,
    List.map_map]
  rfl

theorem isSome_find?_jobDefId {rows : List AppResult} {row : AppResult} (hrow : row ∈ rows) :
    (rows.find? fun other => other.jobDefId == row.jobDefId).isSome := by
  rw [List.find?_isSome]
  exact ⟨row, hrow, beq_self_eq_true _⟩

/-- The job definitions of rows, each with its url. -/
def jobUrls (rows : List AppResult) : List (Option String × Option String) :=
  (firstOccurrences (rows.map AppResult.jobDefId)).map fun id => (id, urlOf rows id)

theorem mem_jobUrls {rows : List AppResult} {pair : Option String × Option String} :
    pair ∈ jobUrls rows ↔ pair.1 ∈ rows.map AppResult.jobDefId ∧ pair.2 = urlOf rows pair.1 := by
  rw [jobUrls, List.mem_map]
  constructor
  · rintro ⟨id, hid, rfl⟩
    exact ⟨mem_firstOccurrences.mp hid, rfl⟩
  · rintro ⟨hid, hurl⟩
    exact ⟨pair.1, mem_firstOccurrences.mpr hid, Prod.ext rfl hurl.symm⟩

theorem exists_row_of_mem_jobUrls {rows : List AppResult} {pair : Option String × Option String}
    (hpair : pair ∈ jobUrls rows) :
    ∃ row ∈ rows, row.jobDefId = pair.1 ∧ row.jobDefUrl = pair.2 := by
  obtain ⟨hid, hurl⟩ := mem_jobUrls.mp hpair
  obtain ⟨row, hrow, hkey⟩ := List.mem_map.mp hid
  obtain ⟨first, hfirst⟩ := Option.isSome_iff_exists.mp (isSome_find?_jobDefId hrow)
  rw [hkey] at hfirst
  refine ⟨first, List.mem_of_find?_eq_some hfirst, by simpa using List.find?_some hfirst, ?_⟩
  rw [hurl, urlOf, hfirst, Option.bind_some]

/-- A group has the url of its job definition. -/
theorem map_key_group (rows : List AppResult) :
    (group AppResult.jobDefId rows).map (fun entry =>
      (entry.1, (GroupBy.JOB_DEFINITION_ID.key entry).url)) = jobUrls rows := by
  rw [jobUrls, ← keys_group, List.map_map]
  apply List.map_congr_left
  intro entry hentry
  rw [Function.comp_apply, GroupBy.key, (mem_group_iff.mp hentry).2, List.head?_filter, urlOf]
  refine Prod.ext rfl (congrArg (Option.bind · AppResult.jobDefUrl) ?_)
  simp only [beq_eq_decide]

/-- The job definitions of the displayed executions, each with the urls that it
has in them. -/
def History.jobUrls (history : History) : List (Option String × Option String) :=
  history.executions.entries.flatMap fun entry => controllers.jobUrls entry.2.reverse

theorem mem_historyJobUrls {pair : Option String × Option String} :
    pair ∈ history.jobUrls ↔ ∃ entry ∈ history.executions.entries,
      pair.1 ∈ entry.2.map AppResult.jobDefId ∧ pair.2 = urlOf entry.2.reverse pair.1 := by
  rw [History.jobUrls, List.mem_flatMap]
  simp only [mem_jobUrls, List.map_reverse, List.mem_reverse]

theorem promisedJobs_eq : history.promisedJobs = firstOccurrences (history.jobUrls.map Prod.fst) := by
  have hids : ∀ entry ∈ history.executions.entries,
      (jobUrls entry.2.reverse).map Prod.fst =
        firstOccurrences (entry.2.reverse.map AppResult.jobDefId) := by
    intro entry _
    rw [jobUrls, List.map_map]
    exact List.map_id _
  rw [History.promisedJobs, History.completions, List.map_flatMap, ← firstOccurrences_flatMap,
    History.jobUrls, List.map_flatMap, List.flatMap_congr hids]

/-- The tooltips number the urls. -/
theorem jobDefList_flowRecords :
    jobDefList (history.executions.entries.reverse.map fun entry => flowRecordOf entry.2) =
      firstOccurrences (history.jobUrls.map Prod.snd) := by
  have hexecution : ∀ entry ∈ history.executions.entries,
      (flowRecordOf entry.2).jobscores.map JobScore.jobdefurl =
        (jobUrls entry.2.reverse).map Prod.snd := by
    intro entry _
    rw [← map_key_group]
    simp only [flowRecordOf, jobScoresOf, groupJobs_entries, List.map_map]
    rfl
  rw [jobDefList_eq, List.map_reverse, List.reverse_reverse, List.flatMap_map,
    List.flatMap_congr hexecution, ← List.map_flatMap, History.jobUrls]

/-- The pairs put into the hash map are the promised job definitions, each with
the url it has in the latest execution that has it. -/
theorem jobColumns_ids : (history.jobColumns.map Prod.fst).map IdUrlPair.id = history.promisedJobs := by
  rw [History.jobColumns, History.promisedJobs, ← keys_group, List.map_map, List.map_map]
  rfl

theorem jobColumns_urls : (history.jobColumns.map Prod.fst).map IdUrlPair.url =
    history.promisedJobs.map (urlOf history.completions) := by
  have hkeys := congrArg (List.map Prod.snd) (map_key_group history.completions)
  rw [List.map_map, jobUrls, List.map_map] at hkeys
  rw [History.jobColumns, List.map_map, List.map_map]
  exact hkeys

/-- The url that a job definition has among all rows is that of an execution. -/
theorem urlOf_completions {id : Option String} (hid : id ∈ history.completions.map AppResult.jobDefId) :
    (id, urlOf history.completions id) ∈ history.jobUrls := by
  obtain ⟨row, hrow, rfl⟩ := List.mem_map.mp hid
  obtain ⟨first, hfirst⟩ := Option.isSome_iff_exists.mp (isSome_find?_jobDefId hrow)
  have hexecution := hfirst
  rw [History.completions, List.find?_flatMap] at hexecution
  obtain ⟨entry, hentry, hfound⟩ := List.exists_of_findSome?_eq_some hexecution
  have hkey : first.jobDefId = row.jobDefId := by simpa using List.find?_some hfound
  have hmem : first ∈ entry.2 := List.mem_reverse.mp (List.mem_of_find?_eq_some hfound)
  rw [mem_historyJobUrls]
  refine ⟨entry, hentry, List.mem_map.mpr ⟨first, hmem, hkey⟩, ?_⟩
  rw [urlOf, urlOf, hfirst, hfound]

/-- Every job definition is displayed with its own url exactly if it has one only. -/
theorem forall_jobUrls_iff_oneUrl :
    (∀ pair ∈ history.jobUrls, pair.2 = urlOf history.completions pair.1) ↔ history.OneUrl := by
  constructor
  · intro hown entry hentry other hother id hid hid'
    have hfirst := hown (id, urlOf entry.2.reverse id)
      (mem_historyJobUrls.mpr ⟨entry, hentry, hid, rfl⟩)
    have hsecond := hown (id, urlOf other.2.reverse id)
      (mem_historyJobUrls.mpr ⟨other, hother, hid', rfl⟩)
    exact hfirst.trans hsecond.symm
  · intro hone pair hpair
    obtain ⟨entry, hentry, hid, hurl⟩ := mem_historyJobUrls.mp hpair
    have hcompleted : pair.1 ∈ history.completions.map AppResult.jobDefId := by
      rw [History.completions, List.map_flatMap]
      refine List.mem_flatMap.mpr ⟨entry, hentry, ?_⟩
      rwa [List.map_reverse, List.mem_reverse]
    obtain ⟨other, hother, hid', hurl'⟩ := mem_historyJobUrls.mp (urlOf_completions hcompleted)
    exact hurl.trans ((hone entry hentry other hother _ hid hid').trans hurl'.symm)

/-- The pairs put into the hash map are in the promised order, and the urls of
the tooltips are in the same order exactly if each job definition has one url. -/
theorem jobColumns_numbersMatch_iff (hurls : DistinctUrls history.results) :
    NumbersMatch history (history.jobColumns.map Prod.fst)
      (jobDefList (history.executions.entries.reverse.map fun entry => flowRecordOf entry.2)) ↔
        history.OneUrl := by
  have hrows : ∀ pair ∈ history.jobUrls,
      ∃ row ∈ history.completions, row.jobDefId = pair.1 ∧ row.jobDefUrl = pair.2 := by
    intro pair hpair
    obtain ⟨entry, hentry, hmem⟩ := List.mem_flatMap.mp hpair
    obtain ⟨row, hrow, hkey⟩ := exists_row_of_mem_jobUrls hmem
    exact ⟨row, List.mem_flatMap.mpr ⟨entry, hentry, hrow⟩, hkey⟩
  have hinj : ∀ p ∈ history.jobUrls, ∀ q ∈ history.jobUrls, p.2 = q.2 → p.1 = q.1 := by
    intro p hp q hq heq
    obtain ⟨row, hrow, hid, hurl⟩ := hrows p hp
    obtain ⟨row', hrow', hid', hurl'⟩ := hrows q hq
    rw [← hid, ← hid']
    exact hurls.distinct row (mem_results_of_mem_completions hrow) row'
      (mem_results_of_mem_completions hrow') (hurl.trans (heq.trans hurl'.symm))
  have hown : ∀ p ∈ history.jobUrls, (p.1, urlOf history.completions p.1) ∈ history.jobUrls := by
    intro p hp
    obtain ⟨row, hrow, hid, -⟩ := hrows p hp
    exact urlOf_completions (List.mem_map.mpr ⟨row, hrow, hid⟩)
  rw [← forall_jobUrls_iff_oneUrl, ← map_firstOccurrences_eq_iff hinj hown, ← promisedJobs_eq,
    ← jobColumns_urls, ← jobDefList_flowRecords]
  exact ⟨fun hnumbers => hnumbers.numbers, fun hnumbers => ⟨jobColumns_ids, hnumbers⟩⟩

/-- Job definitions whose rows all have the same url. -/
theorem oneUrl_of_rows (hrows : ∀ row ∈ history.results, ∀ other ∈ history.results,
    row.jobDefId = other.jobDefId → row.jobDefUrl = other.jobDefUrl) : history.OneUrl := by
  have hurl : ∀ entry ∈ history.executions.entries, ∀ id ∈ entry.2.map AppResult.jobDefId,
      ∃ row ∈ history.results, row.jobDefId = id ∧ row.jobDefUrl = urlOf entry.2.reverse id := by
    intro entry hentry id hid
    rw [← List.mem_reverse, ← List.map_reverse] at hid
    obtain ⟨row, hrow, hkey⟩ := exists_row_of_mem_jobUrls
      (@mem_jobUrls _ (id, urlOf entry.2.reverse id) |>.mpr ⟨hid, rfl⟩)
    exact ⟨row, mem_results_of_mem_completions (List.mem_flatMap.mpr ⟨entry, hentry, hrow⟩), hkey⟩
  intro entry hentry other hother id hid hid'
  obtain ⟨row, hrow, hkey, hrowUrl⟩ := hurl entry hentry id hid
  obtain ⟨row', hrow', hkey', hrowUrl'⟩ := hurl other hother id hid'
  rw [← hrowUrl, ← hrowUrl']
  exact hrows row hrow row' hrow' (hkey.trans hkey'.symm)

/-- Columns are in the promised order exactly if they are the pairs as they were put. -/
theorem promised_iff {columns : List (IdUrlPair × Option String)}
    (hperm : columns.Perm history.jobColumns) :
    (columns.map Prod.fst).map IdUrlPair.id = history.promisedJobs ↔ columns = history.jobColumns := by
  have hput := @jobColumns_ids history
  rw [List.map_map] at hput ⊢
  constructor
  · intro hpromised
    have hnodup : (history.jobColumns.map (IdUrlPair.id ∘ Prod.fst)).Nodup :=
      hput ▸ nodup_firstOccurrences _
    exact eq_of_map_eq hnodup (fun _ => hperm.mem_iff.mp) (hpromised.trans hput.symm)
  · rintro rfl
    exact hput

/-- The table and the graph of a flow with results number its jobs alike
exactly when the hash map lists the pairs as they were put and no job
definition has two urls. -/
theorem numbersMatch_order_iff (find : String → History) {flowDefId : Option String} {id : String}
    (hid : formField flowDefId = some id) (hrows : (find id).results ≠ [])
    (hurls : DistinctUrls (find id).results) : ∃ page data,
      flowHistory find flowDefId = .ok (.ok (some page)) ∧
      restFlowGraphData find (some id) = .ok data ∧
      ∀ order : HashOrder IdUrlPair (Option String),
        NumbersMatch (find id) (page.columns order) (jobDefList data) ↔
          order.iterate (find id).jobColumns = (find id).jobColumns ∧ (find id).OneUrl := by
  obtain ⟨page, hpage, -⟩ := flowHistoryResults_eq (find id)
  have hlength : (find id).results.length ≠ 0 := by simpa using hrows
  have hput := jobColumns_numbersMatch_iff hurls
  refine ⟨page, _, ?_, restFlowGraphData_eq (isEmpty_of_formField hid), fun order => ?_⟩
  · simp [flowHistory, hid, hlength, hpage, bind, Except.bind, pure, Except.pure]
  · rw [FlowHistoryResults.columns, idPairToJobNameMap_eq hpage]
    constructor
    · intro hnumbers
      have hkept := (promised_iff (order.perm _)).mp hnumbers.promised
      rw [hkept] at hnumbers
      exact ⟨hkept, hput.mp hnumbers⟩
    · rintro ⟨hkept, hone⟩
      rw [hkept]
      exact hput.mpr hone

end columns

/-- The jobs of a flow have the same numbers in its history table and in the
tooltips of its graph, and these follow the promised order, exactly when the
hash map between definitions and names happens to keep the order of insertion
and the urls of the job definitions did not change. Where the buckets of the
hash map are lists, they have to be in that order. -/
theorem jobNumbers_match_iff (find : String → History) {flowDefId : Option String} {id : String}
    (hid : formField flowDefId = some id) (hrows : (find id).results ≠ [])
    (hurls : DistinctUrls (find id).results) : ∃ page data,
      flowHistory find flowDefId = .ok (.ok (some page)) ∧
      restFlowGraphData find (some id) = .ok data ∧
      (∀ order : HashOrder IdUrlPair (Option String),
        NumbersMatch (find id) (page.columns order) (jobDefList data) ↔
          order.iterate (find id).jobColumns = (find id).jobColumns ∧ (find id).OneUrl) ∧
      (NumbersMatch (find id) (page.columns (HashMap.bucketOrder IdUrlPair.hashCode)) (jobDefList data) ↔
        ((find id).jobColumns.Pairwise fun a b =>
          HashMap.indexFor a.1.hashCode (HashMap.tableSize (find id).jobColumns.length) ≤
            HashMap.indexFor b.1.hashCode (HashMap.tableSize (find id).jobColumns.length)) ∧
        (find id).OneUrl) := by
  obtain ⟨page, data, hpage, hdata, hmatch⟩ := numbersMatch_order_iff find hid hrows hurls
  exact ⟨page, data, hpage, hdata, hmatch,
    (hmatch _).trans (and_congr_left' HashOrder.byBucket_eq_self_iff)⟩

section examples

/-- An execution of a flow in which one job completes before the other. -/
def twoJobs (earlier later : String) : History where
  all := [{ AppResult.row "application_2" later "exec" 2 with jobDefUrl := some ("/" ++ later) },
    { AppResult.row "application_1" earlier "exec" 1 with jobDefUrl := some ("/" ++ earlier) }]
  descending := by simp [AppResult.row]
  primaryKey := by simp [AppResult.row]

theorem distinctUrls_twoJobs {earlier later : String} (hne : earlier ≠ later) :
    DistinctUrls (twoJobs earlier later).results := by
  have hresults : (twoJobs earlier later).results = (twoJobs earlier later).all := rfl
  constructor
  · rw [hresults]
    simp [twoJobs]
  · rw [hresults]
    simp [twoJobs, AppResult.row, hne, hne.symm]

theorem oneUrl_twoJobs {earlier later : String} (hne : earlier ≠ later) : (twoJobs earlier later).OneUrl := by
  have hresults : (twoJobs earlier later).results = (twoJobs earlier later).all := rfl
  apply oneUrl_of_rows
  rw [hresults]
  simp [twoJobs, AppResult.row, hne, hne.symm]

theorem jobNumbers_match_twoJobs : ∃ page data,
    flowHistory (fun _ => twoJobs "a" "b") (some "flow") = .ok (.ok (some page)) ∧
    restFlowGraphData (fun _ => twoJobs "a" "b") (some "flow") = .ok data ∧
    NumbersMatch (twoJobs "a" "b") (page.columns .insertion) (jobDefList data) := by
  obtain ⟨page, data, hpage, hdata, hmatch, -⟩ := jobNumbers_match_iff (fun _ => twoJobs "a" "b")
    (by decide : formField (some "flow") = some "flow") (by decide) (distinctUrls_twoJobs (by decide))
  exact ⟨page, data, hpage, hdata, (hmatch .insertion).mpr ⟨rfl, oneUrl_twoJobs (by decide)⟩⟩

/-- The buckets list job a before job b, which completed first. -/
theorem not_numbersMatch_twoJobs : ∃ page data,
    flowHistory (fun _ => twoJobs "b" "a") (some "flow") = .ok (.ok (some page)) ∧
    restFlowGraphData (fun _ => twoJobs "b" "a") (some "flow") = .ok data ∧
    ¬ NumbersMatch (twoJobs "b" "a") (page.columns (HashMap.bucketOrder IdUrlPair.hashCode))
      (jobDefList data) := by
  obtain ⟨page, data, hpage, hdata, hmatch⟩ := numbersMatch_order_iff (fun _ => twoJobs "b" "a")
    (by decide : formField (some "flow") = some "flow") (by decide) (distinctUrls_twoJobs (by decide))
  refine ⟨page, data, hpage, hdata, fun hnumbers => ?_⟩
  have hsorted := HashOrder.byBucket_eq_self_iff.mp ((hmatch _).mp hnumbers).1
  exact absurd hsorted (by decide)

end examples

end controllers
