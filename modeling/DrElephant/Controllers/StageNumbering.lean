import DrElephant.Controllers.History

open collections java.lang models

namespace controllers

/-- The stage columns of one row of the job history table: column `i` shows the
`i`-th job, counted from 1, while there is one. -/
def stageColumns (maxStages : Nat) (jobs : List AppResult) : List (Option AppResult) :=
  (List.range' 1 maxStages).map fun i => if i ≤ jobs.length then jobs[i - 1]? else none

/-- The tooltip of the graph names the elements of `stagescores` Stage 1, Stage 2
and so on. Each name stands for the application that the table shows under it. -/
def SameStages (columns : List (Option AppResult)) (record : JobRecord) : Prop :=
  ∀ (i : Nat) (app : AppResult), columns[i]? = some (some app) →
    (record.stagescores[i]?).map StageScore.stageid = some app.id

theorem stageColumns_getElem? {maxStages i : Nat} {jobs : List AppResult} {app : AppResult} :
    (stageColumns maxStages jobs)[i]? = some (some app) ↔ i < maxStages ∧ jobs[i]? = some app := by
  rw [stageColumns, List.getElem?_map]
  by_cases hi : i < maxStages
  · rw [List.getElem?_range' hi]
    simp only [Option.map_some, Option.some.injEq, hi, true_and]
    split
    · simp [Nat.add_comm]
    · have hnone : jobs[i]? = none := List.getElem?_eq_none (by omega)
      simp [hnone]
  · simp [hi]

/-- The table reverses the rows and the graph does not, so they agree only
where there is nothing to reverse. -/
theorem sameStages_iff {maxStages : Nat} (hstages : 0 < maxStages) {rows : List AppResult}
    (hids : (rows.map AppResult.id).Nodup) :
    SameStages (stageColumns maxStages rows.reverse) (jobRecordOf rows) ↔ rows.length ≤ 1 := by
  constructor
  · intro hsame
    by_contra hmany
    -- The first column shows the row that finished first, which is the last of the rows.
    have hlast : rows.reverse[0]? = some rows[rows.length - 1] := by
      rw [List.getElem?_reverse (by omega)]
      exact List.getElem?_eq_getElem (by omega)
    have hid := hsame 0 _ (stageColumns_getElem?.mpr ⟨hstages, hlast⟩)
    have hfirst : rows[0].id = rows[rows.length - 1].id := by
      simpa [jobRecordOf, stageScore, List.getElem?_eq_getElem (show 0 < rows.length by omega)]
        using hid
    have hget : (rows.map AppResult.id)[0]? = (rows.map AppResult.id)[rows.length - 1]? := by
      simpa [List.getElem?_eq_getElem (show 0 < rows.length by omega),
        List.getElem?_eq_getElem (show rows.length - 1 < rows.length by omega)] using hfirst
    have hbound : 0 < (rows.map AppResult.id).length := by simpa using by omega
    have hindex := (List.getElem?_inj hbound hids).mp hget
    omega
  · intro hone i app hcolumn
    obtain ⟨-, happ⟩ := stageColumns_getElem?.mp hcolumn
    have hreverse : rows.reverse = rows := by
      cases rows with
      | nil => rfl
      | cons row rest =>
        obtain rfl : rest = [] := List.length_eq_zero_iff.mp (by simpa using hone)
        rfl
    rw [hreverse] at happ
    simp [jobRecordOf, stageScore, happ]

private theorem le_foldl_max {l : List Nat} {a b : Nat} (h : a ≤ b ∨ a ∈ l) : a ≤ l.foldl max b := by
  induction l generalizing b with
  | nil => simpa using h
  | cons c l ih =>
    apply ih
    rcases h with hle | hmem
    · exact .inl (Nat.le_trans hle (Nat.le_max_left _ _))
    · rcases List.mem_cons.mp hmem with rfl | hrest
      · exact .inl (Nat.le_max_right _ _)
      · exact .inr hrest

/-- Two stages of one execution. -/
private def twoStages : History where
  all := [.row "application_2" "job" "exec" 2, .row "application_1" "job" "exec" 1]
  descending := by simp [AppResult.row]
  primaryKey := by simp [AppResult.row]

private theorem formField_job : formField (some "job") = some "job" := by decide

private theorem twoStages_page : ∃ page,
    jobHistory (fun _ => twoStages) (some "job") = .ok (.ok (some page)) ∧
      page.executionMap.entries = twoStages.executions.entries.map (fun entry =>
        (entry.1, entry.2.reverse)) ∧ page.maxStages = 2 := by
  obtain ⟨page, hpage, hentries, hmax, -⟩ := jobHistoryResults_eq twoStages
  refine ⟨page, ?_, hentries, hmax.trans (by decide)⟩
  have hrows : twoStages.results.length ≠ 0 := by decide
  simp [jobHistory, formField_job, hrows, hpage, bind, Except.bind, pure, Except.pure]

/-- For every execution that the job history shows, the stages of the graph are
those of the table if and only if one row at most was fetched for it. -/
theorem stages_same_iff {find : String → History} {jobDefId : Option String}
    {page : JobHistoryResults} (hpage : jobHistory find jobDefId = .ok (.ok (some page))) :
    ∃ id data, formField jobDefId = some id ∧ restJobGraphData find (some id) = .ok data ∧
      data.length = page.executionMap.size ∧
      ∀ (k : Nat) pair jobs record, page.executionMap.entries[k]? = some (pair, jobs) →
        data.reverse[k]? = some record →
        (SameStages (stageColumns page.maxStages jobs) record ↔
          ((find id).results.filter fun row => row.flowExecId = pair.id).length ≤ 1) := by
  obtain ⟨id, hid, hresults⟩ := jobHistory_page hpage
  obtain ⟨page', hpage', hentries, hmax, -⟩ := jobHistoryResults_eq (find id)
  obtain rfl := Except.ok.inj (hresults.symm.trans hpage')
  refine ⟨id, _, hid, restJobGraphData_eq (isEmpty_of_formField hid), ?_, ?_⟩
  · simp [OrderedMap.size, hentries]
  · intro k pair jobs record hentry hrecord
    rw [hentries, List.getElem?_map, Option.map_eq_some_iff] at hentry
    obtain ⟨⟨key, rows⟩, hrows, heq⟩ := hentry
    obtain ⟨rfl, rfl⟩ := Prod.mk.inj heq
    rw [List.map_reverse, List.reverse_reverse, List.getElem?_map, hrows, Option.map_some,
      Option.some.injEq] at hrecord
    subst hrecord
    have hmem := List.mem_of_getElem? hrows
    obtain ⟨hfetched, hne⟩ := History.mem_executions hmem
    have hstages : 0 < page.maxStages := by
      have hle : rows.length ≤
          ((find id).executions.entries.map fun entry => entry.2.length).foldl max 0 :=
        le_foldl_max (.inr (List.mem_map_of_mem (f := fun entry => entry.2.length) hmem))
      have hpos := List.length_pos_iff.mpr hne
      rw [hmax, STAGE_LIMIT]
      dsimp only at hpos
      omega
    have hids : (rows.map AppResult.id).Nodup := by
      refine (find id).primaryKey.sublist (List.Sublist.map AppResult.id ?_)
      have hsub : rows.Sublist (find id).results := by
        rw [show rows = _ from hfetched]
        exact List.filter_sublist
      exact hsub.trans (List.take_sublist _ _)
    rw [sameStages_iff hstages hids, ← hfetched]

theorem stages_same_iff_twoStages : ∃ page,
    jobHistory (fun _ => twoStages) (some "job") = .ok (.ok (some page)) ∧
      ∃ id data, formField (some "job") = some id ∧
        restJobGraphData (fun _ => twoStages) (some id) = .ok data ∧
        data.length = page.executionMap.size ∧
        ∀ (k : Nat) pair jobs record, page.executionMap.entries[k]? = some (pair, jobs) →
          data.reverse[k]? = some record →
          (SameStages (stageColumns page.maxStages jobs) record ↔
            (twoStages.results.filter fun row => row.flowExecId = pair.id).length ≤ 1) := by
  obtain ⟨page, hpage, -, -⟩ := twoStages_page
  exact ⟨page, hpage, stages_same_iff hpage⟩

/-- The graph calls the stage that finished last Stage 1. -/
theorem twoStages_differ : ¬ ∀ (find : String → History) (jobDefId : Option String) page data,
    jobHistory find jobDefId = .ok (.ok (some page)) → restJobGraphData find jobDefId = .ok data →
      ∀ (k : Nat) pair jobs record, page.executionMap.entries[k]? = some (pair, jobs) →
        data.reverse[k]? = some record → SameStages (stageColumns page.maxStages jobs) record := by
  intro hsame
  obtain ⟨page, hpage, hentries, hmax⟩ := twoStages_page
  have hdata : restJobGraphData (fun _ => twoStages) (some "job") = _ :=
    restJobGraphData_eq (by decide)
  have hexecutions : twoStages.executions.entries =
      [(⟨some "exec", some ""⟩, twoStages.all)] := rfl
  rw [hexecutions] at hdata hentries
  have hgraph := hsame _ _ _ _ hpage hdata 0 _ _ _ (by rw [hentries]; rfl) rfl
  rw [hmax] at hgraph
  have hfew := (sameStages_iff (by decide) twoStages.primaryKey).mp hgraph
  exact absurd hfew (by decide)

end controllers
