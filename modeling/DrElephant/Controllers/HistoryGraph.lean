import Mathlib.Data.List.Forall2
import Mathlib.Order.Bounds.Basic
import DrElephant.Controllers.History

open collections java.lang models

namespace controllers

section updateExecTimezone

variable (parse : Int → String)

/-- The loop from the last row of the table to the first, with the labels of
the rows behind row `i`. Reading outside the data ends it. -/
def labelRows (data : List Int) (rows : Nat) : Nat → List String → Option (List String)
  | 0, labels => some labels
  | i + 1, labels =>
    match data[rows - 1 - i]? with
    | none => none
    | some flowtime => labelRows data rows i (parse flowtime :: labels)

/-- Update the execution table with the times of the graph. -/
def updateExecTimezone (data : List Int) (rows : Nat) : Option (List String) :=
  labelRows parse data rows rows []

private theorem labelRows_eq {data times : List Int} (hdata : data = times.reverse) (i : Nat)
    (hi : i ≤ times.length) :
    labelRows parse data times.length i ((times.drop i).map parse) = some (times.map parse) := by
  induction i with
  | zero => rfl
  | succ i ih =>
    have hread : data[times.length - 1 - i]? = some times[i] := by
      rw [hdata, List.getElem?_reverse (by omega),
        show times.length - 1 - (times.length - 1 - i) = i by omega]
      exact List.getElem?_eq_getElem hi
    simp only [labelRows, hread]
    rw [← List.map_cons, ← List.drop_eq_getElem_cons hi]
    exact ih (by omega)

/-- Data in the reverse order of the rows labels each row with its own time. -/
theorem updateExecTimezone_reverse (times : List Int) :
    updateExecTimezone parse times.reverse times.length = some (times.map parse) := by
  simpa [updateExecTimezone] using labelRows_eq parse rfl times.length le_rfl

end updateExecTimezone

/-- A graph that shows the executions of a table: one record for each, in
reverse order, with the time at which its last row finished. -/
structure Matches {ρ : Type} (history : History) (record : IdUrlPair → Except JavaException ρ)
    (flowtime : ρ → Int) (keys : List IdUrlPair) (flowExecTimeList : List Int) (data : List ρ) :
    Prop where
  records : List.Forall₂ (fun key dataset => record key = .ok dataset) keys.reverse data
  flowtimes : data.map flowtime = flowExecTimeList.reverse
  greatest : List.Forall₂ (fun key time => IsGreatest
    {t | ∃ row ∈ history.results, row.flowExecId = key.id ∧ row.finishTime = t} time)
    keys flowExecTimeList
  labels : ∀ parse : Int → String,
    updateExecTimezone parse (data.map flowtime) keys.length = some (flowExecTimeList.map parse)

/-- The first row of an execution finished last of all its rows. -/
theorem isGreatest_latest {history : History} {entry : IdUrlPair × List AppResult}
    (hentry : entry ∈ history.executions.entries) : IsGreatest
      {t | ∃ row ∈ history.results, row.flowExecId = entry.1.id ∧ row.finishTime = t}
      (latest entry.2) := by
  obtain ⟨hrows, hne⟩ := History.mem_executions hentry
  have hsorted : entry.2.Pairwise fun a b => b.finishTime ≤ a.finishTime := by
    rw [hrows]
    exact (history.descending.sublist (List.take_sublist _ _)).sublist List.filter_sublist
  have hmem : ∀ row, row ∈ entry.2 ↔ row ∈ history.results ∧ row.flowExecId = entry.1.id := by
    intro row
    rw [hrows, List.mem_filter, decide_eq_true_eq]
  cases hcons : entry.2 with
  | nil => exact absurd hcons hne
  | cons first rest =>
    rw [hcons] at hmem hsorted
    constructor
    · obtain ⟨hresult, hid⟩ := (hmem first).mp List.mem_cons_self
      exact ⟨first, hresult, hid, rfl⟩
    · rintro _ ⟨row, hresult, hid, rfl⟩
      rcases List.mem_cons.mp ((hmem row).mpr ⟨hresult, hid⟩) with rfl | hrest
      · exact le_refl _
      · exact (List.pairwise_cons.mp hsorted).1 row hrest

private theorem matches_of_records {ρ : Type} {history : History}
    {record : IdUrlPair → Except JavaException ρ} {flowtime : ρ → Int}
    {recordOf : List AppResult → ρ}
    (hrecord : ∀ entry ∈ history.executions.entries, record entry.1 = .ok (recordOf entry.2))
    (htime : ∀ rows, flowtime (recordOf rows) = latest rows) :
    Matches history record flowtime history.executions.keys
      (history.executions.entries.map fun entry => latest entry.2)
      (history.executions.entries.reverse.map fun entry => recordOf entry.2) := by
  have hflowtimes : (history.executions.entries.reverse.map fun entry => recordOf entry.2).map
      flowtime = (history.executions.entries.map fun entry => latest entry.2).reverse := by
    simp [htime, List.map_reverse, Function.comp_def]
  constructor
  · rw [OrderedMap.keys, ← List.map_reverse, List.forall₂_map_left_iff, List.forall₂_map_right_iff]
    exact List.forall₂_same.mpr fun entry hentry => hrecord entry (List.mem_reverse.mp hentry)
  · exact hflowtimes
  · rw [OrderedMap.keys, List.forall₂_map_left_iff, List.forall₂_map_right_iff]
    exact List.forall₂_same.mpr fun entry hentry => isGreatest_latest hentry
  · intro parse
    have hlabels := updateExecTimezone_reverse parse
      (history.executions.entries.map fun entry => latest entry.2)
    rw [hflowtimes]
    simpa [OrderedMap.keys] using hlabels

/-- On the same rows, the history table and the history graph of a flow, and
those of a job, show the same executions, and the labels of the table are the
times of the executions they stand beside. -/
theorem history_graph_matches (find : String → History) (defId : Option String) :
    (∀ page, flowHistory find defId = .ok (.ok (some page)) →
      ∃ id data, formField defId = some id ∧ restFlowGraphData find (some id) = .ok data ∧
        Matches (find id) (flowRecord (find id).executions) FlowRecord.flowtime
          page.executionMap.keys page.flowExecTimeList data) ∧
    ∀ page, jobHistory find defId = .ok (.ok (some page)) →
      ∃ id data, formField defId = some id ∧ restJobGraphData find (some id) = .ok data ∧
        Matches (find id) (jobRecord (find id).executions) JobRecord.flowtime
          page.executionMap.keys page.flowExecTimeList data := by
  constructor
  · intro page h
    obtain ⟨id, hid, hpage⟩ := flowHistory_page h
    obtain ⟨page', hpage', hentries, htimes⟩ := flowHistoryResults_eq (find id)
    obtain rfl := Except.ok.inj (hpage.symm.trans hpage')
    have hkeys : page.executionMap.keys = (find id).executions.keys := by
      simp [OrderedMap.keys, hentries, Function.comp_def]
    refine ⟨id, _, hid, restFlowGraphData_eq (isEmpty_of_formField hid), ?_⟩
    rw [hkeys, htimes]
    exact matches_of_records
      (fun entry hentry => flowRecord_eq hentry (History.mem_executions hentry).2) fun _ => rfl
  · intro page h
    obtain ⟨id, hid, hpage⟩ := jobHistory_page h
    obtain ⟨page', hpage', hentries, -, htimes⟩ := jobHistoryResults_eq (find id)
    obtain rfl := Except.ok.inj (hpage.symm.trans hpage')
    have hkeys : page.executionMap.keys = (find id).executions.keys := by
      simp [OrderedMap.keys, hentries, Function.comp_def]
    refine ⟨id, _, hid, restJobGraphData_eq (isEmpty_of_formField hid), ?_⟩
    rw [hkeys, htimes]
    exact matches_of_records
      (fun entry hentry => jobRecord_eq hentry (History.mem_executions hentry).2) fun _ => rfl

/-- Two executions of a flow with one application each. -/
private def twoExecutions : History where
  all := [.row "application_2" "job" "exec 2" 2, .row "application_1" "job" "exec 1" 1]
  descending := by simp [AppResult.row]
  primaryKey := by simp [AppResult.row]

theorem history_graph_matches_twoExecutions : ∃ page,
    flowHistory (fun _ => twoExecutions) (some "flow") = .ok (.ok (some page)) ∧
      ∃ id data, formField (some "flow") = some id ∧
        restFlowGraphData (fun _ => twoExecutions) (some id) = .ok data ∧
        Matches twoExecutions (flowRecord twoExecutions.executions) FlowRecord.flowtime
          page.executionMap.keys page.flowExecTimeList data := by
  obtain ⟨page, hpage, -⟩ := flowHistoryResults_eq twoExecutions
  have hfield : formField (some "flow") = some "flow" := by decide
  have hrows : twoExecutions.results.length ≠ 0 := by decide
  have hhistory : flowHistory (fun _ => twoExecutions) (some "flow") = .ok (.ok (some page)) := by
    simp [flowHistory, hfield, hrows, hpage, bind, Except.bind, pure, Except.pure]
  exact ⟨page, hhistory, (history_graph_matches _ _).1 page hhistory⟩

end controllers
