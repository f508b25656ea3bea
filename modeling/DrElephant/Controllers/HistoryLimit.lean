import DrElephant.Controllers.History

open collections models

namespace controllers

namespace History

/-- The executions fetched that are not displayed. -/
def pruned (history : History) : List (IdUrlPair × List AppResult) :=
  history.fetched.entries.drop history.executions.size

/-- Executions do not overlap: no row of one finished between two of another. -/
def Separate (history : History) : Prop :=
  ∀ a ∈ history.all, ∀ b ∈ history.all, ∀ c ∈ history.all, a.flowExecId = b.flowExecId →
    c.flowExecId ≠ a.flowExecId → ¬ (a.finishTime ≤ c.finishTime ∧ c.finishTime ≤ b.finishTime)

variable (history : History)

theorem length_results : history.results.length = min JOB_HISTORY_LIMIT history.all.length := by
  rw [results, List.length_take]

theorem entries_eq : history.executions.entries ++ history.pruned = history.fetched.entries := by
  rw [pruned, OrderedMap.size]
  have hshown := history.executions_entries
  generalize (executionLimit _ _ _).toNat = limit at hshown
  rw [hshown, List.length_take]
  rcases le_total limit history.fetched.entries.length with hle | hle
  · rw [min_eq_left hle, List.take_append_drop]
  · rw [min_eq_right hle, List.take_of_length_le hle, List.drop_length, List.append_nil]

theorem size_executions : history.executions.size =
    min (executionLimit history.fetched.size history.results.length MAX_HISTORY_LIMIT).toNat
      history.fetched.size := by
  rw [OrderedMap.size, executions_entries, List.length_take]
  rfl

theorem size_executions_le : history.executions.size ≤ MAX_HISTORY_LIMIT := by
  rw [size_executions, executionLimit, MAX_HISTORY_LIMIT]
  split
  · omega
  · split
    · split <;> omega
    · omega

/-- How many executions are displayed when fewer rows exist than are fetched at most. -/
theorem size_executions_of_lt (hshort : history.all.length < JOB_HISTORY_LIMIT) :
    history.executions.size = min 15 history.fetched.size := by
  have hlength : history.results.length < JOB_HISTORY_LIMIT := by
    rw [length_results]
    omega
  rw [size_executions, executionLimit, if_pos hlength, MAX_HISTORY_LIMIT]
  rfl

/-- How many executions are displayed of a full fetch. -/
theorem size_executions_of_le (hfull : JOB_HISTORY_LIMIT ≤ history.all.length) :
    history.executions.size =
      if 10 < history.fetched.size then min 15 (history.fetched.size - 3) else history.fetched.size - 1 := by
  have hlength : ¬ history.results.length < JOB_HISTORY_LIMIT := by
    rw [length_results]
    omega
  rw [size_executions, executionLimit, if_neg hlength, MAX_HISTORY_LIMIT]
  split
  · split <;> omega
  · omega

/-- A full fetch has at least one execution, and some are not displayed. -/
theorem size_executions_lt (hfull : JOB_HISTORY_LIMIT ≤ history.all.length) :
    history.executions.size + 1 ≤ history.fetched.size ∧
      (10 < history.fetched.size → history.executions.size + 3 ≤ history.fetched.size) := by
  have hlength : history.results.length = JOB_HISTORY_LIMIT := by
    rw [length_results, min_eq_left hfull]
  have hsome : 0 < history.fetched.size := by
    rw [OrderedMap.size, fetched_entries, List.length_map]
    cases hresults : history.results with
    | nil => simp [hresults, JOB_HISTORY_LIMIT] at hlength
    | cons result results => simp [group_cons]
  rw [size_executions, executionLimit, if_neg (by omega), MAX_HISTORY_LIMIT]
  split
  · split <;> omega
  · omega

/-- The executions come newest first: the first row of one finished no earlier
than any row of those behind it. -/
theorem pairwise_fetched : history.fetched.entries.Pairwise fun entry later =>
    ∀ row ∈ later.2, row.finishTime ≤ latest entry.2 := by
  have hsorted : history.results.Pairwise fun a b => b.finishTime ≤ a.finishTime :=
    history.descending.sublist (List.take_sublist _ _)
  rw [fetched_entries, List.pairwise_map]
  have hgroups := pairwise_group GroupBy.FLOW_EXECUTION_ID.idField hsorted
  apply hgroups.imp_of_mem
  intro entry later hentry _ hle row hrow
  cases hrows : entry.2 with
  | nil => exact absurd hrows (group_ne_nil hentry)
  | cons first rest => simpa [latest, hrows] using hle first (by simp [hrows]) row hrow

variable {history}

/-- A row of a displayed execution that was not fetched finished before every
row of a pruned execution, none of which is newer than the displayed one. -/
theorem pruned_between {entry : IdUrlPair × List AppResult}
    (hentry : entry ∈ history.executions.entries) {missing : AppResult}
    (hall : missing ∈ history.all) (hid : missing.flowExecId = entry.1.id)
    (hmissing : missing ∉ entry.2) {other : IdUrlPair × List AppResult}
    (hother : other ∈ history.pruned) {row : AppResult} (hrow : row ∈ other.2) :
    missing.finishTime ≤ row.finishTime ∧ row.finishTime ≤ latest entry.2 := by
  have hfetched : other ∈ history.fetched.entries := by
    rw [← entries_eq]
    exact List.mem_append_right _ hother
  have hnewest := history.pairwise_fetched
  rw [← entries_eq] at hnewest
  refine ⟨?_, (List.pairwise_append.mp hnewest).2.2 entry hentry other hother row hrow⟩
  have hresult : row ∈ history.results := by
    rw [(mem_fetched hfetched).1] at hrow
    exact List.mem_of_mem_filter hrow
  have hnotFetched : missing ∉ history.results := by
    intro hmem
    rw [(mem_executions hentry).1] at hmissing
    exact hmissing (List.mem_filter.mpr ⟨hmem, by simpa using hid⟩)
  have hsorted := history.descending
  rw [← List.take_append_drop JOB_HISTORY_LIMIT history.all] at hall hsorted
  have hdropped := (List.mem_append.mp hall).resolve_left hnotFetched
  exact (List.pairwise_append.mp hsorted).2.2 row hresult missing hdropped

/-- Either an execution has all its rows, or one of them was not fetched. -/
theorem complete_or_missing {entry : IdUrlPair × List AppResult}
    (hentry : entry ∈ history.executions.entries) :
    entry.2 = history.all.filter (fun row => row.flowExecId = entry.1.id) ∨
      JOB_HISTORY_LIMIT ≤ history.all.length ∧
        ∃ missing ∈ history.all, missing.flowExecId = entry.1.id ∧ missing ∉ entry.2 := by
  have hrows := (mem_executions hentry).1
  have hsplit : history.all.filter (fun row => row.flowExecId = entry.1.id) = entry.2 ++
      (history.all.drop JOB_HISTORY_LIMIT).filter fun row => row.flowExecId = entry.1.id := by
    rw [hrows, results, ← List.filter_append, List.take_append_drop]
  cases hdropped : (history.all.drop JOB_HISTORY_LIMIT).filter
      fun row => row.flowExecId = entry.1.id with
  | nil => exact .inl (by rw [hsplit, hdropped, List.append_nil])
  | cons missing rest =>
    have hmissing : missing ∈ (history.all.drop JOB_HISTORY_LIMIT).filter
        fun row => row.flowExecId = entry.1.id := by
      rw [hdropped]
      exact List.mem_cons_self
    obtain ⟨hdrop, hid⟩ := List.mem_filter.mp hmissing
    refine .inr ⟨?_, missing, List.mem_of_mem_drop hdrop, by simpa using hid, fun hmem => ?_⟩
    · by_contra hshort
      rw [List.drop_of_length_le (by omega)] at hdrop
      cases hdrop
    · have hnodup := history.primaryKey.of_map
      rw [← List.take_append_drop JOB_HISTORY_LIMIT history.all] at hnodup
      rw [hrows] at hmem
      exact (List.nodup_append.mp hnodup).2.2 missing (List.mem_of_mem_filter hmem) missing hdrop rfl

/-- An execution that no other one overlaps has all its rows. -/
theorem complete_of_separate (hseparate : history.Separate) {entry : IdUrlPair × List AppResult}
    (hentry : entry ∈ history.executions.entries) :
    entry.2 = history.all.filter fun row => row.flowExecId = entry.1.id := by
  rcases complete_or_missing hentry with hcomplete | ⟨hfull, missing, hall, hid, hmissing⟩
  · exact hcomplete
  · exfalso
    have hlength : history.pruned ≠ [] := by
      intro hnil
      have hsize := congrArg List.length history.entries_eq
      rw [hnil, List.append_nil] at hsize
      have hlt := (history.size_executions_lt hfull).1
      simp only [OrderedMap.size] at hlt
      omega
    obtain ⟨other, hother⟩ := List.exists_mem_of_ne_nil _ hlength
    have hfetched : other ∈ history.fetched.entries := by
      rw [← entries_eq]
      exact List.mem_append_right _ hother
    obtain ⟨row, hrow⟩ := List.exists_mem_of_ne_nil _ (mem_fetched hfetched).2
    obtain ⟨hle, hge⟩ := pruned_between hentry hall hid hmissing hother hrow
    have hshown := mem_executions hentry
    have hdistinct := history.fetched.distinct
    rw [← entries_eq, List.map_append] at hdistinct
    have hne : (entry.1 == other.1) = false := (List.pairwise_append.mp hdistinct).2.2 _
      (List.mem_map_of_mem hentry) _ (List.mem_map_of_mem hother)
    have hall' : ∀ row ∈ history.results, row ∈ history.all := fun row => List.mem_of_mem_take
    rw [(mem_fetched hfetched).1] at hrow
    obtain ⟨hrowResult, hrowId⟩ := List.mem_filter.mp hrow
    cases hrows : entry.2 with
    | nil => exact hshown.2 hrows
    | cons first rest =>
      have hfirst : first ∈ history.results.filter fun row => row.flowExecId = entry.1.id := by
        rw [← hshown.1, hrows]
        exact List.mem_cons_self
      obtain ⟨hfirstResult, hfirstId⟩ := List.mem_filter.mp hfirst
      have hsame : missing.flowExecId = first.flowExecId :=
        hid.trans (of_decide_eq_true hfirstId).symm
      have hdifferent : row.flowExecId ≠ missing.flowExecId := by
        rw [hid, of_decide_eq_true hrowId]
        intro hids
        rw [IdUrlPair.beq_iff.mpr hids.symm] at hne
        cases hne
      apply hseparate missing hall first (hall' first hfirstResult) row (hall' row hrowResult) hsame
        hdifferent
      exact ⟨hle, by simpa [latest, hrows] using hge⟩

end History

/-- What the limit displays. It is the newest executions, at most 15, with the
rows that were fetched. While fewer rows exist than are fetched at most, these
are all executions or 15, and they are complete. Otherwise one execution is
pruned of ten at most, and three at least of more; every row of those lies between a row that a displayed execution lacks and that execution's newest row;
so an execution that no other one overlaps is displayed complete. -/
theorem limitHistoryResults_history (history : History) :
    (history.executions.entries <+: history.fetched.entries ∧
      history.executions.size ≤ 15 ∧
      (history.fetched.entries.Pairwise fun entry later =>
        ∀ row ∈ later.2, row.finishTime ≤ latest entry.2) ∧
      ∀ entry ∈ history.executions.entries,
        entry.2 = history.results.filter fun row => row.flowExecId = entry.1.id) ∧
    (history.all.length < 5000 → history.executions.size = min 15 history.fetched.size ∧
      ∀ entry ∈ history.executions.entries,
        entry.2 = history.all.filter fun row => row.flowExecId = entry.1.id) ∧
    (5000 ≤ history.all.length →
      history.executions.size = (if 10 < history.fetched.size then min 15 (history.fetched.size - 3)
        else history.fetched.size - 1) ∧
      1 ≤ history.pruned.length ∧ (10 < history.fetched.size → 3 ≤ history.pruned.length) ∧
      ∀ entry ∈ history.executions.entries, ∀ missing ∈ history.all,
        missing.flowExecId = entry.1.id → missing ∉ entry.2 →
        ∀ other ∈ history.pruned, ∀ row ∈ other.2,
          missing.finishTime ≤ row.finishTime ∧ row.finishTime ≤ latest entry.2) ∧
    (history.Separate → ∀ entry ∈ history.executions.entries,
      entry.2 = history.all.filter fun row => row.flowExecId = entry.1.id) := by
  refine ⟨⟨?_, history.size_executions_le, history.pairwise_fetched, ?_⟩, ?_, ?_, ?_⟩
  · exact ⟨history.pruned, history.entries_eq⟩
  · exact fun entry hentry => (History.mem_executions hentry).1
  · intro hshort
    refine ⟨history.size_executions_of_lt hshort, fun entry hentry => ?_⟩
    rcases History.complete_or_missing hentry with hcomplete | ⟨hfull, -⟩
    · exact hcomplete
    · exact absurd hfull (Nat.not_le.mpr hshort)
  · intro hfull
    have hlength : history.pruned.length = history.fetched.size - history.executions.size := by
      rw [History.pruned, List.length_drop]
      rfl
    obtain ⟨hone, hthree⟩ := history.size_executions_lt hfull
    refine ⟨history.size_executions_of_le hfull, by omega, fun hten => ?_, ?_⟩
    · have := hthree hten
      omega
    · intro entry hentry missing hall hid hmissing other hother row hrow
      exact History.pruned_between hentry hall hid hmissing hother hrow
  · exact fun hseparate entry => History.complete_of_separate hseparate

/-- Two executions of a flow, one after the other. -/
private def separateExecutions : History where
  all := [.row "application_3" "job" "exec 2" 3, .row "application_2" "job" "exec 1" 2,
    .row "application_1" "job" "exec 1" 1]
  descending := by simp [AppResult.row]
  primaryKey := by simp [AppResult.row]

theorem limitHistoryResults_history_separateExecutions :
    separateExecutions.executions.size = 2 ∧
    ∀ entry ∈ separateExecutions.executions.entries,
      entry.2 = separateExecutions.all.filter fun row => row.flowExecId = entry.1.id := by
  have hseparate : separateExecutions.Separate := by
    simp [History.Separate, separateExecutions, AppResult.row]
  obtain ⟨-, hshort, -, hcomplete⟩ := limitHistoryResults_history separateExecutions
  exact ⟨(hshort (by decide)).1, hcomplete hseparate⟩

end controllers
