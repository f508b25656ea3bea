import Mathlib.Data.List.Induction
import DrElephant.Controllers.CompareFlows
import DrElephant.Controllers.History

open collections java.lang models

namespace controllers

/-- The rows of a flow execution, in the order of the query. -/
def flowResults (table : List AppResult) (flowExecId : String) : List AppResult :=
  (table.filter fun row => row.flowExecId = some flowExecId).take 100

/-- The two lists of a comparison, null when an id is missing. -/
def compareLists (table : List AppResult) (flowExecId1 flowExecId2 : Option String) :
    Option (List AppResult) × Option (List AppResult) :=
  match formField flowExecId1, formField flowExecId2 with
  | some flowExecId1, some flowExecId2 =>
    (some (flowResults table flowExecId1), some (flowResults table flowExecId2))
  | _, _ => (none, none)

/-- Controls the compare feature: what the page shows. -/
def Application.compare (tables : CharacterTables) (table : List AppResult)
    (flowExecId1 flowExecId2 : Option String) :
    Except JavaException (OrderedMap IdUrlPair FlowExecMap) :=
  let (results1, results2) := compareLists table flowExecId1 flowExecId2
  compareFlows tables results1 results2

/-- A map whose keys are the bare ids. -/
abbrev RestMap := OrderedMap (Option String) (OrderedMap (Option String) (Option (List AppResult)))

/-- The loop over the flows of one job. Each flow gets an inner map of its own,
which takes the place of the one that was put before. -/
def restEntry (resMap : RestMap) (entry : IdUrlPair × FlowExecMap) : RestMap :=
  entry.2.entries.foldl (fun resMap innerEntry =>
    let resultMap := OrderedMap.empty.put innerEntry.1.id innerEntry.2
    resMap.put entry.1.id resultMap) resMap

def restMap (order : HashOrder IdUrlPair FlowExecMap)
    (compareResults : OrderedMap IdUrlPair FlowExecMap) : RestMap :=
  (order.iterate compareResults.entries).foldl restEntry .empty

/-- The rest API of the compare feature. -/
def restCompare (tables : CharacterTables) (order : HashOrder IdUrlPair FlowExecMap)
    (table : List AppResult) (flowExecId1 flowExecId2 : Option String) :
    Except JavaException RestMap := do
  let (results1, results2) := compareLists table flowExecId1 flowExecId2
  let compareResults ← compareFlows tables results1 results2
  pure (restMap order compareResults)

/-- The two maps have the same entries, with each pair in the one replaced by
its id in the other. -/
def SameEntries (compareResults : OrderedMap IdUrlPair FlowExecMap) (resMap : RestMap) : Prop :=
  ∀ jobDef flowExec : IdUrlPair,
    (resMap.get? jobDef.id).map (fun resultMap => resultMap.get? flowExec.id) =
      (compareResults.get? jobDef).map fun flowExecMap => flowExecMap.get? flowExec

section restMap

theorem restEntry_get? (resMap : RestMap) (entry : IdUrlPair × FlowExecMap) (id : Option String) :
    (restEntry resMap entry).get? id =
      if entry.1.id = id then
        (entry.2.entries.getLast?.map fun innerEntry =>
          OrderedMap.empty.put innerEntry.1.id innerEntry.2).or (resMap.get? id)
      else resMap.get? id := by
  rw [restEntry]
  generalize entry.2.entries = inner
  induction inner using List.reverseRecOn with
  | nil => simp
  | append_singleton inner last ih =>
    rw [List.foldl_append, List.foldl_cons, List.foldl_nil, OrderedMap.get?_put, ih]
    by_cases hid : entry.1.id = id
    · simp [hid]
    · simp [hid]

private theorem foldl_restEntry_get?_of_ne {entries : List (IdUrlPair × FlowExecMap)}
    {id : Option String} (hne : ∀ entry ∈ entries, entry.1.id ≠ id) (resMap : RestMap) :
    (entries.foldl restEntry resMap).get? id = resMap.get? id := by
  induction entries generalizing resMap with
  | nil => rfl
  | cons entry entries ih =>
    obtain ⟨hentry, hentries⟩ := List.forall_mem_cons.mp hne
    rw [List.foldl_cons, ih hentries, restEntry_get?, if_neg hentry]

/-- What is left of the inner maps of a job is the one of its last flow. -/
theorem restMap_get?_of_mem (order : HashOrder IdUrlPair FlowExecMap)
    {compareResults : OrderedMap IdUrlPair FlowExecMap} {entry : IdUrlPair × FlowExecMap}
    (hentry : entry ∈ compareResults.entries) {last : IdUrlPair × Option (List AppResult)}
    (hlast : entry.2.entries.getLast? = some last) :
    (restMap order compareResults).get? entry.1.id =
      some (OrderedMap.empty.put last.1.id last.2) := by
  have hperm := order.perm compareResults.entries
  have hdistinct : (order.iterate compareResults.entries).Pairwise fun a b => a.1.id ≠ b.1.id := by
    refine (hperm.pairwise_iff fun hne => hne.symm).mpr ?_
    refine (List.pairwise_map.mp compareResults.distinct).imp fun hne hid => ?_
    rw [IdUrlPair.beq_iff.mpr hid] at hne
    cases hne
  have hmem := hperm.mem_iff.mpr hentry
  rw [restMap]
  generalize order.iterate compareResults.entries = entries at hdistinct hmem
  generalize (OrderedMap.empty : RestMap) = resMap
  induction entries generalizing resMap with
  | nil => cases hmem
  | cons first entries ih =>
    obtain ⟨hfirst, hentries⟩ := List.pairwise_cons.mp hdistinct
    rw [List.foldl_cons]
    rcases List.mem_cons.mp hmem with rfl | hmem
    · rw [foldl_restEntry_get?_of_ne fun other hother => (hfirst other hother).symm, restEntry_get?,
        if_pos rfl, hlast]
      rfl
    · exact ih hentries hmem _

end restMap

section agreement

variable {tables : CharacterTables} {order : HashOrder IdUrlPair FlowExecMap}
  {compareResults : OrderedMap IdUrlPair FlowExecMap}

private theorem sameEntries_empty : SameEntries .empty (restMap order .empty) := by
  have hnone : order.iterate (OrderedMap.empty : OrderedMap IdUrlPair FlowExecMap).entries = [] :=
    (order.perm _).eq_nil
  intro jobDef flowExec
  rw [restMap, hnone]
  rfl

/-- Of two flows of a job the first is lost. -/
private theorem not_sameEntries_of_mem {pair : IdUrlPair} {flows : FlowExecMap}
    (hentry : (pair, flows) ∈ compareResults.entries) {flow1 flow2 : IdUrlPair}
    (hflows : flow1.id ≠ flow2.id) {results1 results2 : Option (List AppResult)}
    (hinner : flows.entries = [(flow1, results1), (flow2, results2)]) :
    ¬ SameEntries compareResults (restMap order compareResults) := by
  intro hsame
  have hkept : (restMap order compareResults).get? pair.id =
      some (OrderedMap.empty.put flow2.id results2) :=
    restMap_get?_of_mem order hentry (by rw [hinner]; rfl)
  have hfirst : flows.get? flow1 = some results1 := by
    have hmem : (flow1, results1) ∈ flows.entries := by simp [hinner]
    exact OrderedMap.get?_eq_some_of_mem hmem
  have hjob : compareResults.get? pair = some flows := OrderedMap.get?_eq_some_of_mem hentry
  have hlost := hsame pair flow1
  rw [hkept, hjob, Option.map_some, Option.map_some, hfirst,
    OrderedMap.get?_put, OrderedMap.get?_empty, if_neg (by simpa using hflows.symm)] at hlost
  cases hlost

theorem compareFlows_nothing {results1 results2 : Option (List AppResult)}
    (h : results1.getD [] = [] ∨ results2.getD [] = []) :
    compareFlows tables results1 results2 = .ok .empty := by
  unfold compareFlows
  split
  · simp at h
  · rfl

/-- What `compareFlows` returns survives the change of keys if and only if it
compared nothing. -/
private theorem restMap_sameEntries_iff {results1 results2 : Option (List AppResult)}
    (hflows : ∀ result1 ∈ results1.getD [], ∀ result2 ∈ results2.getD [],
      result1.flowExecId ≠ result2.flowExecId)
    (h : compareFlows tables results1 results2 = .ok compareResults) :
    SameEntries compareResults (restMap order compareResults) ↔
      results1.getD [] = [] ∨ results2.getD [] = [] := by
  constructor
  · intro hsame
    by_contra hboth
    obtain ⟨hsome1, hsome2⟩ := not_or.mp hboth
    match results1, results2 with
    | some (result1 :: rest1), some (result2 :: rest2) =>
      obtain ⟨union, hcompares, hentries⟩ := compareFlows_ok h
      have hkey : result1.jobDefId ∈
          (groupJobs (result1 :: rest1) .JOB_DEFINITION_ID).keys.map IdUrlPair.id :=
        mem_keys_groupJobs.mpr (List.mem_cons_self ..)
      obtain ⟨job, hjob, -⟩ := List.mem_map.mp hkey
      obtain ⟨pair, hpair, -⟩ := hcompares.covers job (.inl hjob)
      have hfirst : (flowPair result1).id ≠ (flowPair result2).id :=
        hflows result1 (by simp) result2 (by simp)
      have hentry : (pair, flowExecMap (flowPair result1) (flowPair result2)
          (groupJobs (result1 :: rest1) .JOB_DEFINITION_ID)
          (groupJobs (result2 :: rest2) .JOB_DEFINITION_ID) pair) ∈ compareResults.entries := by
        rw [hentries]
        exact List.mem_map.mpr ⟨pair, hpair, rfl⟩
      exact not_sameEntries_of_mem hentry hfirst (entries_flowExecMap hfirst _ _ pair) hsame
    | none, _ => exact hsome1 rfl
    | _, none => exact hsome2 rfl
    | some [], _ => exact hsome1 rfl
    | _, some [] => exact hsome2 rfl
  · intro hnothing
    obtain rfl := Except.ok.inj ((compareFlows_nothing hnothing).symm.trans h)
    exact sameEntries_empty

private theorem flowExecId_of_mem {table : List AppResult} {flowExecId : String} {row : AppResult}
    (hrow : row ∈ flowResults table flowExecId) : row.flowExecId = some flowExecId := by
  simpa using (List.mem_filter.mp (List.mem_of_mem_take hrow)).2

private theorem compareLists_distinct {table : List AppResult} {flowExecId1 flowExecId2 : Option String}
    (hdistinct : formField flowExecId1 ≠ formField flowExecId2) :
    ∀ result1 ∈ (compareLists table flowExecId1 flowExecId2).1.getD [],
      ∀ result2 ∈ (compareLists table flowExecId1 flowExecId2).2.getD [],
        result1.flowExecId ≠ result2.flowExecId := by
  unfold compareLists
  cases hid1 : formField flowExecId1 with
  | none => simp
  | some id1 =>
    cases hid2 : formField flowExecId2 with
    | none => simp
    | some id2 =>
      intro result1 hresult1 result2 hresult2 hsame
      rw [hid1, hid2] at hdistinct
      rw [flowExecId_of_mem hresult1, flowExecId_of_mem hresult2] at hsame
      exact hdistinct hsame

/-- The rest API starts from the comparison that the page shows. -/
theorem restCompare_ok {table : List AppResult} {flowExecId1 flowExecId2 : Option String}
    (h : Application.compare tables table flowExecId1 flowExecId2 = .ok compareResults) :
    restCompare tables order table flowExecId1 flowExecId2 = .ok (restMap order compareResults) := by
  simp only [Application.compare] at h
  simp only [restCompare, h]
  rfl

/-- The rest API agrees with the page if and only if there was nothing to
compare: one of the two executions has no rows. -/
theorem restCompare_sameEntries_iff (tables : CharacterTables)
    (order : HashOrder IdUrlPair FlowExecMap) (table : List AppResult)
    {flowExecId1 flowExecId2 : Option String}
    (hdistinct : formField flowExecId1 ≠ formField flowExecId2)
    {compareResults : OrderedMap IdUrlPair FlowExecMap}
    (h : Application.compare tables table flowExecId1 flowExecId2 = .ok compareResults) :
    ∃ resMap, restCompare tables order table flowExecId1 flowExecId2 = .ok resMap ∧
      (SameEntries compareResults resMap ↔
        (compareLists table flowExecId1 flowExecId2).1.getD [] = [] ∨
          (compareLists table flowExecId1 flowExecId2).2.getD [] = []) := by
  exact ⟨_, restCompare_ok h, restMap_sameEntries_iff (compareLists_distinct hdistinct) h⟩

end agreement

/-- One job that ran in two flow executions. -/
private def sharedJob : List AppResult :=
  [.row "application_1" "job" "exec 1" 1, .row "application_2" "job" "exec 2" 2]

private def entryOrder : HashOrder IdUrlPair FlowExecMap := ⟨fun entries => entries, fun _ => .refl _⟩

private theorem compare_sharedJob : ∃ compareResults,
    Application.compare .ascii sharedJob (some "exec 1") (some "exec 2") = .ok compareResults := by
  have hfields : formField (some "exec 1") = some "exec 1" ∧
      formField (some "exec 2") = some "exec 2" := by decide
  simp only [Application.compare, compareLists, hfields]
  exact ⟨_, rfl⟩

theorem restCompare_sameEntries_iff_sharedJob : ∃ compareResults resMap,
    Application.compare .ascii sharedJob (some "exec 1") (some "exec 2") = .ok compareResults ∧
      restCompare .ascii entryOrder sharedJob (some "exec 1") (some "exec 2") = .ok resMap ∧
      (SameEntries compareResults resMap ↔
        (compareLists sharedJob (some "exec 1") (some "exec 2")).1.getD [] = [] ∨
          (compareLists sharedJob (some "exec 1") (some "exec 2")).2.getD [] = []) := by
  obtain ⟨compareResults, hcompare⟩ := compare_sharedJob
  obtain ⟨resMap, hrest, hiff⟩ :=
    restCompare_sameEntries_iff .ascii entryOrder sharedJob (by decide) hcompare
  exact ⟨compareResults, resMap, hcompare, hrest, hiff⟩

/-- The rest API loses the application of the first flow. -/
theorem sharedJob_differs : ¬ ∀ (order : HashOrder IdUrlPair FlowExecMap) (table : List AppResult)
    (flowExecId1 flowExecId2 : Option String), formField flowExecId1 ≠ formField flowExecId2 →
      ∀ compareResults resMap,
        Application.compare .ascii table flowExecId1 flowExecId2 = .ok compareResults →
        restCompare .ascii order table flowExecId1 flowExecId2 = .ok resMap →
        SameEntries compareResults resMap := by
  intro hsame
  obtain ⟨compareResults, hcompare⟩ := compare_sharedJob
  have hentries := hsame entryOrder sharedJob (some "exec 1") (some "exec 2") (by decide)
    compareResults _ hcompare (restCompare_ok hcompare)
  have hdistinct : formField (some "exec 1") ≠ formField (some "exec 2") := by decide
  have hlists : compareFlows .ascii (compareLists sharedJob (some "exec 1") (some "exec 2")).1
      (compareLists sharedJob (some "exec 1") (some "exec 2")).2 = .ok compareResults := hcompare
  have hnothing := (restMap_sameEntries_iff (compareLists_distinct hdistinct) hlists).mp hentries
  exact absurd hnothing (by decide)

end controllers
