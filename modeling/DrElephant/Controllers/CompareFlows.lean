import DrElephant.Controllers.GroupJobs
import DrElephant.Java.Exception
import DrElephant.Java.Text
import DrElephant.Library.TreeSet

open collections java.lang models

namespace controllers

/-- The comparator of the tree sets of jobs. -/
def compareJobs (tables : CharacterTables) (o1 o2 : IdUrlPair) : Ordering :=
  compare (compareToIgnoreCase tables (o1.id.getD "").toList (o2.id.getD "").toList) 0

private theorem compareJobs_eq (tables : CharacterTables) (o1 o2 : IdUrlPair) :
    compareJobs tables o1 o2 = compare ((o1.id.getD "").toList.map tables.fold)
      ((o2.id.getD "").toList.map tables.fold) :=
  compare_compareToIgnoreCase tables _ _

instance (tables : CharacterTables) : Std.TransCmp (compareJobs tables) where
  eq_swap {o1 o2} := by
    rw [compareJobs_eq, compareJobs_eq]
    exact Std.OrientedCmp.eq_swap
  isLE_trans {o1 o2 o3} h12 h23 := by
    rw [compareJobs_eq] at h12 h23 ⊢
    exact Std.TransCmp.isLE_trans h12 h23

/-- A tree set of the jobs of a flow. Comparing a null id throws, and the first
job that is added is compared with itself already. -/
def jobGroup (tables : CharacterTables) (jobs : List IdUrlPair) :
    Except JavaException (TreeSet IdUrlPair (compareJobs tables)) :=
  if jobs.any fun pair => pair.id.isNone then .error .nullPointer
  else .ok (TreeSet.empty.insertAll jobs)

abbrev FlowExecMap := OrderedMap IdUrlPair (Option (List AppResult))

/-- The rows of one job in the two flows, null where a flow does not have it. -/
def flowExecMap (flow1 flow2 : IdUrlPair) (map1 map2 : OrderedMap IdUrlPair (List AppResult))
    (pair : IdUrlPair) : FlowExecMap :=
  (OrderedMap.empty.put flow1 (map1.get? pair)).put flow2 (map2.get? pair)

/-- The flow execution that a list of results belongs to. -/
def flowPair (result : AppResult) : IdUrlPair := ⟨result.flowExecId, result.flowExecUrl⟩

/-- Compares 2 flow executions at job level. -/
def compareFlows (tables : CharacterTables) (results1 results2 : Option (List AppResult)) :
    Except JavaException (OrderedMap IdUrlPair FlowExecMap) :=
  match results1, results2 with
  | some (result1 :: rest1), some (result2 :: rest2) => do
    let map1 := groupJobs (result1 :: rest1) .JOB_DEFINITION_ID
    let map2 := groupJobs (result2 :: rest2) .JOB_DEFINITION_ID
    let group1 ← jobGroup tables map1.keys
    let group2 ← jobGroup tables map2.keys
    -- Display jobs that are common to the two flows first followed by jobs in flow 1 and flow 2.
    let commonJobs := (SetView.ofTreeSet group1).intersection (.ofTreeSet group2)
    let orderedFlowSet := commonJobs.union (.ofTreeSet group1)
    let union := orderedFlowSet.union (.ofTreeSet group2)
    pure (union.elements.foldl (fun jobDefMap pair =>
      jobDefMap.put pair (flowExecMap (flowPair result1) (flowPair result2) map1 map2 pair)) .empty)
  | _, _ => .ok .empty

/-- The jobs that a comparison has an entry for are those of the two flows, up
to the comparator. -/
structure Compares (tables : CharacterTables) (jobs1 jobs2 union : List IdUrlPair) : Prop where
  distinct : union.Pairwise fun a b => compareJobs tables a b ≠ .eq
  subset : ∀ pair ∈ union, pair ∈ jobs1 ∨ pair ∈ jobs2
  covers : ∀ pair, pair ∈ jobs1 ∨ pair ∈ jobs2 → ∃ key ∈ union, compareJobs tables pair key = .eq

/-- The jobs in the order in which a comparison puts them into its map. -/
def orderedJobs (tables : CharacterTables) (jobs1 jobs2 : List IdUrlPair) : List IdUrlPair :=
  let group1 : SetView IdUrlPair :=
    .ofTreeSet ((TreeSet.empty : TreeSet IdUrlPair (compareJobs tables)).insertAll jobs1)
  let group2 : SetView IdUrlPair :=
    .ofTreeSet ((TreeSet.empty : TreeSet IdUrlPair (compareJobs tables)).insertAll jobs2)
  (((group1.intersection group2).union group1).union group2).elements

private theorem compares_orderedJobs (tables : CharacterTables) (jobs1 jobs2 : List IdUrlPair) :
    Compares tables jobs1 jobs2 (orderedJobs tables jobs1 jobs2) := by
  let group1 : SetView IdUrlPair :=
    .ofTreeSet ((TreeSet.empty : TreeSet IdUrlPair (compareJobs tables)).insertAll jobs1)
  let group2 : SetView IdUrlPair :=
    .ofTreeSet ((TreeSet.empty : TreeSet IdUrlPair (compareJobs tables)).insertAll jobs2)
  have hgroup1 : group1.Lawful (compareJobs tables) := SetView.lawful_ofTreeSet _
  have hgroup2 : group2.Lawful (compareJobs tables) := SetView.lawful_ofTreeSet _
  have hunion := ((hgroup1.intersection hgroup2).union hgroup1).union hgroup2
  have hjobs : ∀ {jobs : List IdUrlPair} {pair : IdUrlPair},
      pair ∈ (TreeSet.empty.insertAll jobs : TreeSet IdUrlPair (compareJobs tables)).elements →
        pair ∈ jobs := fun hpair => (TreeSet.mem_insertAll hpair).resolve_left (by simp [TreeSet.empty])
  refine ⟨hunion.distinct, fun pair hpair => ?_, fun pair hpair => ?_⟩
  · rcases SetView.mem_union hpair with hordered | hadded
    · rcases SetView.mem_union hordered with hcommon | hfirst
      · exact .inl (hjobs (SetView.mem_intersection hcommon))
      · exact .inl (hjobs hfirst)
    · exact .inr (hjobs hadded)
  · apply (hunion.contains_iff pair).mp
    have hcontains : ∀ {jobs : List IdUrlPair}, pair ∈ jobs →
        ((TreeSet.empty : TreeSet IdUrlPair (compareJobs tables)).insertAll jobs).contains pair = true :=
      fun hmem => TreeSet.contains_ofList_iff.mpr ⟨pair, hmem, Std.ReflCmp.compare_self⟩
    rcases hpair with hfirst | hsecond
    · simp [SetView.union, show group1.contains pair = true from hcontains hfirst]
    · simp [SetView.union, show group2.contains pair = true from hcontains hsecond]

theorem compareJobs_of_id_eq {tables : CharacterTables} {o1 o2 : IdUrlPair} (h : o1.id = o2.id) :
    compareJobs tables o1 o2 = .eq := by
  rw [compareJobs_eq, h]
  exact Std.ReflCmp.compare_self

private theorem beq_false_of_compareJobs {tables : CharacterTables} {o1 o2 : IdUrlPair}
    (h : compareJobs tables o1 o2 ≠ .eq) : (o1 == o2) = false :=
  Bool.eq_false_iff.mpr fun hsame => h (compareJobs_of_id_eq (IdUrlPair.beq_iff.mp hsame))

/-- The tree set of the jobs of a flow, each of which needs an id. -/
theorem jobGroup_groupJobs_iff {tables : CharacterTables} {results : List AppResult}
    {group : TreeSet IdUrlPair (compareJobs tables)} :
    jobGroup tables (groupJobs results .JOB_DEFINITION_ID).keys = .ok group ↔
      none ∉ results.map AppResult.jobDefId ∧
        group = TreeSet.empty.insertAll (groupJobs results .JOB_DEFINITION_ID).keys := by
  have hnull : ((groupJobs results .JOB_DEFINITION_ID).keys.any fun pair => pair.id.isNone) = true ↔
      none ∈ results.map AppResult.jobDefId := by
    have hkeys : none ∈ (groupJobs results .JOB_DEFINITION_ID).keys.map IdUrlPair.id ↔
        none ∈ results.map AppResult.jobDefId := mem_keys_groupJobs
    rw [← hkeys, List.any_eq_true, List.mem_map]
    simp only [Option.isNone_iff_eq_none]
  rw [jobGroup]
  split
  · rename_i hany
    exact iff_of_false nofun fun h => h.1 (hnull.mp hany)
  · rename_i hnone
    rw [Except.ok.injEq, eq_comm]
    exact (and_iff_right fun hmem => hnone (hnull.mpr hmem)).symm

/-- A comparison has a result if and only if every job definition has an id. -/
theorem exists_compareFlows_iff {tables : CharacterTables} {result1 result2 : AppResult}
    {rest1 rest2 : List AppResult} : (∃ jobDefMap,
      compareFlows tables (some (result1 :: rest1)) (some (result2 :: rest2)) = .ok jobDefMap) ↔
      none ∉ ((result1 :: rest1) ++ (result2 :: rest2)).map AppResult.jobDefId := by
  rw [List.map_append, List.mem_append, not_or]
  constructor
  · rintro ⟨jobDefMap, hok⟩
    simp only [compareFlows, bind_eq_ok_iff] at hok
    obtain ⟨group1, hgroup1, group2, hgroup2, -⟩ := hok
    exact ⟨(jobGroup_groupJobs_iff.mp hgroup1).1, (jobGroup_groupJobs_iff.mp hgroup2).1⟩
  · rintro ⟨hnull1, hnull2⟩
    simp only [compareFlows, jobGroup_groupJobs_iff.mpr ⟨hnull1, rfl⟩,
      jobGroup_groupJobs_iff.mpr ⟨hnull2, rfl⟩]
    exact ⟨_, rfl⟩

theorem compareFlows_entries {tables : CharacterTables} {result1 result2 : AppResult}
    {rest1 rest2 : List AppResult} {jobDefMap : OrderedMap IdUrlPair FlowExecMap}
    (h : compareFlows tables (some (result1 :: rest1)) (some (result2 :: rest2)) = .ok jobDefMap) :
    let map1 := groupJobs (result1 :: rest1) .JOB_DEFINITION_ID
    let map2 := groupJobs (result2 :: rest2) .JOB_DEFINITION_ID
    jobDefMap.entries = (orderedJobs tables map1.keys map2.keys).map fun pair =>
      (pair, flowExecMap (flowPair result1) (flowPair result2) map1 map2 pair) := by
  intro map1 map2
  simp only [compareFlows, bind_eq_ok_iff] at h
  obtain ⟨group1, hgroup1, group2, hgroup2, hmap⟩ := h
  obtain ⟨-, rfl⟩ := jobGroup_groupJobs_iff.mp hgroup1
  obtain ⟨-, rfl⟩ := jobGroup_groupJobs_iff.mp hgroup2
  obtain rfl := pure_eq_ok_iff.mp hmap
  have hcompares := compares_orderedJobs tables map1.keys map2.keys
  rw [OrderedMap.foldl_put, OrderedMap.entries_putAll]
  · rfl
  · have hkeys := hcompares.distinct.imp fun {a b} hne => beq_false_of_compareJobs hne
    simpa [orderedJobs, Function.comp_def] using hkeys

/-- A comparison has one entry for each job that the comparator tells apart. -/
theorem compareFlows_ok {tables : CharacterTables} {result1 result2 : AppResult}
    {rest1 rest2 : List AppResult} {jobDefMap : OrderedMap IdUrlPair FlowExecMap}
    (h : compareFlows tables (some (result1 :: rest1)) (some (result2 :: rest2)) = .ok jobDefMap) :
    let map1 := groupJobs (result1 :: rest1) .JOB_DEFINITION_ID
    let map2 := groupJobs (result2 :: rest2) .JOB_DEFINITION_ID
    ∃ union, Compares tables map1.keys map2.keys union ∧ jobDefMap.entries = union.map fun pair =>
      (pair, flowExecMap (flowPair result1) (flowPair result2) map1 map2 pair) :=
  ⟨_, compares_orderedJobs tables _ _, compareFlows_entries h⟩

theorem entries_flowExecMap {flow1 flow2 : IdUrlPair} (hflows : flow1.id ≠ flow2.id)
    (map1 map2 : OrderedMap IdUrlPair (List AppResult)) (pair : IdUrlPair) :
    (flowExecMap flow1 flow2 map1 map2 pair).entries =
      [(flow1, map1.get? pair), (flow2, map2.get? pair)] := by
  have hbeq : (flow1 == flow2) = false :=
    Bool.eq_false_iff.mpr fun hsame => hflows (IdUrlPair.beq_iff.mp hsame)
  simp [flowExecMap, OrderedMap.put, OrderedMap.putEntry, hbeq]

/-- Ids of jobs are told apart by more than upper and lower case. -/
def NoCaseClash (tables : CharacterTables) (results : List AppResult) : Prop :=
  ∀ id id' : String, some id ∈ results.map AppResult.jobDefId →
    some id' ∈ results.map AppResult.jobDefId →
    compareToIgnoreCase tables id.toList id'.toList = 0 → id = id'

theorem id_eq_of_compareJobs {tables : CharacterTables} {results : List AppResult}
    (hnull : none ∉ results.map AppResult.jobDefId) (hclash : NoCaseClash tables results)
    {pair pair' : IdUrlPair} (hpair : pair.id ∈ results.map AppResult.jobDefId)
    (hpair' : pair'.id ∈ results.map AppResult.jobDefId) (heq : compareJobs tables pair pair' = .eq) :
    pair.id = pair'.id := by
  obtain ⟨text, htext⟩ := Option.ne_none_iff_exists'.mp fun hnone => hnull (hnone ▸ hpair)
  obtain ⟨text', htext'⟩ := Option.ne_none_iff_exists'.mp fun hnone => hnull (hnone ▸ hpair')
  have hcompare : compareToIgnoreCase tables text.toList text'.toList = 0 := by
    simpa [compareJobs, htext, htext'] using heq
  rw [htext] at hpair ⊢
  rw [htext'] at hpair' ⊢
  rw [hclash text text' hpair hpair' hcompare]

/-- Every job of the two flows has an entry, with its rows in either flow. -/
structure KeepsJobs (results1 results2 : List AppResult) (flow1 flow2 : IdUrlPair)
    (jobDefMap : OrderedMap IdUrlPair FlowExecMap) : Prop where
  keys : ∀ id, id ∈ jobDefMap.keys.map IdUrlPair.id ↔ id ∈ (results1 ++ results2).map AppResult.jobDefId
  rows : ∀ entry ∈ jobDefMap.entries, entry.2.entries =
    [(flow1, rowsOf .JOB_DEFINITION_ID results1 entry.1.id),
      (flow2, rowsOf .JOB_DEFINITION_ID results2 entry.1.id)]

section comparison

variable {tables : CharacterTables} {results1 results2 : List AppResult}

private theorem mem_jobs {pair : IdUrlPair}
    (h : pair ∈ (groupJobs results1 .JOB_DEFINITION_ID).keys ∨
      pair ∈ (groupJobs results2 .JOB_DEFINITION_ID).keys) :
    pair.id ∈ (results1 ++ results2).map AppResult.jobDefId := by
  rw [List.map_append, List.mem_append]
  exact h.imp (fun hmem => mem_keys_groupJobs.mp (List.mem_map_of_mem hmem))
    (fun hmem => mem_keys_groupJobs.mp (List.mem_map_of_mem hmem))

theorem exists_job {results : List AppResult} {id : Option String}
    (hid : id ∈ results.map AppResult.jobDefId) :
    ∃ pair ∈ (groupJobs results .JOB_DEFINITION_ID).keys, pair.id = id := by
  have hkey : id ∈ (groupJobs results .JOB_DEFINITION_ID).keys.map IdUrlPair.id := mem_keys_groupJobs.mpr hid
  exact List.mem_map.mp hkey

private theorem exists_job_of_flows {id : Option String}
    (h : id ∈ (results1 ++ results2).map AppResult.jobDefId) :
    ∃ pair : IdUrlPair, pair.id = id ∧ (pair ∈ (groupJobs results1 .JOB_DEFINITION_ID).keys ∨
      pair ∈ (groupJobs results2 .JOB_DEFINITION_ID).keys) := by
  rw [List.map_append, List.mem_append] at h
  rcases h with h | h
  · obtain ⟨pair, hpair, rfl⟩ := exists_job h
    exact ⟨pair, rfl, .inl hpair⟩
  · obtain ⟨pair, hpair, rfl⟩ := exists_job h
    exact ⟨pair, rfl, .inr hpair⟩

/-- The keys of a comparison are the ids of all jobs exactly if none of them
differ in case only. -/
theorem Compares.keys_iff (hnull : none ∉ (results1 ++ results2).map AppResult.jobDefId)
    {union : List IdUrlPair} (h : Compares tables (groupJobs results1 .JOB_DEFINITION_ID).keys
      (groupJobs results2 .JOB_DEFINITION_ID).keys union) :
    (∀ id, id ∈ union.map IdUrlPair.id ↔ id ∈ (results1 ++ results2).map AppResult.jobDefId) ↔
      NoCaseClash tables (results1 ++ results2) := by
  constructor
  · intro hkeys id id' hid hid' hcompare
    obtain ⟨pair, hpair, hpairId⟩ := List.mem_map.mp ((hkeys (some id)).mpr hid)
    obtain ⟨pair', hpair', hpairId'⟩ := List.mem_map.mp ((hkeys (some id')).mpr hid')
    have heq : compareJobs tables pair pair' = .eq := by
      simp [compareJobs, hpairId, hpairId', hcompare]
    by_contra hne
    have hdifferent : pair ≠ pair' := by
      rintro rfl
      exact hne (Option.some.inj (hpairId.symm.trans hpairId'))
    have hsymm : Std.Symm fun a b => compareJobs tables a b ≠ .eq :=
      ⟨fun a b hab hba => hab (Std.OrientedCmp.eq_symm hba)⟩
    exact h.distinct.forall hpair hpair' hdifferent heq
  · intro hclash id
    constructor
    · intro hid
      obtain ⟨pair, hpair, rfl⟩ := List.mem_map.mp hid
      exact mem_jobs (h.subset pair hpair)
    · intro hid
      obtain ⟨pair, rfl, hpair⟩ := exists_job_of_flows hid
      obtain ⟨key, hkey, heq⟩ := h.covers pair hpair
      rw [id_eq_of_compareJobs hnull hclash hid (mem_jobs (h.subset key hkey)) heq]
      exact List.mem_map_of_mem hkey

/-- A comparison keeps every job if and only if no two ids of jobs in the two
flows differ in case only. -/
theorem compareFlows_keepsJobs_iff (tables : CharacterTables) {result1 result2 : AppResult}
    {rest1 rest2 : List AppResult}
    (hjobs : ∀ row ∈ (result1 :: rest1) ++ (result2 :: rest2), row.jobDefId ≠ none)
    (hflows : result1.flowExecId ≠ result2.flowExecId) : ∃ jobDefMap,
    compareFlows tables (some (result1 :: rest1)) (some (result2 :: rest2)) = .ok jobDefMap ∧
      (KeepsJobs (result1 :: rest1) (result2 :: rest2) (flowPair result1) (flowPair result2)
        jobDefMap ↔ NoCaseClash tables ((result1 :: rest1) ++ (result2 :: rest2))) := by
  have hnull : none ∉ ((result1 :: rest1) ++ (result2 :: rest2)).map AppResult.jobDefId := by
    intro hmem
    obtain ⟨row, hrow, hnone⟩ := List.mem_map.mp hmem
    exact hjobs row hrow hnone
  obtain ⟨jobDefMap, hok⟩ := exists_compareFlows_iff.mpr hnull
  refine ⟨jobDefMap, hok, ?_⟩
  obtain ⟨union, hcompares, hentries⟩ := compareFlows_ok hok
  have hkeys : jobDefMap.keys.map IdUrlPair.id = union.map IdUrlPair.id := by
    simp [OrderedMap.keys, hentries]
  rw [← hcompares.keys_iff hnull, ← hkeys]
  refine ⟨fun h => h.keys, fun h => ⟨h, fun entry hentry => ?_⟩⟩
  rw [hentries] at hentry
  obtain ⟨pair, -, rfl⟩ := List.mem_map.mp hentry
  rw [entries_flowExecMap hflows, groupJobs_get?, groupJobs_get?]

end comparison

/-- A job whose id is written differently in the two flows. -/
private def upperRow : AppResult := .row "application_1" "Job" "exec 1" 1

private def lowerRow : AppResult := .row "application_2" "job" "exec 2" 2

theorem compareFlows_keepsJobs_iff_upperRow : ∃ jobDefMap,
    compareFlows .ascii (some [upperRow]) (some [lowerRow]) = .ok jobDefMap ∧
      (KeepsJobs [upperRow] [lowerRow] (flowPair upperRow) (flowPair lowerRow) jobDefMap ↔
        NoCaseClash .ascii [upperRow, lowerRow]) :=
  compareFlows_keepsJobs_iff .ascii (by simp [upperRow, lowerRow, AppResult.row])
    (by simp [upperRow, lowerRow, AppResult.row])

/-- The job of the second flow has no entry. -/
theorem upperRow_loses_lowerRow : ¬ ∀ (result1 result2 : AppResult) (rest1 rest2 : List AppResult),
    (∀ row ∈ (result1 :: rest1) ++ (result2 :: rest2), row.jobDefId ≠ none) →
      (∀ row ∈ rest1, row.flowExecId = result1.flowExecId) →
      (∀ row ∈ rest2, row.flowExecId = result2.flowExecId) →
      result1.flowExecId ≠ result2.flowExecId → ∀ jobDefMap,
        compareFlows .ascii (some (result1 :: rest1)) (some (result2 :: rest2)) = .ok jobDefMap →
        KeepsJobs (result1 :: rest1) (result2 :: rest2) (flowPair result1) (flowPair result2)
          jobDefMap := by
  intro hkeeps
  have h := hkeeps upperRow lowerRow [] [] (by simp [upperRow, lowerRow, AppResult.row]) (by simp)
    (by simp) (by simp [upperRow, lowerRow, AppResult.row]) _ rfl
  have hkey := (h.keys (some "job")).mpr (by simp [upperRow, lowerRow, AppResult.row])
  exact absurd hkey (by decide)

end controllers
