import DrElephant.Controllers.CompareFlows
import DrElephant.Controllers.FlowColumns

open collections java.lang java.util models

namespace controllers

section sortedIds

variable (tables : CharacterTables)

/-- Ids in case-insensitive order, each of them once. -/
def sortedIds (ids : List String) : List String :=
  (firstOccurrences ids).insertionSort fun id id' => compareToIgnoreCase tables id.toList id'.toList ≤ 0

theorem compareToIgnoreCase_le_zero_iff (id id' : String) :
    compareToIgnoreCase tables id.toList id'.toList ≤ 0 ↔
      (compareJobs tables ⟨some id, none⟩ ⟨some id', none⟩).isLE = true := by
  rw [Ordering.isLE_iff_ne_gt]
  exact compare_le_iff_le.symm

instance : IsTrans String fun id id' => compareToIgnoreCase tables id.toList id'.toList ≤ 0 where
  trans id id' id'' h h' := by
    rw [compareToIgnoreCase_le_zero_iff] at h h' ⊢
    exact Std.TransCmp.isLE_trans h h'

instance : Std.Total fun id id' : String => compareToIgnoreCase tables id.toList id'.toList ≤ 0 where
  total id id' := by
    rw [compareToIgnoreCase_le_zero_iff, compareToIgnoreCase_le_zero_iff]
    cases hcompare : compareJobs tables ⟨some id, none⟩ ⟨some id', none⟩ with
    | lt => exact .inl rfl
    | eq => exact .inl rfl
    | gt =>
      rw [Std.OrientedCmp.lt_of_gt hcompare]
      exact .inr rfl

variable {tables} {ids : List String}

theorem compareToIgnoreCase_antisymm {id id' : String}
    (hle : compareToIgnoreCase tables id.toList id'.toList ≤ 0)
    (hge : compareToIgnoreCase tables id'.toList id.toList ≤ 0) :
    compareToIgnoreCase tables id.toList id'.toList = 0 := by
  rw [compareToIgnoreCase_le_zero_iff] at hle hge
  have heq : compareJobs tables ⟨some id, none⟩ ⟨some id', none⟩ = .eq :=
    Std.OrientedCmp.isLE_antisymm hle hge
  exact compare_eq_iff_eq.mp heq

theorem mem_sortedIds {id : String} : id ∈ sortedIds tables ids ↔ id ∈ ids := by
  rw [sortedIds, List.mem_insertionSort, mem_firstOccurrences]

theorem nodup_sortedIds : (sortedIds tables ids).Nodup :=
  (List.perm_insertionSort _ _).nodup_iff.mpr (nodup_firstOccurrences ids)

theorem pairwise_sortedIds : (sortedIds tables ids).Pairwise fun id id' =>
    compareToIgnoreCase tables id.toList id'.toList ≤ 0 :=
  List.pairwise_insertionSort _ _

/-- Ids that case tells apart have one order only. -/
theorem eq_sortedIds {texts : List String}
    (hclash : ∀ id ∈ ids, ∀ id' ∈ ids, compareToIgnoreCase tables id.toList id'.toList = 0 → id = id')
    (hmem : ∀ id, id ∈ texts ↔ id ∈ ids) (hnodup : texts.Nodup)
    (hsorted : texts.Pairwise fun id id' => compareToIgnoreCase tables id.toList id'.toList ≤ 0) :
    texts = sortedIds tables ids := by
  have hperm : texts.Perm (sortedIds tables ids) := by
    refine (List.perm_ext_iff_of_nodup hnodup nodup_sortedIds).mpr fun id => ?_
    rw [hmem, mem_sortedIds]
  refine hperm.eq_of_pairwise (fun id id' hid hid' hle hge => ?_) hsorted pairwise_sortedIds
  exact hclash id ((hmem id).mp hid) id' (mem_sortedIds.mp hid') (compareToIgnoreCase_antisymm hle hge)

/-- Jobs that a tree set has sorted are in the order of their ids. -/
theorem ids_eq_sortedIds {pairs : List IdUrlPair}
    (hsorted : pairs.Pairwise fun a b => compareJobs tables a b = .lt)
    (hmem : ∀ id, id ∈ pairs.map IdUrlPair.id ↔ id ∈ ids.map some)
    (hclash : ∀ id ∈ ids, ∀ id' ∈ ids, compareToIgnoreCase tables id.toList id'.toList = 0 → id = id') :
    pairs.map IdUrlPair.id = (sortedIds tables ids).map some := by
  let texts := pairs.map fun pair => pair.id.getD ""
  have htexts : pairs.map IdUrlPair.id = texts.map some := by
    rw [List.map_map]
    refine List.map_congr_left fun pair hpair => ?_
    obtain ⟨text, -, htext⟩ := List.mem_map.mp ((hmem pair.id).mp (List.mem_map_of_mem hpair))
    rw [Function.comp_apply, ← htext]
    rfl
  rw [htexts]
  refine congrArg (List.map some) (eq_sortedIds hclash (fun text => ?_) ?_ ?_)
  · rw [← List.mem_map_of_injective (Option.some_injective String), ← htexts, hmem,
      List.mem_map_of_injective (Option.some_injective String)]
  · refine List.pairwise_map.mpr (hsorted.imp fun {a b} hlt heq => ?_)
    have hself : compareJobs tables b b = .eq := Std.ReflCmp.compare_self
    rw [compareJobs, heq] at hlt
    cases hself.symm.trans hlt
  · refine List.pairwise_map.mpr (hsorted.imp fun {a b} hlt => ?_)
    exact (compare_lt_iff_lt.mp hlt).le

end sortedIds

/-- The ids of the job definitions of a flow. -/
def jobIds (results : List AppResult) : List String := results.filterMap AppResult.jobDefId

theorem mem_jobIds {results : List AppResult} {id : String} :
    id ∈ jobIds results ↔ some id ∈ results.map AppResult.jobDefId :=
  List.mem_filterMap.trans List.mem_map.symm

/-- The promised order: the jobs that are common to the two flows, followed by
those in flow 1 and those in flow 2. -/
def documentedOrder (tables : CharacterTables) (results1 results2 : List AppResult) : List String :=
  let ids1 := jobIds results1
  let ids2 := jobIds results2
  sortedIds tables (ids1.filter fun id => id ∈ ids2) ++ sortedIds tables (ids1.filter fun id => id ∉ ids2) ++
    sortedIds tables (ids2.filter fun id => id ∉ ids1)

/-- The tree set of the jobs of a flow. -/
abbrev jobSet (tables : CharacterTables) (results : List AppResult) :
    TreeSet IdUrlPair (compareJobs tables) :=
  TreeSet.empty.insertAll (groupJobs results .JOB_DEFINITION_ID).keys

theorem orderedJobs_eq (tables : CharacterTables) (results1 results2 : List AppResult) :
    orderedJobs tables (groupJobs results1 .JOB_DEFINITION_ID).keys
        (groupJobs results2 .JOB_DEFINITION_ID).keys =
      (jobSet tables results1).elements.filter (fun pair => (jobSet tables results2).contains pair) ++
        (jobSet tables results1).elements.filter (fun pair => !(jobSet tables results2).contains pair) ++
        (jobSet tables results2).elements.filter fun pair => !(jobSet tables results1).contains pair :=
  (SetView.lawful_ofTreeSet (jobSet tables results1)).elements_common_first
    (.ofTreeSet (jobSet tables results2))

theorem mem_keys_of_mem_jobSet {tables : CharacterTables} {results : List AppResult} {pair : IdUrlPair}
    (hpair : pair ∈ (jobSet tables results).elements) :
    pair ∈ (groupJobs results .JOB_DEFINITION_ID).keys :=
  (TreeSet.mem_insertAll hpair).resolve_left List.not_mem_nil

theorem id_mem_of_mem_jobSet {tables : CharacterTables} {results : List AppResult} {pair : IdUrlPair}
    (hpair : pair ∈ (jobSet tables results).elements) : pair.id ∈ results.map AppResult.jobDefId :=
  mem_keys_groupJobs.mp (List.mem_map_of_mem (mem_keys_of_mem_jobSet hpair))

theorem contains_jobSet {tables : CharacterTables} {results : List AppResult} {pair : IdUrlPair}
    (hid : pair.id ∈ results.map AppResult.jobDefId) : (jobSet tables results).contains pair = true := by
  obtain ⟨key, hkey, hkeyId⟩ := exists_job hid
  exact TreeSet.contains_ofList_iff.mpr ⟨key, hkey, compareJobs_of_id_eq hkeyId.symm⟩

section groups

variable {tables : CharacterTables} {all results : List AppResult}

section distinct

variable (hnull : none ∉ all.map AppResult.jobDefId) (hclash : NoCaseClash tables all)
  (hsub : results ⊆ all)

include hnull hclash hsub

theorem contains_jobSet_iff {pair : IdUrlPair} (hpair : pair.id ∈ all.map AppResult.jobDefId) :
    (jobSet tables results).contains pair = true ↔ pair.id ∈ results.map AppResult.jobDefId := by
  rw [TreeSet.contains_ofList_iff]
  constructor
  · rintro ⟨key, hkey, heq⟩
    have hid : key.id ∈ results.map AppResult.jobDefId := mem_keys_groupJobs.mp (List.mem_map_of_mem hkey)
    rwa [id_eq_of_compareJobs hnull hclash hpair (List.map_subset _ hsub hid) heq]
  · exact fun hid => TreeSet.contains_ofList_iff.mp (contains_jobSet hid)

theorem mem_jobSet_iff {id : Option String} :
    id ∈ (jobSet tables results).elements.map IdUrlPair.id ↔ id ∈ results.map AppResult.jobDefId := by
  constructor
  · intro hid
    obtain ⟨pair, hpair, rfl⟩ := List.mem_map.mp hid
    exact id_mem_of_mem_jobSet hpair
  · intro hid
    have hall := List.map_subset AppResult.jobDefId hsub
    have hcontains : (jobSet tables results).contains ⟨id, none⟩ = true :=
      (contains_jobSet_iff hnull hclash hsub (hall hid)).mpr hid
    obtain ⟨pair, hpair, heq⟩ :=
      ((SetView.lawful_ofTreeSet (jobSet tables results)).contains_iff ⟨id, none⟩).mp hcontains
    have hsame := id_eq_of_compareJobs hnull hclash (hall hid) (hall (id_mem_of_mem_jobSet hpair)) heq
    exact List.mem_map.mpr ⟨pair, hpair, hsame.symm⟩

/-- What a test on ids keeps of the jobs of a flow, in the order of the set. -/
theorem ids_filter_jobSet {p : IdUrlPair → Bool} {q : String → Bool}
    (hpq : ∀ pair ∈ (jobSet tables results).elements, ∀ id, pair.id = some id → p pair = q id) :
    ((jobSet tables results).elements.filter p).map IdUrlPair.id =
      (sortedIds tables ((jobIds results).filter q)).map some := by
  have hids : ∀ id ∈ (jobIds results).filter q, some id ∈ all.map AppResult.jobDefId := fun id hid =>
    List.map_subset _ hsub (mem_jobIds.mp (List.mem_of_mem_filter hid))
  refine ids_eq_sortedIds ((jobSet tables results).sorted.sublist List.filter_sublist) (fun id => ?_) ?_
  · constructor
    · intro hid
      obtain ⟨pair, hpair, rfl⟩ := List.mem_map.mp hid
      obtain ⟨hmem, hkeep⟩ := List.mem_filter.mp hpair
      have hjob := id_mem_of_mem_jobSet hmem
      obtain ⟨text, htext⟩ := Option.ne_none_iff_exists'.mp fun hnone =>
        hnull (hnone ▸ List.map_subset _ hsub hjob)
      rw [htext] at hjob ⊢
      rw [hpq pair hmem text htext] at hkeep
      exact List.mem_map_of_mem (List.mem_filter.mpr ⟨mem_jobIds.mpr hjob, hkeep⟩)
    · intro hid
      obtain ⟨text, htext, rfl⟩ := List.mem_map.mp hid
      obtain ⟨hjob, hkeep⟩ := List.mem_filter.mp htext
      obtain ⟨pair, hpair, hpairId⟩ := List.mem_map.mp
        ((mem_jobSet_iff hnull hclash hsub).mpr (mem_jobIds.mp hjob))
      rw [← hpq pair hpair text hpairId] at hkeep
      exact List.mem_map.mpr ⟨pair, List.mem_filter.mpr ⟨hpair, hkeep⟩, hpairId⟩
  · exact fun id hid id' hid' => hclash id id' (hids id hid) (hids id' hid')

end distinct

/-- The comparison puts its jobs in the documented order. -/
theorem ids_orderedJobs {results1 results2 : List AppResult}
    (hnull : none ∉ (results1 ++ results2).map AppResult.jobDefId)
    (hclash : NoCaseClash tables (results1 ++ results2)) :
    (orderedJobs tables (groupJobs results1 .JOB_DEFINITION_ID).keys
        (groupJobs results2 .JOB_DEFINITION_ID).keys).map IdUrlPair.id =
      (documentedOrder tables results1 results2).map some := by
  have hsub1 : results1 ⊆ results1 ++ results2 := List.subset_append_left _ _
  have hsub2 : results2 ⊆ results1 ++ results2 := List.subset_append_right _ _
  -- Whether a job of one flow is in the set of the other depends on its id alone.
  have hcontains : ∀ {own other : List AppResult}, own ⊆ results1 ++ results2 →
      other ⊆ results1 ++ results2 → ∀ pair ∈ (jobSet tables own).elements, ∀ id, pair.id = some id →
        (jobSet tables other).contains pair = decide (id ∈ jobIds other) := by
    intro own other hown hother pair hpair id hid
    have hjob := id_mem_of_mem_jobSet hpair
    rw [Bool.eq_iff_iff, decide_eq_true_iff, mem_jobIds, ← hid]
    exact contains_jobSet_iff hnull hclash hother (List.map_subset _ hown hjob)
  have hlacks : ∀ {own other : List AppResult}, own ⊆ results1 ++ results2 →
      other ⊆ results1 ++ results2 → ∀ pair ∈ (jobSet tables own).elements, ∀ id, pair.id = some id →
        (!(jobSet tables other).contains pair) = decide (id ∉ jobIds other) := by
    intro own other hown hother pair hpair id hid
    rw [hcontains hown hother pair hpair id hid, decide_not]
  rw [orderedJobs_eq, List.map_append, List.map_append,
    ids_filter_jobSet hnull hclash hsub1 (hcontains hsub1 hsub2),
    ids_filter_jobSet hnull hclash hsub1 (hlacks hsub1 hsub2),
    ids_filter_jobSet hnull hclash hsub2 (hlacks hsub2 hsub1), documentedOrder, List.map_append,
    List.map_append]

end groups

section entries

variable {tables : CharacterTables} {results1 results2 : List AppResult}

theorem urlOf_append_of_mem {id : Option String} (hid : id ∈ results1.map AppResult.jobDefId) :
    urlOf (results1 ++ results2) id = urlOf results1 id := by
  obtain ⟨row, hrow, rfl⟩ := List.mem_map.mp hid
  rw [urlOf, List.find?_append, Option.or_of_isSome (isSome_find?_jobDefId hrow), urlOf]

theorem urlOf_append_of_notMem {id : Option String} (hid : id ∉ results1.map AppResult.jobDefId) :
    urlOf (results1 ++ results2) id = urlOf results2 id := by
  have hnone : (results1.find? fun row => row.jobDefId == id) = none := by
    refine List.find?_eq_none.mpr fun row hrow hrowId => hid ?_
    rw [← beq_iff_eq.mp hrowId]
    exact List.mem_map_of_mem hrow
  rw [urlOf, List.find?_append, hnone, Option.none_or, urlOf]

/-- The url of a job of a set is the one of its first row. -/
theorem urlOf_of_mem_jobSet {pair : IdUrlPair} (hpair : pair ∈ (jobSet tables results1).elements) :
    urlOf results1 pair.id = pair.url := by
  obtain ⟨first, hfirst, hurl⟩ := exists_first_of_mem_keys (mem_keys_of_mem_jobSet hpair)
  have hfind : (results1.find? fun row => row.jobDefId == pair.id) = some first := by
    rw [← hfirst]
    exact congrArg (List.find? · results1) (funext fun _ => beq_eq_decide _ _)
  rw [urlOf, hfind, hurl]
  rfl

theorem mem_orderedJobs {pair : IdUrlPair}
    (hpair : pair ∈ orderedJobs tables (groupJobs results1 .JOB_DEFINITION_ID).keys
      (groupJobs results2 .JOB_DEFINITION_ID).keys) :
    pair ∈ (jobSet tables results1).elements ∨
      pair ∈ (jobSet tables results2).elements ∧ (jobSet tables results1).contains pair = false := by
  rw [orderedJobs_eq, List.mem_append, List.mem_append, List.mem_filter, List.mem_filter,
    List.mem_filter] at hpair
  rcases hpair with (⟨hfirst, -⟩ | ⟨hfirst, -⟩) | ⟨hsecond, hnew⟩
  · exact .inl hfirst
  · exact .inl hfirst
  · exact .inr ⟨hsecond, by simpa using hnew⟩

/-- The url of a job is the one of its first row, in flow 1 where it is there. -/
theorem urlOf_of_mem_orderedJobs {pair : IdUrlPair}
    (hpair : pair ∈ orderedJobs tables (groupJobs results1 .JOB_DEFINITION_ID).keys
      (groupJobs results2 .JOB_DEFINITION_ID).keys) :
    urlOf (results1 ++ results2) pair.id = pair.url := by
  rcases mem_orderedJobs hpair with hfirst | ⟨hsecond, hnew⟩
  · rw [urlOf_append_of_mem (id_mem_of_mem_jobSet hfirst), urlOf_of_mem_jobSet hfirst]
  · have hlacks : pair.id ∉ results1.map AppResult.jobDefId := by
      intro hid
      have hold : (jobSet tables results1).contains pair = true := contains_jobSet hid
      rw [hnew] at hold
      cases hold
    rw [urlOf_append_of_notMem hlacks, urlOf_of_mem_jobSet hsecond]

end entries

/-- The entry of a job: its url, and its rows in either flow. -/
def comparedJob (flow1 flow2 : IdUrlPair) (results1 results2 : List AppResult) (id : Option String) :
    IdUrlPair × FlowExecMap :=
  (⟨id, urlOf (results1 ++ results2) id⟩,
    (OrderedMap.empty.put flow1 (rowsOf .JOB_DEFINITION_ID results1 id)).put flow2
      (rowsOf .JOB_DEFINITION_ID results2 id))

/-- The entries of a comparison in the documented order. -/
def comparedJobs (tables : CharacterTables) (flow1 flow2 : IdUrlPair) (results1 results2 : List AppResult) :
    List (IdUrlPair × FlowExecMap) :=
  ((documentedOrder tables results1 results2).map some).map (comparedJob flow1 flow2 results1 results2)

/-- The entries of a comparison have been put in the documented order. -/
theorem compareFlows_comparedJobs {tables : CharacterTables} {result1 result2 : AppResult}
    {rest1 rest2 : List AppResult} {jobDefMap : OrderedMap IdUrlPair FlowExecMap}
    (hok : compareFlows tables (some (result1 :: rest1)) (some (result2 :: rest2)) = .ok jobDefMap)
    (hnull : none ∉ ((result1 :: rest1) ++ (result2 :: rest2)).map AppResult.jobDefId)
    (hclash : NoCaseClash tables ((result1 :: rest1) ++ (result2 :: rest2))) :
    jobDefMap.entries =
      comparedJobs tables (flowPair result1) (flowPair result2) (result1 :: rest1) (result2 :: rest2) := by
  rw [compareFlows_entries hok, comparedJobs, ← ids_orderedJobs hnull hclash, List.map_map]
  refine List.map_congr_left fun pair hpair => ?_
  rw [Function.comp_apply, comparedJob, urlOf_of_mem_orderedJobs hpair, flowExecMap, groupJobs_get?,
    groupJobs_get?]

/-- The page of a comparison, which iterates the map, lists the jobs in the
documented order. -/
def ComparesAsDocumented (tables : CharacterTables) (order : HashOrder IdUrlPair FlowExecMap)
    (results1 results2 : List AppResult) : Prop :=
  ∃ jobDefMap, compareFlows tables (some results1) (some results2) = .ok jobDefMap ∧
    (order.iterate jobDefMap.entries).map (fun entry => entry.1.id) =
      (documentedOrder tables results1 results2).map some

/-- The bucket of a job in the map of a comparison of so many jobs. -/
def jobBucket (jobs : Nat) (id : String) : Nat :=
  HashMap.indexFor (IdUrlPair.hashCode ⟨some id, none⟩) (HashMap.tableSize jobs)

section order

variable {tables : CharacterTables} {result1 result2 : AppResult} {rest1 rest2 : List AppResult}

theorem documented_order_iff
    (hclash : NoCaseClash tables ((result1 :: rest1) ++ (result2 :: rest2)))
    (order : HashOrder IdUrlPair FlowExecMap) :
    ComparesAsDocumented tables order (result1 :: rest1) (result2 :: rest2) ↔
      none ∉ ((result1 :: rest1) ++ (result2 :: rest2)).map AppResult.jobDefId ∧
        order.iterate (comparedJobs tables (flowPair result1) (flowPair result2) (result1 :: rest1)
            (result2 :: rest2)) =
          comparedJobs tables (flowPair result1) (flowPair result2) (result1 :: rest1) (result2 :: rest2) := by
  have hids : (comparedJobs tables (flowPair result1) (flowPair result2) (result1 :: rest1)
      (result2 :: rest2)).map (fun entry => entry.1.id) =
        (documentedOrder tables (result1 :: rest1) (result2 :: rest2)).map some := by
    rw [comparedJobs, List.map_map]
    exact List.map_id _
  constructor
  · rintro ⟨jobDefMap, hok, horder⟩
    have hnull := exists_compareFlows_iff.mp ⟨jobDefMap, hok⟩
    refine ⟨hnull, ?_⟩
    have hentries := compareFlows_comparedJobs hok hnull hclash
    have hnodup : (jobDefMap.entries.map fun entry => entry.1.id).Nodup := by
      refine List.pairwise_map.mpr ((List.pairwise_map.mp jobDefMap.distinct).imp fun {a b} hne heq => ?_)
      rw [IdUrlPair.beq_iff.mpr heq] at hne
      cases hne
    rw [← hentries] at hids ⊢
    exact eq_of_map_eq hnodup (fun _ => (order.perm _).mem_iff.mp) (horder.trans hids.symm)
  · rintro ⟨hnull, hkept⟩
    obtain ⟨jobDefMap, hok⟩ := exists_compareFlows_iff.mpr hnull
    refine ⟨jobDefMap, hok, ?_⟩
    rw [compareFlows_comparedJobs hok hnull hclash, hkept, hids]

/-- The bucket of an entry is that of the id of its job. -/
theorem pairwise_bucket_iff (flow1 flow2 : IdUrlPair) (results1 results2 : List AppResult) :
    ((comparedJobs tables flow1 flow2 results1 results2).Pairwise fun a b =>
        HashMap.indexFor a.1.hashCode
            (HashMap.tableSize (comparedJobs tables flow1 flow2 results1 results2).length) ≤
          HashMap.indexFor b.1.hashCode
            (HashMap.tableSize (comparedJobs tables flow1 flow2 results1 results2).length)) ↔
      (documentedOrder tables results1 results2).Pairwise fun id id' =>
        jobBucket (documentedOrder tables results1 results2).length id ≤
          jobBucket (documentedOrder tables results1 results2).length id' := by
  have hlength : (comparedJobs tables flow1 flow2 results1 results2).length =
      (documentedOrder tables results1 results2).length := by
    rw [comparedJobs, List.length_map, List.length_map]
  rw [hlength, comparedJobs, List.pairwise_map, List.pairwise_map]
  rfl

end order

/-- Flow 1 runs a job, and flow 2 runs this job and another one. -/
private def commonRow (id : String) : AppResult := .row "application_1" id "exec 1" 1

private def againRow (id : String) : AppResult := .row "application_2" id "exec 2" 2

private def addedRow (id : String) : AppResult := .row "application_3" id "exec 2" 3

theorem noCaseClash_ab {common added : String}
    (hne : compareToIgnoreCase .ascii common.toList added.toList ≠ 0)
    (hne' : compareToIgnoreCase .ascii added.toList common.toList ≠ 0) :
    NoCaseClash .ascii ([commonRow common] ++ [againRow common, addedRow added]) := by
  intro id id' hid hid' hcompare
  simp [commonRow, againRow, addedRow, AppResult.row] at hid hid'
  rcases hid with rfl | rfl <;> rcases hid' with rfl | rfl
  · rfl
  · exact absurd hcompare hne
  · exact absurd hcompare hne'
  · rfl

end controllers
