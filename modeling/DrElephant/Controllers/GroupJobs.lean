import Mathlib.Data.List.Induction
import DrElephant.Library.Grouping
import DrElephant.Models.AppResult

open collections models

namespace controllers

/-- An id with the url shown for it. Two pairs are equal when their ids are. -/
structure IdUrlPair where
  id : Option String
  url : Option String
  deriving Repr

namespace IdUrlPair

instance : BEq IdUrlPair := ⟨fun a b => a.id == b.id⟩

@[simp] theorem beq_iff {a b : IdUrlPair} : (a == b) = true ↔ a.id = b.id :=
  beq_iff_eq (a := a.id)

instance : EquivBEq IdUrlPair where
  rfl := beq_iff.mpr rfl
  symm h := beq_iff.mpr (beq_iff.mp h).symm
  trans h h' := beq_iff.mpr ((beq_iff.mp h).trans (beq_iff.mp h'))

end IdUrlPair

inductive GroupBy
  | JOB_EXECUTION_ID
  | JOB_DEFINITION_ID
  | FLOW_EXECUTION_ID
  deriving DecidableEq, Repr

def GroupBy.idField : GroupBy → AppResult → Option String
  | JOB_EXECUTION_ID => AppResult.jobExecId
  | JOB_DEFINITION_ID => AppResult.jobDefId
  | FLOW_EXECUTION_ID => AppResult.flowExecId

def GroupBy.urlField : GroupBy → AppResult → Option String
  | JOB_EXECUTION_ID => AppResult.jobExecUrl
  | JOB_DEFINITION_ID => AppResult.jobDefUrl
  | FLOW_EXECUTION_ID => AppResult.flowExecUrl

/-- The maps that the loop of `groupJobs` fills. -/
structure GroupMaps where
  groupMap : OrderedMap (Option String) (List AppResult) := .empty
  idUrlMap : OrderedMap (Option String) (Option String) := .empty

def GroupMaps.add (groupBy : GroupBy) (maps : GroupMaps) (result : AppResult) : GroupMaps :=
  let idField := groupBy.idField result
  let urlField := groupBy.urlField result
  { idUrlMap :=
      if maps.idUrlMap.containsKey idField then maps.idUrlMap
      else maps.idUrlMap.put idField urlField
    groupMap :=
      match maps.groupMap.get? idField with
      | some list => maps.groupMap.put idField (list ++ [result])
      | none => maps.groupMap.put idField [result] }

/-- Groups a list of results by a field. The keys pair the field with a url. -/
def groupJobs (results : List AppResult) (groupBy : GroupBy) :
    OrderedMap IdUrlPair (List AppResult) :=
  let maps := results.foldl (GroupMaps.add groupBy) {}
  .putAll .empty (maps.groupMap.entries.map fun entry =>
    (⟨entry.1, (maps.idUrlMap.get? entry.1).join⟩, entry.2))

/-- A row joins the group of its id, or begins one. -/
private theorem groupMap_add {maps : GroupMaps} {groupBy : GroupBy} {results : List AppResult}
    (hgroups : maps.groupMap.entries = group groupBy.idField results) (result : AppResult) :
    (GroupMaps.add groupBy maps result).groupMap.entries =
      group groupBy.idField (results ++ [result]) := by
  have hkeys : maps.groupMap.containsKey (groupBy.idField result) =
      decide (groupBy.idField result ∈ results.map groupBy.idField) := by
    rw [Bool.eq_iff_iff, OrderedMap.containsKey_iff, OrderedMap.keys, hgroups, map_fst_group]
    simp [List.mem_eraseDups]
  rw [group_concat, ← hgroups]
  simp only [GroupMaps.add]
  cases hget : maps.groupMap.get? (groupBy.idField result) with
  | none =>
    have hnew : maps.groupMap.containsKey (groupBy.idField result) = false := by
      rw [← OrderedMap.isSome_get?, hget]
      rfl
    rw [if_neg (by simpa [hnew] using hkeys.symm)]
    exact OrderedMap.entries_put_of_not_containsKey _ hnew
  | some list =>
    have hold : maps.groupMap.containsKey (groupBy.idField result) = true := by
      rw [← OrderedMap.isSome_get?, hget]
      rfl
    rw [if_pos (by simpa [hold] using hkeys.symm)]
    dsimp only
    rw [OrderedMap.entries_put_of_containsKey _ hold]
    apply List.map_congr_left
    intro entry hentry
    -- The list that is extended is the one of the entry that is rebound.
    by_cases hkey : entry.1 = groupBy.idField result
    · have hentryGet := OrderedMap.get?_eq_some_of_mem hentry
      rw [hkey, hget] at hentryGet
      simp [hkey, Option.some.inj hentryGet]
    · simp [hkey]

/-- The url that is known for an id stays. -/
private theorem idUrlMap_add (maps : GroupMaps) (groupBy : GroupBy) (result : AppResult)
    (id : Option String) : (GroupMaps.add groupBy maps result).idUrlMap.get? id =
      (maps.idUrlMap.get? id).or
        (if groupBy.idField result = id then some (groupBy.urlField result) else none) := by
  simp only [GroupMaps.add]
  cases hknown : maps.idUrlMap.get? (groupBy.idField result) with
  | none =>
    rw [← OrderedMap.isSome_get?, hknown, Option.isSome_none, if_neg Bool.false_ne_true,
      OrderedMap.get?_put]
    by_cases hsame : groupBy.idField result = id
    · subst hsame
      simp [hknown]
    · simp [hsame]
  | some url =>
    rw [← OrderedMap.isSome_get?, hknown, Option.isSome_some, if_pos rfl]
    by_cases hsame : groupBy.idField result = id
    · subst hsame
      simp [hknown]
    · simp [hsame]

/-- The loop groups the rows seen so far, and knows the url of the first row
of each group. -/
private theorem foldl_add (groupBy : GroupBy) (results : List AppResult) :
    let maps := results.foldl (GroupMaps.add groupBy) {}
    maps.groupMap.entries = group groupBy.idField results ∧
      ∀ id, maps.idUrlMap.get? id =
        (results.find? fun result => groupBy.idField result = id).map groupBy.urlField := by
  induction results using List.reverseRecOn with
  | nil => exact ⟨rfl, fun _ => rfl⟩
  | append_singleton results result ih =>
    obtain ⟨hgroups, hurls⟩ := ih
    rw [List.foldl_append, List.foldl_cons, List.foldl_nil]
    refine ⟨groupMap_add hgroups result, fun id => ?_⟩
    rw [idUrlMap_add, hurls, List.find?_append, Option.map_or, List.find?_singleton]
    congr 1
    by_cases hsame : groupBy.idField result = id <;> simp [hsame]

/-- The url shown for a group is the one of its first row. -/
def GroupBy.key (groupBy : GroupBy) (entry : Option String × List AppResult) : IdUrlPair :=
  ⟨entry.1, entry.2.head?.bind groupBy.urlField⟩

theorem groupJobs_entries (results : List AppResult) (groupBy : GroupBy) :
    (groupJobs results groupBy).entries =
      (group groupBy.idField results).map fun entry => (groupBy.key entry, entry.2) := by
  obtain ⟨hgroups, hurls⟩ := foldl_add groupBy results
  simp only [groupJobs, hgroups]
  have hentries : (group groupBy.idField results).map (fun entry =>
      ((⟨entry.1, ((results.foldl (GroupMaps.add groupBy) {}).idUrlMap.get? entry.1).join⟩ :
        IdUrlPair), entry.2)) =
      (group groupBy.idField results).map fun entry => (groupBy.key entry, entry.2) := by
    apply List.map_congr_left
    intro entry hentry
    rw [hurls, GroupBy.key, (mem_group_iff.mp hentry).2, List.head?_filter, ← Option.bind_id_eq_join,
      Option.bind_map, Function.id_comp]
    rfl
  rw [hentries, OrderedMap.entries_putAll]
  · rfl
  · have hkeys : (group groupBy.idField results).Pairwise fun a b => a.1 ≠ b.1 :=
      List.pairwise_map.mp (nodup_group groupBy.idField results)
    simpa [List.pairwise_map, GroupBy.key, ← Bool.not_eq_true] using hkeys

theorem mem_groupJobs {results : List AppResult} {groupBy : GroupBy}
    {entry : IdUrlPair × List AppResult} (hentry : entry ∈ (groupJobs results groupBy).entries) :
    entry.2 = results.filter (fun result => groupBy.idField result = entry.1.id) ∧ entry.2 ≠ [] := by
  rw [groupJobs_entries] at hentry
  obtain ⟨rows, hrows, rfl⟩ := List.mem_map.mp hentry
  have hne := group_ne_nil hrows
  exact ⟨(mem_group_iff.mp hrows).2, hne⟩

theorem keys_groupJobs {results : List AppResult} {groupBy : GroupBy} :
    (groupJobs results groupBy).keys.map IdUrlPair.id = firstOccurrences (results.map groupBy.idField) := by
  rw [← keys_group, OrderedMap.keys, groupJobs_entries, List.map_map, List.map_map]
  rfl

theorem mem_keys_groupJobs {results : List AppResult} {groupBy : GroupBy} {id : Option String} :
    id ∈ (groupJobs results groupBy).keys.map IdUrlPair.id ↔ id ∈ results.map groupBy.idField := by
  rw [keys_groupJobs, mem_firstOccurrences]

/-- The rows grouped under a key, null when there is none. -/
def rowsOf (groupBy : GroupBy) (results : List AppResult) (id : Option String) :
    Option (List AppResult) :=
  let rows := results.filter fun result => groupBy.idField result = id
  if rows.isEmpty then none else some rows

theorem groupJobs_get? (results : List AppResult) (groupBy : GroupBy) (pair : IdUrlPair) :
    (groupJobs results groupBy).get? pair = rowsOf groupBy results pair.id := by
  have hlookup : (groupJobs results groupBy).get? pair =
      ((group groupBy.idField results).find? fun entry => entry.1 == pair.id).map Prod.snd := by
    rw [OrderedMap.get?, groupJobs_entries, List.find?_map, Option.map_map]
    rfl
  rw [hlookup]
  cases hfind : (group groupBy.idField results).find? fun entry => entry.1 == pair.id with
  | none =>
    rw [List.find?_eq_none] at hfind
    have hrows : results.filter (fun result => groupBy.idField result = pair.id) = [] := by
      refine List.filter_eq_nil_iff.mpr fun result hresult hid => ?_
      obtain ⟨entry, hentry, hentryKey⟩ :=
        List.mem_map.mp (mem_keys_group.mpr (List.mem_map_of_mem (f := groupBy.idField) hresult))
      exact hfind entry hentry (by simpa [hentryKey] using hid)
    simp only [rowsOf, hrows, List.isEmpty_nil, if_true, Option.map_none]
  | some entry =>
    have hentry := List.mem_of_find?_eq_some hfind
    have hid : entry.1 = pair.id := by simpa using List.find?_some hfind
    have hrows : entry.2 = results.filter fun result => groupBy.idField result = pair.id :=
      hid ▸ (mem_group_iff.mp hentry).2
    have hne := group_ne_nil hentry
    rw [rowsOf, ← hrows, if_neg (by simpa using hne), Option.map_some]

/-- A map that holds each row once, with the rows of its id, under keys in the
order in which the ids first occur. -/
structure Partitions (groupBy : GroupBy) (results : List AppResult)
    (groups : OrderedMap IdUrlPair (List AppResult)) : Prop where
  ids : ∀ id, id ∈ groups.keys.map IdUrlPair.id ↔ id ∈ results.map groupBy.idField
  distinct : (groups.keys.map IdUrlPair.id).Nodup
  order : (groups.keys.map IdUrlPair.id).Pairwise fun id id' =>
    (results.map groupBy.idField).idxOf id < (results.map groupBy.idField).idxOf id'
  urls : ∀ key ∈ groups.keys, ∃ first,
    (results.find? fun result => groupBy.idField result = key.id) = some first ∧
      key.url = groupBy.urlField first
  rows : ∀ entry ∈ groups.entries,
    entry.2 = results.filter fun result => groupBy.idField result = entry.1.id
  ne_nil : ∀ entry ∈ groups.entries, entry.2 ≠ []
  once : (groups.entries.flatMap Prod.snd).Perm results

section partition

variable {results : List AppResult} {groupBy : GroupBy}

/-- The url of a key is the one of the first row with its id. -/
theorem exists_first_of_mem_keys {key : IdUrlPair} (hkey : key ∈ (groupJobs results groupBy).keys) :
    ∃ first, (results.find? fun result => groupBy.idField result = key.id) = some first ∧
      key.url = groupBy.urlField first := by
  obtain ⟨entry, hentry, rfl⟩ := List.mem_map.mp hkey
  obtain ⟨hrows, hne⟩ := mem_groupJobs hentry
  obtain ⟨first, rest, hfirst⟩ := List.exists_cons_of_ne_nil hne
  have hurl : entry.1.url = entry.2.head?.bind groupBy.urlField := by
    rw [groupJobs_entries] at hentry
    obtain ⟨rows, -, rfl⟩ := List.mem_map.mp hentry
    rfl
  refine ⟨first, ?_, ?_⟩
  · rw [← List.head?_filter, ← hrows, hfirst, List.head?_cons]
  · rw [hurl, hfirst, List.head?_cons, Option.bind_some]

/-- Grouping the rows of a group once more yields that group alone. -/
theorem groupJobs_of_mem {entry : IdUrlPair × List AppResult}
    (hentry : entry ∈ (groupJobs results groupBy).entries) :
    (groupJobs entry.2 groupBy).entries = [entry] := by
  rw [groupJobs_entries] at hentry
  obtain ⟨rows, hrows, rfl⟩ := List.mem_map.mp hentry
  rw [groupJobs_entries, group_of_mem hrows]
  rfl

/-- Grouping is a stable partition of the rows, and grouping a group changes nothing. -/
theorem groupJobs_partitions (results : List AppResult) (groupBy : GroupBy) :
    Partitions groupBy results (groupJobs results groupBy) ∧
      ∀ entry ∈ (groupJobs results groupBy).entries, (groupJobs entry.2 groupBy).entries = [entry] := by
  refine ⟨?_, fun entry => groupJobs_of_mem⟩
  constructor
  case ids => exact fun id => mem_keys_groupJobs
  case distinct =>
    rw [keys_groupJobs]
    exact nodup_firstOccurrences (results.map groupBy.idField)
  case order =>
    rw [keys_groupJobs]
    exact firstOccurrences_pairwise (results.map groupBy.idField)
  case urls => exact fun key => exists_first_of_mem_keys
  case rows => exact fun entry hentry => (mem_groupJobs hentry).1
  case ne_nil => exact fun entry hentry => (mem_groupJobs hentry).2
  case once =>
    rw [groupJobs_entries, List.flatMap_map]
    exact flatMap_group_perm groupBy.idField results

end partition

end controllers
