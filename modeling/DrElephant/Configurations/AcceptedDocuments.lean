import DrElephant.Configurations.Classification

open collections drelephant.analysis drelephant.mapreduce java.lang

namespace drelephant.configurations.jobtype

section documents

variable (compile : String → Option (String → Bool)) (toUpperCase : String → String)

/-- An element with a name, a conf, an application type and, if given, a value
that is a pattern. -/
structure JobTypeNode.WellFormed (node : JobTypeNode) : Prop where
  name : ∃ name, node.name = some name ∧ name ≠ ""
  conf : ∃ conf, node.conf = some conf ∧ conf ≠ ""
  applicationtype : node.applicationtype ≠ none
  value : ∀ value, node.value = some value → value ≠ "" → (compile value).isSome

/-- The application type of an element, up to upper-casing. -/
def JobTypeNode.appType (node : JobTypeNode) : Option ApplicationType :=
  node.applicationtype.map fun name => ⟨toUpperCase name⟩

/-- The job type that an element defines. -/
def JobTypeNode.jobType (node : JobTypeNode) : JobType where
  name := substringTo (node.name.getD "") TYPE_LEN_LIMIT
  confName := node.conf
  confPattern := compile (confValue node.value)

/-- The elements of an application type that are its default, or that are not. -/
def elementsOf (nodes : List JobTypeNode) (type : ApplicationType) (isDefault : Bool) : List JobTypeNode :=
  nodes.filter fun node => node.isDefault == isDefault && node.appType toUpperCase == some type

/-- An application type of a document. -/
def Occurs (nodes : List JobTypeNode) (type : ApplicationType) : Prop :=
  ∃ node ∈ nodes, node.appType toUpperCase = some type

/-- Every element is well formed, and every application type has one default. -/
structure WellFormedDocument (nodes : List JobTypeNode) : Prop where
  elements : ∀ node ∈ nodes, node.WellFormed compile
  default : ∀ type, Occurs toUpperCase nodes type → (elementsOf toUpperCase nodes type true).length = 1

end documents

section parse

variable {compile : String → Option (String → Bool)} {toUpperCase : String → String}
  {node : JobTypeNode} {nodes : List JobTypeNode} {loaded : LoadedJobType} {n : Nat}

theorem parseJobType_eq_ok (h : parseJobType compile toUpperCase n node = .ok loaded) :
    node.WellFormed compile ∧ loaded.jobType = node.jobType compile ∧
      node.appType toUpperCase = some loaded.appType ∧ loaded.isDefault = node.isDefault := by
  simp only [parseJobType, bind_eq_ok_iff, requiredText_eq_ok_iff] at h
  obtain ⟨name, ⟨hname, hnonempty⟩, conf, ⟨hconf, hnonempty'⟩, h⟩ := h
  cases htype : node.applicationtype with
  | none =>
    rw [htype] at h
    cases h
  | some appTypeName =>
    rw [htype] at h
    cases hcompile : compile (confValue node.value) with
    | none =>
      simp only [hcompile] at h
      cases h
    | some pattern =>
      simp only [hcompile] at h
      obtain rfl := pure_eq_ok_iff.mp h
      refine ⟨⟨⟨name, hname, hnonempty⟩, ⟨conf, hconf, hnonempty'⟩, by simp [htype], ?_⟩, ?_, ?_, rfl⟩
      · intro value hvalue hnonempty
        rw [hvalue, confValue, if_neg hnonempty] at hcompile
        rw [hcompile]
        rfl
      · simp [JobTypeNode.jobType, hname, hconf, hcompile, ite_substringTo]
      · simp [JobTypeNode.appType, htype]

/-- A well-formed element is read. -/
theorem parseJobType_of_wellFormed (toUpperCase : String → String) (hany : (compile ".*").isSome)
    (h : node.WellFormed compile) (n : Nat) :
    ∃ loaded, parseJobType compile toUpperCase n node = .ok loaded := by
  obtain ⟨⟨name, hname, hnonempty⟩, ⟨conf, hconf, hnonempty'⟩, htype, hvalue⟩ := h
  obtain ⟨appTypeName, htype⟩ := Option.ne_none_iff_exists'.mp htype
  have hcompile : (compile (confValue node.value)).isSome := by
    unfold confValue
    split
    · exact hany
    · rename_i value hgiven
      split
      · exact hany
      · rename_i hnonempty
        exact hvalue value hgiven hnonempty
  obtain ⟨pattern, hcompile⟩ := Option.isSome_iff_exists.mp hcompile
  simp only [parseJobType, bind_eq_ok_iff, requiredText_eq_ok_iff, htype, hcompile, pure_eq_ok_iff]
  exact ⟨_, name, ⟨hname, hnonempty⟩, conf, ⟨hconf, hnonempty'⟩, rfl⟩

/-- The job types of a kind are those of the elements of that kind. -/
theorem definedJobTypes_filter (hany : (compile ".*").isSome)
    (hnodes : ∀ node ∈ nodes, node.WellFormed compile) (type : ApplicationType) (isDefault : Bool) :
    ((definedJobTypes compile toUpperCase nodes).filter fun entry =>
        entry.isDefault == isDefault && entry.appType == type).map LoadedJobType.jobType =
      (elementsOf toUpperCase nodes type isDefault).map (JobTypeNode.jobType compile) := by
  induction nodes with
  | nil => rfl
  | cons node nodes ih =>
    obtain ⟨hnode, hrest⟩ := List.forall_mem_cons.mp hnodes
    obtain ⟨loaded, hloaded⟩ := parseJobType_of_wellFormed toUpperCase hany hnode 1
    obtain ⟨-, hjobType, happType, hdefault⟩ := parseJobType_eq_ok hloaded
    have hdefined : definedJobTypes compile toUpperCase (node :: nodes) =
        loaded :: definedJobTypes compile toUpperCase nodes := by
      simp [definedJobTypes, hloaded, Except.toOption]
    have hkind : (loaded.isDefault == isDefault && loaded.appType == type) =
        (node.isDefault == isDefault && node.appType toUpperCase == some type) := by
      rw [happType, hdefault]
      rfl
    rw [hdefined, elementsOf, List.filter_cons, List.filter_cons, hkind]
    split
    · rw [List.map_cons, List.map_cons, hjobType, ih hrest, elementsOf]
    · rw [ih hrest, elementsOf]

theorem candidates_definedJobTypes (hany : (compile ".*").isSome)
    (hnodes : ∀ node ∈ nodes, node.WellFormed compile) (type : ApplicationType) :
    candidates (definedJobTypes compile toUpperCase nodes) type =
      (elementsOf toUpperCase nodes type false).map (JobTypeNode.jobType compile) := by
  rw [← definedJobTypes_filter hany hnodes]
  simp [candidates]

theorem defaults_definedJobTypes (hany : (compile ".*").isSome)
    (hnodes : ∀ node ∈ nodes, node.WellFormed compile) (type : ApplicationType) :
    defaults (definedJobTypes compile toUpperCase nodes) type =
      (elementsOf toUpperCase nodes type true).map (JobTypeNode.jobType compile) := by
  rw [← definedJobTypes_filter hany hnodes]
  simp [defaults]

/-- A default is added unless there is one. -/
theorem exists_add_iff {loading : Loading} {entries : List LoadedJobType} (hholds : loading.Holds entries) :
    (∃ loading', loading.add loaded = .ok loading') ↔
      (loaded.isDefault = true → defaults entries loaded.appType = []) := by
  have hkey : loading.defaultMap.containsKey loaded.appType = true ↔ defaults entries loaded.appType ≠ [] := by
    rw [← hholds.defaultMap, ← OrderedMap.isSome_get?]
    cases loading.defaultMap.get? loaded.appType <;> simp
  rw [Loading.add]
  split
  · rename_i hdefault
    split
    · rename_i hthere
      simp [hdefault, hkey.mp hthere]
    · rename_i hnew
      simpa [hdefault] using not_not.mp (mt hkey.mpr hnew)
  · rename_i hdefault
    simp [hdefault]

/-- The loop ends if the elements are well formed and no default is there twice. -/
theorem exists_parseNodes_iff (hany : (compile ".*").isSome) {loading : Loading}
    {entries : List LoadedJobType} (hholds : loading.Holds entries) (n : Nat) (nodes : List JobTypeNode) :
    (∃ loading', parseNodes compile toUpperCase n loading nodes = .ok loading') ↔
      (∀ node ∈ nodes, node.WellFormed compile) ∧
        ∀ type, (defaults (entries ++ definedJobTypes compile toUpperCase nodes) type).length ≤ 1 := by
  induction nodes generalizing n loading entries with
  | nil =>
    have hone : ∀ type, (defaults entries type).length ≤ 1 := fun type => by
      rw [← hholds.defaultMap]
      exact Option.length_toList_le
    simpa [parseNodes, definedJobTypes] using hone
  | cons node nodes ih =>
    by_cases hnode : node.WellFormed compile
    · obtain ⟨loaded, hloaded⟩ := parseJobType_of_wellFormed toUpperCase hany hnode (n + 1)
      have hdefined : definedJobTypes compile toUpperCase (node :: nodes) =
          loaded :: definedJobTypes compile toUpperCase nodes := by
        simp [definedJobTypes, parseJobType_congr 1 hloaded, Except.toOption]
      simp only [parseNodes, bind_eq_ok_iff, hloaded, Except.ok.injEq, exists_eq_left']
      rw [hdefined, List.append_cons, List.forall_mem_cons, and_iff_right hnode]
      by_cases hadd : ∃ loading', loading.add loaded = .ok loading'
      · obtain ⟨added, hadded⟩ := hadd
        simp only [hadded, Except.ok.injEq, exists_eq_left']
        exact ih (hholds.add hadded) (n + 1)
      · refine iff_of_false ?_ ?_
        · rintro ⟨-, added, hadded, -⟩
          exact hadd ⟨added, hadded⟩
        · -- The second default of a type.
          rintro ⟨-, hone⟩
          rw [exists_add_iff hholds, Classical.not_imp] at hadd
          have htwo := hone loaded.appType
          rw [defaults_append, defaults_append, List.length_append, List.length_append] at htwo
          have hlast : (defaults [loaded] loaded.appType).length = 1 := by simp [defaults, hadd.1]
          have hbefore := List.length_pos_iff.mpr hadd.2
          omega
    · refine iff_of_false ?_ fun h => hnode (h.1 node List.mem_cons_self)
      rintro ⟨_, hparse⟩
      simp only [parseNodes, bind_eq_ok_iff] at hparse
      obtain ⟨loaded, hloaded, -⟩ := hparse
      exact hnode (parseJobType_eq_ok hloaded).1

/-- Lists come into being with a job type in them. -/
theorem get?_addJobType_ne_nil {lists : JobTypeLists} (h : ∀ type, lists.get? type ≠ some [])
    (appType : ApplicationType) (jobType : JobType) (type : ApplicationType) :
    (addJobType lists appType jobType).get? type ≠ some [] := by
  rw [addJobType, OrderedMap.get?_put]
  split
  · simp
  · exact h type

theorem get?_foldl_addJobType_ne_nil {lists : JobTypeLists} (h : ∀ type, lists.get? type ≠ some [])
    (es : List (ApplicationType × JobType)) (type : ApplicationType) :
    (es.foldl (fun jobTypes entry => addJobType jobTypes entry.1 entry.2) lists).get? type ≠ some [] := by
  induction es generalizing lists with
  | nil => exact h type
  | cons e es ih => exact ih (get?_addJobType_ne_nil h e.1 e.2)

theorem parseNodes_ne_nil {loading loading' : Loading}
    (h : ∀ type, loading.appTypeToJobTypeList.get? type ≠ some [])
    (hparse : parseNodes compile toUpperCase n loading nodes = .ok loading') (type : ApplicationType) :
    loading'.appTypeToJobTypeList.get? type ≠ some [] := by
  induction nodes generalizing n loading with
  | nil =>
    obtain rfl := Except.ok.inj hparse
    exact h type
  | cons node nodes ih =>
    simp only [parseNodes, bind_eq_ok_iff] at hparse
    obtain ⟨loaded, -, added, hadded, hrest⟩ := hparse
    refine ih (fun type => ?_) hrest
    rw [Loading.add] at hadded
    split at hadded
    · split at hadded
      · cases hadded
      · obtain rfl := Except.ok.inj hadded
        exact h type
    · obtain rfl := Except.ok.inj hadded
      exact get?_addJobType_ne_nil h _ _ type

theorem get?_eq_of_ne_nil {lists : JobTypeLists} {type : ApplicationType} (h : lists.get? type ≠ some []) :
    lists.get? type = if getJobTypeList lists type = [] then none else some (getJobTypeList lists type) := by
  rw [getJobTypeList]
  cases hlist : lists.get? type with
  | none => rfl
  | some jobTypes =>
    rw [hlist] at h
    rw [Option.getD_some, if_neg fun hnil => h (by rw [hnil])]

theorem occurs_iff {α : Type*} {f : JobTypeNode → α} {type : ApplicationType} :
    Occurs toUpperCase nodes type ↔ (elementsOf toUpperCase nodes type false).map f ++
      (elementsOf toUpperCase nodes type true).map f ≠ [] := by
  rw [← List.map_append, Ne, List.map_eq_nil_iff]
  constructor
  · rintro ⟨node, hnode, htype⟩
    refine List.ne_nil_of_mem (a := node) ?_
    simp [elementsOf, hnode, htype]
  · intro hne
    obtain ⟨node, hmem⟩ := List.exists_mem_of_ne_nil _ hne
    simp only [elementsOf, List.mem_append, List.mem_filter, Bool.and_eq_true, beq_iff_eq] at hmem
    rcases hmem with ⟨hnode, -, htype⟩ | ⟨hnode, -, htype⟩
    all_goals exact ⟨node, hnode, htype⟩

variable {defaultOrder : HashOrder ApplicationType JobType}
  {listOrder : HashOrder ApplicationType (List JobType)}

/-- The lists with the defaults appended. -/
def Loading.appended (loading : Loading) (defaultOrder : HashOrder ApplicationType JobType) : JobTypeLists :=
  (defaultOrder.iterate loading.defaultMap.entries).foldl
    (fun jobTypes entry => addJobType jobTypes entry.1 entry.2) loading.appTypeToJobTypeList

/-- The sanity check passes if every type that is listed has a default. -/
theorem parseJobTypeConfiguration_eq_ok_iff {lists : JobTypeLists} :
    parseJobTypeConfiguration compile toUpperCase defaultOrder listOrder nodes = .ok lists ↔
      ∃ loading, parseNodes compile toUpperCase 0 {} nodes = .ok loading ∧
        (∀ type, (loading.appended defaultOrder).get? type ≠ none → loading.defaultMap.get? type ≠ none) ∧
        loading.appended defaultOrder = lists := by
  simp only [parseJobTypeConfiguration, bind_eq_ok_iff]
  refine exists_congr fun loading => and_congr_right fun _ => ?_
  have hcheck : (listOrder.iterate (loading.appended defaultOrder).entries).find?
        (fun entry => !loading.defaultMap.containsKey entry.1) = none ↔
      ∀ type, (loading.appended defaultOrder).get? type ≠ none → loading.defaultMap.get? type ≠ none := by
    simp only [← Option.isSome_iff_ne_none, OrderedMap.isSome_get?, List.find?_eq_none,
      (listOrder.perm _).mem_iff, Bool.not_eq_true, Bool.not_eq_false']
    constructor
    · intro hentries type htype
      obtain ⟨key, hkey, heq⟩ := OrderedMap.containsKey_iff.mp htype
      obtain ⟨entry, hentry, rfl⟩ := List.mem_map.mp hkey
      exact beq_iff_eq.mp heq ▸ hentries entry hentry
    · intro htypes entry hentry
      exact htypes entry.1
        (OrderedMap.containsKey_iff.mpr ⟨entry.1, List.mem_map_of_mem hentry, beq_self_eq_true _⟩)
  rw [← hcheck]
  unfold Loading.appended
  split
  · rename_i entry hfind
    simp [hfind]
  · rename_i hfind
    simp [hfind]

/-- The lists of a document whose elements have been read. -/
theorem get?_appended {loading : Loading} (hparse : parseNodes compile toUpperCase 0 {} nodes = .ok loading)
    (defaultOrder : HashOrder ApplicationType JobType) (type : ApplicationType) :
    let jobTypes := candidates (definedJobTypes compile toUpperCase nodes) type ++
      defaults (definedJobTypes compile toUpperCase nodes) type
    (loading.appended defaultOrder).get? type = if jobTypes = [] then none else some jobTypes := by
  intro jobTypes
  obtain ⟨hlists, hdefaults⟩ := Loading.Holds.empty.parseNodes hparse
  simp only [List.nil_append] at hlists hdefaults
  have hnil := get?_foldl_addJobType_ne_nil (parseNodes_ne_nil (by simp) hparse)
    (defaultOrder.iterate loading.defaultMap.entries) type
  have hlist : getJobTypeList (loading.appended defaultOrder) type = jobTypes := by
    rw [Loading.appended, getJobTypeList_foldl, HashOrder.filter_key, hlists, hdefaults]
  rw [← hlist]
  exact get?_eq_of_ne_nil hnil

variable (compile toUpperCase) in
/-- The job types of an application type, its default behind the others. -/
def documentedList (nodes : List JobTypeNode) (type : ApplicationType) : List JobType :=
  (elementsOf toUpperCase nodes type false).map (JobTypeNode.jobType compile) ++
    (elementsOf toUpperCase nodes type true).map (JobTypeNode.jobType compile)

/-- What the loop and the appending of the defaults have filled. -/
theorem appended_spec (hany : (compile ".*").isSome) {loading : Loading}
    (hparse : parseNodes compile toUpperCase 0 {} nodes = .ok loading)
    (defaultOrder : HashOrder ApplicationType JobType) (type : ApplicationType) :
    (Occurs toUpperCase nodes type →
        (loading.appended defaultOrder).get? type = some (documentedList compile toUpperCase nodes type)) ∧
      (¬ Occurs toUpperCase nodes type → (loading.appended defaultOrder).get? type = none) ∧
      (loading.defaultMap.get? type).toList =
        (elementsOf toUpperCase nodes type true).map (JobTypeNode.jobType compile) := by
  have hnodes := ((exists_parseNodes_iff hany Loading.Holds.empty 0 nodes).mp ⟨loading, hparse⟩).1
  have hdefaults := (Loading.Holds.empty.parseNodes hparse).defaultMap type
  rw [List.nil_append, defaults_definedJobTypes hany hnodes] at hdefaults
  rw [get?_appended hparse, candidates_definedJobTypes hany hnodes, defaults_definedJobTypes hany hnodes]
  exact ⟨fun hoccurs => if_neg (occurs_iff.mp hoccurs),
    fun hnot => if_pos (not_not.mp (mt occurs_iff.mpr hnot)), hdefaults⟩

theorem wellFormedDocument_of_accepted (hany : (compile ".*").isSome) {lists : JobTypeLists}
    (h : parseJobTypeConfiguration compile toUpperCase defaultOrder listOrder nodes = .ok lists) :
    WellFormedDocument compile toUpperCase nodes := by
  obtain ⟨loading, hparse, hsane, -⟩ := parseJobTypeConfiguration_eq_ok_iff.mp h
  have hnodes := ((exists_parseNodes_iff hany Loading.Holds.empty 0 nodes).mp ⟨loading, hparse⟩).1
  refine ⟨hnodes, fun type hoccurs => ?_⟩
  obtain ⟨hlist, -, hdefault⟩ := appended_spec hany hparse defaultOrder type
  have hthere := hsane type (by rw [hlist hoccurs]; exact Option.some_ne_none _)
  obtain ⟨default, hdefaultMap⟩ := Option.ne_none_iff_exists'.mp hthere
  have hlength := congrArg List.length hdefault
  rw [hdefaultMap, List.length_map] at hlength
  exact hlength.symm

/-- No application type of a well-formed document has two defaults. -/
theorem length_defaults_le (hany : (compile ".*").isSome) (h : WellFormedDocument compile toUpperCase nodes)
    (type : ApplicationType) : (defaults (definedJobTypes compile toUpperCase nodes) type).length ≤ 1 := by
  rw [defaults_definedJobTypes hany h.elements, List.length_map]
  by_cases hoccurs : Occurs toUpperCase nodes type
  · exact (h.default type hoccurs).le
  · have hnil := not_not.mp (mt (occurs_iff (f := id)).mpr hoccurs)
    rw [List.append_eq_nil_iff, List.map_id, List.map_id] at hnil
    rw [hnil.2]
    exact Nat.zero_le 1

theorem accepted_of_wellFormedDocument (hany : (compile ".*").isSome)
    (h : WellFormedDocument compile toUpperCase nodes) (defaultOrder : HashOrder ApplicationType JobType)
    (listOrder : HashOrder ApplicationType (List JobType)) :
    ∃ lists, parseJobTypeConfiguration compile toUpperCase defaultOrder listOrder nodes = .ok lists := by
  obtain ⟨loading, hparse⟩ := (exists_parseNodes_iff hany Loading.Holds.empty 0 nodes).mpr
    ⟨h.elements, length_defaults_le hany h⟩
  refine ⟨_, parseJobTypeConfiguration_eq_ok_iff.mpr ⟨loading, hparse, fun type hlisted hnone => ?_, rfl⟩⟩
  obtain ⟨-, hnot, hdefaultMap⟩ := appended_spec hany hparse defaultOrder type
  have hlength := h.default type (not_not.mp (mt hnot hlisted))
  rw [hnone] at hdefaultMap
  rw [← List.length_map (JobTypeNode.jobType compile), ← hdefaultMap] at hlength
  cases hlength

/-- A configuration is accepted if and only if its document is well formed. The
list of an application type has its job types in document order and then its
default, and there is no other list. -/
theorem parseJobTypeConfiguration_accepts (hany : (compile ".*").isSome)
    (defaultOrder : HashOrder ApplicationType JobType)
    (listOrder : HashOrder ApplicationType (List JobType)) (nodes : List JobTypeNode) :
    ((∃ lists, parseJobTypeConfiguration compile toUpperCase defaultOrder listOrder nodes = .ok lists) ↔
      WellFormedDocument compile toUpperCase nodes) ∧
    ∀ lists, parseJobTypeConfiguration compile toUpperCase defaultOrder listOrder nodes = .ok lists →
      ∀ type,
        (Occurs toUpperCase nodes type →
          lists.get? type = some (documentedList compile toUpperCase nodes type)) ∧
        (¬ Occurs toUpperCase nodes type → lists.get? type = none) := by
  refine ⟨⟨fun ⟨_, hlists⟩ => wellFormedDocument_of_accepted hany hlists,
    fun h => accepted_of_wellFormedDocument hany h defaultOrder listOrder⟩, fun lists hlists type => ?_⟩
  obtain ⟨loading, hparse, -, rfl⟩ := parseJobTypeConfiguration_eq_ok_iff.mp hlists
  obtain ⟨hlist, hnone, -⟩ := appended_spec hany hparse defaultOrder type
  exact ⟨hlist, hnone⟩

theorem parseJobTypeConfiguration_accepts_shipped :
    WellFormedDocument compileSimple upperCase shippedJobTypes ∧
      (shippedLists.get? APPLICATION_TYPE).map (List.map JobType.name) =
        some ["Pig", "Hive", "Cascading", "Voldemort", "Kafka", "HadoopJava"] := by
  obtain ⟨haccepted, hlists⟩ := @parseJobTypeConfiguration_accepts compileSimple upperCase
    (by decide) .insertion .insertion shippedJobTypes
  refine ⟨haccepted.mp ⟨_, parse_shipped⟩, ?_⟩
  have hlist := (hlists _ parse_shipped APPLICATION_TYPE).1
    ⟨_, List.mem_cons_of_mem _ List.mem_cons_self, by decide⟩
  rw [hlist]
  decide

end parse

end drelephant.configurations.jobtype
