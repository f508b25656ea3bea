import DrElephant.Library.OrderedMap
import DrElephant.Analysis.GetAnalysis

open collections drelephant.analysis java.lang

namespace drelephant.configurations.jobtype

/-- A `<jobType>` element by the texts of the elements in it; the text of an
element that is not there is null. -/
structure JobTypeNode where
  name : Option String
  conf : Option String
  value : Option String := none
  applicationtype : Option String
  isDefault : Bool := false

def TYPE_LEN_LIMIT : Nat := 20

/-- A job type as it was read from its element. -/
structure LoadedJobType where
  jobType : JobType
  appType : ApplicationType
  isDefault : Bool
  newJobTypeStr : String

/-- The text of a tag that has to be there and must not be empty. -/
def requiredText (tag jobtype : String) (text : Option String) : Except JavaException String :=
  match text with
  | none => .error (.runtime ("No tag '" ++ tag ++ "' in jobtype " ++ jobtype))
  | some text =>
    if text = "" then .error (.runtime ("Empty tag '" ++ tag ++ "' in jobtype " ++ jobtype))
    else .ok text

/-- Default regex. match any char one or more times -/
def confValue (value : Option String) : String :=
  match value with
  | none => ".*"
  | some value => if value = "" then ".*" else value

section parse

variable (compile : String → Option (String → Bool)) (toUpperCase : String → String)

/-- Reads the element that is the n-th of its document. -/
def parseJobType (n : Nat) (node : JobTypeNode) : Except JavaException LoadedJobType := do
  let name ← requiredText "jobtype" (toString n) node.name
  -- Truncate jobtype length for db constraint
  let jobTypeName := if utf16Length name > TYPE_LEN_LIMIT then substringTo name TYPE_LEN_LIMIT else name
  let jobConfName ← requiredText "conf" jobTypeName node.conf
  let jobConfValue := confValue node.value
  match node.applicationtype with
  | none => .error (.runtime ("No tag 'applicationtype' in jobtype " ++ jobTypeName))
  | some appTypeName =>
    match compile jobConfValue with
    | none => .error (.runtime ("Error processing this pattern.  Pattern:" ++ jobConfValue ++
        " jobtype:" ++ jobTypeName))
    | some pattern => pure {
        jobType := ⟨jobTypeName, some jobConfName, some pattern⟩
        appType := ⟨toUpperCase appTypeName⟩
        isDefault := node.isDefault
        newJobTypeStr := "jobType:" ++ jobTypeName ++ ", for application type:" ++ appTypeName ++
          ", isDefault:" ++ toString node.isDefault ++ ", confName:" ++ jobConfName ++
          ", confValue:" ++ jobConfValue ++ "." }

abbrev JobTypeLists := OrderedMap ApplicationType (List JobType)

def getJobTypeList (lists : JobTypeLists) (appType : ApplicationType) : List JobType :=
  (lists.get? appType).getD []

def addJobType (lists : JobTypeLists) (appType : ApplicationType) (jobType : JobType) :
    JobTypeLists :=
  lists.put appType (getJobTypeList lists appType ++ [jobType])

/-- What the loop over the elements fills. -/
structure Loading where
  appTypeToJobTypeList : JobTypeLists := .empty
  defaultMap : OrderedMap ApplicationType JobType := .empty

def Loading.add (loading : Loading) (loaded : LoadedJobType) : Except JavaException Loading :=
  if loaded.isDefault then
    if loading.defaultMap.containsKey loaded.appType then
      .error (.runtime ("Each application type should have one and only one default job type. " ++
        "Duplicate default job type: " ++ loaded.newJobTypeStr ++ " for application type: " ++
        loaded.appType.name))
    else .ok { loading with defaultMap := loading.defaultMap.put loaded.appType loaded.jobType }
  else
    .ok { loading with
      appTypeToJobTypeList :=
        addJobType loading.appTypeToJobTypeList loaded.appType loaded.jobType }

def parseNodes (n : Nat) (loading : Loading) : List JobTypeNode → Except JavaException Loading
  | [] => .ok loading
  | node :: nodes => do
    let loaded ← parseJobType compile toUpperCase (n + 1) node
    let loading ← loading.add loaded
    parseNodes (n + 1) loading nodes

/-- The lists of a configuration. The two hash maps are iterated in orders of
their own. -/
def parseJobTypeConfiguration (defaults : HashOrder ApplicationType JobType)
    (lists : HashOrder ApplicationType (List JobType)) (nodes : List JobTypeNode) :
    Except JavaException JobTypeLists := do
  let loading ← parseNodes compile toUpperCase 0 {} nodes
  -- Append default maps to the end of each job type list
  let appTypeToJobTypeList := (defaults.iterate loading.defaultMap.entries).foldl
    (fun jobTypes entry => addJobType jobTypes entry.1 entry.2) loading.appTypeToJobTypeList
  match (lists.iterate appTypeToJobTypeList.entries).find?
      fun entry => !loading.defaultMap.containsKey entry.1 with
  | some entry => .error (.runtime ("Each application type should have one and only one default " ++
      "job type, there is none for application type: " ++ entry.1.name ++
      ". Use <isDefault/> to tag one."))
  | none => .ok appTypeToJobTypeList

end parse

/-- What the context keeps of a configuration, the lists of the application
types that it supports. -/
def supportedJobTypes (lists : JobTypeLists) (supported : ApplicationType → Bool)
    (type : ApplicationType) : Option (List JobType) :=
  if supported type then lists.get? type else none

section loading

/-- The job types of an application type that are not its default, in document order. -/
def candidates (entries : List LoadedJobType) (type : ApplicationType) : List JobType :=
  (entries.filter fun entry => !entry.isDefault && entry.appType == type).map LoadedJobType.jobType

def defaults (entries : List LoadedJobType) (type : ApplicationType) : List JobType :=
  (entries.filter fun entry => entry.isDefault && entry.appType == type).map LoadedJobType.jobType

theorem candidates_append (before after : List LoadedJobType) (type : ApplicationType) :
    candidates (before ++ after) type = candidates before type ++ candidates after type := by
  simp [candidates]

theorem defaults_append (before after : List LoadedJobType) (type : ApplicationType) :
    defaults (before ++ after) type = defaults before type ++ defaults after type := by
  simp [defaults]

theorem getJobTypeList_addJobType (lists : JobTypeLists) (appType type : ApplicationType)
    (jobType : JobType) : getJobTypeList (addJobType lists appType jobType) type =
      getJobTypeList lists type ++ if appType == type then [jobType] else [] := by
  rw [addJobType, getJobTypeList, OrderedMap.get?_put]
  by_cases htype : appType = type
  · subst htype
    simp
  · simp [htype, getJobTypeList]

/-- The loop has filled its maps with the job types read so far. -/
structure Loading.Holds (loading : Loading) (entries : List LoadedJobType) : Prop where
  lists : ∀ type, getJobTypeList loading.appTypeToJobTypeList type = candidates entries type
  defaultMap : ∀ type, (loading.defaultMap.get? type).toList = defaults entries type

theorem Loading.Holds.empty : ({} : Loading).Holds [] :=
  ⟨fun _ => rfl, fun _ => rfl⟩

theorem Loading.Holds.add {loading loading' : Loading} {entries : List LoadedJobType}
    {loaded : LoadedJobType} (hholds : loading.Holds entries) (h : loading.add loaded = .ok loading') :
    loading'.Holds (entries ++ [loaded]) := by
  obtain ⟨hlists, hdefaults⟩ := hholds
  rw [Loading.add] at h
  cases hdefault : loaded.isDefault with
  | true =>
    rw [if_pos hdefault] at h
    split at h
    · cases h
    · rename_i hnew
      obtain rfl := Except.ok.inj h
      constructor
      · intro type
        rw [candidates_append, hlists]
        simp [candidates, hdefault]
      · intro type
        rw [defaults_append, ← hdefaults, OrderedMap.get?_put]
        by_cases htype : loaded.appType = type
        · subst htype
          have hnone : loading.defaultMap.get? loaded.appType = none := by
            rw [← Option.not_isSome_iff_eq_none, OrderedMap.isSome_get?]
            exact hnew
          simp [defaults, hdefault, hnone]
        · simp [defaults, htype]
  | false =>
    rw [if_neg (by simp [hdefault])] at h
    obtain rfl := Except.ok.inj h
    constructor
    · intro type
      rw [candidates_append, getJobTypeList_addJobType, hlists]
      congr 1
      by_cases htype : loaded.appType = type <;> simp [candidates, hdefault, htype]
    · intro type
      rw [defaults_append, hdefaults]
      simp [defaults, hdefault]

end loading

section accepted

variable {compile : String → Option (String → Bool)} {toUpperCase : String → String}

theorem requiredText_eq_ok_iff {tag jobtype result : String} {text : Option String} :
    requiredText tag jobtype text = .ok result ↔ text = some result ∧ result ≠ "" := by
  cases text with
  | none => simp [requiredText]
  | some text =>
    by_cases hempty : text = ""
    · simp only [requiredText, if_pos hempty, reduceCtorEq, Option.some.injEq, false_iff, not_and,
        not_not]
      exact fun heq => heq ▸ hempty
    · simp only [requiredText, if_neg hempty, Except.ok.injEq, Option.some.injEq]
      exact ⟨fun heq => ⟨heq, heq ▸ hempty⟩, And.left⟩

/-- The number of an element shows in errors only. -/
theorem parseJobType_congr {n : Nat} (m : Nat) {node : JobTypeNode} {loaded : LoadedJobType}
    (h : parseJobType compile toUpperCase n node = .ok loaded) :
    parseJobType compile toUpperCase m node = .ok loaded := by
  simp only [parseJobType, bind_eq_ok_iff, requiredText_eq_ok_iff] at h ⊢
  exact h

theorem parseJobType_name {n : Nat} {node : JobTypeNode} {loaded : LoadedJobType}
    (h : parseJobType compile toUpperCase n node = .ok loaded) :
    utf16Length loaded.jobType.name ≤ TYPE_LEN_LIMIT := by
  simp only [parseJobType, bind_eq_ok_iff] at h
  obtain ⟨name, -, confName, -, h⟩ := h
  split at h
  · cases h
  · split at h
    · cases h
    · obtain rfl := pure_eq_ok_iff.mp h
      dsimp only
      split
      · rw [utf16Length_substringTo (by omega)]
      · omega

variable (compile toUpperCase) in
/-- The job types that the elements of a document define, in document order. -/
def definedJobTypes (nodes : List JobTypeNode) : List LoadedJobType :=
  nodes.filterMap fun node => (parseJobType compile toUpperCase 1 node).toOption

theorem definedJobTypes_name {nodes : List JobTypeNode} :
    ∀ entry ∈ definedJobTypes compile toUpperCase nodes,
      utf16Length entry.jobType.name ≤ TYPE_LEN_LIMIT := by
  intro entry hentry
  obtain ⟨node, -, hparse⟩ := List.mem_filterMap.mp hentry
  cases hloaded : parseJobType compile toUpperCase 1 node with
  | error e => simp [hloaded, Except.toOption] at hparse
  | ok loaded =>
    obtain rfl : loaded = entry := by simpa [hloaded, Except.toOption] using hparse
    exact parseJobType_name hloaded

theorem Loading.Holds.parseNodes {n : Nat} {loading loading' : Loading}
    {entries : List LoadedJobType} {nodes : List JobTypeNode} (hholds : loading.Holds entries)
    (h : parseNodes compile toUpperCase n loading nodes = .ok loading') :
    loading'.Holds (entries ++ definedJobTypes compile toUpperCase nodes) := by
  induction nodes generalizing n loading entries with
  | nil =>
    obtain rfl := Except.ok.inj h
    simpa [definedJobTypes] using hholds
  | cons node nodes ih =>
    simp only [jobtype.parseNodes, bind_eq_ok_iff] at h
    obtain ⟨loaded, hloaded, added, hadded, hrest⟩ := h
    have hdefined : definedJobTypes compile toUpperCase (node :: nodes) =
        loaded :: definedJobTypes compile toUpperCase nodes := by
      simp [definedJobTypes, parseJobType_congr 1 hloaded, Except.toOption]
    rw [hdefined, List.append_cons]
    exact ih (hholds.add hadded) hrest

theorem getJobTypeList_foldl (lists : JobTypeLists) (es : List (ApplicationType × JobType))
    (type : ApplicationType) :
    getJobTypeList (es.foldl (fun jobTypes entry => addJobType jobTypes entry.1 entry.2) lists) type =
      getJobTypeList lists type ++ (es.filter fun e => e.1 == type).map Prod.snd := by
  induction es generalizing lists with
  | nil => simp
  | cons e es ih =>
    rw [List.foldl_cons, ih, getJobTypeList_addJobType, List.append_assoc]
    by_cases htype : e.1 = type <;> simp [htype]

/-- In an accepted configuration an application type has one default, and it is
listed behind the other job types of that type. -/
theorem parseJobTypeConfiguration_spec {defaultOrder : HashOrder ApplicationType JobType}
    {listOrder : HashOrder ApplicationType (List JobType)} {nodes : List JobTypeNode}
    {lists : JobTypeLists}
    (h : parseJobTypeConfiguration compile toUpperCase defaultOrder listOrder nodes = .ok lists)
    {type : ApplicationType} {jobTypes : List JobType} (htypes : lists.get? type = some jobTypes) :
    ∃ default, defaults (definedJobTypes compile toUpperCase nodes) type = [default] ∧
      jobTypes = candidates (definedJobTypes compile toUpperCase nodes) type ++ [default] := by
  simp only [parseJobTypeConfiguration, bind_eq_ok_iff] at h
  obtain ⟨loading, hloading, hcheck⟩ := h
  obtain ⟨hlists, hdefaults⟩ := Loading.Holds.empty.parseNodes hloading
  simp only [List.nil_append] at hlists hdefaults
  split at hcheck
  · cases hcheck
  · rename_i hsane
    obtain rfl := Except.ok.inj hcheck
    have hlist := congrArg (Option.getD · []) htypes
    change getJobTypeList _ type = jobTypes at hlist
    rw [getJobTypeList_foldl, HashOrder.filter_key, hlists, hdefaults] at hlist
    have hkey : loading.defaultMap.containsKey type = true := by
      obtain ⟨k, hk, heq⟩ := OrderedMap.containsKey_iff.mp
        ((OrderedMap.isSome_get? _ type).symm.trans (by rw [htypes]; rfl))
      obtain ⟨entry, hentry, rfl⟩ := List.mem_map.mp hk
      have hfound := List.find?_eq_none.mp hsane entry ((listOrder.perm _).mem_iff.mpr hentry)
      simpa [beq_iff_eq.mp heq] using hfound
    rw [← OrderedMap.isSome_get?, Option.isSome_iff_exists] at hkey
    obtain ⟨default, hdefault⟩ := hkey
    have hone := hdefaults type
    rw [hdefault] at hone
    exact ⟨default, hone.symm, by rw [← hlist, ← hone]; rfl⟩

end accepted

end drelephant.configurations.jobtype
