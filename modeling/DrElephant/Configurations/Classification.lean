import DrElephant.Configurations.JobTypeConfiguration
import DrElephant.MapReduce.MapReduceData

open collections drelephant.analysis drelephant.mapreduce drelephant.util java.lang models

namespace drelephant.configurations.jobtype

/-- The job type that a configuration documents for properties: the first one
that fits, and the default where none does. -/
def documentedJobType (entries : List LoadedJobType) (type : ApplicationType)
    (jobProp : Properties) : Option JobType :=
  ((candidates entries type).find? (·.fits jobProp)).or (defaults entries type).head?

variable {δ : Type} [HadoopApplicationData δ]

/-- An application is matched with its documented job type and stored under
the name of that type. -/
def ClassifiedAsDocumented (context : ElephantContext δ) (entries : List LoadedJobType) (data : δ)
    (jobProp : Properties) : Prop :=
  ∃ jobType,
    documentedJobType entries (HadoopApplicationData.getApplicationType data) jobProp =
      some jobType ∧
    context.matchJobType (some data) = .ok (some jobType) ∧
    ∀ setup job result, AnalyticJob.analyzeData context setup job (some data) = .ok result →
      result.jobType = some jobType.name

/-- The job type of a result is the one that was matched. -/
theorem analyzeData_jobType {context : ElephantContext δ} {setup : InfoExtractor.Setup δ}
    {job : AnalyticJob} {data : Option δ} {result : AppResult} {jobType : Option JobType}
    (h : AnalyticJob.analyzeData context setup job data = .ok result)
    (hmatch : context.matchJobType data = .ok jobType) :
    result.jobType = Utils.truncateField
      (some (jobType.elim AnalyticJob.UNKNOWN_JOB_TYPE JobType.name)) AppResult.JOBTYPE_LIMIT := by
  simp only [AnalyticJob.analyzeData, bind_eq_ok_iff, hmatch, Except.ok.injEq, exists_eq_left'] at h
  obtain ⟨results, -, hload⟩ := h
  exact congrArg AppResult.jobType (InfoExtractor.withoutSchedulerInfo_loadInfo hload)

private theorem mem_listed {entries : List LoadedJobType} {type : ApplicationType} {jobType : JobType} :
    jobType ∈ candidates entries type ++ defaults entries type ↔
      ∃ entry ∈ entries, entry.appType = type ∧ entry.jobType = jobType := by
  simp only [candidates, defaults, List.mem_append, List.mem_map, List.mem_filter]
  constructor
  · rintro (⟨entry, ⟨hentry, htype⟩, rfl⟩ | ⟨entry, ⟨hentry, htype⟩, rfl⟩)
    all_goals
      rw [Bool.and_eq_true, beq_iff_eq] at htype
      exact ⟨entry, hentry, htype.2, rfl⟩
  · rintro ⟨entry, hentry, rfl, rfl⟩
    cases hdefault : entry.isDefault with
    | false => exact .inl ⟨entry, ⟨hentry, by simp [hdefault]⟩, rfl⟩
    | true => exact .inr ⟨entry, ⟨hentry, by simp [hdefault]⟩, rfl⟩

section matching

variable {compile : String → Option (String → Bool)} {toUpperCase : String → String}
  {defaultOrder : HashOrder ApplicationType JobType}
  {listOrder : HashOrder ApplicationType (List JobType)} {nodes : List JobTypeNode}
  {lists : JobTypeLists}

/-- The job types of an application are searched in document order, with the
one default behind the others. -/
theorem matchJobType_eq
    (hlists : parseJobTypeConfiguration compile toUpperCase defaultOrder listOrder nodes = .ok lists)
    {context : ElephantContext δ} {supported : ApplicationType → Bool}
    (hcontext : context.appTypeToJobTypes = supportedJobTypes lists supported) {data : δ}
    (hsupported : (context.appTypeToJobTypes (HadoopApplicationData.getApplicationType data)).isSome)
    {jobProp : Properties} (hprop : HadoopApplicationData.getConf data = some jobProp) :
    ∃ default, defaults (definedJobTypes compile toUpperCase nodes)
        (HadoopApplicationData.getApplicationType data) = [default] ∧
      context.matchJobType (some data) =
        .ok ((candidates (definedJobTypes compile toUpperCase nodes)
          (HadoopApplicationData.getApplicationType data) ++ [default]).find? (·.fits jobProp)) := by
  obtain ⟨jobTypes, htypes⟩ := Option.isSome_iff_exists.mp hsupported
  have hlist : lists.get? (HadoopApplicationData.getApplicationType data) = some jobTypes := by
    rw [hcontext, supportedJobTypes] at htypes
    split at htypes
    · exact htypes
    · cases htypes
  obtain ⟨default, hdefault, hjobTypes⟩ := parseJobTypeConfiguration_spec hlists hlist
  refine ⟨default, hdefault, ?_⟩
  simp only [ElephantContext.matchJobType, htypes, hprop, ElephantContext.firstMatch_some, hjobTypes]

/-- The default that was found is the one that the list ends with. -/
private theorem documentedJobType_of_found {entries : List LoadedJobType} {type : ApplicationType}
    {jobProp : Properties} {default jobType : JobType} (hdefault : defaults entries type = [default])
    (hfind : (candidates entries type ++ [default]).find? (·.fits jobProp) = some jobType) :
    documentedJobType entries type jobProp = some jobType := by
  rw [documentedJobType, hdefault, List.head?_cons]
  rw [List.find?_append] at hfind
  cases hcandidate : (candidates entries type).find? (·.fits jobProp) with
  | some candidate =>
    rw [hcandidate] at hfind
    exact hfind
  | none =>
    rw [hcandidate, Option.none_or, List.find?_singleton] at hfind
    split at hfind
    · exact hfind
    · cases hfind

/-- Under an accepted configuration an application is classified as documented
exactly when a job type fits its properties, be it the default: as the last of
the list the default is asked for its key and its pattern like any other. -/
theorem classifiedAsDocumented_iff
    (hlists : parseJobTypeConfiguration compile toUpperCase defaultOrder listOrder nodes = .ok lists)
    {context : ElephantContext δ} {supported : ApplicationType → Bool}
    (hcontext : context.appTypeToJobTypes = supportedJobTypes lists supported) {data : δ}
    (hsupported : (context.appTypeToJobTypes (HadoopApplicationData.getApplicationType data)).isSome)
    {jobProp : Properties} (hprop : HadoopApplicationData.getConf data = some jobProp) :
    ClassifiedAsDocumented context (definedJobTypes compile toUpperCase nodes) data jobProp ↔
      ∃ entry ∈ definedJobTypes compile toUpperCase nodes,
        entry.appType = HadoopApplicationData.getApplicationType data ∧
        entry.jobType.fits jobProp = true := by
  obtain ⟨default, hdefault, hmatch⟩ := matchJobType_eq hlists hcontext hsupported hprop
  have hmem : ∀ jobType, jobType ∈ candidates (definedJobTypes compile toUpperCase nodes)
        (HadoopApplicationData.getApplicationType data) ++ [default] ↔
      ∃ entry ∈ definedJobTypes compile toUpperCase nodes,
        entry.appType = HadoopApplicationData.getApplicationType data ∧ entry.jobType = jobType := by
    intro jobType
    rw [← hdefault]
    exact mem_listed
  constructor
  · rintro ⟨jobType, -, hfound, -⟩
    have hfind := Except.ok.inj (hmatch.symm.trans hfound)
    obtain ⟨entry, hentry, htype, rfl⟩ := (hmem jobType).mp (List.mem_of_find?_eq_some hfind)
    exact ⟨entry, hentry, htype, by simpa using List.find?_some hfind⟩
  · rintro ⟨entry, hentry, htype, hfits⟩
    have hsome : ((candidates (definedJobTypes compile toUpperCase nodes)
        (HadoopApplicationData.getApplicationType data) ++ [default]).find? (·.fits jobProp)).isSome := by
      rw [List.find?_isSome]
      exact ⟨entry.jobType, (hmem _).mpr ⟨entry, hentry, htype, rfl⟩, hfits⟩
    obtain ⟨jobType, hfind⟩ := Option.isSome_iff_exists.mp hsome
    obtain ⟨found, hfound, -, rfl⟩ := (hmem jobType).mp (List.mem_of_find?_eq_some hfind)
    rw [hfind] at hmatch
    refine ⟨found.jobType, ?_, hmatch, ?_⟩
    · exact documentedJobType_of_found hdefault hfind
    · intro setup job result hresult
      rw [analyzeData_jobType hresult hmatch]
      exact Utils.truncateField_of_le (definedJobTypes_name found hfound)

end matching

section shipped

/-- A star takes as many of the characters that it repeats as leave a match of
the rest. -/
def matchesStar (accepts : Char → Bool) (rest : List Char → Bool) : List Char → Bool
  | [] => rest []
  | c :: text => rest (c :: text) || (accepts c && matchesStar accepts rest text)

/-- The dot stands for every character but the line terminators. -/
def matchesAtom (atom c : Char) : Bool :=
  if atom = '.' then c ∉ ['\n', '\r', '\u0085', '\u2028', '\u2029'] else atom == c

/-- Whether a pattern of literals, dots and stars matches a whole text. -/
def matchesWhole : List Char → List Char → Bool
  | atom :: '*' :: pattern, text => matchesStar (matchesAtom atom) (matchesWhole pattern) text
  | atom :: pattern, c :: text => matchesAtom atom c && matchesWhole pattern text
  | _ :: _, [] => false
  | [], text => text.isEmpty

/-- `Pattern.compile` on patterns of literals, dots and stars. -/
def compileSimple (pattern : String) : Option (String → Bool) :=
  some fun text => matchesWhole pattern.toList text.toList

/-- The job types of JobTypeConf.xml. -/
def shippedJobTypes : List JobTypeNode :=
  [{ name := some "Spark", applicationtype := some "spark", conf := some "spark.app.id",
      isDefault := true },
    { name := some "Pig", applicationtype := some "mapreduce", conf := some "pig.script" },
    { name := some "Hive", applicationtype := some "mapreduce", conf := some "hive.mapred.mode" },
    { name := some "Cascading", applicationtype := some "mapreduce",
      conf := some "cascading.app.frameworks" },
    { name := some "Voldemort", applicationtype := some "mapreduce",
      conf := some "mapred.reducer.class", value := some "voldemort.store.readonly.mr.*" },
    { name := some "Kafka", applicationtype := some "mapreduce", conf := some "kafka.url" },
    { name := some "HadoopJava", applicationtype := some "mapreduce",
      conf := some "mapred.child.java.opts", isDefault := true }]

/-- Upper case of ASCII text. -/
def upperCase (text : String) : String := String.ofList (text.toList.map Char.toUpper)

/-- What is loaded of JobTypeConf.xml. -/
def shippedLists : JobTypeLists :=
  (parseJobTypeConfiguration compileSimple upperCase .insertion .insertion
    shippedJobTypes).toOption.getD .empty

theorem parse_shipped : parseJobTypeConfiguration compileSimple upperCase .insertion .insertion
    shippedJobTypes = .ok shippedLists := by
  have haccepted : (parseJobTypeConfiguration compileSimple upperCase .insertion .insertion
      shippedJobTypes).toOption.isSome = true := by decide
  rw [shippedLists]
  cases hparse : parseJobTypeConfiguration compileSimple upperCase .insertion .insertion
      shippedJobTypes with
  | ok lists => rfl
  | error e => simp [hparse, Except.toOption] at haccepted

/-- A failed job with the given properties. -/
def jobWithProperties (jobProp : Properties) : CompleteApplicationData :=
  ⟨{ succeeded := false, jobConf := some jobProp }, by simp⟩

/-- A context that has the shipped job types and fetches one and the same job. -/
def shippedContext (jobProp : Properties) : ElephantContext CompleteApplicationData where
  __ := ElephantContext.single "MAPREDUCE" fun job =>
    (.ok (some (jobWithProperties jobProp)), job.trackingUrl)
  appTypeToJobTypes := supportedJobTypes shippedLists fun type => type == APPLICATION_TYPE

def pigProperties : Properties := fun key => if key = "pig.script" then some "script.pig" else none

theorem classifiedAsDocumented_pig : ClassifiedAsDocumented (shippedContext pigProperties)
    (definedJobTypes compileSimple upperCase shippedJobTypes) (jobWithProperties pigProperties)
    pigProperties := by
  have hfits : (definedJobTypes compileSimple upperCase shippedJobTypes).any (fun entry =>
      entry.appType == APPLICATION_TYPE && entry.jobType.fits pigProperties) = true := by decide
  obtain ⟨entry, hentry, hentryFits⟩ := List.any_eq_true.mp hfits
  rw [Bool.and_eq_true, beq_iff_eq] at hentryFits
  exact (classifiedAsDocumented_iff parse_shipped rfl (by decide) rfl).mpr ⟨entry, hentry, hentryFits⟩

/-- A job without the key of HadoopJava is of the type Unknown. -/
theorem not_classifiedAsDocumented_shipped :
    (AnalyticJob.getAnalysis (shippedContext fun _ => none) ⟨[], fun _ => .ok none⟩
      ⟨0, APPLICATION_TYPE, "application_1", "", "", "", none, 1, 2⟩).1.toOption.map AppResult.jobType =
      some (some "Unknown") ∧
    ¬ ClassifiedAsDocumented (shippedContext fun _ => none)
      (definedJobTypes compileSimple upperCase shippedJobTypes) (jobWithProperties fun _ => none)
      fun _ => none := by
  refine ⟨by decide, ?_⟩
  rintro ⟨jobType, -, hmatch, -⟩
  have hnone : ((shippedContext fun _ => none).matchJobType
      (some (jobWithProperties fun _ => none))).toOption.map Option.isNone = some true := by decide
  rw [hmatch] at hnone
  cases hnone

end shipped

end drelephant.configurations.jobtype
