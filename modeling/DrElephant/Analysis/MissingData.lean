import DrElephant.Analysis.GetAnalysis
import DrElephant.Analysis.ShippedHeuristics

open drelephant.analysis drelephant.util java.lang machine models

namespace drelephant.util.InfoExtractor

/-- Every scheduler class that is tried can be invoked: those before it have
made schedulers that are empty. -/
def Invocable (appId : Option String) (properties : Properties) (schedulers : List SchedulerClass) :
    Prop :=
  ∀ before schedulerClass after, schedulers = before ++ schedulerClass :: after →
    (∀ earlier ∈ before, ∃ scheduler, earlier.newInstance appId properties = .ok scheduler ∧
      scheduler.isEmpty = true) →
    ∃ scheduler, schedulerClass.newInstance appId properties = .ok scheduler

theorem firstScheduler_returns_iff (appId : Option String) (properties : Properties)
    (schedulers : List SchedulerClass) :
    (∃ scheduler, firstScheduler appId properties schedulers = .ok scheduler) ↔
      Invocable appId properties schedulers := by
  induction schedulers with
  | nil => simp [firstScheduler, Invocable]
  | cons first rest ih =>
    rw [firstScheduler]
    cases hfirst : first.newInstance appId properties with
    | error e =>
      simp only [reduceCtorEq, exists_false, false_iff]
      intro hinvocable
      obtain ⟨scheduler, hscheduler⟩ := hinvocable [] first rest rfl (by simp)
      rw [hfirst] at hscheduler
      cases hscheduler
    | ok scheduler =>
      cases hempty : scheduler.isEmpty with
      | false =>
        simp only [hempty, Bool.false_eq_true, if_false, Except.ok.injEq, exists_eq', true_iff]
        rintro (_ | ⟨earlier, before⟩) schedulerClass after hsplit hbefore
        · obtain ⟨rfl, -⟩ := List.cons.inj hsplit
          exact ⟨scheduler, hfirst⟩
        · obtain ⟨rfl, -⟩ := List.cons.inj hsplit
          obtain ⟨scheduler', hscheduler', hempty'⟩ := hbefore first List.mem_cons_self
          rw [hfirst] at hscheduler'
          obtain rfl := Except.ok.inj hscheduler'
          rw [hempty] at hempty'
          cases hempty'
      | true =>
        simp only [hempty, if_true]
        rw [ih]
        constructor
        · rintro hrest (_ | ⟨earlier, before⟩) schedulerClass after hsplit hbefore
          · obtain ⟨rfl, -⟩ := List.cons.inj hsplit
            exact ⟨scheduler, hfirst⟩
          · obtain ⟨rfl, hsplit'⟩ := List.cons.inj hsplit
            exact hrest before schedulerClass after hsplit' (List.forall_mem_cons.mp hbefore).2
        · rintro hinvocable before schedulerClass after hsplit hbefore
          refine hinvocable (first :: before) schedulerClass after (by rw [hsplit]; rfl) ?_
          exact List.forall_mem_cons.mpr ⟨⟨scheduler, hfirst, hempty⟩, hbefore⟩

end drelephant.util.InfoExtractor

namespace drelephant.analysis

namespace AnalyticJob

private theorem applyHeuristics_returns {δ : Type} {fetched : δ} {heuristics : List (Heuristic δ)}
    (h : ∀ heuristic ∈ heuristics, ∃ outcome, heuristic fetched = .ok outcome) :
    ∃ results, applyHeuristics fetched heuristics = .ok results := by
  induction heuristics with
  | nil => exact ⟨[], rfl⟩
  | cons heuristic heuristics ih =>
    obtain ⟨⟨outcome, houtcome⟩, hrest⟩ := List.forall_mem_cons.mp h
    obtain ⟨results, hresults⟩ := ih hrest
    exact ⟨_, by rw [applyHeuristics, houtcome, hresults]; rfl⟩

variable {δ : Type} [HadoopApplicationData δ]

/-- An analysis returns, and for missing data it returns one row that says so. -/
def MissingDataReported (context : ElephantContext δ) (setup : InfoExtractor.Setup δ)
    (job : AnalyticJob) (data : Option δ) : Prop :=
  ∃ result, (getAnalysis context setup job).1 = .ok result ∧
    ((∀ fetched ∈ data, HadoopApplicationData.isEmpty fetched = true) →
      ∃ row, result.yarnAppHeuristicResults = [row] ∧
        row = HeuristicResult.NO_DATA.toAppHeuristicResult ∧ row.severity = .LOW ∧ row.score = 0)

/-- What an analysis needs of data next to the heuristics: job types to look it
up in, and schedulers that can be made of its properties. -/
structure Loadable (context : ElephantContext δ) (setup : InfoExtractor.Setup δ) (fetched : δ) :
    Prop where
  jobTypes : ∃ types,
    context.appTypeToJobTypes (HadoopApplicationData.getApplicationType fetched) = some types ∧
    (HadoopApplicationData.getConf fetched ≠ none ∨
      ∀ type ∈ types, type.confName = none ∨ type.confPattern = none)
  schedulers : ∃ properties, setup.retrieveProperties fetched = .ok properties ∧
    ∀ properties' ∈ properties, InfoExtractor.Invocable (HadoopApplicationData.getAppId fetched)
      properties' setup.schedulers

section loadable

variable {context : ElephantContext δ} {setup : InfoExtractor.Setup δ} {fetched : δ}

private theorem matchJobType_returns_iff :
    (∃ jobType, context.matchJobType (some fetched) = .ok jobType) ↔ ∃ types,
      context.appTypeToJobTypes (HadoopApplicationData.getApplicationType fetched) = some types ∧
      (HadoopApplicationData.getConf fetched ≠ none ∨
        ∀ type ∈ types, type.confName = none ∨ type.confPattern = none) := by
  simp only [ElephantContext.matchJobType]
  cases context.appTypeToJobTypes (HadoopApplicationData.getApplicationType fetched) with
  | none => simp
  | some types =>
    cases hconf : HadoopApplicationData.getConf fetched with
    | none => simpa using ElephantContext.firstMatch_none_returns_iff types
    | some jobProp => simp [ElephantContext.firstMatch_some]

private theorem loadInfo_returns_iff (result : AppResult) :
    (∃ loaded, InfoExtractor.loadInfo setup result (some fetched) = .ok loaded) ↔
      ∃ properties, setup.retrieveProperties fetched = .ok properties ∧
        ∀ properties' ∈ properties, InfoExtractor.Invocable (HadoopApplicationData.getAppId fetched)
          properties' setup.schedulers := by
  simp only [InfoExtractor.loadInfo, bind_eq_ok_iff]
  constructor
  · rintro ⟨loaded, properties, hproperties, scheduler, hscheduler, -⟩
    refine ⟨properties, hproperties, ?_⟩
    rintro properties' rfl
    exact (InfoExtractor.firstScheduler_returns_iff _ _ _).mp ⟨scheduler, hscheduler⟩
  · rintro ⟨properties, hproperties, hinvocable⟩
    have hscheduler : ∃ scheduler, InfoExtractor.getSchedulerInstance setup.schedulers
        (HadoopApplicationData.getAppId fetched) properties = .ok scheduler := by
      cases properties with
      | none => exact ⟨none, rfl⟩
      | some properties' => exact (InfoExtractor.firstScheduler_returns_iff _ _ _).mpr (hinvocable _ rfl)
    obtain ⟨scheduler, hscheduler⟩ := hscheduler
    cases scheduler with
    | none => exact ⟨_, properties, hproperties, none, hscheduler, rfl⟩
    | some scheduler => exact ⟨_, properties, hproperties, some scheduler, hscheduler, rfl⟩

private theorem analyzeData_returns_iff {job : AnalyticJob} {results : List HeuristicResult}
    (hresults : analyze context job (some fetched) = .ok results) :
    (∃ result, analyzeData context setup job (some fetched) = .ok result) ↔
      Loadable context setup fetched := by
  simp only [analyzeData, hresults, bind_eq_ok_iff, Except.ok.injEq, exists_eq_left']
  constructor
  · rintro ⟨result, jobType, hjobType, hload⟩
    exact ⟨matchJobType_returns_iff.mp ⟨jobType, hjobType⟩, (loadInfo_returns_iff _).mp ⟨result, hload⟩⟩
  · rintro ⟨hjobTypes, hschedulers⟩
    obtain ⟨jobType, hjobType⟩ := matchJobType_returns_iff.mpr hjobTypes
    obtain ⟨result, hload⟩ := (loadInfo_returns_iff _).mpr hschedulers
    exact ⟨result, jobType, hjobType, hload⟩

end loadable

/-- An analysis whose heuristics return reports missing data exactly when the
fetcher returned an object, be it empty, for which job type and scheduler can be
looked up. Null is looked into for the scheduler all the same. -/
theorem missingDataReported_iff {context : ElephantContext δ} {setup : InfoExtractor.Setup δ}
    {job : AnalyticJob} {fetchData : ElephantFetcher δ} {data : Option δ}
    {heuristics : List (Heuristic δ)} (hfetcher : context.typeToFetcher job.type = some fetchData)
    (hdata : (fetchData job).1 = .ok data)
    (hheuristics : context.typeToHeuristics job.type = some heuristics)
    (hreturn : ∀ fetched ∈ data, HadoopApplicationData.isEmpty fetched = false →
      ∀ heuristic ∈ heuristics, ∃ outcome, heuristic fetched = .ok outcome) :
    MissingDataReported context setup job data ↔ ∃ fetched, data = some fetched ∧
      Loadable context setup fetched := by
  have hfetched : fetchData job = (.ok data, (fetchData job).2) := Prod.ext hdata rfl
  rw [MissingDataReported, getAnalysis_eq hfetcher hfetched]
  cases data with
  | none =>
    simp only [analyzeData, analyze, ElephantContext.matchJobType, InfoExtractor.loadInfo, bind,
      Except.bind, reduceCtorEq, false_and, exists_false]
  | some fetched =>
    have hresults : ∃ results, analyze context { job with trackingUrl := (fetchData job).2 }
        (some fetched) = .ok results := by
      simp only [analyze, hheuristics]
      split
      · exact ⟨_, rfl⟩
      · rename_i hempty
        exact applyHeuristics_returns (hreturn fetched rfl (by simpa using hempty))
    obtain ⟨results, hresults⟩ := hresults
    simp only [Option.some.injEq, exists_eq_left', ← analyzeData_returns_iff hresults]
    refine exists_congr fun result => ⟨And.left, fun hresult => ⟨hresult, fun hempty => ?_⟩⟩
    obtain ⟨results', jobType, hresults', heq⟩ := analyzeData_spec hresult
    have hrows := congrArg AppResult.yarnAppHeuristicResults heq
    have hnoData : results' = [HeuristicResult.NO_DATA] := by
      rw [analyze, if_pos (hempty fetched rfl)] at hresults'
      exact (Except.ok.inj hresults').symm
    subst hnoData
    have hnoDataRows := toAppResult_rows { job with trackingUrl := (fetchData job).2 }
      [HeuristicResult.NO_DATA] jobType
    exact ⟨_, hrows.trans hnoDataRows, rfl, rfl, rfl⟩

section examples

/-- The data of a job with these tasks in each array. -/
def jobOfTasks (tasks : List mapreduce.MapReduceTaskData) : ApplicationData :=
  .mapReduce ⟨mapreduce.ofTasks tasks, mapreduce.complete_ofTasks tasks⟩

def gcHeuristics : List ShippedHeuristic :=
  let limits : Severity.Limits := ⟨.ofInt 1, .ofInt 2, .ofInt 3, .ofInt 4⟩
  [.mapReduce (.mapperGC ⟨"Mapper GC", "MapperGCHeuristic"⟩ limits limits),
    .mapReduce (.reducerGC ⟨"Reducer GC", "ReducerGCHeuristic"⟩ limits limits)]

/-- A context whose fetcher returns one and the same data for every job. -/
def fetchedContext (data : Option ApplicationData) : ElephantContext ApplicationData where
  typeToFetcher _ := some fun job => (.ok data, job.trackingUrl)
  typeToHeuristics _ := some (gcHeuristics.map (ShippedHeuristic.apply .plain))
  appTypeToJobTypes _ := some [⟨"HadoopJava", some "mapred.child.java.opts", some fun _ => true⟩]
  nameToType name := if name = "MAPREDUCE" then some ⟨"MAPREDUCE"⟩ else none
  toUpperCase name := name

/-- A job without tasks and one with a task. -/
theorem missingDataReported_withoutTasks :
    let job : AnalyticJob := ⟨0, ⟨"MAPREDUCE"⟩, "application_1", "", "", "", none, 1, 2⟩
    let emptyData := jobOfTasks []
    let data := jobOfTasks [mapreduce.taskWithCounter .GC_MILLISECONDS 5]
    (MissingDataReported (fetchedContext (some emptyData)) ⟨[], fun _ => .ok none⟩ job (some emptyData) ∧
      HadoopApplicationData.isEmpty emptyData = true) ∧
    MissingDataReported (fetchedContext (some data)) ⟨[], fun _ => .ok none⟩ job (some data) := by
  intro job emptyData data
  have hloadable : ∀ fetched data, Loadable (fetchedContext fetched) ⟨[], fun _ => .ok none⟩ (jobOfTasks data) := by
    intro fetched data
    refine ⟨⟨_, rfl, .inl (Option.some_ne_none _)⟩, ⟨none, rfl, ?_⟩⟩
    rintro _ ⟨⟩
  refine ⟨⟨?_, rfl⟩, ?_⟩
  · refine (missingDataReported_iff rfl rfl rfl ?_).mpr ⟨emptyData, rfl, hloadable _ _⟩
    rintro _ ⟨⟩ ⟨⟩
  · refine (missingDataReported_iff rfl rfl rfl ?_).mpr ⟨data, rfl, hloadable _ _⟩
    rintro _ ⟨⟩ - heuristic hheuristic
    obtain ⟨shipped, hshipped, rfl⟩ := List.mem_map.mp hheuristic
    rcases List.mem_pair.mp hshipped with rfl | rfl
    · exact ⟨_, rfl⟩
    · exact ⟨_, rfl⟩

/-- A fetcher that returns null makes the analysis throw. -/
theorem not_missingDataReported_null :
    (getAnalysis (fetchedContext none) ⟨[], fun _ => .ok none⟩
      ⟨0, ⟨"MAPREDUCE"⟩, "application_1", "", "", "", none, 1, 2⟩).1 = .error .nullPointer ∧
    ¬ MissingDataReported (fetchedContext none) ⟨[], fun _ => .ok none⟩
      ⟨0, ⟨"MAPREDUCE"⟩, "application_1", "", "", "", none, 1, 2⟩ none := by
  refine ⟨rfl, ?_⟩
  rintro ⟨result, hresult, -⟩
  cases hresult

end examples

end AnalyticJob

end drelephant.analysis
