import DrElephant.Analysis.GetAnalysis
import DrElephant.Analysis.ShippedHeuristics

open drelephant.util java.lang machine models

namespace drelephant.analysis

/-- The scores of the heuristics and their sum fit their columns. -/
structure ScoresFit (platform : spark.Platform) (heuristics : List ShippedHeuristic)
    (data : ApplicationData) : Prop where
  each : ∀ heuristic ∈ heuristics, MediumintUnsigned (heuristic.points platform data)
  total : MediumintUnsigned (sum32 (heuristics.map fun heuristic => heuristic.points platform data))

/-- Four points for each of this many tasks are too many. -/
example : ¬ MediumintUnsigned (Utils.getHeuristicScore .CRITICAL 4194304) := by decide

section rows

variable {result : HeuristicResult} {numTasks : Nat}

theorem HeuristicResult.Reports.exists_name {names : List String} (h : result.Reports names)
    {detail : HeuristicResultDetails} (hdetail : detail ∈ result.heuristicResultDetails) :
    ∃ name ∈ names, detail.name = some name := by
  have hmem : detail.name ∈ names.map some := h.names ▸ List.mem_map_of_mem hdetail
  obtain ⟨name, hname, heq⟩ := List.mem_map.mp hmem
  exact ⟨name, hname, heq.symm⟩

/-- A reportable result is refused for its score only. -/
theorem HeuristicResult.Reportable.storable_iff (h : result.Reportable numTasks) :
    result.toAppHeuristicResult.Storable ↔ MediumintUnsigned result.score := by
  obtain ⟨⟨names, hreports, hnodup, hshort⟩, -⟩ := h
  refine ⟨AppHeuristicResult.Storable.score, fun hscore => ⟨hscore, ?_, ?_⟩⟩
  · intro row hrow
    obtain ⟨detail, hdetail, rfl⟩ := List.mem_map.mp hrow
    obtain ⟨name, -, hname⟩ := hreports.exists_name hdetail
    obtain ⟨value, hvalue⟩ := Option.ne_none_iff_exists'.mp (hreports.values detail hdetail)
    constructor
    · rw [hname]
      exact InfoExtractor.varcharNotNull_truncateField (by decide)
    · rw [hvalue]
      exact InfoExtractor.varcharNotNull_truncateField (by decide)
  · -- No name is cut, so they stay different.
    have hstored : result.toAppHeuristicResult.yarnAppHeuristicResultDetails.map
        AppHeuristicResultDetails.name = names.map some := by
      rw [← hreports.names, toAppHeuristicResult, List.map_map]
      refine List.map_congr_left fun detail hdetail => ?_
      obtain ⟨name, hmem, hname⟩ := hreports.exists_name hdetail
      rw [Function.comp_apply, hname]
      exact Utils.truncateField_of_le (hshort name hmem)
    rw [hstored]
    exact hnodup.map (Option.some_injective _)

theorem HeuristicResult.noData_reportable : NO_DATA.Reportable 0 :=
  ⟨⟨["No Data Received"], ⟨rfl, by decide⟩, by decide, by decide⟩, rfl⟩

end rows

namespace AnalyticJob

section scores

variable {platform : spark.Platform} {heuristics : List ShippedHeuristic} {data : ApplicationData}
  {outcomes : List (Option HeuristicResult)}

private theorem reportable_of_outcomes (h : List.Forall₂ (fun heuristic outcome =>
    ShippedHeuristic.apply platform heuristic data = .ok outcome) heuristics outcomes) :
    ∀ result ∈ outcomes.reduceOption, ∃ numTasks, result.Reportable numTasks := by
  induction h with
  | nil => simp
  | @cons heuristic outcome _ _ hhead _ ih =>
    cases outcome with
    | none => exact ih
    | some result =>
      exact List.forall_mem_cons.mpr ⟨⟨_, ShippedHeuristic.apply_reportable hhead⟩, ih⟩

/-- The heuristics that return no result add nothing. -/
private theorem points_sum (h : List.Forall₂ (fun heuristic outcome =>
    ShippedHeuristic.apply platform heuristic data = .ok outcome) heuristics outcomes) :
    (heuristics.map fun heuristic => heuristic.points platform data).sum =
      (outcomes.reduceOption.map HeuristicResult.score).sum := by
  induction h with
  | nil => rfl
  | @cons heuristic outcome _ _ hhead _ ih =>
    rw [List.map_cons, List.sum_cons, ShippedHeuristic.points_eq hhead, ih]
    cases outcome <;> simp

private theorem points_fit_iff (h : List.Forall₂ (fun heuristic outcome =>
    ShippedHeuristic.apply platform heuristic data = .ok outcome) heuristics outcomes) :
    (∀ heuristic ∈ heuristics, MediumintUnsigned (heuristic.points platform data)) ↔
      ∀ result ∈ outcomes.reduceOption, MediumintUnsigned result.score := by
  induction h with
  | nil => simp
  | @cons heuristic outcome _ _ hhead _ ih =>
    rw [List.forall_mem_cons, ih, ShippedHeuristic.points_eq hhead]
    cases outcome with
    | none => simp [MediumintUnsigned]
    | some result => simp

private theorem scoresFit_of_isEmpty (hempty : HadoopApplicationData.isEmpty data = true) :
    ScoresFit platform heuristics data := by
  have hpoints : (heuristics.map fun heuristic => heuristic.points platform data) =
      heuristics.map fun _ => 0 :=
    List.map_congr_left fun heuristic _ => ShippedHeuristic.points_of_isEmpty hempty
  refine ⟨fun heuristic _ => ?_, ?_⟩
  · rw [ShippedHeuristic.points_of_isEmpty hempty]
    decide
  · rw [hpoints, sum32_eq]
    simp [MediumintUnsigned]

variable {context : ElephantContext ApplicationData} {job : AnalyticJob}
  {results : List HeuristicResult}

/-- The results that an analysis is made of are reportable, and their scores
are those of the configured heuristics. -/
theorem heuristicResults_fit_iff
    (hheuristics : context.typeToHeuristics job.type =
      some (heuristics.map (ShippedHeuristic.apply platform)))
    (hresults : HeuristicResults context job.type (some data) results) :
    (∀ result ∈ results, ∃ numTasks, result.Reportable numTasks) ∧
      ((∀ result ∈ results, MediumintUnsigned result.score) ∧
          MediumintUnsigned (sum32 (results.map HeuristicResult.score)) ↔
        ScoresFit platform heuristics data) := by
  cases hresults with
  | noData hempty =>
    refine ⟨?_, iff_of_true ?_ (scoresFit_of_isEmpty (hempty data rfl))⟩
    · simpa using ⟨0, HeuristicResult.noData_reportable⟩
    · simp [HeuristicResult.NO_DATA, MediumintUnsigned, sum32]
  | applied hdata hconfigured houtcomes =>
    obtain rfl := Option.some.inj (hheuristics.symm.trans hconfigured)
    have houtcomes' := List.forall₂_map_left_iff.mp houtcomes
    refine ⟨reportable_of_outcomes houtcomes', ?_⟩
    rw [← points_fit_iff houtcomes', sum32_eq, ← points_sum houtcomes', ← sum32_eq]
    exact ⟨fun h => ⟨h.1, h.2⟩, fun h => ⟨h.1, h.2⟩⟩

end scores

section storable

variable {context : ElephantContext ApplicationData} {setup : InfoExtractor.Setup ApplicationData}
  {job : AnalyticJob} {data : ApplicationData} {result : AppResult}

private theorem rows_storable_iff {results : List HeuristicResult}
    (hreportable : ∀ result ∈ results, ∃ numTasks, result.Reportable numTasks) :
    (∀ row ∈ results.map HeuristicResult.toAppHeuristicResult, row.Storable) ↔
      ∀ result ∈ results, MediumintUnsigned result.score := by
  rw [List.forall_mem_map]
  refine forall₂_congr fun result hresult => ?_
  obtain ⟨numTasks, hnumTasks⟩ := hreportable result hresult
  exact hnumTasks.storable_iff

/-- An ad hoc result is refused for its tracking url, for the score of a
heuristic or for their sum. -/
private theorem toAppResult_storable_iff (job : AnalyticJob) (jobType : Option JobType)
    {results : List HeuristicResult}
    (hreportable : ∀ result ∈ results, ∃ numTasks, result.Reportable numTasks) :
    (InfoExtractor.withoutSchedulerInfo (job.toAppResult results jobType)).Storable ↔
      job.trackingUrl ≠ none ∧ (∀ result ∈ results, MediumintUnsigned result.score) ∧
        MediumintUnsigned (sum32 (results.map HeuristicResult.score)) := by
  rw [← rows_storable_iff hreportable, ← toAppResult_rows job results jobType,
    ← toAppResult_score job results jobType]
  constructor
  · intro hstorable
    refine ⟨?_, hstorable.heuristicResults, hstorable.score⟩
    intro hnull
    exact hstorable.trackingUrl.1 (congrArg (Utils.truncateField · AppResult.TRACKING_URL_LIMIT) hnull)
  · rintro ⟨htracking, hrows, htotal⟩
    obtain ⟨url, htracking⟩ := Option.ne_none_iff_exists'.mp htracking
    have hurl : VarcharNotNull 255
        (Utils.truncateField job.trackingUrl AppResult.TRACKING_URL_LIMIT) := by
      rw [htracking]
      exact InfoExtractor.varcharNotNull_truncateField (by decide)
    exact ⟨InfoExtractor.varcharNotNull_truncateField (by decide),
      InfoExtractor.varcharNotNull_truncateField (by decide),
      InfoExtractor.varcharNotNull_truncateField (by decide), hurl,
      InfoExtractor.varcharNotNull_truncateField (by decide),
      InfoExtractor.schedulerColumns_loadNoSchedulerInfo _, htotal, hrows⟩

private theorem analyzeData_storable_iff {results : List HeuristicResult}
    (hresults : analyze context job (some data) = .ok results)
    (hreportable : ∀ result ∈ results, ∃ numTasks, result.Reportable numTasks)
    (h : analyzeData context setup job (some data) = .ok result) :
    result.Storable ↔ job.trackingUrl ≠ none ∧
      (∀ result ∈ results, MediumintUnsigned result.score) ∧
      MediumintUnsigned (sum32 (results.map HeuristicResult.score)) := by
  simp only [analyzeData, hresults, bind_eq_ok_iff, Except.ok.injEq, exists_eq_left'] at h
  obtain ⟨jobType, -, hload⟩ := h
  rw [← InfoExtractor.storable_withoutSchedulerInfo (InfoExtractor.schedulerColumns_loadInfo hload),
    InfoExtractor.withoutSchedulerInfo_loadInfo hload, toAppResult_storable_iff job jobType hreportable]

/-- What an analysis returns can be inserted exactly when the job has a tracking
url once its data is fetched and the scores fit. -/
theorem getAnalysis_storable_iff {platform : spark.Platform} {heuristics : List ShippedHeuristic}
    {fetchData : ElephantFetcher ApplicationData} {trackingUrl : Option String}
    (hfetcher : context.typeToFetcher job.type = some fetchData)
    (hdata : fetchData job = (.ok (some data), trackingUrl))
    (hheuristics : context.typeToHeuristics job.type =
      some (heuristics.map (ShippedHeuristic.apply platform)))
    (hresult : (getAnalysis context setup job).1 = .ok result) :
    result.Storable ↔ trackingUrl ≠ none ∧ ScoresFit platform heuristics data := by
  rw [getAnalysis_eq hfetcher hdata] at hresult
  obtain ⟨results, -, hresults, -⟩ := analyzeData_spec hresult
  obtain ⟨hreportable, hfit⟩ := heuristicResults_fit_iff hheuristics (analyze_ok hresults)
  rw [analyzeData_storable_iff hresults hreportable hresult, hfit]

end storable

section throttled

def throttledPlatform : spark.Platform where
  formats := ⟨fun _ => "", fun _ => "", fun _ => ""⟩
  digit _ := none
  threeDecimals _ := ""
  sparkConf _ := none

/-- An application whose event log is too large to be read. -/
def throttledData : ApplicationData := .spark
  { isThrottled := true
    applicationId := some "application_1"
    environmentData := ⟨fun _ => none⟩
    executorData := { order := .insertion }
    jobProgressData := { jobOrder := .insertion, stageOrder := .insertion } }

def throttledHeuristics : List ShippedHeuristic :=
  [.spark (.eventLogLimit ⟨"Spark Event Log Limit",
    "com.linkedin.drelephant.spark.heuristics.EventLogLimitHeuristic"⟩)]

/-- The fetcher for spark does not touch the job. -/
def throttledContext : ElephantContext ApplicationData where
  typeToFetcher _ := some fun job => (.ok (some throttledData), job.trackingUrl)
  typeToHeuristics _ := some (throttledHeuristics.map (ShippedHeuristic.apply throttledPlatform))
  appTypeToJobTypes _ := some []
  nameToType name := if name = "SPARK" then some ⟨"SPARK"⟩ else none
  toUpperCase name := name

def throttledSetup : InfoExtractor.Setup ApplicationData where
  schedulers := []
  retrieveProperties _ := .ok (some fun _ => none)

def throttledJob (trackingUrl : Option String) : AnalyticJob where
  type := ⟨"SPARK"⟩
  appId := "application_1"
  name := "job"
  queueName := "default"
  user := "user"
  trackingUrl := trackingUrl
  startTime := 1000
  finishTime := 2000

/-- The resource manager may know no tracking url of an application. -/
theorem not_storable_throttledJob : ∃ result,
    (getAnalysis throttledContext throttledSetup (throttledJob none)).1 = .ok result ∧
      ¬ result.Storable :=
  ⟨_, rfl, fun h => h.trackingUrl.1 rfl⟩

end throttled

section sorted

/-- The times and counters of two tasks that sort. -/
def sortTasks : List mapreduce.MapReduceTaskData :=
  [(mapreduce.taskWithCounters [(.CPU_MILLISECONDS, 4000), (.GC_MILLISECONDS, 900),
      (.MAP_OUTPUT_RECORDS, 100), (.SPILLED_RECORDS, 300)]).setTime (9000, 500, 700),
    (mapreduce.taskWithCounters [(.CPU_MILLISECONDS, 6000), (.GC_MILLISECONDS, 100),
      (.MAP_OUTPUT_RECORDS, 200), (.SPILLED_RECORDS, 200)]).setTime (7000, 400, 300)]

def sortData : ApplicationData :=
  .mapReduce ⟨mapreduce.ofTasks sortTasks, mapreduce.complete_ofTasks sortTasks⟩

def sortHeuristics : List ShippedHeuristic :=
  let limits : Severity.Limits := ⟨.finite (1 / 50), .finite (1 / 25), .finite (1 / 10), .finite (1 / 5)⟩
  [.mapReduce (.mapperGC ⟨"Mapper GC", "MapperGCHeuristic"⟩ limits limits),
    .mapReduce (.mapperSpill ⟨⟨"Mapper Spill", "MapperSpillHeuristic"⟩, limits, limits⟩),
    .mapReduce (.shuffleSort ⟨⟨"Shuffle & Sort", "ShuffleSortHeuristic"⟩, limits, limits⟩)]

/-- The fetcher for MapReduce sets the tracking url. -/
def sortContext : ElephantContext ApplicationData where
  typeToFetcher _ := some fun _ => (.ok (some sortData), some "http://host:19888/jobhistory/job/job_1")
  typeToHeuristics _ := some (sortHeuristics.map (ShippedHeuristic.apply throttledPlatform))
  appTypeToJobTypes _ := some [⟨"HadoopJava", some "mapred.child.java.opts", some fun _ => true⟩]
  nameToType name := if name = "MAPREDUCE" then some ⟨"MAPREDUCE"⟩ else none
  toUpperCase name := name

theorem storable_sortJob : ∃ result,
    (getAnalysis sortContext throttledSetup { throttledJob none with type := ⟨"MAPREDUCE"⟩ }).1 =
      .ok result ∧ result.Storable := by
  have hfit : ScoresFit throttledPlatform sortHeuristics sortData :=
    ⟨by decide +kernel, by decide +kernel⟩
  obtain ⟨result, hresult⟩ : ∃ result, (getAnalysis sortContext throttledSetup
      { throttledJob none with type := ⟨"MAPREDUCE"⟩ }).1 = .ok result := ⟨_, rfl⟩
  refine ⟨result, hresult, ?_⟩
  exact (getAnalysis_storable_iff rfl rfl rfl hresult).mpr ⟨Option.some_ne_none _, hfit⟩

end sorted

end AnalyticJob

end drelephant.analysis
