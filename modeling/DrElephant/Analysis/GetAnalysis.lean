import Mathlib.Data.List.Forall2
import Mathlib.Data.List.ReduceOption
import DrElephant.Util.InfoExtractor

open java.lang machine models drelephant.util

namespace drelephant.analysis

/-- The row stored for one heuristic result. -/
def HeuristicResult.toAppHeuristicResult (result : HeuristicResult) : AppHeuristicResult where
  heuristicClass := Utils.truncateField result.heuristicClass AppHeuristicResult.HEURISTIC_CLASS_LIMIT
  heuristicName := Utils.truncateField result.heuristicName AppHeuristicResult.HEURISTIC_NAME_LIMIT
  severity := result.severity
  score := result.score
  yarnAppHeuristicResultDetails := result.heuristicResultDetails.map fun detail =>
    { name := Utils.truncateField detail.name AppHeuristicResultDetails.NAME_LIMIT
      value := Utils.truncateField detail.value AppHeuristicResultDetails.VALUE_LIMIT
      details := Utils.truncateField detail.details AppHeuristicResultDetails.DETAILS_LIMIT }

namespace AnalyticJob

/-- The default job type when the data matches nothing. -/
def UNKNOWN_JOB_TYPE : String := "Unknown"

variable {δ : Type}

/-- Runs the heuristics in order and keeps what they return, nulls left out. -/
def applyHeuristics (data : δ) : List (Heuristic δ) → Except JavaException (List HeuristicResult)
  | [] => .ok []
  | heuristic :: heuristics => do
    let result ← heuristic data
    let results ← applyHeuristics data heuristics
    pure (result.toList ++ results)

/-- What the loop over the heuristic results accumulates. -/
structure Totals where
  yarnAppHeuristicResults : List AppHeuristicResult := []
  worstSeverity : Severity := .NONE
  jobScore : Int := 0

def Totals.add (totals : Totals) (result : HeuristicResult) : Totals :=
  let detail := result.toAppHeuristicResult
  { yarnAppHeuristicResults := totals.yarnAppHeuristicResults ++ [detail]
    worstSeverity := Severity.max totals.worstSeverity detail.severity
    jobScore := wrap32 (totals.jobScore + detail.score) }

/-- The result before the scheduler information is loaded into it. -/
def toAppResult (job : AnalyticJob) (analysisResults : List HeuristicResult)
    (jobType : Option JobType) : AppResult :=
  let totals := analysisResults.foldl Totals.add {}
  { id := Utils.truncateField (some job.appId) AppResult.ID_LIMIT
    trackingUrl := Utils.truncateField job.trackingUrl AppResult.TRACKING_URL_LIMIT
    queueName := Utils.truncateField (some job.queueName) AppResult.QUEUE_NAME_LIMIT
    username := Utils.truncateField (some job.user) AppResult.USERNAME_LIMIT
    startTime := job.startTime
    finishTime := job.finishTime
    name := Utils.truncateField (some job.name) AppResult.APP_NAME_LIMIT
    jobType := Utils.truncateField (some (jobType.elim UNKNOWN_JOB_TYPE JobType.name))
      AppResult.JOBTYPE_LIMIT
    yarnAppHeuristicResults := totals.yarnAppHeuristicResults
    severity := totals.worstSeverity
    score := totals.jobScore
    workflowDepth := 0
    scheduler := none
    jobName := none
    jobExecId := none
    flowExecId := none
    jobDefId := none
    flowDefId := none
    jobExecUrl := none
    flowExecUrl := none
    jobDefUrl := none
    flowDefUrl := none }

/-- Each heuristic was applied, and what is kept is what they returned, in
their order and without the nulls. -/
theorem applyHeuristics_ok {data : δ} {heuristics : List (Heuristic δ)}
    {results : List HeuristicResult} (h : applyHeuristics data heuristics = .ok results) :
    ∃ outcomes, List.Forall₂ (fun heuristic outcome => heuristic data = .ok outcome)
      heuristics outcomes ∧ results = outcomes.reduceOption := by
  induction heuristics generalizing results with
  | nil =>
    cases h
    exact ⟨[], .nil, rfl⟩
  | cons heuristic heuristics ih =>
    simp only [applyHeuristics, bind_eq_ok_iff] at h
    obtain ⟨outcome, houtcome, rest, hrest, hresults⟩ := h
    obtain rfl := pure_eq_ok_iff.mp hresults
    obtain ⟨outcomes, houtcomes, rfl⟩ := ih hrest
    refine ⟨outcome :: outcomes, .cons houtcome houtcomes, ?_⟩
    cases outcome <;> simp

section analyze

variable [HadoopApplicationData δ]

/-- The results of all heuristics over the fetched data. -/
def analyze (context : ElephantContext δ) (job : AnalyticJob) (data : Option δ) :
    Except JavaException (List HeuristicResult) :=
  match data with
  | none => .ok [HeuristicResult.NO_DATA]
  | some data =>
    -- Example: a MR job has 0 mappers and 0 reducers
    if HadoopApplicationData.isEmpty data then .ok [HeuristicResult.NO_DATA]
    else
      match context.typeToHeuristics job.type with
      | none => .error .nullPointer
      | some heuristics => applyHeuristics data heuristics

/-- The part of the analysis that comes after the data is fetched. -/
def analyzeData (context : ElephantContext δ) (setup : InfoExtractor.Setup δ) (job : AnalyticJob)
    (data : Option δ) : Except JavaException AppResult := do
  let analysisResults ← analyze context job data
  let jobType ← context.matchJobType data
  InfoExtractor.loadInfo setup (job.toAppResult analysisResults jobType) data

/-- Returns the analysed result that could be directly serialized into the
database, and the job as its fetcher left it. -/
def getAnalysis (context : ElephantContext δ) (setup : InfoExtractor.Setup δ) (job : AnalyticJob) :
    Except JavaException AppResult × AnalyticJob :=
  match context.typeToFetcher job.type with
  | none => (.error .nullPointer, job)
  | some fetchData =>
    let (data, trackingUrl) := fetchData job
    let job := { job with trackingUrl }
    (data >>= analyzeData context setup job, job)

end analyze

private theorem foldl_add (results : List HeuristicResult) (totals : Totals) :
    results.foldl Totals.add totals =
      { yarnAppHeuristicResults :=
          totals.yarnAppHeuristicResults ++ results.map HeuristicResult.toAppHeuristicResult
        worstSeverity := (results.map HeuristicResult.severity).foldl Severity.max totals.worstSeverity
        jobScore := (results.map HeuristicResult.score).foldl
          (fun sum score => wrap32 (sum + score)) totals.jobScore } := by
  induction results generalizing totals with
  | nil => simp
  | cons result results ih =>
    rw [List.foldl_cons, ih]
    simp [Totals.add, HeuristicResult.toAppHeuristicResult]

section toAppResult

variable (job : AnalyticJob) (results : List HeuristicResult) (jobType : Option JobType)

@[simp] theorem toAppResult_rows : (job.toAppResult results jobType).yarnAppHeuristicResults =
    results.map HeuristicResult.toAppHeuristicResult := by
  simp [toAppResult, foldl_add]

@[simp] theorem toAppResult_severity : (job.toAppResult results jobType).severity =
    Severity.maxAll (results.map HeuristicResult.severity) := by
  simp [toAppResult, foldl_add, Severity.maxAll]

@[simp] theorem toAppResult_score : (job.toAppResult results jobType).score =
    sum32 (results.map HeuristicResult.score) := by
  simp [toAppResult, foldl_add, sum32]

/-- The loop leaves a result whose rows account for its severity and score. -/
theorem toAppResult_accounted : (job.toAppResult results jobType).Accounted := by
  have hseverities : (job.toAppResult results jobType).yarnAppHeuristicResults.map
      AppHeuristicResult.severity = results.map HeuristicResult.severity := by
    simp [HeuristicResult.toAppHeuristicResult]
  have hscores : (job.toAppResult results jobType).yarnAppHeuristicResults.map
      AppHeuristicResult.score = results.map HeuristicResult.score := by
    simp [HeuristicResult.toAppHeuristicResult]
  have hspec := Severity.maxAll_spec (l := results.map HeuristicResult.severity)
  rw [← toAppResult_severity job results jobType, ← hseverities] at hspec
  constructor
  · intro row hrow
    have hmem := List.mem_map_of_mem (f := AppHeuristicResult.severity) hrow
    exact (hspec (List.ne_nil_of_mem hmem)).2 _ hmem
  · intro hrows
    exact List.mem_map.mp (hspec (by simpa using hrows)).1
  · intro hrows
    have hnil : results = [] := by simpa using hrows
    simp [hnil, Severity.maxAll]
  · rw [hscores, toAppResult_score, sum32_eq]

end toAppResult

section getAnalysis

variable [HadoopApplicationData δ] {context : ElephantContext δ} {setup : InfoExtractor.Setup δ}
  {job : AnalyticJob}

/-- The result for fetched data is the one the loop left, with scheduler
information loaded into it. -/
theorem analyzeData_spec {data : Option δ} {result : AppResult}
    (h : analyzeData context setup job data = .ok result) :
    ∃ results jobType, analyze context job data = .ok results ∧
      InfoExtractor.withoutSchedulerInfo result =
        InfoExtractor.withoutSchedulerInfo (job.toAppResult results jobType) := by
  simp only [analyzeData, bind_eq_ok_iff] at h
  obtain ⟨results, hresults, jobType, -, hload⟩ := h
  exact ⟨results, jobType, hresults, InfoExtractor.withoutSchedulerInfo_loadInfo hload⟩

/-- An analysis may set the tracking url of the job and nothing else of it. -/
theorem getAnalysis_job {result : Except JavaException AppResult} {changed : AnalyticJob}
    (h : getAnalysis context setup job = (result, changed)) :
    ∃ trackingUrl, changed = { job with trackingUrl } := by
  unfold getAnalysis at h
  split at h
  · obtain ⟨-, rfl⟩ := Prod.mk.inj h
    exact ⟨job.trackingUrl, rfl⟩
  · obtain ⟨-, rfl⟩ := Prod.mk.inj h
    exact ⟨_, rfl⟩

/-- An analysis of data that is fetched. -/
theorem getAnalysis_eq {fetchData : ElephantFetcher δ} {data : Option δ} {trackingUrl : Option String}
    (hfetcher : context.typeToFetcher job.type = some fetchData)
    (hdata : fetchData job = (.ok data, trackingUrl)) : getAnalysis context setup job =
      (analyzeData context setup { job with trackingUrl } data, { job with trackingUrl }) := by
  simp only [getAnalysis, hfetcher, hdata]
  rfl

/-- What is returned was made from the data of the configured fetcher. -/
theorem getAnalysis_spec {result : AppResult} (h : (getAnalysis context setup job).1 = .ok result) :
    ∃ fetchData data trackingUrl, context.typeToFetcher job.type = some fetchData ∧
      (fetchData job).1 = .ok data ∧
      analyzeData context setup { job with trackingUrl } data = .ok result := by
  unfold getAnalysis at h
  cases hfetcher : context.typeToFetcher job.type with
  | none => simp [hfetcher] at h
  | some fetchData =>
    simp only [hfetcher, bind_eq_ok_iff] at h
    obtain ⟨data, hdata, hresult⟩ := h
    exact ⟨fetchData, data, _, rfl, hdata, hresult⟩

/-- The stored id is the application id, cut to the width of its column. -/
theorem getAnalysis_id {result : AppResult} (h : (getAnalysis context setup job).1 = .ok result) :
    result.id = Utils.truncateField (some job.appId) AppResult.ID_LIMIT := by
  obtain ⟨_, _, _, _, _, hresult⟩ := getAnalysis_spec h
  obtain ⟨results, jobType, _, heq⟩ := analyzeData_spec hresult
  have hid := congrArg AppResult.id heq
  simpa [InfoExtractor.withoutSchedulerInfo, InfoExtractor.loadNoSchedulerInfo, toAppResult] using hid

/-- The heuristic results that an analysis is made of: those of the configured
heuristics, or NO_DATA in place of them. -/
inductive HeuristicResults (context : ElephantContext δ) (type : ApplicationType) :
    Option δ → List HeuristicResult → Prop
  | noData {data : Option δ} (hempty : ∀ fetched ∈ data, HadoopApplicationData.isEmpty fetched = true) :
      HeuristicResults context type data [HeuristicResult.NO_DATA]
  | applied {fetched : δ} {heuristics : List (Heuristic δ)} {outcomes : List (Option HeuristicResult)}
      (hdata : HadoopApplicationData.isEmpty fetched = false)
      (hheuristics : context.typeToHeuristics type = some heuristics)
      (houtcomes : List.Forall₂ (fun heuristic outcome => heuristic fetched = .ok outcome)
        heuristics outcomes) :
      HeuristicResults context type (some fetched) outcomes.reduceOption

theorem analyze_ok {data : Option δ} {results : List HeuristicResult}
    (h : analyze context job data = .ok results) :
    HeuristicResults context job.type data results := by
  cases data with
  | none =>
    cases h
    exact .noData (by simp)
  | some fetched =>
    simp only [analyze] at h
    cases hempty : HadoopApplicationData.isEmpty fetched with
    | true =>
      rw [if_pos hempty] at h
      cases h
      exact .noData (by simpa using hempty)
    | false =>
      rw [if_neg (by simp [hempty])] at h
      cases hheuristics : context.typeToHeuristics job.type with
      | none => simp [hheuristics] at h
      | some heuristics =>
        rw [hheuristics] at h
        obtain ⟨outcomes, houtcomes, rfl⟩ := applyHeuristics_ok h
        exact .applied hempty hheuristics houtcomes

/-- A result has one row for each heuristic result, and the rows account for
its severity and its score. -/
theorem getAnalysis_accounted {result : AppResult}
    (h : (getAnalysis context setup job).1 = .ok result) : result.Accounted ∧
      ∃ fetchData data results, context.typeToFetcher job.type = some fetchData ∧
        (fetchData job).1 = .ok data ∧ HeuristicResults context job.type data results ∧
        result.yarnAppHeuristicResults = results.map HeuristicResult.toAppHeuristicResult := by
  obtain ⟨fetchData, data, trackingUrl, hfetcher, hdata, hresult⟩ := getAnalysis_spec h
  obtain ⟨results, jobType, hresults, heq⟩ := analyzeData_spec hresult
  have haccounted := toAppResult_accounted { job with trackingUrl } results jobType
  have hrows := toAppResult_rows { job with trackingUrl } results jobType
  refine ⟨haccounted.congr (congrArg AppResult.yarnAppHeuristicResults heq).symm
    (congrArg AppResult.severity heq).symm (congrArg AppResult.score heq).symm, ?_⟩
  exact ⟨fetchData, data, results, hfetcher, hdata, analyze_ok hresults,
    (congrArg AppResult.yarnAppHeuristicResults heq).trans hrows⟩

end getAnalysis

end AnalyticJob

end drelephant.analysis
