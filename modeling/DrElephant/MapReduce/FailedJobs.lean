import DrElephant.Analysis.GetAnalysis
import DrElephant.MapReduce.Diagnostics
import DrElephant.MapReduce.Sampling
import DrElephant.Schedulers.FirstComplete

open drelephant.analysis drelephant.math drelephant.schedulers drelephant.util jackson java.lang machine models

namespace drelephant.mapreduce

section stackTrace

/-- The first failed attempt and what it says. The attempts before it did not fail. -/
def FirstFailed (attempts : List JsonNode) (stacktrace : String) : Prop :=
  ∃ before failed after, attempts = before ++ failed :: after ∧
    (∀ attempt ∈ before, ∃ state, MapReduceFetcherHadoop2.getText attempt "state" = .ok state ∧ state ≠ "FAILED") ∧
    MapReduceFetcherHadoop2.getText failed "state" = .ok "FAILED" ∧
    MapReduceFetcherHadoop2.getText failed "diagnostics" = .ok stacktrace

theorem firstFailed_eq_ok_iff {attempts : List JsonNode} {stacktrace : String} :
    MapReduceFetcherHadoop2.getTaskFailedStackTrace.firstFailed attempts = .ok stacktrace ↔
      FirstFailed attempts stacktrace ∧ stacktrace.startsWith "Error:" = true := by
  induction attempts with
  | nil =>
    rw [MapReduceFetcherHadoop2.getTaskFailedStackTrace.firstFailed]
    refine iff_of_false (by simp) ?_
    rintro ⟨⟨before, failed, after, hattempts, -⟩, -⟩
    exact List.append_ne_nil_of_right_ne_nil before (List.cons_ne_nil failed after) hattempts.symm
  | cons attempt attempts ih =>
    rw [MapReduceFetcherHadoop2.getTaskFailedStackTrace.firstFailed, bind_eq_ok_iff]
    constructor
    · rintro ⟨state, hstate, h⟩
      by_cases hfailed : state = "FAILED"
      · rw [if_neg (not_not_intro hfailed), bind_eq_ok_iff] at h
        obtain ⟨text, htext, h⟩ := h
        split at h
        · rename_i herror
          obtain rfl := pure_eq_ok_iff.mp h
          exact ⟨⟨[], attempt, attempts, rfl, by simp, hfailed ▸ hstate, htext⟩, herror⟩
        · cases h
      · rw [if_pos hfailed, ih] at h
        obtain ⟨⟨before, failed, after, rfl, hbefore, hrest⟩, herror⟩ := h
        exact ⟨⟨attempt :: before, failed, after, rfl,
          List.forall_mem_cons.mpr ⟨⟨state, hstate, hfailed⟩, hbefore⟩, hrest⟩, herror⟩
    · rintro ⟨⟨before, failed, after, hattempts, hbefore, hfailed, htext⟩, herror⟩
      cases before with
      | nil =>
        obtain ⟨rfl, rfl⟩ := List.cons.inj hattempts
        refine ⟨"FAILED", hfailed, ?_⟩
        rw [if_neg (not_not_intro rfl), bind_eq_ok_iff]
        exact ⟨stacktrace, htext, if_pos herror⟩
      | cons first before =>
        obtain ⟨rfl, rfl⟩ := List.cons.inj hattempts
        obtain ⟨⟨state, hstate, hother⟩, hbefore⟩ := List.forall_mem_cons.mp hbefore
        refine ⟨state, hstate, ?_⟩
        rw [if_pos hother, ih]
        exact ⟨⟨before, failed, after, rfl, hbefore, hfailed, htext⟩, herror⟩

/-- The stack trace of a failed job: that of the first failed attempt of the
task that the diagnostics of the job name, if it is one. -/
inductive MapReduceFetcherHadoop2.HasStackTrace (fetcher : MapReduceFetcherHadoop2) (jobId : String) :
    String → Prop
  | failedTask {diagnosticInfo taskId stacktrace : String} {times : Nat} {rootNode : JsonNode}
      (hinfo : fetcher.getDiagnosticInfo (fetcher.getJobURL jobId) = .ok (some diagnosticInfo))
      (hmatch : diagnosticMatcher diagnosticInfo = some (taskId, times)) (htimes : times ≠ 0)
      (hroot : fetcher.readJsonNode (fetcher.getTaskAllAttemptsURL jobId taskId) = .ok rootNode)
      (hfailed : FirstFailed (JsonNode.getElements
        (JsonNode.path (JsonNode.path (some rootNode) "taskAttempts") "taskAttempt")) stacktrace)
      (herror : stacktrace.startsWith "Error:" = true) : HasStackTrace fetcher jobId stacktrace

variable {fetcher : MapReduceFetcherHadoop2} {appId jobId : String}

theorem parseException_eq_ok_iff {stacktrace : String} :
    (do
      let diagnosticInfo ← dereference (← fetcher.getDiagnosticInfo (fetcher.getJobURL jobId))
      fetcher.parseException jobId diagnosticInfo) = .ok stacktrace ↔ fetcher.HasStackTrace jobId stacktrace := by
  simp only [bind_eq_ok_iff, dereference_eq_ok_iff]
  constructor
  · rintro ⟨answered, hanswered, diagnosticInfo, rfl, h⟩
    rw [MapReduceFetcherHadoop2.parseException] at h
    split at h
    · rename_i taskId times hmatch
      split at h
      · cases h
      · rename_i htimes
        rw [MapReduceFetcherHadoop2.getTaskFailedStackTrace, bind_eq_ok_iff] at h
        obtain ⟨rootNode, hroot, h⟩ := h
        obtain ⟨hfailed, herror⟩ := firstFailed_eq_ok_iff.mp h
        exact .failedTask hanswered hmatch htimes hroot hfailed herror
    · cases h
  · rintro ⟨hinfo, hmatch, htimes, hroot, hfailed, herror⟩
    refine ⟨_, hinfo, _, rfl, ?_⟩
    rw [MapReduceFetcherHadoop2.parseException, hmatch]
    simp only [if_neg htimes]
    rw [MapReduceFetcherHadoop2.getTaskFailedStackTrace, hroot]
    exact firstFailed_eq_ok_iff.mpr ⟨hfailed, herror⟩

/-- A failed job is fetched whether or not a stack trace is found. -/
theorem fetchJob_failed {jobConf : Properties}
    (hconf : fetcher.getProperties (fetcher.getJobConfigURL jobId) = .ok jobConf)
    (hstate : fetcher.getState (fetcher.getJobURL jobId) = .ok (some "FAILED")) :
    ∃ data, fetcher.fetchJob appId jobId = .ok data ∧ data.appId = appId ∧ data.jobConf = some jobConf ∧
      data.succeeded = false ∧
      ∀ stacktrace, data.diagnosticInfo = some stacktrace ↔ fetcher.HasStackTrace jobId stacktrace := by
  have hother : ¬ "FAILED" = "SUCCEEDED" := by decide
  refine ⟨_, bind_eq_ok_iff.mpr ⟨jobConf, hconf, bind_eq_ok_iff.mpr ⟨_, hstate, bind_eq_ok_iff.mpr ⟨_, rfl,
    (if_neg hother).trans (if_pos rfl)⟩⟩⟩, rfl, rfl, rfl, fun stacktrace => ?_⟩
  rw [← parseException_eq_ok_iff]
  split
  · rename_i parsed hparsed
    rw [hparsed, Option.some.injEq, Except.ok.injEq]
  · rename_i e hparsed
    rw [hparsed]
    exact iff_of_false (by simp) (by simp)

end stackTrace

section analysis

/-- The configuration of the heuristic for exceptions. -/
def MapReduceHeuristic.exceptionConf : MapReduceHeuristic → Option HeuristicConfigurationData
  | exception conf => some conf
  | _ => none

/-- What is reported of a failed job: its stack trace, or that there is none. -/
def ExceptionHeuristic.report (conf : HeuristicConfigurationData) (stacktrace : Option String) : HeuristicResult :=
  match stacktrace with
  | some stacktrace => (HeuristicResult.new conf .MODERATE 0).addResultDetail "Error" "Stacktrace" stacktrace
  | none => (HeuristicResult.new conf .MODERATE 0).addResultDetail "Error"
      ("Unable to find stacktrace info. Please find the real problem in the Jobhistory link above." ++
        "Exception can happen either in task log or Application Master log.")

section report

variable (conf : HeuristicConfigurationData) (stacktrace : Option String)

theorem ExceptionHeuristic.report_severity : (report conf stacktrace).severity = .MODERATE := by
  cases stacktrace <;> rfl

theorem ExceptionHeuristic.report_score : (report conf stacktrace).score = 0 := by
  cases stacktrace <;> rfl

variable {conf} in
theorem mem_exceptionConfs {heuristics : List MapReduceHeuristic} :
    conf ∈ heuristics.filterMap MapReduceHeuristic.exceptionConf ↔ .exception conf ∈ heuristics := by
  rw [List.mem_filterMap]
  constructor
  · rintro ⟨heuristic, hmem, hconf⟩
    cases heuristic with
    | exception conf' => exact Option.some.inj hconf ▸ hmem
    | _ => cases hconf
  · exact fun hmem => ⟨_, hmem, rfl⟩

/-- The worst severity is that of the reports, if there is any. -/
theorem maxAll_report (heuristics : List MapReduceHeuristic) :
    Severity.maxAll (((heuristics.filterMap MapReduceHeuristic.exceptionConf).map fun conf =>
        ExceptionHeuristic.report conf stacktrace).map HeuristicResult.severity) = .MODERATE ↔
      ∃ conf, .exception conf ∈ heuristics := by
  have hall : ∀ severity ∈ ((heuristics.filterMap MapReduceHeuristic.exceptionConf).map fun conf =>
      ExceptionHeuristic.report conf stacktrace).map HeuristicResult.severity, severity = .MODERATE := by
    intro severity hmem
    obtain ⟨result, hresult, rfl⟩ := List.mem_map.mp hmem
    obtain ⟨conf, -, rfl⟩ := List.mem_map.mp hresult
    exact ExceptionHeuristic.report_severity conf stacktrace
  constructor
  · intro hmax
    cases hconfs : heuristics.filterMap MapReduceHeuristic.exceptionConf with
    | nil =>
      rw [hconfs] at hmax
      cases hmax
    | cons conf confs => exact ⟨conf, mem_exceptionConfs.mp (by rw [hconfs]; exact List.mem_cons_self)⟩
  · rintro ⟨conf, hmem⟩
    refine hall _ (Severity.maxAll_spec ?_).1
    exact List.ne_nil_of_mem (List.mem_map_of_mem (List.mem_map_of_mem (mem_exceptionConfs.mpr hmem)))

theorem sum_report_scores (heuristics : List MapReduceHeuristic) :
    (((heuristics.filterMap MapReduceHeuristic.exceptionConf).map fun conf =>
      ExceptionHeuristic.report conf stacktrace).map HeuristicResult.score).sum = 0 := by
  refine List.sum_eq_zero fun score hmem => ?_
  obtain ⟨result, hresult, rfl⟩ := List.mem_map.mp hmem
  obtain ⟨conf, -, rfl⟩ := List.mem_map.mp hresult
  exact ExceptionHeuristic.report_score conf stacktrace

end report

/-- The heuristics as they are applied to the data of a job. -/
def MapReduceHeuristic.applyComplete (formats : NumberFormats) (digit : Char → Option Nat)
    (heuristic : MapReduceHeuristic) : Heuristic CompleteApplicationData :=
  fun data => heuristic.apply formats digit data.val

variable {formats : NumberFormats} {digit : Char → Option Nat} {data : CompleteApplicationData}

theorem apply_of_failed (hfailed : data.val.succeeded = false) (heuristic : MapReduceHeuristic) :
    heuristic.applyComplete formats digit data =
      .ok (heuristic.exceptionConf.map fun conf => ExceptionHeuristic.report conf data.val.diagnosticInfo) := by
  rw [MapReduceHeuristic.applyComplete]
  rcases heuristic.apply_failed formats digit hfailed with ⟨-, conf, rfl⟩ | ⟨hnone, hother⟩
  · rw [MapReduceHeuristic.apply, ExceptionHeuristic.apply, hfailed, MapReduceHeuristic.exceptionConf,
      Option.map_some]
    cases data.val.diagnosticInfo <;> rfl
  · rw [hnone]
    cases heuristic with
    | exception conf => exact absurd rfl (hother conf)
    | _ => rfl

theorem applyHeuristics_of_failed (hfailed : data.val.succeeded = false) (heuristics : List MapReduceHeuristic) :
    AnalyticJob.applyHeuristics data (heuristics.map (MapReduceHeuristic.applyComplete formats digit)) =
      .ok ((heuristics.filterMap MapReduceHeuristic.exceptionConf).map fun conf =>
        ExceptionHeuristic.report conf data.val.diagnosticInfo) := by
  induction heuristics with
  | nil => rfl
  | cons heuristic heuristics ih =>
    rw [List.map_cons, AnalyticJob.applyHeuristics, apply_of_failed hfailed, ih, List.filterMap_cons]
    cases heuristic.exceptionConf <;> rfl

theorem MapReduceFetcherHadoop2.Fetched.complete {fetcher : MapReduceFetcherHadoop2} {jobId : String}
    {data : MapReduceApplicationData} (h : fetcher.Fetched jobId data) (hsucceeded : data.succeeded = true) :
    data.mapperData.isSome ∧ data.reducerData.isSome := by
  obtain ⟨nodes, -, mapperData, hmapper, -, -, reducerData, hreducer, -⟩ := h.succeeded hsucceeded
  rw [hmapper, hreducer]
  exact ⟨rfl, rfl⟩

/-- The fetcher as the daemon calls it. -/
def MapReduceFetcherHadoop2.elephantFetcher (fetcher : MapReduceFetcherHadoop2) :
    ElephantFetcher CompleteApplicationData := fun job =>
  let jobId := Utils.getJobIdFromApplicationId job.appId
  (match h : fetcher.fetchJob job.appId jobId with
    | .ok data => .ok (some ⟨data, fun hsucceeded => (fetchJob_ok h).complete hsucceeded⟩)
    | .error e => .error e,
    (fetcher.fetchData job).2)

theorem elephantFetcher_eq {fetcher : MapReduceFetcherHadoop2} {job : AnalyticJob} {data : MapReduceApplicationData}
    (hdata : fetcher.fetchJob job.appId (Utils.getJobIdFromApplicationId job.appId) = .ok data) :
    fetcher.elephantFetcher job =
      (.ok (some ⟨data, (fetchJob_ok hdata).complete⟩), (fetcher.fetchData job).2) := by
  simp only [MapReduceFetcherHadoop2.elephantFetcher]
  split
  · rename_i fetched hfetched
    obtain rfl := Except.ok.inj (hdata.symm.trans hfetched)
    rfl
  · rename_i e hfetched
    rw [hdata] at hfetched
    cases hfetched

/-- The schedulers that are asked about MapReduce jobs. -/
def mapReduceSetup (configured : List (SchedulerKind × SchedulerConfigurationData)) :
    InfoExtractor.Setup CompleteApplicationData where
  schedulers := configured.map fun conf => conf.1.schedulerClass conf.2
  retrieveProperties data := .ok data.val.jobConf

/-- What is configured for an application type: the fetcher and the heuristics,
and the job types of MapReduce. -/
structure MapReduceConfigured (context : ElephantContext CompleteApplicationData) (type : ApplicationType)
    (fetcher : MapReduceFetcherHadoop2) (formats : NumberFormats) (digit : Char → Option Nat)
    (heuristics : List MapReduceHeuristic) (jobTypes : List JobType) : Prop where
  fetcher : context.typeToFetcher type = some fetcher.elephantFetcher
  heuristics : context.typeToHeuristics type =
    some (heuristics.map (MapReduceHeuristic.applyComplete formats digit))
  jobTypes : context.appTypeToJobTypes APPLICATION_TYPE = some jobTypes

variable {context : ElephantContext CompleteApplicationData} {fetcher : MapReduceFetcherHadoop2}
  {heuristics : List MapReduceHeuristic} {jobTypes : List JobType} {job : AnalyticJob} {jobConf : Properties}

/-- A failed job is stored with one row for each heuristic for exceptions and no
others, which shows the stack trace of the job exactly if it has one, and under
the page of the history server. -/
theorem failed_job_analysis
    (hconfigured : MapReduceConfigured context job.type fetcher formats digit heuristics jobTypes)
    (hconf : fetcher.getProperties (fetcher.getJobConfigURL (Utils.getJobIdFromApplicationId job.appId)) =
      .ok jobConf)
    (hstate : fetcher.getState (fetcher.getJobURL (Utils.getJobIdFromApplicationId job.appId)) =
      .ok (some "FAILED"))
    (configured : List (SchedulerKind × SchedulerConfigurationData)) :
    ∃ result stacktrace, (AnalyticJob.getAnalysis context (mapReduceSetup configured) job).1 = .ok result ∧
      (∀ text, stacktrace = some text ↔ fetcher.HasStackTrace (Utils.getJobIdFromApplicationId job.appId) text) ∧
      result.yarnAppHeuristicResults = (heuristics.filterMap MapReduceHeuristic.exceptionConf).map (fun conf =>
        (ExceptionHeuristic.report conf stacktrace).toAppHeuristicResult) ∧
      (result.severity = .MODERATE ↔ ∃ conf, .exception conf ∈ heuristics) ∧ result.score = 0 ∧
      result.trackingUrl = Utils.truncateField (some ("http://" ++ fetcher.jhistoryAddr ++ "/jobhistory/job/" ++
        Utils.getJobIdFromApplicationId job.appId)) AppResult.TRACKING_URL_LIMIT ∧
      result.jobType = Utils.truncateField (some ((jobTypes.find? (·.fits jobConf)).elim
        AnalyticJob.UNKNOWN_JOB_TYPE JobType.name)) AppResult.JOBTYPE_LIMIT := by
  obtain ⟨data, hdata, -, hjobConf, hfailed, htrace⟩ := @fetchJob_failed fetcher job.appId _ _ hconf hstate
  obtain ⟨complete, hcomplete⟩ : ∃ complete : CompleteApplicationData, complete = ⟨data, (fetchJob_ok hdata).complete⟩ :=
    ⟨_, rfl⟩
  have hval : complete.val = data := by rw [hcomplete]
  have hanalyze : ∀ trackingUrl, AnalyticJob.analyze context { job with trackingUrl } (some complete) =
      .ok ((heuristics.filterMap MapReduceHeuristic.exceptionConf).map fun conf =>
        ExceptionHeuristic.report conf data.diagnosticInfo) := by
    intro trackingUrl
    have hempty : HadoopApplicationData.isEmpty complete = false := by
      simp only [HadoopApplicationData.isEmpty, hval, hfailed, Bool.false_and]
    simp only [AnalyticJob.analyze, hempty, Bool.false_eq_true, if_false, hconfigured.heuristics]
    rw [← hval] at hfailed ⊢
    exact applyHeuristics_of_failed hfailed heuristics
  have hjobType : context.matchJobType (some complete) = .ok (jobTypes.find? (·.fits jobConf)) := by
    have hconf' : HadoopApplicationData.getConf complete = some jobConf := by
      simp only [HadoopApplicationData.getConf, hval, hjobConf]
    have htypes : context.appTypeToJobTypes (HadoopApplicationData.getApplicationType complete) = some jobTypes :=
      hconfigured.jobTypes
    simp only [ElephantContext.matchJobType, htypes, hconf']
    exact ElephantContext.firstMatch_some _ _
  have hproperties : (mapReduceSetup configured).retrieveProperties complete = .ok (some jobConf) := by
    simp only [mapReduceSetup, hval, hjobConf]
  let located : AnalyticJob := { job with trackingUrl := (fetcher.fetchData job).2 }
  obtain ⟨result, hload⟩ : ∃ result, InfoExtractor.loadInfo (mapReduceSetup configured)
      (located.toAppResult
        ((heuristics.filterMap MapReduceHeuristic.exceptionConf).map fun conf =>
          ExceptionHeuristic.report conf data.diagnosticInfo) (jobTypes.find? (·.fits jobConf))) (some complete) =
      .ok result := ⟨_, InfoExtractor.loadInfo_configured configured rfl hproperties _⟩
  have hkept := InfoExtractor.withoutSchedulerInfo_loadInfo hload
  refine ⟨result, data.diagnosticInfo, ?_, htrace, ?_, ?_, ?_, ?_, ?_⟩
  · rw [AnalyticJob.getAnalysis_eq hconfigured.fetcher (hcomplete ▸ elephantFetcher_eq hdata)]
    simp only [AnalyticJob.analyzeData, hanalyze, hjobType, bind, Except.bind]
    exact hload
  · have hrows := congrArg AppResult.yarnAppHeuristicResults hkept
    refine hrows.trans ((AnalyticJob.toAppResult_rows located _ (jobTypes.find? (·.fits jobConf))).trans ?_)
    rw [List.map_map]
    rfl
  · have hseverity := congrArg AppResult.severity hkept
    refine Iff.trans ?_ (maxAll_report data.diagnosticInfo heuristics)
    exact Eq.congr_left (hseverity.trans (AnalyticJob.toAppResult_severity located _
      (jobTypes.find? (·.fits jobConf))))
  · have hscore := congrArg AppResult.score hkept
    refine hscore.trans ((AnalyticJob.toAppResult_score located _ (jobTypes.find? (·.fits jobConf))).trans ?_)
    rw [sum32_eq, sum_report_scores]
    rfl
  · exact congrArg AppResult.trackingUrl hkept
  · exact congrArg AppResult.jobType hkept

/-- A history server of a job that has failed in the second attempt of a task. -/
private def failedServer : MapReduceFetcherHadoop2 where
  jhistoryAddr := "localhost:19888"
  readJsonNode _ := .ok (.object [
    ("conf", .object [("property", .array [])]),
    ("job", .object [("state", .text "FAILED"), ("diagnostics", .text "Task task_1_m_7 failed 2 times\n")]),
    ("taskAttempts", .object [("taskAttempt", .array [
      .object [("state", .text "KILLED")],
      .object [("state", .text "FAILED"), ("diagnostics", .text "Error: Java heap space")]])])])
  shuffleMappers := mixedTasksServer.shuffleMappers
  shuffleReducers := mixedTasksServer.shuffleReducers
  order := .insertion

private def exceptionConfData : HeuristicConfigurationData := ⟨"Exception", "ExceptionHeuristic"⟩

private def failedContext : ElephantContext CompleteApplicationData where
  typeToFetcher _ := some failedServer.elephantFetcher
  typeToHeuristics _ := some ([.exception exceptionConfData].map
    (MapReduceHeuristic.applyComplete ⟨toString, fun _ => "", fun _ => ""⟩ fun _ => none))
  appTypeToJobTypes _ := some []
  nameToType _ := some APPLICATION_TYPE
  toUpperCase name := name

private def failedMapReduceJob : AnalyticJob where
  type := APPLICATION_TYPE
  appId := "application_1"
  name := "job"
  queueName := "default"
  user := "user"
  trackingUrl := none
  startTime := 1000
  finishTime := 2000

theorem failed_job_analysis_failedServer : ∃ result,
    (AnalyticJob.getAnalysis failedContext (mapReduceSetup []) failedMapReduceJob).1 = .ok result ∧
      result.severity = .MODERATE ∧ result.yarnAppHeuristicResults =
        [(ExceptionHeuristic.report exceptionConfData (some "Error: Java heap space")).toAppHeuristicResult] := by
  have hconfigured : MapReduceConfigured failedContext failedMapReduceJob.type failedServer
      ⟨toString, fun _ => "", fun _ => ""⟩ (fun _ => none) [.exception exceptionConfData] [] := ⟨rfl, rfl, rfl⟩
  have hconf : ∀ url, failedServer.getProperties url = .ok fun _ => none := fun _ => rfl
  have hstate : ∀ url, failedServer.getState url = .ok (some "FAILED") := fun _ => rfl
  obtain ⟨result, stacktrace, hresult, htrace, hrows, hseverity, -⟩ :=
    failed_job_analysis hconfigured (hconf _) (hstate _) []
  have hmatch : diagnosticMatcher "Task task_1_m_7 failed 2 times\n" = some ("task_1_m_7", 2) := by decide +kernel
  have hfound := (htrace "Error: Java heap space").mpr (.failedTask rfl hmatch (by decide) rfl
    ⟨[_], _, [], rfl, List.forall_mem_singleton.mpr ⟨"KILLED", rfl, by decide⟩, rfl, rfl⟩ (by decide +kernel))
  refine ⟨result, hresult, hseverity.mpr ⟨_, List.mem_singleton_self _⟩, ?_⟩
  rw [hrows, hfound]
  rfl

end analysis

end drelephant.mapreduce
