import DrElephant.Analysis.GetAnalysis
import DrElephant.Analysis.ShippedHeuristics
import DrElephant.Schedulers.FirstComplete
import DrElephant.Spark.EventLogs
import DrElephant.Spark.ExecutorLoadSeverity
import DrElephant.Spark.Heuristics.JobRuntime
import DrElephant.Spark.Heuristics.SparkHeuristic
import DrElephant.Spark.JobDescriptions
import DrElephant.Util.JavaOptions

open collections drelephant.analysis drelephant.math drelephant.schedulers drelephant.util ieee java.lang
  machine models org.apache.spark.deploy.history org.apache.spark.storage

namespace drelephant.spark

/-- Thresholds that an application without any jobs, stages, executors and
properties does not reach. -/
def SparkHeuristic.ThresholdsPositive : SparkHeuristic → Prop
  | bestPropertiesConvention heuristic =>
    heuristic.numCoreLimit.lt (.ofInt 1) = false ∧ heuristic.driverMemLimits.PositiveAscending
  | memoryLimit heuristic => heuristic.totalMemLimits.PositiveAscending
  | stageRuntime heuristic => heuristic.stageFailRateLimits.PositiveAscending
  | jobRuntime heuristic => heuristic.avgJobFailureLimits.PositiveAscending
  | executorLoad heuristic =>
    heuristic.looserMetDevLimits.PositiveAscending ∧ heuristic.metDevLimits.PositiveAscending
  | eventLogLimit _ => True

/-- The severity of an application of which nothing is known but that its log
is too large. -/
def SparkHeuristic.throttledSeverity : SparkHeuristic → Severity
  | eventLogLimit _ => .CRITICAL
  | _ => .NONE

section heuristics

open SparkFSFetcher (throttledData)

variable {orders : DataOrders} {appId : String} {platform : Platform}

private theorem ofInt_zero : Binary64.ofInt 0 = .finite 0 := Binary64.ofInt_eq_finite (by simp)

theorem getSparkProperty_throttledData {key : String} (hkey : key ≠ "spark.app.id") :
    (throttledData orders appId).environmentData.getSparkProperty key = none := by
  simp [SparkEnvironmentData.getSparkProperty, throttledData, Function.update_of_ne hkey]

theorem getExecutors_throttledData : (throttledData orders appId).executorData.getExecutors = [] := by
  have hperm := orders.executors.perm []
  rw [SparkExecutorData.getExecutors, throttledData, OrderedMap.empty, hperm.eq_nil]
  rfl

/-- The sets of jobs and of stages are empty, in whatever order they are walked. -/
theorem jobs_throttledData : (throttledData orders appId).jobProgressData.getCompletedJobs = [] ∧
    (throttledData orders appId).jobProgressData.getFailedJobs = [] ∧
    (throttledData orders appId).jobProgressData.getCompletedStages = [] := by
  have hjobs := (orders.jobs.perm []).eq_nil
  have hstages := (orders.stages.perm []).eq_nil
  simp only [SparkJobProgressData.getCompletedJobs, SparkJobProgressData.getFailedJobs,
    SparkJobProgressData.getCompletedStages, throttledData, OrderedMap.empty, hjobs, hstages]
  exact ⟨rfl, rfl, rfl⟩

/-- Nothing has failed of nothing at all. -/
theorem failureRate_throttledData :
    (throttledData orders appId).jobProgressData.getJobFailureRate = .finite 0 ∧
      (throttledData orders appId).jobProgressData.getStageFailureRate = .finite 0 := by
  have hrate : getFailureRate 0 0 = .finite 0 := by
    rw [getFailureRate, if_pos (show machine.wrap32 (0 + 0) = 0 from rfl), ofInt_zero]
  exact ⟨hrate, hrate⟩

theorem bestPropertiesConvention_throttledData {heuristic : BestPropertiesConventionHeuristic}
    (hcores : heuristic.numCoreLimit.lt (.ofInt 1) = false)
    (hmemory : heuristic.driverMemLimits.PositiveAscending) :
    ∃ result, heuristic.apply platform (throttledData orders appId) = .ok (some result) ∧
      result.severity = .NONE := by
  have hnone : ∀ key ∈ [SPARK_SERIALIZER, SPARK_DRIVER_MEMORY, SPARK_SHUFFLE_MANAGER, SPARK_EXECUTOR_CORES],
      (throttledData orders appId).environmentData.getSparkProperty key = none :=
    fun key hkey => getSparkProperty_throttledData (by rintro rfl; revert hkey; decide)
  simp only [List.forall_mem_cons] at hnone
  obtain ⟨hserializer, hdriver, hshuffle, hexecutor, -⟩ := hnone
  have hdriverSeverity : heuristic.getDriverMemorySeverity 0 = .NONE := by
    rw [BestPropertiesConventionHeuristic.getDriverMemorySeverity, ofInt_zero,
      Severity.getSeverityAscending_zero hmemory]
  have hcoreSeverity : heuristic.getCoreNumSeverity 1 = .NONE := by
    rw [BestPropertiesConventionHeuristic.getCoreNumSeverity, hcores]
    rfl
  rw [BestPropertiesConventionHeuristic.apply, hserializer, hdriver, hshuffle, hexecutor]
  refine ⟨_, rfl, ?_⟩
  show Severity.maxAll [.NONE, heuristic.getDriverMemorySeverity 0, .NONE, heuristic.getCoreNumSeverity 1] = .NONE
  rw [hdriverSeverity, hcoreSeverity]
  rfl

theorem stageRuntime_throttledData {heuristic : StageRuntimeHeuristic}
    (hlimits : heuristic.stageFailRateLimits.PositiveAscending) :
    ∃ result, heuristic.apply platform (throttledData orders appId) = .ok (some result) ∧
      result.severity = .NONE := by
  have hrate : heuristic.getStageFailureRateSeverity
      (throttledData orders appId).jobProgressData.getStageFailureRate = .NONE := by
    rw [StageRuntimeHeuristic.getStageFailureRateSeverity, failureRate_throttledData.2,
      Severity.getSeverityAscending_zero hlimits]
  rw [StageRuntimeHeuristic.apply, jobs_throttledData.2.2]
  refine ⟨_, rfl, ?_⟩
  show Severity.max .NONE _ = .NONE
  rw [hrate]
  rfl

theorem jobRuntime_throttledData {heuristic : JobRuntimeHeuristic}
    (hlimits : heuristic.avgJobFailureLimits.PositiveAscending) :
    ∃ result, heuristic.apply platform (throttledData orders appId) = .ok (some result) ∧
      result.severity = .NONE := by
  obtain ⟨hcompleted, hfailed, -⟩ := @jobs_throttledData orders appId
  have hrate : heuristic.getAvgJobFailureRateSeverity
      (throttledData orders appId).jobProgressData.getJobFailureRate = .NONE := by
    rw [JobRuntimeHeuristic.getAvgJobFailureRateSeverity, failureRate_throttledData.1,
      Severity.getSeverityAscending_zero hlimits]
  rw [JobRuntimeHeuristic.apply, hcompleted, SparkJobProgressData.getFailedJobDescriptions, hfailed]
  refine ⟨_, rfl, ?_⟩
  show Severity.max .NONE _ = .NONE
  rw [hrate]
  rfl

theorem executorLoad_throttledData {heuristic : ExecutorLoadHeuristic}
    (hlooser : heuristic.looserMetDevLimits.PositiveAscending)
    (hlimits : heuristic.metDevLimits.PositiveAscending) :
    ∃ result, heuristic.apply platform (throttledData orders appId) = .ok (some result) ∧
      result.severity = .NONE := by
  have hfactor : (ValueObserver.new 0).getDeviationFactor = .finite 0 := by
    rw [ValueObserver.getDeviationFactor, ValueObserver.getAvg, ValueObserver.new, List.replicate_zero,
      Statistics.average_nil, if_pos rfl, ofInt_zero]
  have hobserved : ExecutorLoadHeuristic.observeAll (2 ^ 20) (throttledData orders appId).executorData =
      .ok { peakMems := .new 0, durations := .new 0, inputBytes := .new 0, outputBytes := .new 0 } := by
    rw [ExecutorLoadHeuristic.observeAll, getExecutors_throttledData]
    rfl
  have haverage : (ValueObserver.new 0).getAvg = 0 := Statistics.average_nil
  obtain ⟨bytes, hbytes⟩ : ∃ text, (ValueObserver.new 0).describe MemoryFormatUtils.bytesToString = .ok text := by
    rw [ValueObserver.describe, haverage]
    exact ⟨_, rfl⟩
  obtain ⟨runtimes, hruntimes⟩ : ∃ text, (ValueObserver.new 0).describe
      (fun duration => pure (Statistics.readableTimespan duration)) = .ok text := ⟨_, rfl⟩
  simp only [ExecutorLoadHeuristic.apply, memoryObservationThreshold, hobserved, hbytes, hruntimes, bind,
    Except.bind, pure_eq_ok_iff]
  refine ⟨_, rfl, ?_⟩
  show Severity.maxAll [heuristic.getLooserMetricDeviationSeverity (.new 0),
    heuristic.getMetricDeviationSeverity (.new 0), heuristic.getMetricDeviationSeverity (.new 0),
    heuristic.getLooserMetricDeviationSeverity (.new 0)] = .NONE
  rw [ExecutorLoadHeuristic.getLooserMetricDeviationSeverity, ExecutorLoadHeuristic.getMetricDeviationSeverity,
    hfactor, Severity.getSeverityAscending_zero hlooser, Severity.getSeverityAscending_zero hlimits]
  rfl

private theorem no_space : ∀ c ∈ ([] : List Char), MemoryFormatUtils.isSpace c = true :=
  fun _ hc => absurd hc List.not_mem_nil

private theorem no_letter : ∀ c ∈ (none : Option Char), c.toUpper ∈ ['K', 'M', 'G', 'T'] :=
  fun c hc => absurd hc (Option.not_mem_none c)

private theorem no_b : ∀ c ∈ (none : Option Char), c.toUpper = 'B' :=
  fun c hc => absurd hc (Option.not_mem_none c)

/-- The text "0". -/
private def zeroBytes : MemoryFormatUtils.MemoryText where
  number := MemoryFormatUtils.wholeNumber 0
  space := []
  letter := none
  b := none
  isSpace := no_space
  letter_mem := no_letter
  b_eq := no_b

/-- The text "500 GB". -/
private def halfTerabyte : MemoryFormatUtils.MemoryText where
  number := MemoryFormatUtils.wholeNumber 500
  space := [' ']
  letter := some 'G'
  b := some 'B'
  isSpace := MemoryFormatUtils.isSpace_blank
  letter_mem := MemoryFormatUtils.forall_mem_some (by decide)
  b_eq := MemoryFormatUtils.toUpper_B

/-- Below this limit no utilization of the storage memory is too low. -/
theorem utilizationLimit (formats : NumberFormats) :
    MemoryFormatUtils.stringToBytes formats (some "500 GB") = .ok (500 * 2 ^ 30) := by
  have htext : "500 GB".toList = halfTerabyte.text := rfl
  exact MemoryFormatUtils.stringToBytes_wholeNumber formats (n := 500) htext rfl (by decide) (by decide)

theorem memoryLimit_throttledData {heuristic : MemoryLimitHeuristic}
    (hdigit : DecimalDigits platform.digit) (hlimits : heuristic.totalMemLimits.PositiveAscending) :
    ∃ result, heuristic.apply platform (throttledData orders appId) = .ok (some result) ∧
      result.severity = .NONE := by
  have hnone : ∀ key ∈ [SPARK_EXECUTOR_INSTANCES, SPARK_EXECUTOR_MEMORY, SPARK_DRIVER_MEMORY],
      (throttledData orders appId).environmentData.getSparkProperty key = none :=
    fun key hkey => getSparkProperty_throttledData (by rintro rfl; revert hkey; decide)
  simp only [List.forall_mem_cons] at hnone
  obtain ⟨hinstances, hmemory, hdriver, -⟩ := hnone
  have hnum : parseProperty platform "0" = .ok 0 := by
    rw [parseProperty, show "0" = toString 0 from rfl, parseInt_toString hdigit (by decide)]
    rfl
  have hzeroText : "0".toList = zeroBytes.text := rfl
  have hzero : MemoryFormatUtils.stringToBytes platform.formats (some "0") = .ok 0 :=
    MemoryFormatUtils.stringToBytes_wholeNumber platform.formats (n := 0) hzeroText rfl (by decide) (by decide)
  have hsum : ∀ size, MemoryLimitHeuristic.sumOverExecutors (throttledData orders appId) size = .ok 0 := by
    intro size
    rw [MemoryLimitHeuristic.sumOverExecutors, getExecutors_throttledData]
    rfl
  have hdriverMem : MemoryLimitHeuristic.getTotalDriverMem platform (throttledData orders appId) = .ok 0 := by
    rw [MemoryLimitHeuristic.getTotalDriverMem, hdriver]
    rfl
  have hutilization : heuristic.getMemoryUtilizationSeverity platform 0 0 = .ok .NONE := by
    rw [MemoryLimitHeuristic.getMemoryUtilizationSeverity, utilizationLimit]
    rfl
  have htotal : heuristic.getTotalMemorySeverity 0 = .NONE := by
    rw [MemoryLimitHeuristic.getTotalMemorySeverity, ofInt_zero, Severity.getSeverityAscending_zero hlimits]
  rw [MemoryLimitHeuristic.apply]
  simp only [SparkEnvironmentData.getSparkPropertyOrDefault, hinstances, hmemory, Option.getD_none, hnum, hzero,
    MemoryLimitHeuristic.getTotalStorageMem, MemoryLimitHeuristic.getStoragePeakMemory, hsum, hdriverMem,
    hutilization, bind, Except.bind]
  refine ⟨_, rfl, ?_⟩
  show Severity.max (heuristic.getTotalMemorySeverity 0) .NONE = .NONE
  rw [htotal]
  rfl

/-- Every heuristic reports, and only the one that looks at the log finds anything. -/
theorem apply_throttledData (hdigit : DecimalDigits platform.digit) {heuristic : SparkHeuristic}
    (h : heuristic.ThresholdsPositive) : ∃ result,
    heuristic.apply platform (throttledData orders appId) = .ok (some result) ∧
      result.severity = heuristic.throttledSeverity := by
  cases heuristic with
  | bestPropertiesConvention => exact bestPropertiesConvention_throttledData h.1 h.2
  | memoryLimit => exact memoryLimit_throttledData hdigit h
  | stageRuntime => exact stageRuntime_throttledData h
  | jobRuntime => exact jobRuntime_throttledData h
  | executorLoad => exact executorLoad_throttledData h.1 h.2
  | eventLogLimit => exact ⟨_, rfl, rfl⟩

/-- What a heuristic finds in an application of which nothing is known but that
its log is too large. -/
def SparkHeuristic.FindsOnlyLog (heuristic : SparkHeuristic) (result : HeuristicResult) : Prop :=
  result.severity = heuristic.throttledSeverity ∧ result.score = 0

theorem applyHeuristics_throttledData (hdigit : DecimalDigits platform.digit) {heuristics : List SparkHeuristic}
    (h : ∀ heuristic ∈ heuristics, heuristic.ThresholdsPositive) : ∃ results,
    AnalyticJob.applyHeuristics (throttledData orders appId) (heuristics.map (SparkHeuristic.apply platform)) =
      .ok results ∧ List.Forall₂ SparkHeuristic.FindsOnlyLog heuristics results := by
  induction heuristics with
  | nil => exact ⟨[], rfl, .nil⟩
  | cons heuristic heuristics ih =>
    obtain ⟨hhead, hrest⟩ := List.forall_mem_cons.mp h
    obtain ⟨results, hresults, hfinds⟩ := ih hrest
    obtain ⟨result, hresult, hseverity⟩ := @apply_throttledData orders appId platform hdigit _ hhead
    have hscore : result.score = 0 :=
      (SparkHeuristic.apply_reportable hresult).score.trans (Utils.getHeuristicScore_zero _)
    refine ⟨result :: results, ?_, .cons ⟨hseverity, hscore⟩ hfinds⟩
    rw [List.map_cons, AnalyticJob.applyHeuristics, hresult, hresults]
    rfl

variable {heuristics : List SparkHeuristic} {results : List HeuristicResult}

theorem severities_of_findsOnlyLog (h : List.Forall₂ SparkHeuristic.FindsOnlyLog heuristics results) :
    results.map HeuristicResult.severity = heuristics.map SparkHeuristic.throttledSeverity := by
  induction h with
  | nil => rfl
  | cons hhead _ ih => rw [List.map_cons, List.map_cons, ih, hhead.1]

theorem scores_of_findsOnlyLog (h : List.Forall₂ SparkHeuristic.FindsOnlyLog heuristics results) :
    sum32 (results.map HeuristicResult.score) = 0 := by
  have hzeros : ∀ score ∈ results.map HeuristicResult.score, score = 0 := by
    induction h with
    | nil => simp
    | cons hhead _ ih => exact List.forall_mem_cons.mpr ⟨hhead.2, ih⟩
  rw [sum32_eq, List.sum_eq_zero hzeros]
  rfl

theorem throttledSeverity_eq_critical_iff {heuristic : SparkHeuristic} :
    heuristic.throttledSeverity = .CRITICAL ↔ ∃ conf, heuristic = .eventLogLimit conf := by
  cases heuristic <;> simp [SparkHeuristic.throttledSeverity]

theorem maxAll_throttledSeverity : Severity.maxAll (heuristics.map SparkHeuristic.throttledSeverity) = .CRITICAL ↔
    ∃ conf, .eventLogLimit conf ∈ heuristics := by
  have hspec := @Severity.maxAll_spec (heuristics.map SparkHeuristic.throttledSeverity)
  constructor
  · intro hcritical
    have hne : heuristics.map SparkHeuristic.throttledSeverity ≠ [] := by
      intro hnil
      rw [hnil] at hcritical
      cases hcritical
    obtain ⟨hmem, -⟩ := hspec hne
    rw [hcritical] at hmem
    obtain ⟨heuristic, hheuristic, hseverity⟩ := List.mem_map.mp hmem
    obtain ⟨conf, rfl⟩ := throttledSeverity_eq_critical_iff.mp hseverity
    exact ⟨conf, hheuristic⟩
  · rintro ⟨conf, hconf⟩
    have hmem : Severity.CRITICAL ∈ heuristics.map SparkHeuristic.throttledSeverity :=
      List.mem_map.mpr ⟨_, hconf, rfl⟩
    obtain ⟨-, hbound⟩ := hspec (List.ne_nil_of_mem hmem)
    have hle := hbound _ hmem
    cases hmax : Severity.maxAll (heuristics.map SparkHeuristic.throttledSeverity) with
    | CRITICAL => rfl
    | SEVERE | MODERATE | LOW | NONE =>
      rw [hmax] at hle
      exact absurd hle (by decide)

end heuristics

section analysis

open SparkFSFetcher (throttledData)

variable {storage : Storage}

/-- The fetcher as the daemon calls it. It leaves the tracking url as it is. -/
def SparkFSFetcher.elephantFetcher (fetcher : SparkFSFetcher) (platform : LogPlatform storage)
    (orders : DataOrders) : ElephantFetcher SparkApplicationData :=
  fun job => ((fetcher.fetchData platform orders job.appId).map some, job.trackingUrl)

/-- The schedulers that are asked about Spark applications. -/
def sparkSetup (configured : List (SchedulerKind × SchedulerConfigurationData)) :
    InfoExtractor.Setup SparkApplicationData where
  schedulers := configured.map fun conf => conf.1.schedulerClass conf.2
  retrieveProperties data := (InfoExtractor.retrieveSparkProperties data).map some

variable {orders : DataOrders} {appId : String}

/-- No scheduler finds its properties where there are none. -/
theorem loadInfo_throttledData (configured : List (SchedulerKind × SchedulerConfigurationData))
    (result : AppResult) :
    InfoExtractor.loadInfo (sparkSetup configured) result (some (throttledData orders appId)) =
      .ok (InfoExtractor.loadNoSchedulerInfo result) := by
  have hoptions : InfoExtractor.retrieveSparkProperties (throttledData orders appId) = .ok fun _ => none := by
    rw [InfoExtractor.retrieveSparkProperties,
      getSparkProperty_throttledData (show InfoExtractor.SPARK_EXTRA_JAVA_OPTIONS ≠ "spark.app.id" by decide)]
  have hproperties : (sparkSetup configured).retrieveProperties (throttledData orders appId) =
      .ok (some fun _ => none) := by
    simp only [sparkSetup, hoptions]
    rfl
  have hnone : (InfoExtractor.instances configured fun _ => none).find? (fun scheduler => !scheduler.isEmpty) =
      none := by
    rw [List.find?_eq_none]
    intro scheduler hscheduler
    obtain ⟨conf, -, rfl⟩ := List.mem_map.mp hscheduler
    rw [SchedulerKind.isEmpty_newInstance]
    cases conf.1 <;> simp [SchedulerKind.idProperties]
  rw [InfoExtractor.loadInfo_configured configured rfl hproperties, hnone]
  rfl

/-- What is configured for an application type: the fetcher and the heuristics,
and the job types of Spark. -/
structure SparkConfigured (context : ElephantContext SparkApplicationData) (type : ApplicationType)
    (fetchData : ElephantFetcher SparkApplicationData) (platform : Platform) (heuristics : List SparkHeuristic)
    (jobTypes : List JobType) : Prop where
  fetcher : context.typeToFetcher type = some fetchData
  heuristics : context.typeToHeuristics type = some (heuristics.map (SparkHeuristic.apply platform))
  jobTypes : context.appTypeToJobTypes APPLICATION_TYPE = some jobTypes

variable {fetcher : SparkFSFetcher} {logs : LogPlatform storage} {logDir : String}

/-- Data is throttled exactly when the log is too large. -/
theorem isThrottled_iff (hlogDir : fetcher.logDir logs = .ok logDir) {data : SparkApplicationData}
    (h : fetcher.fetchData logs orders appId = .ok data) :
    data.isThrottled = true ↔ fetcher.TooLarge (logs.fileSystem logDir) (logs.resolve logDir appId) := by
  rw [← @SparkFSFetcher.findLog_eq_none_iff _ logs]
  simp only [SparkFSFetcher.fetchData, hlogDir, bind_eq_ok_iff, Except.ok.injEq, exists_eq_left'] at h
  obtain ⟨logInput, hlogInput, h⟩ := h
  rw [hlogInput]
  cases logInput with
  | none =>
    obtain rfl := pure_eq_ok_iff.mp h
    exact iff_of_true rfl rfl
  | some logInput =>
    simp only [bind_eq_ok_iff, pure_eq_ok_iff] at h
    obtain ⟨listeners, -, rfl⟩ := h
    exact iff_of_false (by simp [SparkDataCollection.applicationData]) (by simp)

theorem fetchData_of_tooLarge (hlogDir : fetcher.logDir logs = .ok logDir)
    (hlarge : fetcher.TooLarge (logs.fileSystem logDir) (logs.resolve logDir appId)) :
    fetcher.fetchData logs orders appId = .ok (throttledData orders appId) := by
  have hnone := (@SparkFSFetcher.findLog_eq_none_iff _ logs _ _ _).mpr hlarge
  simp only [SparkFSFetcher.fetchData, hlogDir, hnone, bind, Except.bind]
  rfl

/-- The properties of an application whose log is too large. -/
def onlyAppId (appId : String) : Properties := Function.update (fun _ => none) "spark.app.id" (some appId)

/-- The heuristic that looks at the log is critical exactly when the log is too
large. -/
theorem eventLogLimit_eq_critical_iff (hlogDir : fetcher.logDir logs = .ok logDir) {data : SparkApplicationData}
    (hdata : fetcher.fetchData logs orders appId = .ok data) {conf : HeuristicConfigurationData}
    {result : HeuristicResult} (h : EventLogLimitHeuristic.apply conf data = .ok (some result)) :
    result.severity = .CRITICAL ↔
      fetcher.TooLarge (logs.fileSystem logDir) (logs.resolve logDir appId) := by
  rw [← isThrottled_iff hlogDir hdata]
  rw [EventLogLimitHeuristic.apply] at h
  cases hthrottled : data.isThrottled with
  | true =>
    rw [if_pos hthrottled] at h
    obtain rfl := Option.some.inj (Except.ok.inj h)
    exact iff_of_true rfl rfl
  | false =>
    rw [if_neg (by simp [hthrottled])] at h
    obtain rfl := Option.some.inj (Except.ok.inj h)
    exact iff_of_false (by simp [HeuristicResult.new]) (by simp)

variable {context : ElephantContext SparkApplicationData} {job : AnalyticJob} {platform : Platform}
  {heuristics : List SparkHeuristic} {jobTypes : List JobType}

end analysis

/-- A file system with one log of a gigabyte. -/
private def oneLog : FileSystem where
  getFileStatus path :=
    .ok (if path = "/system/spark-history/application_1_1.snappy" then some ⟨false, 2 ^ 30⟩ else none)
  listStatus _ := .ok []

private def oneLogPlatform : LogPlatform StorageStatusTrackingListener.blockSizes where
  readJsonNode _ := .error (.io "")
  hadoopConf _ := none
  sparkConf _ := none
  getPath path := .ok (some path)
  fileSystem _ := oneLog
  resolve parent child := parent ++ "/" ++ child
  isCodec _ := false
  replay _ := .error (.io "")

private def asciiPlatform : Platform :=
  { Platform.plain with digit := fun c => if c.isDigit then some (c.toNat - '0'.toNat) else none }

private def twoHeuristics : List SparkHeuristic :=
  [.jobRuntime jobRuntime, .eventLogLimit ⟨"Spark Event Log Limit", "EventLogLimitHeuristic"⟩]

private def oneLogContext : ElephantContext SparkApplicationData where
  typeToFetcher _ := some (SparkFSFetcher.withoutParams.elephantFetcher oneLogPlatform .insertion)
  typeToHeuristics _ := some (twoHeuristics.map (SparkHeuristic.apply asciiPlatform))
  appTypeToJobTypes _ := some [⟨"Spark", some "spark.app.id", some fun _ => true⟩]
  nameToType _ := some APPLICATION_TYPE
  toUpperCase name := name

private def oneLogJob : AnalyticJob where
  type := APPLICATION_TYPE
  appId := "application_1"
  name := "job"
  queueName := "default"
  user := "user"
  trackingUrl := none
  startTime := 1000
  finishTime := 2000

end drelephant.spark
