import DrElephant.Analysis.ShippedHeuristics
import DrElephant.Spark.Throttling

open collections drelephant.analysis drelephant.math drelephant.schedulers drelephant.util ieee java.lang machine models
  org.apache.spark.deploy.history org.apache.spark.deploy.history.SparkDataCollection
  org.apache.spark.storage

namespace drelephant.spark

section findings

/-- Values that are the same, or the same lines one below the other in another order. -/
inductive SameLines : Option String → Option String → Prop
  | refl (value : Option String) : SameLines value value
  | perm {names names' : List (Option String)} (h : names.Perm names') :
    SameLines (some (getNamesAsString names)) (some (getNamesAsString names'))

/-- Numbers of the same things, counted in different orders. -/
theorem sameLines_length {α : Type} {l l' : List α} (h : l.Perm l') :
    SameLines (some (toString l.length)) (some (toString l'.length)) := by
  rw [h.length_eq]
  exact .refl _

/-- Results that find the same and differ in the order of the lines of their
details at most. -/
structure SameFindings (result result' : HeuristicResult) : Prop where
  heuristicClass : result.heuristicClass = result'.heuristicClass
  heuristicName : result.heuristicName = result'.heuristicName
  severity : result.severity = result'.severity
  score : result.score = result'.score
  details : List.Forall₂ (fun detail detail' : HeuristicResultDetails => detail.name = detail'.name ∧
    SameLines detail.value detail'.value ∧ detail.details = detail'.details)
    result.heuristicResultDetails result'.heuristicResultDetails

theorem SameFindings.refl (result : HeuristicResult) : SameFindings result result :=
  ⟨rfl, rfl, rfl, rfl, List.forall₂_same.mpr fun _ _ => ⟨rfl, .refl _, rfl⟩⟩

theorem sameFindings_option_refl (result : Option HeuristicResult) : Option.Rel SameFindings result result := by
  cases result with
  | none => exact .none
  | some result => exact .some (.refl result)

theorem sameFindings_new (conf : HeuristicConfigurationData) {severity severity' : Severity} (score : Int)
    (h : severity = severity') :
    SameFindings (HeuristicResult.new conf severity score) (HeuristicResult.new conf severity' score) := by
  rw [h]
  exact .refl _

theorem SameFindings.add {result result' : HeuristicResult} (h : SameFindings result result') (name : String)
    {value value' : String} (hvalue : SameLines (some value) (some value')) :
    SameFindings (result.addResultDetail name value) (result'.addResultDetail name value') :=
  ⟨h.heuristicClass, h.heuristicName, h.severity, h.score,
    List.rel_append h.details (.cons ⟨rfl, hvalue, rfl⟩ .nil)⟩

end findings

section loop

variable {α β : Type} {judge : α → Except JavaException (List Severity × List (Option String))}
  {step : β → α → Except JavaException β} {severity : β → Severity} {lines : β → List (Option String)}
  {take : β → List Severity × List (Option String) → β}

private theorem foldl_take (hseverity : ∀ b found, severity (take b found) = found.1.foldl Severity.max (severity b))
    (hlines : ∀ b found, lines (take b found) = lines b ++ found.2)
    (found : List (List Severity × List (Option String))) (b : β) :
    severity (found.foldl take b) = (found.flatMap Prod.fst).foldl Severity.max (severity b) ∧
      lines (found.foldl take b) = lines b ++ found.flatMap Prod.snd := by
  induction found generalizing b with
  | nil => exact ⟨rfl, (List.append_nil _).symm⟩
  | cons first found ih =>
    obtain ⟨ihseverity, ihlines⟩ := ih (take b first)
    constructor
    · rw [List.foldl_cons, ihseverity, hseverity, List.flatMap_cons, List.foldl_append]
    · rw [List.foldl_cons, ihlines, hlines, List.flatMap_cons, List.append_assoc]

/-- A loop that raises a severity and writes lines does the same over the
elements in another order, but for the order of the lines. -/
theorem foldlM_rearranged (hstep : ∀ b a, step b a = (judge a).map (take b))
    (hseverity : ∀ b found, severity (take b found) = found.1.foldl Severity.max (severity b))
    (hlines : ∀ b found, lines (take b found) = lines b ++ found.2) {l l' : List α} (h : l.Perm l')
    {b result : β} (hresult : l.foldlM step b = .ok result) :
    ∃ result', l'.foldlM step b = .ok result' ∧ severity result = severity result' ∧
      (lines result).Perm (lines result') := by
  rw [foldlM_eq_map_mapM hstep] at hresult
  cases hfound : l.mapM judge with
  | error e =>
    rw [hfound] at hresult
    cases hresult
  | ok found =>
    rw [hfound] at hresult
    obtain rfl : found.foldl take b = result := Except.ok.inj hresult
    obtain ⟨found', hfound', hperm⟩ := mapM_perm h hfound
    obtain ⟨hseverity₁, hlines₁⟩ := foldl_take hseverity hlines found b
    obtain ⟨hseverity₂, hlines₂⟩ := foldl_take hseverity hlines found' b
    refine ⟨found'.foldl take b, ?_, ?_, ?_⟩
    · rw [foldlM_eq_map_mapM hstep, hfound']
      rfl
    · rw [hseverity₁, hseverity₂]
      exact Severity.foldl_max_perm (hperm.flatMap_right _) _
    · rw [hlines₁, hlines₂]
      exact (hperm.flatMap_right _).append_left _

end loop

section heuristics

variable {storage : Storage} {listeners : Listeners storage} {orders orders' : DataOrders} {platform : Platform}

theorem keys_perm {κ ν : Type} [BEq κ] (order order' : HashOrder κ ν) (map : OrderedMap κ ν) :
    ((order.iterate map.entries).map Prod.fst).Perm ((order'.iterate map.entries).map Prod.fst) :=
  ((order.perm _).trans (order'.perm _).symm).map _

theorem getExecutors_perm : (getExecutorData listeners orders).getExecutors.Perm
    (getExecutorData listeners orders').getExecutors := keys_perm _ _ _

theorem getCompletedJobs_perm : (getJobProgressData listeners orders).getCompletedJobs.Perm
    (getJobProgressData listeners orders').getCompletedJobs := keys_perm _ _ _

theorem getFailedJobs_perm : (getJobProgressData listeners orders).getFailedJobs.Perm
    (getJobProgressData listeners orders').getFailedJobs := keys_perm _ _ _

theorem getCompletedStages_perm : (getJobProgressData listeners orders).getCompletedStages.Perm
    (getJobProgressData listeners orders').getCompletedStages := keys_perm _ _ _

theorem getFailedStages_perm : (getJobProgressData listeners orders).getFailedStages.Perm
    (getJobProgressData listeners orders').getFailedStages := keys_perm _ _ _

section jobRuntime

variable {heuristic : JobRuntimeHeuristic} {data : SparkJobProgressData}

/-- The severity of one completed job and the line about it, if there is one. -/
def JobRuntimeHeuristic.judge (heuristic : JobRuntimeHeuristic) (platform : Platform)
    (data : SparkJobProgressData) (jobId : Int) :
    Except JavaException (List Severity × List (Option String)) := do
  let job ← dereference (data.getJobInfo jobId)
  let severity := heuristic.getSingleJobFailureRateSeverity job.getFailureRate
  if severity.getValue > Severity.MODERATE.getValue then
    let description ← data.getJobDescription jobId
    pure ([severity], [some (description.getD "null" ++ " (task failure rate:" ++
      platform.threeDecimals job.getFailureRate ++ ")")])
  else pure ([severity], [])

def JobFailures.take (failures : JobFailures) (found : List Severity × List (Option String)) : JobFailures where
  endSeverity := found.1.foldl Severity.max failures.endSeverity
  highFailureRateJobs := failures.highFailureRateJobs ++ found.2

theorem addJob_eq (failures : JobFailures) (jobId : Int) : heuristic.addJob platform data failures jobId =
    (heuristic.judge platform data jobId).map failures.take := by
  rw [JobRuntimeHeuristic.addJob, JobRuntimeHeuristic.judge]
  cases data.getJobInfo jobId with
  | none => rfl
  | some job =>
    simp only [dereference_some, bind, Except.bind]
    split
    · cases data.getJobDescription jobId <;> rfl
    · simp [JobFailures.take, Except.map, pure, Except.pure]

theorem jobRuntime_rearranged {result : Option HeuristicResult}
    (h : heuristic.apply platform (applicationData listeners orders) = .ok result) :
    ∃ result', heuristic.apply platform (applicationData listeners orders') = .ok result' ∧
      Option.Rel SameFindings result result' := by
  simp only [JobRuntimeHeuristic.apply, bind_eq_ok_iff, pure_eq_ok_iff] at h
  obtain ⟨failures, hfailures, descriptions, hdescriptions, rfl⟩ := h
  obtain ⟨failures', hfailures', hseverity, hlines⟩ :=
    @foldlM_rearranged _ _ _ _ JobFailures.endSeverity JobFailures.highFailureRateJobs JobFailures.take
      addJob_eq (fun _ _ => rfl) (fun _ _ => rfl) _ _ (@getCompletedJobs_perm _ listeners orders orders') _ _
      hfailures
  obtain ⟨descriptions', hdescriptions', hnames⟩ :=
    mapM_perm (@getFailedJobs_perm _ listeners orders orders') hdescriptions
  refine ⟨some (heuristic.report platform (getJobProgressData listeners orders') failures' descriptions'), ?_, ?_⟩
  · simp only [JobRuntimeHeuristic.apply, bind_eq_ok_iff, pure_eq_ok_iff]
    exact ⟨failures', hfailures', descriptions', hdescriptions', rfl⟩
  · refine .some ?_
    rw [JobRuntimeHeuristic.report, JobRuntimeHeuristic.report]
    refine .add (.add (.add (.add (.add (sameFindings_new _ _ hseverity) _ ?_) _ ?_) _ ?_) _ ?_) _ ?_
    · exact sameLines_length getCompletedJobs_perm
    · exact sameLines_length getFailedJobs_perm
    · exact .perm hnames
    · exact .refl _
    · exact .perm hlines

end jobRuntime

section stageRuntime

variable {heuristic : StageRuntimeHeuristic} {data : SparkJobProgressData}

/-- The severities of one completed stage and the lines about it. -/
def StageRuntimeHeuristic.judge (heuristic : StageRuntimeHeuristic) (platform : Platform)
    (data : SparkJobProgressData) (id : StageAttemptId) :
    Except JavaException (List Severity × List (Option String)) := do
  let info ← dereference (data.getStageInfo id.stageId id.attemptId)
  let tasksFailureRateSeverity := heuristic.getSingleStageTasksFailureRate info.getFailureRate
  let runtimeSeverity := heuristic.getStageRuntimeSeverity info.duration
  pure ([tasksFailureRateSeverity, runtimeSeverity],
    problem tasksFailureRateSeverity id ("task failure rate: " ++ platform.threeDecimals info.getFailureRate) ++
      problem runtimeSeverity id ("runtime: " ++ Statistics.readableTimespan info.duration))

def StageProblems.take (problems : StageProblems) (found : List Severity × List (Option String)) :
    StageProblems where
  endSeverity := found.1.foldl Severity.max problems.endSeverity
  problematicStages := problems.problematicStages ++ found.2

theorem addStage_eq (problems : StageProblems) (id : StageAttemptId) : heuristic.addStage platform data problems id =
    (heuristic.judge platform data id).map problems.take := by
  have hmax : ∀ s, Severity.max .NONE s = s := by
    intro s
    cases s <;> rfl
  rw [StageRuntimeHeuristic.addStage, StageRuntimeHeuristic.judge]
  cases data.getStageInfo id.stageId id.attemptId with
  | none => rfl
  | some info => simp [StageProblems.take, Severity.maxAll, hmax, Except.map, bind, Except.bind, pure, Except.pure]

theorem stageRuntime_rearranged {result : Option HeuristicResult}
    (h : heuristic.apply platform (applicationData listeners orders) = .ok result) :
    ∃ result', heuristic.apply platform (applicationData listeners orders') = .ok result' ∧
      Option.Rel SameFindings result result' := by
  simp only [StageRuntimeHeuristic.apply, bind_eq_ok_iff, pure_eq_ok_iff] at h
  obtain ⟨problems, hproblems, rfl⟩ := h
  obtain ⟨problems', hproblems', hseverity, hlines⟩ :=
    @foldlM_rearranged _ _ _ _ StageProblems.endSeverity StageProblems.problematicStages StageProblems.take
      addStage_eq (fun _ _ => rfl) (fun _ _ => rfl) _ _ (@getCompletedStages_perm _ listeners orders orders') _ _
      hproblems
  refine ⟨some (heuristic.report platform (getJobProgressData listeners orders') problems'), ?_, ?_⟩
  · simp only [StageRuntimeHeuristic.apply, bind_eq_ok_iff, pure_eq_ok_iff]
    exact ⟨problems', hproblems', rfl⟩
  · refine .some ?_
    rw [StageRuntimeHeuristic.report, StageRuntimeHeuristic.report]
    refine .add (.add (.add (.add (sameFindings_new _ _ hseverity) _ ?_) _ ?_) _ ?_) _ ?_
    · exact sameLines_length getCompletedStages_perm
    · exact sameLines_length getFailedStages_perm
    · exact .refl _
    · exact .perm hlines

end stageRuntime

section memoryLimit

/-- Every executor of the table has its data, so that a sum over them is one
over what the data holds. -/
theorem sumOverExecutors_eq (size : ExecutorInfo → Int) :
    MemoryLimitHeuristic.sumOverExecutors (applicationData listeners orders) size =
      MemoryLimitHeuristic.sumOverExecutors (applicationData listeners orders') size := by
  have hinfo : ∀ execId ∈ (getExecutorData listeners orders).getExecutors, ∃ info,
      dereference ((getExecutorData listeners orders).getExecutorInfo execId) = .ok info ∧ True := by
    intro execId hmem
    obtain ⟨status, -, hstatus⟩ := exists_getExecutorInfo hmem
    exact ⟨_, dereference_eq_ok_iff.mpr hstatus, trivial⟩
  obtain ⟨infos, hinfos, -⟩ := mapM_ok_of_forall hinfo
  obtain ⟨infos', hinfos', hperm⟩ := mapM_perm (@getExecutors_perm _ listeners orders orders') hinfos
  have hsum : sum64 (infos.map size) = sum64 (infos'.map size) := by
    rw [sum64_eq, sum64_eq, (hperm.map size).sum_eq]
  have hleft : MemoryLimitHeuristic.sumOverExecutors (applicationData listeners orders) size =
      .ok (sum64 (infos.map size)) := bind_eq_ok_iff.mpr ⟨infos, hinfos, rfl⟩
  have hright : MemoryLimitHeuristic.sumOverExecutors (applicationData listeners orders') size =
      .ok (sum64 (infos'.map size)) := bind_eq_ok_iff.mpr ⟨infos', hinfos', rfl⟩
  rw [hleft, hright, hsum]

theorem memoryLimit_rearranged {heuristic : MemoryLimitHeuristic} :
    heuristic.apply platform (applicationData listeners orders) =
      heuristic.apply platform (applicationData listeners orders') := by
  rw [MemoryLimitHeuristic.apply, MemoryLimitHeuristic.apply, MemoryLimitHeuristic.getTotalStorageMem,
    MemoryLimitHeuristic.getTotalStorageMem, MemoryLimitHeuristic.getStoragePeakMemory,
    MemoryLimitHeuristic.getStoragePeakMemory, @sumOverExecutors_eq _ listeners orders orders',
    @sumOverExecutors_eq _ listeners orders orders']
  rfl

end memoryLimit

section executorLoad

/-- The sums over the executors that the averages are made of are exact in doubles. -/
structure ExactLoads (listeners : Listeners storage) (execIds : List String) : Prop where
  peakMems : Statistics.Exact (execIds.map (observedPeakMem listeners))
  durations : Statistics.Exact (execIds.map (recordedDuration listeners))
  inputBytes : Statistics.Exact (execIds.map (recordedInputBytes listeners))

section observer

variable {observer observer' : ValueObserver} {values values' : List Int}

theorem extremes_perm (h : values.Perm values') : values.min? = values'.min? ∧ values.max? = values'.max? := by
  constructor
  · ext value
    simp only [List.min?_eq_some_iff, h.mem_iff]
  · ext value
    simp only [List.max?_eq_some_iff, h.mem_iff]

/-- Observers of the same values in another order know the same average and extremes. -/
theorem observers_agree (h : observer.Observes values 0) (h' : observer'.Observes values' 0)
    (hperm : values.Perm values') (hexact : Statistics.Exact values) :
    observer.getAvg = observer'.getAvg ∧ observer.getMin = observer'.getMin ∧ observer.getMax = observer'.getMax := by
  have hvalues : observer.values = values := h.values.trans (List.append_nil values)
  have hvalues' : observer'.values = values' := h'.values.trans (List.append_nil values')
  obtain ⟨hmin, hmax⟩ := extremes_perm hperm
  refine ⟨?_, ?_, ?_⟩
  · rw [ValueObserver.getAvg, ValueObserver.getAvg, hvalues, hvalues', Statistics.average_perm hperm hexact]
  · rw [ValueObserver.getMin, ValueObserver.getMin, h.min, h'.min, hmin]
  · rw [ValueObserver.getMax, ValueObserver.getMax, h.max, h'.max, hmax]

theorem describe_agree (h : observer.Observes values 0) (h' : observer'.Observes values' 0)
    (hperm : values.Perm values') (hexact : Statistics.Exact values) (format : Int → Except JavaException String) :
    observer.describe format = observer'.describe format := by
  obtain ⟨havg, hmin, hmax⟩ := observers_agree h h' hperm hexact
  rw [ValueObserver.describe, ValueObserver.describe, havg, hmin, hmax]

theorem deviationFactor_agree (h : observer.Observes values 0) (h' : observer'.Observes values' 0)
    (hperm : values.Perm values') (hexact : Statistics.Exact values) :
    observer.getDeviationFactor = observer'.getDeviationFactor := by
  obtain ⟨havg, hmin, hmax⟩ := observers_agree h h' hperm hexact
  rw [ValueObserver.getDeviationFactor, ValueObserver.getDeviationFactor, havg, hmin, hmax]

end observer

theorem nonDriverExecutors_perm :
    (nonDriverExecutors listeners orders).Perm (nonDriverExecutors listeners orders') :=
  getExecutors_perm.filter _

theorem exact_zeros (execIds : List String) : Statistics.Exact (execIds.map fun _ => 0) := by
  rw [Statistics.Exact, List.map_map]
  have hzero : (abs ∘ fun _ : String => (0 : Int)) = fun _ => 0 := by
    funext execId
    exact abs_zero
  rw [hzero, List.sum_map_zero]
  decide

theorem executorLoad_rearranged {heuristic : ExecutorLoadHeuristic}
    (hexact : ExactLoads listeners (nonDriverExecutors listeners orders)) :
    heuristic.apply platform (applicationData listeners orders) =
      heuristic.apply platform (applicationData listeners orders') := by
  obtain ⟨metrics, hmetrics, h⟩ := @exists_observeAll _ listeners orders
  obtain ⟨metrics', hmetrics', h'⟩ := @exists_observeAll _ listeners orders'
  have hperm : ∀ metric : String → Int, ((nonDriverExecutors listeners orders).map metric).Perm
      ((nonDriverExecutors listeners orders').map metric) := fun metric => nonDriverExecutors_perm.map metric
  have hseverity : heuristic.severity metrics = heuristic.severity metrics' := by
    simp only [ExecutorLoadHeuristic.severity, ExecutorLoadHeuristic.getLooserMetricDeviationSeverity,
      ExecutorLoadHeuristic.getMetricDeviationSeverity,
      deviationFactor_agree h.peakMems h'.peakMems (hperm _) hexact.peakMems,
      deviationFactor_agree h.durations h'.durations (hperm _) hexact.durations,
      deviationFactor_agree h.inputBytes h'.inputBytes (hperm _) hexact.inputBytes,
      deviationFactor_agree h.outputBytes h'.outputBytes (hperm _) (exact_zeros _)]
  have hdata : ∀ orders, (applicationData listeners orders).executorData = getExecutorData listeners orders :=
    fun _ => rfl
  simp only [ExecutorLoadHeuristic.apply, memoryObservationThreshold, hdata, bind, Except.bind, hmetrics, hmetrics',
    describe_agree h.peakMems h'.peakMems (hperm _) hexact.peakMems,
    describe_agree h.durations h'.durations (hperm _) hexact.durations,
    describe_agree h.inputBytes h'.inputBytes (hperm _) hexact.inputBytes,
    describe_agree h.outputBytes h'.outputBytes (hperm _) (exact_zeros _), hseverity]

end executorLoad

/-- The only heuristic that adds up in doubles is the one for the load of the executors. -/
def SparkHeuristic.ExactSums (listeners : Listeners storage) (execIds : List String) : SparkHeuristic → Prop
  | executorLoad _ => ExactLoads listeners execIds
  | bestPropertiesConvention _ | memoryLimit _ | stageRuntime _ | jobRuntime _ | eventLogLimit _ => True

/-- A heuristic finds the same in whatever orders the tables of the data are walked. -/
theorem SparkHeuristic.apply_rearranged {heuristic : SparkHeuristic}
    (hexact : heuristic.ExactSums listeners (nonDriverExecutors listeners orders)) {result : Option HeuristicResult}
    (h : heuristic.apply platform (applicationData listeners orders) = .ok result) :
    ∃ result', heuristic.apply platform (applicationData listeners orders') = .ok result' ∧
      Option.Rel SameFindings result result' := by
  have hrefl := sameFindings_option_refl result
  cases heuristic with
  | bestPropertiesConvention heuristic => exact ⟨result, h, hrefl⟩
  | memoryLimit heuristic => exact ⟨result, memoryLimit_rearranged.symm.trans h, hrefl⟩
  | stageRuntime heuristic => exact stageRuntime_rearranged h
  | jobRuntime heuristic => exact jobRuntime_rearranged h
  | executorLoad heuristic => exact ⟨result, (executorLoad_rearranged hexact).symm.trans h, hrefl⟩
  | eventLogLimit conf => exact ⟨result, h, hrefl⟩

end heuristics

section analysis

open SparkFSFetcher (throttledData)

variable {storage : Storage} {orders orders' : DataOrders} {platform : Platform} {heuristics : List SparkHeuristic}
  {data data' : SparkApplicationData}

/-- Data that the heuristics and the rest of an analysis cannot tell apart, but
for the order of the lines that they write. -/
structure SameData (platform : Platform) (heuristics : List SparkHeuristic) (data data' : SparkApplicationData) :
    Prop where
  applicationId : data.applicationId = data'.applicationId
  environmentData : data.environmentData = data'.environmentData
  isEmpty : HadoopApplicationData.isEmpty data = HadoopApplicationData.isEmpty data'
  findings : ∀ heuristic ∈ heuristics, ∀ result, heuristic.apply platform data = .ok result →
    ∃ result', heuristic.apply platform data' = .ok result' ∧ Option.Rel SameFindings result result'

theorem sameData_applicationData {listeners : Listeners storage}
    (hexact : ∀ heuristic ∈ heuristics, heuristic.ExactSums listeners (nonDriverExecutors listeners orders)) :
    SameData platform heuristics (applicationData listeners orders) (applicationData listeners orders') where
  applicationId := rfl
  environmentData := rfl
  isEmpty := congrArg (true && ·) (@getExecutors_perm _ listeners orders orders').isEmpty_eq
  findings heuristic hmem _ h := SparkHeuristic.apply_rearranged (hexact heuristic hmem) h

/-- Listeners that have heard of nothing but the id of an application. -/
def silent (storage : Storage) (appId : String) : Listeners storage where
  applicationId := some appId
  sparkProperties := onlyAppId appId
  storageStatusTrackingListener := {}
  executorsListener := {}
  jobProgressListener := {}
  maxUsedMem_range _ := ⟨le_refl 0, (by decide : (0 : Int) < 2 ^ 63)⟩

theorem sameData_throttledData {appId : String} :
    SameData platform heuristics (throttledData orders appId) (throttledData orders' appId) where
  applicationId := rfl
  environmentData := rfl
  isEmpty := rfl
  findings heuristic _ result h := by
    have hexecutors : nonDriverExecutors (silent StorageStatusTrackingListener.blockSizes appId) orders = [] := by
      have hnone : (getExecutorData (silent StorageStatusTrackingListener.blockSizes appId) orders).getExecutors =
          [] := @getExecutors_throttledData orders appId
      rw [nonDriverExecutors, hnone, List.filter_nil]
    have hexact : Statistics.Exact [] := by
      rw [Statistics.Exact]
      decide
    have hsilent : heuristic.ExactSums (silent StorageStatusTrackingListener.blockSizes appId)
        (nonDriverExecutors (silent StorageStatusTrackingListener.blockSizes appId) orders) := by
      rw [hexecutors]
      cases heuristic with
      | executorLoad heuristic => exact ⟨hexact, hexact, hexact⟩
      | bestPropertiesConvention _ | memoryLimit _ | stageRuntime _ | jobRuntime _ | eventLogLimit _ => trivial
    cases heuristic with
    | eventLogLimit conf => exact ⟨result, h, sameFindings_option_refl result⟩
    | bestPropertiesConvention heuristic => exact ⟨result, h, sameFindings_option_refl result⟩
    | memoryLimit heuristic => exact SparkHeuristic.apply_rearranged hsilent h
    | stageRuntime heuristic => exact SparkHeuristic.apply_rearranged hsilent h
    | jobRuntime heuristic => exact SparkHeuristic.apply_rearranged hsilent h
    | executorLoad heuristic => exact SparkHeuristic.apply_rearranged hsilent h

variable {fetcher : SparkFSFetcher} {logs : LogPlatform storage} {appId : String}

theorem fetchData_rearranged
    (hexact : ∀ logInput listeners, logs.replay logInput = .ok listeners →
      ∀ heuristic ∈ heuristics, heuristic.ExactSums listeners (nonDriverExecutors listeners orders))
    (h : fetcher.fetchData logs orders appId = .ok data) :
    ∃ data', fetcher.fetchData logs orders' appId = .ok data' ∧ SameData platform heuristics data data' := by
  simp only [SparkFSFetcher.fetchData, bind_eq_ok_iff] at h ⊢
  obtain ⟨logDir, hlogDir, logInput, hlogInput, hdata⟩ := h
  cases logInput with
  | none =>
    obtain rfl := pure_eq_ok_iff.mp hdata
    exact ⟨throttledData orders' appId, ⟨logDir, hlogDir, none, hlogInput, rfl⟩, sameData_throttledData⟩
  | some logInput =>
    obtain ⟨listeners, hlisteners, hdata⟩ := bind_eq_ok_iff.mp hdata
    obtain rfl := pure_eq_ok_iff.mp hdata
    exact ⟨applicationData listeners orders', ⟨logDir, hlogDir, some logInput, hlogInput,
      bind_eq_ok_iff.mpr ⟨listeners, hlisteners, rfl⟩⟩,
      sameData_applicationData (hexact logInput listeners hlisteners)⟩

theorem applyHeuristics_sameData (hdata : SameData platform heuristics data data') {results : List HeuristicResult}
    (h : AnalyticJob.applyHeuristics data (heuristics.map (SparkHeuristic.apply platform)) = .ok results) :
    ∃ results', AnalyticJob.applyHeuristics data' (heuristics.map (SparkHeuristic.apply platform)) = .ok results' ∧
      List.Forall₂ SameFindings results results' := by
  have hfindings := hdata.findings
  clear hdata
  induction heuristics generalizing results with
  | nil =>
    cases h
    exact ⟨[], rfl, .nil⟩
  | cons heuristic heuristics ih =>
    obtain ⟨hfirst, hrest⟩ := List.forall_mem_cons.mp hfindings
    simp only [List.map_cons, AnalyticJob.applyHeuristics, bind_eq_ok_iff, pure_eq_ok_iff] at h ⊢
    obtain ⟨result, hresult, rest, hrestOk, rfl⟩ := h
    obtain ⟨result', hresult', hsame⟩ := hfirst result hresult
    obtain ⟨rest', hrestOk', hsames⟩ := ih hrestOk hrest
    refine ⟨result'.toList ++ rest', ⟨result', hresult', rest', hrestOk', rfl⟩, ?_⟩
    cases hsame with
    | none => exact hsames
    | some hsame => exact .cons hsame hsames

/-- Rows of results that find the same. -/
def SameRow (row row' : AppHeuristicResult) : Prop :=
  ∃ result result', SameFindings result result' ∧ row = result.toAppHeuristicResult ∧
    row' = result'.toAppHeuristicResult

/-- Results that are stored the same but for the order of the lines in the
details of their rows. -/
def SameStored (result result' : AppResult) : Prop :=
  ∃ rows, result' = { result with yarnAppHeuristicResults := rows } ∧
    List.Forall₂ SameRow result.yarnAppHeuristicResults rows

section toAppResult

variable {results results' : List HeuristicResult}

theorem map_eq_of_sameFindings {α : Type} {field : HeuristicResult → α}
    (hfield : ∀ result result', SameFindings result result' → field result = field result')
    (h : List.Forall₂ SameFindings results results') : results.map field = results'.map field := by
  rw [← List.forall₂_eq_eq_eq, List.forall₂_map_left_iff, List.forall₂_map_right_iff]
  exact h.imp hfield

theorem toAppResult_sameStored (job : AnalyticJob) (jobType : Option JobType)
    (h : List.Forall₂ SameFindings results results') :
    SameStored (job.toAppResult results jobType) (job.toAppResult results' jobType) := by
  have hseverity : (job.toAppResult results' jobType).severity = (job.toAppResult results jobType).severity := by
    rw [AnalyticJob.toAppResult_severity, AnalyticJob.toAppResult_severity,
      map_eq_of_sameFindings (fun _ _ hsame => hsame.severity) h]
  have hscore : (job.toAppResult results' jobType).score = (job.toAppResult results jobType).score := by
    rw [AnalyticJob.toAppResult_score, AnalyticJob.toAppResult_score,
      map_eq_of_sameFindings (fun _ _ hsame => hsame.score) h]
  refine ⟨(job.toAppResult results' jobType).yarnAppHeuristicResults, ?_, ?_⟩
  · unfold AnalyticJob.toAppResult at hseverity hscore ⊢
    simp only [] at hseverity hscore
    simp only [hseverity, hscore]
  · rw [AnalyticJob.toAppResult_rows, AnalyticJob.toAppResult_rows, List.forall₂_map_left_iff,
      List.forall₂_map_right_iff]
    exact h.imp fun result result' hsame => ⟨result, result', hsame, rfl, rfl⟩

end toAppResult

section loadInfo

variable (result : AppResult) (rows : List AppHeuristicResult)

/-- What a scheduler says does not depend on the rows that a result has. -/
theorem loadSchedulerInfo_rows (scheduler : Scheduler) :
    InfoExtractor.loadSchedulerInfo { result with yarnAppHeuristicResults := rows } scheduler =
        { InfoExtractor.loadSchedulerInfo result scheduler with yarnAppHeuristicResults := rows } ∧
      (InfoExtractor.loadSchedulerInfo result scheduler).yarnAppHeuristicResults =
        result.yarnAppHeuristicResults := by
  simp only [InfoExtractor.loadSchedulerInfo]
  split
  · exact ⟨rfl, rfl⟩
  · exact ⟨rfl, rfl⟩

variable {result} {result' loaded : AppResult} {configured : List (SchedulerKind × SchedulerConfigurationData)}

theorem loadInfo_sameStored (hdata : SameData platform heuristics data data') (h : SameStored result result')
    (hloaded : InfoExtractor.loadInfo (sparkSetup configured) result (some data) = .ok loaded) :
    ∃ loaded', InfoExtractor.loadInfo (sparkSetup configured) result' (some data') = .ok loaded' ∧
      SameStored loaded loaded' := by
  obtain ⟨rows, rfl, hrows⟩ := h
  have hproperties : InfoExtractor.retrieveSparkProperties data = InfoExtractor.retrieveSparkProperties data' := by
    rw [InfoExtractor.retrieveSparkProperties, InfoExtractor.retrieveSparkProperties, hdata.environmentData]
  have happId : HadoopApplicationData.getAppId data = HadoopApplicationData.getAppId data' := hdata.applicationId
  simp only [InfoExtractor.loadInfo, sparkSetup, hproperties, happId, bind_eq_ok_iff] at hloaded ⊢
  obtain ⟨properties, hproperties, scheduler, hscheduler, hloaded⟩ := hloaded
  cases scheduler with
  | none =>
    obtain rfl := pure_eq_ok_iff.mp hloaded
    exact ⟨_, ⟨properties, hproperties, none, hscheduler, rfl⟩, rows, rfl, hrows⟩
  | some scheduler =>
    obtain rfl := pure_eq_ok_iff.mp hloaded
    obtain ⟨hload, hkept⟩ := loadSchedulerInfo_rows result rows scheduler
    exact ⟨_, ⟨properties, hproperties, some scheduler, hscheduler, rfl⟩, rows, hload, hkept ▸ hrows⟩

end loadInfo

variable {context context' : ElephantContext SparkApplicationData} {job : AnalyticJob} {jobTypes : List JobType}

theorem analyze_sameData {fetchData : ElephantFetcher SparkApplicationData}
    (hconfigured : SparkConfigured context job.type fetchData platform heuristics jobTypes)
    {fetchData' : ElephantFetcher SparkApplicationData}
    (hconfigured' : SparkConfigured context' job.type fetchData' platform heuristics jobTypes)
    (hdata : SameData platform heuristics data data') {results : List HeuristicResult}
    (h : AnalyticJob.analyze context job (some data) = .ok results) :
    ∃ results', AnalyticJob.analyze context' job (some data') = .ok results' ∧
      List.Forall₂ SameFindings results results' := by
  simp only [AnalyticJob.analyze, hdata.isEmpty, hconfigured.heuristics, hconfigured'.heuristics] at h ⊢
  split at h
  · obtain rfl := Except.ok.inj h
    rename_i hempty
    rw [if_pos hempty]
    exact ⟨_, rfl, .cons (.refl _) .nil⟩
  · rename_i hempty
    rw [if_neg hempty]
    exact applyHeuristics_sameData hdata h

end analysis

/-- Two jobs that have failed, one after the other. -/
private def bothFailed : JobProgressListener where
  jobIdToData := .putAll .empty
    [(0, { jobId := 0, stageIds := [0], numFailedTasks := 4 }), (1, { jobId := 1, stageIds := [1], numFailedTasks := 4 })]
  stageIdToData := .putAll .empty [(⟨0, 0⟩, { numFailedTasks := 4 }), (⟨1, 0⟩, { numFailedTasks := 4 })]
  stageIdToInfo := .putAll .empty
    [(0, { stageId := 0, attemptId := 0, name := some "count" }), (1, { stageId := 1, attemptId := 0, name := some "save" })]
  failedJobs := [{ jobId := 0, stageIds := [0], numFailedTasks := 4 }, { jobId := 1, stageIds := [1], numFailedTasks := 4 }]

private def smallLogPlatform : LogPlatform StorageStatusTrackingListener.blockSizes where
  readJsonNode _ := .error (.io "")
  hadoopConf _ := none
  sparkConf _ := none
  getPath path := .ok (some path)
  fileSystem _ := ⟨fun _ => .ok (some ⟨false, 1000⟩), fun _ => .ok []⟩
  resolve parent child := parent ++ "/" ++ child
  isCodec _ := false
  replay _ := .ok (listenersOf bothFailed)

private def backwards : DataOrders :=
  ⟨⟨List.reverse, List.reverse_perm⟩, ⟨List.reverse, List.reverse_perm⟩, ⟨List.reverse, List.reverse_perm⟩⟩

private def jobsContext (orders : DataOrders) : ElephantContext SparkApplicationData where
  typeToFetcher _ := some (SparkFSFetcher.withoutParams.elephantFetcher smallLogPlatform orders)
  typeToHeuristics _ := some ([.jobRuntime jobRuntime].map (SparkHeuristic.apply .plain))
  appTypeToJobTypes _ := some []
  nameToType _ := some APPLICATION_TYPE
  toUpperCase name := name

private def failedJob : AnalyticJob where
  type := APPLICATION_TYPE
  appId := "application_1"
  name := "job"
  queueName := "default"
  user := "user"
  trackingUrl := none
  startTime := 1000
  finishTime := 2000

example : (getJobProgressData (listenersOf bothFailed) .insertion).getFailedJobs = [0, 1] ∧
    (getJobProgressData (listenersOf bothFailed) backwards).getFailedJobs = [1, 0] := ⟨rfl, rfl⟩

end drelephant.spark
