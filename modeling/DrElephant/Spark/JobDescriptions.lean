import DrElephant.Spark.Heuristics.StageRuntime
import DrElephant.Spark.SparkDataCollection

open collections drelephant.analysis ieee java.lang org.apache.spark.deploy.history
  org.apache.spark.deploy.history.SparkDataCollection org.apache.spark.storage

namespace drelephant.spark

/-- The largest id of the stages, -1 for none. -/
def latestStage (stageIds : List Int) : Int := stageIds.foldl max (-1)

section description

variable {data : SparkJobProgressData} {info : JobInfo} {jobId : Int}

/-- A job without stages has no name and needs none; the name of another is that
of the first attempt of its latest stage, which has to be there. -/
def Described (data : SparkJobProgressData) (stageIds : List Int) : Prop :=
  latestStage stageIds = -1 ∨ data.stageIdToInfo.containsKey ⟨latestStage stageIds, 0⟩ = true

/-- The name that a job goes by. -/
def jobName (data : SparkJobProgressData) (jobId : Int) : Option String :=
  (data.getJobInfo jobId).bind fun info =>
    if latestStage info.stageIds = -1 then none
    else (data.getStageInfo (latestStage info.stageIds) 0).bind StageInfo.name

theorem getJobDescription_of_described (hinfo : data.getJobInfo jobId = some info)
    (h : Described data info.stageIds) : data.getJobDescription jobId = .ok (jobName data jobId) := by
  have hget : data.jobIdToInfo.get? jobId = some info := hinfo
  have hname : jobName data jobId = if latestStage info.stageIds = -1 then none
      else (data.getStageInfo (latestStage info.stageIds) 0).bind StageInfo.name := by
    rw [jobName, hinfo, Option.bind_some]
  rw [hname, SparkJobProgressData.getJobDescription, hget]
  by_cases hnone : latestStage info.stageIds = -1
  · rw [if_pos hnone]
    rw [latestStage] at hnone
    simp [hnone, bind, Except.bind, pure, Except.pure]
  · have hkey := h.resolve_left hnone
    rw [← OrderedMap.isSome_get?, Option.isSome_iff_exists] at hkey
    obtain ⟨stage, hstage⟩ := hkey
    rw [if_neg hnone, SparkJobProgressData.getStageInfo, hstage]
    rw [latestStage] at hnone hstage
    simp [hnone, hstage, bind, Except.bind, pure, Except.pure]

theorem described_of_getJobDescription (hinfo : data.getJobInfo jobId = some info)
    {description : Option String} (h : data.getJobDescription jobId = .ok description) :
    Described data info.stageIds := by
  have hget : data.jobIdToInfo.get? jobId = some info := hinfo
  simp only [SparkJobProgressData.getJobDescription, hget, dereference_some, bind_eq_ok_iff,
    Except.ok.injEq, exists_eq_left'] at h
  by_cases hnone : latestStage info.stageIds = -1
  · exact .inl hnone
  · rw [latestStage] at hnone
    rw [if_neg hnone, bind_eq_ok_iff] at h
    obtain ⟨stage, hstage, -⟩ := h
    rw [dereference_eq_ok_iff] at hstage
    refine .inr ?_
    rw [← OrderedMap.isSome_get?, latestStage, hstage]
    rfl

end description

namespace JobRuntimeHeuristic

variable (heuristic : JobRuntimeHeuristic) (platform : Platform) (data : SparkJobProgressData)

def jobFailureRate (jobId : Int) : Binary64 := (data.getJobInfo jobId).elim (.ofInt 0) JobInfo.getFailureRate

/-- A job with a high failure rate, one that is worse than moderate. -/
def isHigh (jobId : Int) : Bool :=
  decide (Severity.MODERATE.getValue <
    (heuristic.getSingleJobFailureRateSeverity (jobFailureRate data jobId)).getValue)

/-- What is listed of a job with a high failure rate. -/
def highFailureRateEntry (jobId : Int) : Option String :=
  some ((jobName data jobId).getD "null" ++ " (task failure rate:" ++
    platform.threeDecimals (jobFailureRate data jobId) ++ ")")

variable {heuristic platform data} {info : JobInfo} {jobId : Int} {failures : JobFailures}

variable (platform) in
theorem addJob_of_described (hinfo : data.getJobInfo jobId = some info)
    (h : heuristic.isHigh data jobId = true → Described data info.stageIds) (failures : JobFailures) :
    ∃ endSeverity, heuristic.addJob platform data failures jobId = .ok
      { endSeverity
        highFailureRateJobs := failures.highFailureRateJobs ++
          ([jobId].filter (heuristic.isHigh data)).map (highFailureRateEntry platform data) } := by
  have hrate : jobFailureRate data jobId = info.getFailureRate := by rw [jobFailureRate, hinfo]; rfl
  rw [addJob, hinfo]
  cases hhigh : heuristic.isHigh data jobId with
  | true =>
    have hdescription := getJobDescription_of_described hinfo (h hhigh)
    rw [isHigh, hrate, decide_eq_true_eq] at hhigh
    simp [hhigh, hdescription, isHigh, highFailureRateEntry, hrate, bind, Except.bind, pure, Except.pure]
  | false =>
    rw [isHigh, hrate, decide_eq_false_iff_not] at hhigh
    simp [hhigh, isHigh, hrate, bind, Except.bind, pure, Except.pure]

theorem described_of_addJob (hinfo : data.getJobInfo jobId = some info) {result : JobFailures}
    (h : heuristic.addJob platform data failures jobId = .ok result)
    (hhigh : heuristic.isHigh data jobId = true) : Described data info.stageIds := by
  have hrate : jobFailureRate data jobId = info.getFailureRate := by rw [jobFailureRate, hinfo]; rfl
  rw [isHigh, hrate, decide_eq_true_eq] at hhigh
  simp only [addJob, hinfo, dereference_some, bind_eq_ok_iff, Except.ok.injEq, exists_eq_left',
    gt_iff_lt, if_pos hhigh] at h
  obtain ⟨description, hdescription, -⟩ := h
  exact described_of_getJobDescription hinfo hdescription

variable (platform) in
/-- The loop gets through jobs whose names can be looked up as far as they are
needed, and lists those with a high failure rate. -/
theorem foldlM_addJob {jobIds : List Int} (h : ∀ jobId ∈ jobIds, ∃ info, data.getJobInfo jobId = some info ∧
      (heuristic.isHigh data jobId = true → Described data info.stageIds)) (failures : JobFailures) :
    ∃ endSeverity, jobIds.foldlM (heuristic.addJob platform data) failures = .ok
      { endSeverity
        highFailureRateJobs := failures.highFailureRateJobs ++
          (jobIds.filter (heuristic.isHigh data)).map (highFailureRateEntry platform data) } := by
  induction jobIds generalizing failures with
  | nil => exact ⟨failures.endSeverity, by simp [pure, Except.pure]⟩
  | cons jobId jobIds ih =>
    obtain ⟨⟨info, hinfo, hdescribed⟩, hrest⟩ := List.forall_mem_cons.mp h
    obtain ⟨severity, hstep⟩ := addJob_of_described platform hinfo hdescribed failures
    obtain ⟨endSeverity, hrun⟩ := ih hrest
      { endSeverity := severity
        highFailureRateJobs := failures.highFailureRateJobs ++
          ([jobId].filter (heuristic.isHigh data)).map (highFailureRateEntry platform data) }
    refine ⟨endSeverity, ?_⟩
    rw [List.foldlM_cons, hstep]
    refine hrun.trans ?_
    rw [List.append_assoc, ← List.map_append, ← List.filter_append, List.singleton_append]

/-- The lists of a report over jobs whose names can be looked up as far as they are needed. -/
theorem exists_apply_eq {data : SparkApplicationData}
    (hcompleted : ∀ jobId ∈ data.jobProgressData.getCompletedJobs, ∃ info,
      data.jobProgressData.getJobInfo jobId = some info ∧
        (heuristic.isHigh data.jobProgressData jobId = true → Described data.jobProgressData info.stageIds))
    (hfailed : ∀ jobId ∈ data.jobProgressData.getFailedJobs, ∃ info,
      data.jobProgressData.getJobInfo jobId = some info ∧ Described data.jobProgressData info.stageIds) :
    ∃ result, heuristic.apply platform data = .ok (some result) ∧
      result.detail "Spark failed jobs list" = some (getNamesAsString
        (data.jobProgressData.getFailedJobs.map (jobName data.jobProgressData))) ∧
      result.detail "Spark jobs with high task failure rate" = some (getNamesAsString
        ((data.jobProgressData.getCompletedJobs.filter (heuristic.isHigh data.jobProgressData)).map
          (highFailureRateEntry platform data.jobProgressData))) := by
  have hdescriptions : data.jobProgressData.getFailedJobDescriptions =
      .ok (data.jobProgressData.getFailedJobs.map (jobName data.jobProgressData)) := by
    refine mapM_eq_ok fun jobId hjobId => ?_
    obtain ⟨info, hinfo, hdescribed⟩ := hfailed jobId hjobId
    exact getJobDescription_of_described hinfo hdescribed
  obtain ⟨endSeverity, hloop⟩ := foldlM_addJob platform hcompleted
    { endSeverity := Severity.max .NONE
        (heuristic.getAvgJobFailureRateSeverity data.jobProgressData.getJobFailureRate) }
  refine ⟨heuristic.report platform data.jobProgressData
    { endSeverity
      highFailureRateJobs := (data.jobProgressData.getCompletedJobs.filter
        (heuristic.isHigh data.jobProgressData)).map (highFailureRateEntry platform data.jobProgressData) }
    (data.jobProgressData.getFailedJobs.map (jobName data.jobProgressData)), ?_, rfl, rfl⟩
  rw [JobRuntimeHeuristic.apply]
  exact bind_eq_ok_iff.mpr ⟨_, hloop, bind_eq_ok_iff.mpr ⟨_, hdescriptions, rfl⟩⟩

/-- When there is a report the names that it needs could be looked up. -/
theorem described_of_apply {data : SparkApplicationData} {result : Option HeuristicResult}
    (h : heuristic.apply platform data = .ok result) {jobId : Int} {info : JobInfo}
    (hinfo : data.jobProgressData.getJobInfo jobId = some info)
    (hjobId : jobId ∈ data.jobProgressData.getFailedJobs ∨
      jobId ∈ data.jobProgressData.getCompletedJobs ∧ heuristic.isHigh data.jobProgressData jobId = true) :
    Described data.jobProgressData info.stageIds := by
  simp only [JobRuntimeHeuristic.apply, bind_eq_ok_iff] at h
  obtain ⟨failures, hfailures, descriptions, hdescriptions, -⟩ := h
  rcases hjobId with hfailed | ⟨hcompleted, hhigh⟩
  · obtain ⟨description, -, hdescription⟩ := exists_ok_of_mapM hdescriptions jobId hfailed
    exact described_of_getJobDescription hinfo hdescription
  · obtain ⟨before, after, hround⟩ := exists_ok_of_foldlM hfailures jobId hcompleted
    exact described_of_addJob hinfo hround hhigh

end JobRuntimeHeuristic

section analysis

/-- The analysis of the jobs and of the stages returns, and the jobs that have
failed and those with a high failure rate are listed. -/
structure AnalysisReturns (job : JobRuntimeHeuristic) (stage : StageRuntimeHeuristic) (platform : Platform)
    (listener : JobProgressListener) (data : SparkApplicationData) : Prop where
  stageRuntime : ∃ result, stage.apply platform data = .ok (some result)
  jobRuntime : ∃ result, job.apply platform data = .ok (some result) ∧
    result.detail "Spark failed jobs list" = some (getNamesAsString
      (data.jobProgressData.getFailedJobs.map (jobName data.jobProgressData))) ∧
    result.detail "Spark jobs with high task failure rate" = some (getNamesAsString
      ((data.jobProgressData.getCompletedJobs.filter (job.isHigh data.jobProgressData)).map
        (JobRuntimeHeuristic.highFailureRateEntry platform data.jobProgressData)))
  failedJobs : ∀ failed ∈ listener.failedJobs, failed.jobId ∈ data.jobProgressData.getFailedJobs
  completedJobs : ∀ completed ∈ listener.completedJobs,
    completed.jobId ∈ data.jobProgressData.getCompletedJobs

/-- A job has no stages, or the listener has kept the first attempt of its latest stage. -/
def LatestStageKept (listener : JobProgressListener) (job : JobUIData) : Prop :=
  latestStage job.stageIds = -1 ∨ listener.stageIdToData.containsKey ⟨latestStage job.stageIds, 0⟩ = true

def HasHighFailureRate (heuristic : JobRuntimeHeuristic) (job : JobUIData) : Prop :=
  Severity.MODERATE.getValue <
    (heuristic.getSingleJobFailureRateSeverity (getFailureRate job.numCompletedTasks job.numFailedTasks)).getValue

variable {storage : Storage} {listeners : Listeners storage} {orders : DataOrders}

theorem described_iff {job : JobUIData} :
    Described (getJobProgressData listeners orders) (toJobInfo job).stageIds ↔
      LatestStageKept listeners.jobProgressListener job := by
  rw [Described, LatestStageKept, ← OrderedMap.isSome_get?, get?_stageIdToInfo, Option.isSome_map,
    OrderedMap.isSome_get?]
  rfl

theorem isHigh_iff {heuristic : JobRuntimeHeuristic} {jobId : Int} {job : JobUIData}
    (hjob : listeners.jobProgressListener.jobIdToData.get? jobId = some job) :
    heuristic.isHigh (getJobProgressData listeners orders) jobId = true ↔
      HasHighFailureRate heuristic job := by
  rw [JobRuntimeHeuristic.isHigh, decide_eq_true_eq, JobRuntimeHeuristic.jobFailureRate,
    SparkJobProgressData.getJobInfo, get?_jobIdToInfo, hjob]
  rfl

theorem getJobInfo_of_get? {jobId : Int} {job : JobUIData}
    (hjob : listeners.jobProgressListener.jobIdToData.get? jobId = some job) :
    (getJobProgressData listeners orders).getJobInfo jobId = some (toJobInfo job) := by
  rw [SparkJobProgressData.getJobInfo, get?_jobIdToInfo, hjob]
  rfl

theorem mem_getFailedJobs_iff {jobId : Int} : jobId ∈ (getJobProgressData listeners orders).getFailedJobs ↔
    ∃ failed ∈ listeners.jobProgressListener.failedJobs, failed.jobId = jobId := mem_iterate_toSet

theorem mem_getCompletedJobs_iff {jobId : Int} :
    jobId ∈ (getJobProgressData listeners orders).getCompletedJobs ↔
      ∃ completed ∈ listeners.jobProgressListener.completedJobs, completed.jobId = jobId := mem_iterate_toSet

/-- A completed stage is known by its attempt. -/
theorem exists_getStageInfo {id : StageAttemptId}
    (hstages : ∀ info ∈ listeners.jobProgressListener.completedStages,
      listeners.jobProgressListener.stageIdToData.containsKey ⟨info.stageId, info.attemptId⟩ = true)
    (hid : id ∈ (getJobProgressData listeners orders).getCompletedStages) :
    ∃ info, (getJobProgressData listeners orders).getStageInfo id.stageId id.attemptId = some info := by
  obtain ⟨info, hmem, rfl⟩ := mem_iterate_toSet.mp hid
  rw [← Option.isSome_iff_exists]
  refine (congrArg Option.isSome (get?_stageIdToInfo _)).trans ?_
  rw [Option.isSome_map, OrderedMap.isSome_get?]
  exact hstages info hmem

theorem stageRuntime_returns (stage : StageRuntimeHeuristic) (platform : Platform)
    {data : SparkApplicationData}
    (h : ∀ id ∈ data.jobProgressData.getCompletedStages,
      ∃ info, data.jobProgressData.getStageInfo id.stageId id.attemptId = some info) :
    ∃ result, stage.apply platform data = .ok (some result) := by
  have hround : ∀ id ∈ data.jobProgressData.getCompletedStages, ∀ problems,
      ∃ next, stage.addStage platform data.jobProgressData problems id = .ok next := by
    intro id hid problems
    obtain ⟨info, hinfo⟩ := h id hid
    rw [StageRuntimeHeuristic.addStage, hinfo]
    exact ⟨_, rfl⟩
  obtain ⟨problems, hproblems⟩ := exists_foldlM_eq_ok hround
    { endSeverity := Severity.max .NONE
        (stage.getStageFailureRateSeverity data.jobProgressData.getStageFailureRate) }
  refine ⟨stage.report platform data.jobProgressData problems, ?_⟩
  rw [StageRuntimeHeuristic.apply, hproblems]
  rfl

/-- The analysis returns, with every job listed that is to be listed, if and
only if the listener has kept the first attempt of the latest stage of each of
these jobs. -/
theorem analysisReturns_iff (job : JobRuntimeHeuristic) (stage : StageRuntimeHeuristic) (platform : Platform)
    (hjobs : ∀ data, data ∈ listeners.jobProgressListener.completedJobs ∨
        data ∈ listeners.jobProgressListener.failedJobs →
      listeners.jobProgressListener.jobIdToData.containsKey data.jobId = true)
    (hstages : ∀ info ∈ listeners.jobProgressListener.completedStages,
      listeners.jobProgressListener.stageIdToData.containsKey ⟨info.stageId, info.attemptId⟩ = true) :
    AnalysisReturns job stage platform listeners.jobProgressListener (applicationData listeners orders) ↔
      (∀ failed ∈ listeners.jobProgressListener.failedJobs,
        ∀ data ∈ listeners.jobProgressListener.jobIdToData.get? failed.jobId,
          LatestStageKept listeners.jobProgressListener data) ∧
      ∀ completed ∈ listeners.jobProgressListener.completedJobs,
        ∀ data ∈ listeners.jobProgressListener.jobIdToData.get? completed.jobId,
          HasHighFailureRate job data → LatestStageKept listeners.jobProgressListener data := by
  have hentry : ∀ data, data ∈ listeners.jobProgressListener.completedJobs ∨
      data ∈ listeners.jobProgressListener.failedJobs →
      ∃ entry, listeners.jobProgressListener.jobIdToData.get? data.jobId = some entry := by
    intro data hmem
    rw [← Option.isSome_iff_exists, OrderedMap.isSome_get?]
    exact hjobs data hmem
  constructor
  · intro h
    obtain ⟨result, hresult, -⟩ := h.jobRuntime
    constructor
    · intro failed hfailed data hget
      exact described_iff.mp (JobRuntimeHeuristic.described_of_apply hresult (getJobInfo_of_get? hget)
        (.inl (h.failedJobs failed hfailed)))
    · intro completed hcompleted data hget hhigh
      exact described_iff.mp (JobRuntimeHeuristic.described_of_apply hresult (getJobInfo_of_get? hget)
        (.inr ⟨h.completedJobs completed hcompleted, (isHigh_iff hget).mpr hhigh⟩))
  · rintro ⟨hfailed, hcompleted⟩
    have hcompletedInfo : ∀ jobId ∈ (getJobProgressData listeners orders).getCompletedJobs, ∃ info,
        (getJobProgressData listeners orders).getJobInfo jobId = some info ∧
          (job.isHigh (getJobProgressData listeners orders) jobId = true →
            Described (getJobProgressData listeners orders) info.stageIds) := by
      intro jobId hjobId
      obtain ⟨completed, hmem, rfl⟩ := mem_getCompletedJobs_iff.mp hjobId
      obtain ⟨data, hget⟩ := hentry completed (.inl hmem)
      exact ⟨_, getJobInfo_of_get? hget, fun high => described_iff.mpr
        (hcompleted completed hmem data hget ((isHigh_iff hget).mp high))⟩
    have hfailedInfo : ∀ jobId ∈ (getJobProgressData listeners orders).getFailedJobs, ∃ info,
        (getJobProgressData listeners orders).getJobInfo jobId = some info ∧
          Described (getJobProgressData listeners orders) info.stageIds := by
      intro jobId hjobId
      obtain ⟨failed, hmem, rfl⟩ := mem_getFailedJobs_iff.mp hjobId
      obtain ⟨data, hget⟩ := hentry failed (.inr hmem)
      exact ⟨_, getJobInfo_of_get? hget, described_iff.mpr (hfailed failed hmem data hget)⟩
    refine ⟨stageRuntime_returns stage platform fun id => exists_getStageInfo hstages,
      JobRuntimeHeuristic.exists_apply_eq hcompletedInfo hfailedInfo, ?_, ?_⟩
    · exact fun failed hmem => mem_getFailedJobs_iff.mpr ⟨failed, hmem, rfl⟩
    · exact fun completed hmem => mem_getCompletedJobs_iff.mpr ⟨completed, hmem, rfl⟩

/-- Listeners of jobs whose properties and executors are not looked at. -/
def listenersOf (jobProgressListener : JobProgressListener) : Listeners StorageStatusTrackingListener.blockSizes where
  applicationId := none
  sparkProperties _ := none
  storageStatusTrackingListener := {}
  executorsListener := {}
  jobProgressListener
  maxUsedMem_range _ := ⟨le_refl 0, (by decide : (0 : Int) < 2 ^ 63)⟩

def halves : Severity.Limits := ⟨.finite (1 / 8), .finite (1 / 4), .finite (1 / 2), .finite (3 / 4)⟩

def jobRuntime : JobRuntimeHeuristic := ⟨⟨"Spark Job Runtime", "JobRuntimeHeuristic"⟩, halves, halves⟩

def stageRuntime : StageRuntimeHeuristic :=
  ⟨⟨"Spark Stage Runtime", "StageRuntimeHeuristic"⟩, halves, halves, halves⟩

/-- Two completed jobs, most tasks of the second one having failed, and one that
has failed in its second stage, which was tried twice. -/
def bothAttempts : JobProgressListener where
  jobIdToData := .putAll .empty
    [(0, { jobId := 0, stageIds := [0], numCompletedTasks := 2 }),
      (1, { jobId := 1, stageIds := [0, 1], numFailedTasks := 4 }),
      (2, { jobId := 2, stageIds := [2], numCompletedTasks := 1, numFailedTasks := 3 })]
  stageIdToData := .putAll .empty
    [(⟨0, 0⟩, { numCompleteTasks := 2 }), (⟨1, 0⟩, { numFailedTasks := 2 }), (⟨1, 1⟩, { numFailedTasks := 2 }),
      (⟨2, 0⟩, { numCompleteTasks := 1, numFailedTasks := 3 })]
  completedJobs := [{ jobId := 0, stageIds := [0], numCompletedTasks := 2 },
    { jobId := 2, stageIds := [2], numCompletedTasks := 1, numFailedTasks := 3 }]
  failedJobs := [{ jobId := 1, stageIds := [0, 1], numFailedTasks := 4 }]
  completedStages := [{ stageId := 0, attemptId := 0, name := some "count" }]

theorem analysisReturns_iff_bothAttempts :
    (∃ data ∈ bothAttempts.completedJobs, HasHighFailureRate jobRuntime data) ∧
    AnalysisReturns jobRuntime stageRuntime .plain bothAttempts
      (applicationData (listenersOf bothAttempts) .insertion) := by
  have hhigh : HasHighFailureRate jobRuntime
      { jobId := 2, stageIds := [2], numCompletedTasks := 1, numFailedTasks := 3 } := by
    rw [HasHighFailureRate]
    decide +kernel
  refine ⟨⟨_, List.mem_cons_of_mem _ (List.mem_singleton_self _), hhigh⟩, ?_⟩
  refine (@analysisReturns_iff _ (listenersOf bothAttempts) _ jobRuntime stageRuntime .plain
    ?_ ?_).mpr ⟨?_, ?_⟩
  · rintro data (hdata | hdata)
    · rcases List.mem_pair.mp hdata with rfl | rfl <;> rfl
    · cases List.mem_singleton.mp hdata
      rfl
  · intro info hinfo
    cases List.mem_singleton.mp hinfo
    rfl
  · intro failed hfailed data hdata
    cases List.mem_singleton.mp hfailed
    cases Option.mem_some.mp hdata
    exact .inr rfl
  · intro completed hcompleted data hdata _
    rcases List.mem_pair.mp hcompleted with rfl | rfl
    · cases Option.mem_some.mp hdata
      exact .inr rfl
    · cases Option.mem_some.mp hdata
      exact .inr rfl

/-- Of the second stage only the second attempt is kept. -/
def secondAttempt : JobProgressListener :=
  { bothAttempts with
    completedJobs := []
    stageIdToData := .putAll .empty [(⟨0, 0⟩, { numCompleteTasks := 2 }), (⟨1, 1⟩, { numFailedTasks := 2 })] }

/-- The analysis of the jobs fails though every job and every completed stage is there. -/
theorem analysis_secondAttempt :
    (∀ data, data ∈ secondAttempt.completedJobs ∨ data ∈ secondAttempt.failedJobs →
      secondAttempt.jobIdToData.containsKey data.jobId = true) ∧
    (∀ info ∈ secondAttempt.completedStages,
      secondAttempt.stageIdToData.containsKey ⟨info.stageId, info.attemptId⟩ = true) ∧
    jobRuntime.apply .plain (applicationData (listenersOf secondAttempt) .insertion) =
      .error .nullPointer := by
  refine ⟨?_, ?_, rfl⟩
  · rintro data (hdata | hdata)
    · cases hdata
    · cases List.mem_singleton.mp hdata
      rfl
  · intro info hinfo
    cases List.mem_singleton.mp hinfo
    rfl

end analysis

end drelephant.spark
