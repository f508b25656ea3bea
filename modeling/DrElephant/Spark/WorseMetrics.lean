import DrElephant.Spark.TableOrder

open collections drelephant.analysis drelephant.math drelephant.schedulers drelephant.util ieee java.lang machine
  models org.apache.spark.deploy.history org.apache.spark.deploy.history.SparkDataCollection
  org.apache.spark.storage

namespace drelephant.spark

section rates

/-- No fewer that failed and no more that completed. Counts are ints. -/
structure FailsMore (completed failed completed' failed' : Int) : Prop where
  noMoreCompleted : 0 ≤ completed' ∧ completed' ≤ completed
  noFewerFailed : 0 ≤ failed ∧ failed ≤ failed'
  fits : completed + failed < 2 ^ 31
  fits' : completed' + failed' < 2 ^ 31

variable {completed failed completed' failed' : Int}

/-- The rate is the double next to the share. -/
theorem getFailureRate_eq (hcompleted : 0 ≤ completed) (hfailed : 0 ≤ failed)
    (hfits : completed + failed < 2 ^ 31) :
    getFailureRate completed failed = .ofRat (failed / (completed + failed : Int)) := by
  rw [getFailureRate, wrap32_eq_self (by omega) hfits]
  by_cases hnone : completed + failed = 0
  · rw [if_pos hnone, hnone, Int.cast_zero, div_zero]
    rfl
  · have hnumber : ((completed + failed : Int) : ℚ) ≠ 0 := by exact_mod_cast hnone
    rw [if_neg hnone, Binary64.mul_ofInt_one (by omega) (by omega),
      Binary64.ofInt_eq_finite (abs_le.mpr ⟨by omega, by omega⟩),
      Binary64.ofInt_eq_finite (abs_le.mpr ⟨by omega, by omega⟩), Binary64.div, if_neg hnumber]

theorem FailsMore.share_le (h : FailsMore completed failed completed' failed') :
    (failed : ℚ) / (completed + failed : Int) ≤ failed' / (completed' + failed' : Int) := by
  obtain ⟨hcompleted', hcompleted⟩ := h.noMoreCompleted
  obtain ⟨hfailed, hfailed'⟩ := h.noFewerFailed
  rcases eq_or_lt_of_le hfailed with hzero | hpositive
  · rw [← hzero, Int.cast_zero, zero_div]
    exact div_nonneg (by exact_mod_cast (by omega : 0 ≤ failed'))
      (by exact_mod_cast (by omega : 0 ≤ completed' + failed'))
  · rw [div_le_div_iff₀ (by exact_mod_cast (by omega : 0 < completed + failed))
      (by exact_mod_cast (by omega : 0 < completed' + failed'))]
    have hcross : failed * (completed' + failed') ≤ failed' * (completed + failed) := by
      have hproduct : failed * completed' ≤ failed' * completed :=
        Int.mul_le_mul hfailed' hcompleted hcompleted' (by omega)
      rw [mul_add, mul_add, mul_comm failed' failed]
      omega
    exact_mod_cast hcross

/-- More failures are no lower rate. -/
theorem FailsMore.rate_le (h : FailsMore completed failed completed' failed') :
    (getFailureRate completed failed).le (getFailureRate completed' failed') = true := by
  obtain ⟨hcompleted', hcompleted⟩ := h.noMoreCompleted
  obtain ⟨hfailed, hfailed'⟩ := h.noFewerFailed
  rw [getFailureRate_eq (by omega) hfailed h.fits, getFailureRate_eq hcompleted' (by omega) h.fits']
  exact Binary64.ofRat_mono h.share_le

end rates

section loop

variable {α β : Type} {step step' : β → α → Except JavaException β} {severity : β → Int} {worst worst' : α → Int}
  {l l' : List α} {b b' result result' : β}

/-- A loop that raises a severity to that of each element stays within a bound
exactly if it begins there and every element does. -/
theorem foldlM_le_iff (hstep : ∀ b a next, step b a = .ok next → severity next = max (severity b) (worst a))
    (h : l.foldlM step b = .ok result) (bound : Int) :
    severity result ≤ bound ↔ severity b ≤ bound ∧ ∀ a ∈ l, worst a ≤ bound := by
  induction l generalizing b with
  | nil =>
    cases h
    simp
  | cons a l ih =>
    rw [List.foldlM_cons] at h
    obtain ⟨next, hnext, hrest⟩ := bind_eq_ok_iff.mp h
    rw [ih hrest, hstep b a next hnext, max_le_iff, List.forall_mem_cons, and_assoc]

variable (severity) in
/-- Such a loop from no lower a severity, over elements of which each one of the
first loop is one and no better. -/
theorem foldlM_worse (hstep : ∀ b a next, step b a = .ok next → severity next = max (severity b) (worst a))
    (hstep' : ∀ b a next, step' b a = .ok next → severity next = max (severity b) (worst' a))
    (h : l.foldlM step b = .ok result) (h' : l'.foldlM step' b' = .ok result') (hstart : severity b ≤ severity b')
    (hworse : ∀ a ∈ l, a ∈ l' ∧ worst a ≤ worst' a) : severity result ≤ severity result' := by
  obtain ⟨hfirst, hrest⟩ := (foldlM_le_iff hstep' h' _).mp le_rfl
  refine (foldlM_le_iff hstep h _).mpr ⟨hstart.trans hfirst, fun a ha => ?_⟩
  obtain ⟨hmem, hle⟩ := hworse a ha
  exact hle.trans (hrest a hmem)

end loop

theorem foldl_max_le {l l' : List Severity} (h : List.Forall₂ (fun s s' => s.getValue ≤ s'.getValue) l l')
    {s s' : Severity} (hs : s.getValue ≤ s'.getValue) :
    (l.foldl Severity.max s).getValue ≤ (l'.foldl Severity.max s').getValue := by
  induction h generalizing s s' with
  | nil => exact hs
  | cons hhead _ ih =>
    refine ih ?_
    rw [Severity.getValue_max, Severity.getValue_max]
    exact max_le_max hs hhead

/-- Severities one by one no lower have no lower a maximum. -/
theorem maxAll_le {l l' : List Severity} (h : List.Forall₂ (fun s s' => s.getValue ≤ s'.getValue) l l') :
    (Severity.maxAll l).getValue ≤ (Severity.maxAll l').getValue :=
  foldl_max_le h le_rfl

section jobRuntime

variable {heuristic : JobRuntimeHeuristic} {platform : Platform} {data data' : SparkJobProgressData}

/-- The same jobs complete, with more failures in each of them, and more jobs fail. -/
structure JobsFailMore (data data' : SparkJobProgressData) : Prop where
  completed : ∀ jobId ∈ data.getCompletedJobs, jobId ∈ data'.getCompletedJobs
  jobs : ∀ jobId ∈ data.getCompletedJobs, ∀ job, data.getJobInfo jobId = some job →
    ∃ job', data'.getJobInfo jobId = some job' ∧
      FailsMore job.numCompletedTasks job.numFailedTasks job'.numCompletedTasks job'.numFailedTasks
  failed : FailsMore data.completedJobs.size data.failedJobs.size data'.completedJobs.size data'.failedJobs.size

/-- The severity of one completed job. -/
def JobRuntimeHeuristic.jobSeverity (heuristic : JobRuntimeHeuristic) (data : SparkJobProgressData)
    (jobId : Int) : Int :=
  (data.getJobInfo jobId).elim 0 fun job => (heuristic.getSingleJobFailureRateSeverity job.getFailureRate).getValue

theorem addJob_severity (failures : JobFailures) (jobId : Int) (next : JobFailures)
    (h : heuristic.addJob platform data failures jobId = .ok next) :
    next.endSeverity.getValue = max failures.endSeverity.getValue (heuristic.jobSeverity data jobId) := by
  rw [JobRuntimeHeuristic.addJob] at h
  obtain ⟨job, hjob, h⟩ := bind_eq_ok_iff.mp h
  rw [JobRuntimeHeuristic.jobSeverity, dereference_eq_ok_iff.mp hjob, Option.elim_some, ← Severity.getValue_max]
  dsimp only at h
  split at h
  · obtain ⟨description, -, h⟩ := bind_eq_ok_iff.mp h
    cases h
    rfl
  · cases h
    rfl

theorem jobRuntime_worse {data data' : SparkApplicationData}
    (hworse : JobsFailMore data.jobProgressData data'.jobProgressData) {result result' : HeuristicResult}
    (h : heuristic.apply platform data = .ok (some result))
    (h' : heuristic.apply platform data' = .ok (some result')) :
    result.severity.getValue ≤ result'.severity.getValue := by
  simp only [JobRuntimeHeuristic.apply, bind_eq_ok_iff, pure_eq_ok_iff, Option.some.injEq] at h h'
  obtain ⟨failures, hfailures, -, -, rfl⟩ := h
  obtain ⟨failures', hfailures', -, -, rfl⟩ := h'
  refine foldlM_worse (fun failures => failures.endSeverity.getValue) addJob_severity addJob_severity hfailures
    hfailures' ?_ fun jobId hjobId => ⟨hworse.completed jobId hjobId, ?_⟩
  · rw [Severity.getValue_max, Severity.getValue_max]
    exact max_le_max_left _ (Severity.getSeverityAscending_mono (.inr hworse.failed.rate_le) _)
  · rw [JobRuntimeHeuristic.jobSeverity, JobRuntimeHeuristic.jobSeverity]
    cases hjob : data.jobProgressData.getJobInfo jobId with
    | none => cases data'.jobProgressData.getJobInfo jobId <;> simp [Severity.getValue_nonneg]
    | some job =>
      obtain ⟨job', hjob', hfails⟩ := hworse.jobs jobId hjobId job hjob
      rw [hjob', Option.elim_some, Option.elim_some]
      exact Severity.getSeverityAscending_mono (.inr hfails.rate_le) _

end jobRuntime

section stageRuntime

variable {heuristic : StageRuntimeHeuristic} {platform : Platform} {data data' : SparkJobProgressData}

/-- The same stages complete, with more failures in each of them and after a
longer time, and more stages fail. -/
structure StagesFailMore (data data' : SparkJobProgressData) : Prop where
  completed : ∀ id ∈ data.getCompletedStages, id ∈ data'.getCompletedStages
  stages : ∀ id ∈ data.getCompletedStages, ∀ stage, data.getStageInfo id.stageId id.attemptId = some stage →
    ∃ stage', data'.getStageInfo id.stageId id.attemptId = some stage' ∧
      FailsMore stage.numCompleteTasks stage.numFailedTasks stage'.numCompleteTasks stage'.numFailedTasks ∧
      stage.duration ≤ stage'.duration
  failed : FailsMore data.completedStages.size data.failedStages.size data'.completedStages.size
    data'.failedStages.size

/-- The worse severity of one completed stage. -/
def StageRuntimeHeuristic.stageSeverity (heuristic : StageRuntimeHeuristic) (data : SparkJobProgressData)
    (id : StageAttemptId) : Int :=
  (data.getStageInfo id.stageId id.attemptId).elim 0 fun stage =>
    max (heuristic.getSingleStageTasksFailureRate stage.getFailureRate).getValue
      (heuristic.getStageRuntimeSeverity stage.duration).getValue

theorem addStage_severity (problems : StageProblems) (id : StageAttemptId) (next : StageProblems)
    (h : heuristic.addStage platform data problems id = .ok next) :
    next.endSeverity.getValue = max problems.endSeverity.getValue (heuristic.stageSeverity data id) := by
  rw [addStage_eq, StageRuntimeHeuristic.judge] at h
  rw [StageRuntimeHeuristic.stageSeverity]
  cases hstage : data.getStageInfo id.stageId id.attemptId with
  | none =>
    rw [hstage] at h
    cases h
  | some stage =>
    rw [hstage] at h
    cases h
    rw [Option.elim_some, ← max_assoc, ← Severity.getValue_max, ← Severity.getValue_max]
    rfl

theorem stageRuntime_worse {data data' : SparkApplicationData}
    (hworse : StagesFailMore data.jobProgressData data'.jobProgressData) {result result' : HeuristicResult}
    (h : heuristic.apply platform data = .ok (some result))
    (h' : heuristic.apply platform data' = .ok (some result')) :
    result.severity.getValue ≤ result'.severity.getValue := by
  simp only [StageRuntimeHeuristic.apply, bind_eq_ok_iff, pure_eq_ok_iff, Option.some.injEq] at h h'
  obtain ⟨problems, hproblems, rfl⟩ := h
  obtain ⟨problems', hproblems', rfl⟩ := h'
  refine foldlM_worse (fun problems => problems.endSeverity.getValue) addStage_severity addStage_severity hproblems
    hproblems' ?_ fun id hid => ⟨hworse.completed id hid, ?_⟩
  · rw [Severity.getValue_max, Severity.getValue_max]
    exact max_le_max_left _ (Severity.getSeverityAscending_mono (.inr hworse.failed.rate_le) _)
  · rw [StageRuntimeHeuristic.stageSeverity, StageRuntimeHeuristic.stageSeverity]
    cases hstage : data.jobProgressData.getStageInfo id.stageId id.attemptId with
    | none =>
      cases data'.jobProgressData.getStageInfo id.stageId id.attemptId <;> simp [Severity.getValue_nonneg]
    | some stage =>
      obtain ⟨stage', hstage', hfails, hduration⟩ := hworse.stages id hid stage hstage
      rw [hstage', Option.elim_some, Option.elim_some]
      exact max_le_max (Severity.getSeverityAscending_mono (.inr hfails.rate_le) _)
        (Severity.getSeverityAscending_mono (.inr (Binary64.ofInt_mono hduration)) _)

end stageRuntime

section memoryLimit

variable {heuristic : MemoryLimitHeuristic} {platform : Platform}

/-- A memory size of all executors together. -/
def SparkExecutorData.total (data : SparkExecutorData) (size : ExecutorInfo → Int) : Int :=
  (data.getExecutors.map fun execId => (data.getExecutorInfo execId).elim 0 size).sum

/-- The same executors have used no more of the same storage memory. -/
structure StorageLessUsed (data data' : SparkExecutorData) : Prop where
  executors : data.getExecutors.Perm data'.getExecutors
  maxMem : ∀ execId ∈ data.getExecutors, (data.getExecutorInfo execId).elim 0 ExecutorInfo.maxMem =
    (data'.getExecutorInfo execId).elim 0 ExecutorInfo.maxMem
  memUsed : ∀ execId ∈ data.getExecutors,
    0 ≤ (data'.getExecutorInfo execId).elim 0 ExecutorInfo.memUsed ∧
      (data'.getExecutorInfo execId).elim 0 ExecutorInfo.memUsed ≤
        (data.getExecutorInfo execId).elim 0 ExecutorInfo.memUsed
  fits : data.total ExecutorInfo.memUsed < 2 ^ 63

/-- The executors that an application asks for and the memory of each. -/
structure AsksFor (platform : Platform) (data : SparkEnvironmentData) (executorNum perExecutorMem : Int) : Prop where
  executorNum :
    parseProperty platform (data.getSparkPropertyOrDefault SPARK_EXECUTOR_INSTANCES "0") = .ok executorNum
  perExecutorMem : MemoryFormatUtils.stringToBytes platform.formats
    (some (data.getSparkPropertyOrDefault SPARK_EXECUTOR_MEMORY "0")) = .ok perExecutorMem

/-- No fewer executors are asked for, with no less memory, and they have used no more of it. -/
structure MoreMemoryIdle (platform : Platform) (data data' : SparkApplicationData) : Prop where
  asked : ∀ executorNum perExecutorMem executorNum' perExecutorMem',
    AsksFor platform data.environmentData executorNum perExecutorMem →
    AsksFor platform data'.environmentData executorNum' perExecutorMem' →
    0 ≤ executorNum ∧ executorNum ≤ executorNum' ∧ 0 ≤ perExecutorMem ∧ perExecutorMem ≤ perExecutorMem' ∧
      executorNum' * perExecutorMem' < 2 ^ 63
  storage : StorageLessUsed data.executorData data'.executorData

theorem sumOverExecutors_total {data : SparkApplicationData} {size : ExecutorInfo → Int} {total : Int}
    (h : MemoryLimitHeuristic.sumOverExecutors data size = .ok total) :
    total = wrap64 (data.executorData.total size) := by
  obtain ⟨infos, hinfos, h⟩ := bind_eq_ok_iff.mp h
  obtain rfl := pure_eq_ok_iff.mp h
  have hsizes : infos.map size =
      data.executorData.getExecutors.map fun execId => (data.executorData.getExecutorInfo execId).elim 0 size := by
    rw [← List.forall₂_eq_eq_eq, List.forall₂_map_left_iff, List.forall₂_map_right_iff]
    refine (mapM_eq_ok_iff.mp hinfos).flip.imp fun info execId hinfo => ?_
    rw [dereference_eq_ok_iff.mp hinfo, Option.elim_some]
  rw [sum64_eq, hsizes, SparkExecutorData.total]

section storage

variable {data data' : SparkExecutorData}

theorem StorageLessUsed.total_maxMem (h : StorageLessUsed data data') :
    data.total ExecutorInfo.maxMem = data'.total ExecutorInfo.maxMem := by
  rw [SparkExecutorData.total, SparkExecutorData.total, List.map_congr_left h.maxMem]
  exact (h.executors.map _).sum_eq

theorem StorageLessUsed.total_memUsed (h : StorageLessUsed data data') :
    0 ≤ data'.total ExecutorInfo.memUsed ∧ data'.total ExecutorInfo.memUsed ≤ data.total ExecutorInfo.memUsed := by
  rw [SparkExecutorData.total, SparkExecutorData.total, ← (h.executors.map _).sum_eq]
  constructor
  · refine List.sum_nonneg fun used hused => ?_
    obtain ⟨execId, hmem, rfl⟩ := List.mem_map.mp hused
    exact (h.memUsed execId hmem).1
  · exact List.sum_le_sum fun execId hmem => (h.memUsed execId hmem).2

end storage

/-- Less used of the same memory is no higher a utilization. -/
theorem utilization_mono {peakMemory peakMemory' totalStorageMemory : Int} (hlo : 0 ≤ peakMemory')
    (h : peakMemory' ≤ peakMemory) (hhi : peakMemory < 2 ^ 63) (htotal : 0 < totalStorageMemory) :
    (MemoryLimitHeuristic.utilization peakMemory' totalStorageMemory).le
      (MemoryLimitHeuristic.utilization peakMemory totalStorageMemory) = true := by
  rw [MemoryLimitHeuristic.utilization, MemoryLimitHeuristic.utilization,
    Binary64.mul_ofInt_one (by omega) (by omega), Binary64.mul_ofInt_one (by omega) (by omega)]
  exact Binary64.ofInt_div_ofInt_mono (by omega) h (by omega) htotal

theorem getMemoryUtilizationSeverity_worse {data data' : SparkExecutorData} (h : StorageLessUsed data data')
    {severity severity' : Severity}
    (hseverity : heuristic.getMemoryUtilizationSeverity platform (wrap64 (data.total ExecutorInfo.memUsed))
      (wrap64 (data.total ExecutorInfo.maxMem)) = .ok severity)
    (hseverity' : heuristic.getMemoryUtilizationSeverity platform (wrap64 (data'.total ExecutorInfo.memUsed))
      (wrap64 (data'.total ExecutorInfo.maxMem)) = .ok severity') :
    severity.getValue ≤ severity'.getValue := by
  obtain ⟨hlo, hle⟩ := h.total_memUsed
  have hfits := h.fits
  rw [MemoryLimitHeuristic.getMemoryUtilizationSeverity, utilizationLimit] at hseverity hseverity'
  rw [wrap64_eq_self (x := data.total ExecutorInfo.memUsed) (by omega) (by omega)] at hseverity
  rw [wrap64_eq_self (x := data'.total ExecutorInfo.memUsed) (by omega) (by omega), ← h.total_maxMem] at hseverity'
  simp only [bind, Except.bind] at hseverity hseverity'
  split at hseverity
  · obtain rfl := pure_eq_ok_iff.mp hseverity
    exact Severity.getValue_nonneg severity'
  · rename_i hlimit
    rw [if_neg hlimit] at hseverity'
    obtain rfl := pure_eq_ok_iff.mp hseverity
    obtain rfl := pure_eq_ok_iff.mp hseverity'
    exact Severity.getSeverityDescending_anti (utilization_mono hlo hle hfits (by omega)) _

theorem memoryLimit_worse {data data' : SparkApplicationData} (hworse : MoreMemoryIdle platform data data')
    {result result' : HeuristicResult} (h : heuristic.apply platform data = .ok (some result))
    (h' : heuristic.apply platform data' = .ok (some result')) :
    result.severity.getValue ≤ result'.severity.getValue := by
  simp only [MemoryLimitHeuristic.apply, bind_eq_ok_iff, pure_eq_ok_iff, Option.some.injEq] at h h'
  obtain ⟨executorNum, hnum, perExecutorMem, hmem, storage, hstorage, -, -, peak, hpeak, utilized, hutilized,
    -, -, -, -, -, -, -, -, -, -, rfl⟩ := h
  obtain ⟨executorNum', hnum', perExecutorMem', hmem', storage', hstorage', -, -, peak', hpeak', utilized',
    hutilized', -, -, -, -, -, -, -, -, -, -, rfl⟩ := h'
  obtain ⟨hnumLo, hnumLe, hmemLo, hmemLe, hfits⟩ := hworse.asked _ _ _ _ ⟨hnum, hmem⟩ ⟨hnum', hmem'⟩
  have hproduct : executorNum * perExecutorMem ≤ executorNum' * perExecutorMem' :=
    Int.mul_le_mul hnumLe hmemLe hmemLo (by omega)
  have hproductLo : 0 ≤ executorNum * perExecutorMem := Int.mul_nonneg hnumLo hmemLo
  have htotal : (heuristic.getTotalMemorySeverity (wrap64 (executorNum * perExecutorMem))).getValue ≤
      (heuristic.getTotalMemorySeverity (wrap64 (executorNum' * perExecutorMem'))).getValue := by
    rw [wrap64_eq_self (by omega) (by omega), wrap64_eq_self (by omega) (by omega)]
    exact Severity.getSeverityAscending_mono (.inr (Binary64.ofInt_mono hproduct)) _
  rw [sumOverExecutors_total hstorage, sumOverExecutors_total hpeak] at hutilized
  rw [sumOverExecutors_total hstorage', sumOverExecutors_total hpeak'] at hutilized'
  have hutilization := getMemoryUtilizationSeverity_worse hworse.storage hutilized hutilized'
  show (Severity.max _ utilized).getValue ≤ (Severity.max _ utilized').getValue
  rw [Severity.getValue_max, Severity.getValue_max]
  exact max_le_max htotal hutilization

end memoryLimit

section executorLoad

/-- Values about the same average that spread at least as far. -/
structure SpreadFurther (values values' : List Int) : Prop where
  average : Statistics.average values = Statistics.average values'
  min : values'.min?.getD 0 ≤ values.min?.getD 0
  max : values.max?.getD 0 ≤ values'.max?.getD 0

theorem SpreadFurther.deviationFactor_le {values values' : List Int} (h : SpreadFurther values values')
    (hrange : ValueObserver.InRange values) (hrange' : ValueObserver.InRange values') :
    (ValueObserver.deviationFactor values).le (ValueObserver.deviationFactor values') = true := by
  obtain ⟨hlo, hhi⟩ := ValueObserver.average_range hrange
  obtain ⟨⟨hminLo, hminHi⟩, hmaxLo, hmaxHi⟩ := ValueObserver.extremes_range hrange
  obtain ⟨⟨hminLo', hminHi'⟩, hmaxLo', hmaxHi'⟩ := ValueObserver.extremes_range hrange'
  have hmin := h.min
  have hmax := h.max
  rw [ValueObserver.deviationFactor, ValueObserver.deviationFactor, ← h.average]
  by_cases havg : Statistics.average values = 0
  · rw [if_pos havg, if_pos havg]
    exact Binary64.ofInt_mono le_rfl
  · rw [if_neg havg, if_neg havg]
    exact Binary64.ofInt_div_ofInt_mono (by omega) (by omega) (by omega) (by omega)

variable {storage : Storage} {heuristic : ExecutorLoadHeuristic} {platform : Platform}
  {listeners listeners' : Listeners storage} {orders orders' : DataOrders}

/-- The metrics of the executors, no more even. Less than 1 MB of storage memory
counts as nothing. -/
structure LoadsSpreadFurther (listeners listeners' : Listeners storage) (execIds execIds' : List String) : Prop where
  peakMems : SpreadFurther (execIds.map (observedPeakMem listeners)) (execIds'.map (observedPeakMem listeners'))
  durations : SpreadFurther (execIds.map (recordedDuration listeners)) (execIds'.map (recordedDuration listeners'))
  inputBytes : SpreadFurther (execIds.map (recordedInputBytes listeners))
    (execIds'.map (recordedInputBytes listeners'))

theorem executorLoad_worse
    (hworse : LoadsSpreadFurther listeners listeners' (nonDriverExecutors listeners orders)
      (nonDriverExecutors listeners' orders')) {result result' : HeuristicResult}
    (h : heuristic.apply platform (applicationData listeners orders) = .ok (some result))
    (h' : heuristic.apply platform (applicationData listeners' orders') = .ok (some result')) :
    result.severity.getValue ≤ result'.severity.getValue := by
  obtain ⟨reported, hreported, hseverity⟩ := @apply_eq _ heuristic listeners orders platform
  obtain ⟨reported', hreported', hseverity'⟩ := @apply_eq _ heuristic listeners' orders' platform
  obtain rfl := Option.some.inj (Except.ok.inj (hreported.symm.trans h))
  obtain rfl := Option.some.inj (Except.ok.inj (hreported'.symm.trans h'))
  have hpeakMems := Severity.getSeverityAscending_mono
    (.inr (hworse.peakMems.deviationFactor_le inRange_peakMem inRange_peakMem)) heuristic.looserMetDevLimits
  have hdurations := Severity.getSeverityAscending_mono
    (.inr (hworse.durations.deviationFactor_le inRange_getOrZero inRange_getOrZero)) heuristic.metDevLimits
  have hinputBytes := Severity.getSeverityAscending_mono
    (.inr (hworse.inputBytes.deviationFactor_le inRange_getOrZero inRange_getOrZero)) heuristic.metDevLimits
  rw [hseverity, hseverity', severityOfRest, severityOfRest]
  exact maxAll_le (.cons hpeakMems (.cons hdurations (.cons hinputBytes (.cons le_rfl .nil))))

end executorLoad

section bestPropertiesConvention

variable {heuristic : BestPropertiesConventionHeuristic} {platform : Platform}

/-- The same serializer and shuffle manager, with no less memory for the driver
and no fewer cores for each executor. -/
structure SetsHigher (platform : Platform) (data data' : SparkEnvironmentData) : Prop where
  serializer : data.getSparkProperty SPARK_SERIALIZER = data'.getSparkProperty SPARK_SERIALIZER
  shuffleManager : data.getSparkProperty SPARK_SHUFFLE_MANAGER = data'.getSparkProperty SPARK_SHUFFLE_MANAGER
  driverMemory : ∀ memory memory',
    MemoryFormatUtils.stringToBytes platform.formats (data.getSparkProperty SPARK_DRIVER_MEMORY) = .ok memory →
    MemoryFormatUtils.stringToBytes platform.formats (data'.getSparkProperty SPARK_DRIVER_MEMORY) = .ok memory' →
    memory ≤ memory'
  executorCores : ∀ cores cores',
    (data.getSparkProperty SPARK_EXECUTOR_CORES).elim (.ok 1) (parseProperty platform) = .ok cores →
    (data'.getSparkProperty SPARK_EXECUTOR_CORES).elim (.ok 1) (parseProperty platform) = .ok cores' →
    cores ≤ cores'

theorem getCoreNumSeverity_mono {cores cores' : Int} (h : cores ≤ cores') :
    (heuristic.getCoreNumSeverity cores).getValue ≤ (heuristic.getCoreNumSeverity cores').getValue := by
  rw [BestPropertiesConventionHeuristic.getCoreNumSeverity, BestPropertiesConventionHeuristic.getCoreNumSeverity]
  split
  · rename_i hlimit
    rw [if_pos (Binary64.lt_of_lt_of_le hlimit (Binary64.ofInt_mono h))]
  · exact Severity.getValue_nonneg _

theorem bestPropertiesConvention_worse {data data' : SparkApplicationData}
    (hworse : SetsHigher platform data.environmentData data'.environmentData) {result result' : HeuristicResult}
    (h : heuristic.apply platform data = .ok (some result))
    (h' : heuristic.apply platform data' = .ok (some result')) :
    result.severity.getValue ≤ result'.severity.getValue := by
  simp only [BestPropertiesConventionHeuristic.apply, bind_eq_ok_iff, pure_eq_ok_iff, Option.some.injEq] at h h'
  obtain ⟨cores, hcores, memory, hmemory, rfl⟩ := h
  obtain ⟨cores', hcores', memory', hmemory', rfl⟩ := h'
  have hdriver : (heuristic.getDriverMemorySeverity memory).getValue ≤
      (heuristic.getDriverMemorySeverity memory').getValue :=
    Severity.getSeverityAscending_mono (.inr (Binary64.ofInt_mono (hworse.driverMemory _ _ hmemory hmemory'))) _
  have hcore := @getCoreNumSeverity_mono heuristic _ _ (hworse.executorCores _ _ hcores hcores')
  rw [hworse.serializer, hworse.shuffleManager]
  exact maxAll_le (.cons le_rfl (.cons hdriver (.cons le_rfl (.cons hcore .nil))))

end bestPropertiesConvention

section analysis

variable {storage : Storage} {listeners listeners' : Listeners storage} {orders orders' : DataOrders}
  {platform : Platform} {heuristic : SparkHeuristic} {heuristics : List SparkHeuristic}

/-- What a heuristic looks at is no better in the second application. -/
def SparkHeuristic.LooksAtWorse (platform : Platform) (listeners listeners' : Listeners storage)
    (orders orders' : DataOrders) : SparkHeuristic → Prop
  | bestPropertiesConvention _ => SetsHigher platform ⟨listeners.sparkProperties⟩ ⟨listeners'.sparkProperties⟩
  | memoryLimit _ =>
    MoreMemoryIdle platform (applicationData listeners orders) (applicationData listeners' orders')
  | stageRuntime _ => StagesFailMore (getJobProgressData listeners orders) (getJobProgressData listeners' orders')
  | jobRuntime _ => JobsFailMore (getJobProgressData listeners orders) (getJobProgressData listeners' orders')
  | executorLoad _ =>
    LoadsSpreadFurther listeners listeners' (nonDriverExecutors listeners orders)
      (nonDriverExecutors listeners' orders')
  | eventLogLimit _ => True

theorem SparkHeuristic.apply_worse (hworse : heuristic.LooksAtWorse platform listeners listeners' orders orders')
    {result result' : HeuristicResult}
    (h : heuristic.apply platform (applicationData listeners orders) = .ok (some result))
    (h' : heuristic.apply platform (applicationData listeners' orders') = .ok (some result')) :
    result.severity.getValue ≤ result'.severity.getValue := by
  cases heuristic with
  | bestPropertiesConvention =>
    exact @bestPropertiesConvention_worse _ _ (applicationData listeners orders) (applicationData listeners' orders') hworse
      _ _ h h'
  | memoryLimit => exact memoryLimit_worse hworse h h'
  | stageRuntime =>
    exact @stageRuntime_worse _ _ (applicationData listeners orders) (applicationData listeners' orders') hworse
      _ _ h h'
  | jobRuntime =>
    exact @jobRuntime_worse _ _ (applicationData listeners orders) (applicationData listeners' orders') hworse
      _ _ h h'
  | executorLoad => exact executorLoad_worse hworse h h'
  | eventLogLimit =>
    cases h
    cases h'
    exact le_rfl

/-- None of the heuristics returns nothing. -/
theorem SparkHeuristic.apply_ne_none {data : SparkApplicationData} : heuristic.apply platform data ≠ .ok none := by
  intro h
  cases heuristic with
  | bestPropertiesConvention _ | memoryLimit _ | stageRuntime _ | jobRuntime _ | executorLoad _ =>
    simp only [apply, BestPropertiesConventionHeuristic.apply, MemoryLimitHeuristic.apply,
      StageRuntimeHeuristic.apply, JobRuntimeHeuristic.apply, ExecutorLoadHeuristic.apply, bind_eq_ok_iff,
      pure_eq_ok_iff, reduceCtorEq, and_false, exists_false] at h
  | eventLogLimit =>
    rw [apply, EventLogLimitHeuristic.apply] at h
    split at h <;> cases h

theorem applyHeuristics_worse
    (hworse : ∀ heuristic ∈ heuristics, heuristic.LooksAtWorse platform listeners listeners' orders orders')
    {results results' : List HeuristicResult}
    (h : AnalyticJob.applyHeuristics (applicationData listeners orders)
      (heuristics.map (SparkHeuristic.apply platform)) = .ok results)
    (h' : AnalyticJob.applyHeuristics (applicationData listeners' orders')
      (heuristics.map (SparkHeuristic.apply platform)) = .ok results') :
    List.Forall₂ (fun s s' => s.getValue ≤ s'.getValue) (results.map HeuristicResult.severity)
      (results'.map HeuristicResult.severity) := by
  induction heuristics generalizing results results' with
  | nil =>
    cases h
    cases h'
    exact .nil
  | cons heuristic heuristics ih =>
    obtain ⟨hfirst, hrest⟩ := List.forall_mem_cons.mp hworse
    simp only [List.map_cons, AnalyticJob.applyHeuristics, bind_eq_ok_iff, pure_eq_ok_iff] at h h'
    obtain ⟨outcome, houtcome, rest, hrestOk, rfl⟩ := h
    obtain ⟨outcome', houtcome', rest', hrestOk', rfl⟩ := h'
    cases outcome with
    | none => exact absurd houtcome SparkHeuristic.apply_ne_none
    | some result =>
      cases outcome' with
      | none => exact absurd houtcome' SparkHeuristic.apply_ne_none
      | some result' => exact .cons (SparkHeuristic.apply_worse hfirst houtcome houtcome') (ih hrest hrestOk hrestOk')

variable {context context' : ElephantContext SparkApplicationData} {fetcher : SparkFSFetcher}
  {logs logs' : LogPlatform storage} {job job' : AnalyticJob} {jobTypes : List JobType}

/-- The severity that is stored of an application with a log that was read. -/
theorem getAnalysis_severity
    (hconfigured : SparkConfigured context job.type (fetcher.elephantFetcher logs orders) platform heuristics jobTypes)
    (hlog : fetcher.fetchData logs orders job.appId = .ok (applicationData listeners orders))
    (hexecutors : (getExecutorData listeners orders).getExecutors ≠ [])
    (configured : List (SchedulerKind × SchedulerConfigurationData)) {result : AppResult}
    (h : (AnalyticJob.getAnalysis context (sparkSetup configured) job).1 = .ok result) : ∃ results,
    AnalyticJob.applyHeuristics (applicationData listeners orders)
      (heuristics.map (SparkHeuristic.apply platform)) = .ok results ∧
      result.severity = Severity.maxAll (results.map HeuristicResult.severity) := by
  have hfetched : fetcher.elephantFetcher logs orders job =
      (.ok (some (applicationData listeners orders)), job.trackingUrl) := by
    rw [SparkFSFetcher.elephantFetcher, hlog]
    rfl
  have hempty : HadoopApplicationData.isEmpty (applicationData listeners orders) ≠ true := by
    show ¬ (!false && (getExecutorData listeners orders).getExecutors.isEmpty) = true
    rw [Bool.not_false, Bool.true_and, List.isEmpty_iff]
    exact hexecutors
  rw [AnalyticJob.getAnalysis_eq hconfigured.fetcher hfetched] at h
  simp only [AnalyticJob.analyzeData, AnalyticJob.analyze, if_neg hempty, hconfigured.heuristics, bind_eq_ok_iff] at h
  obtain ⟨results, hresults, jobType, -, hloaded⟩ := h
  have hkept := congrArg AppResult.severity (InfoExtractor.withoutSchedulerInfo_loadInfo hloaded)
  exact ⟨results, hresults, hkept.trans (AnalyticJob.toAppResult_severity job results jobType)⟩

/-- An application whose metrics are no better than those of another one, or of
another run, by what each configured heuristic looks at is stored with no lower
a severity. -/
theorem getAnalysis_worse
    (hconfigured : SparkConfigured context job.type (fetcher.elephantFetcher logs orders) platform heuristics jobTypes)
    (hconfigured' : SparkConfigured context' job'.type (fetcher.elephantFetcher logs' orders') platform heuristics
      jobTypes)
    (hlog : fetcher.fetchData logs orders job.appId = .ok (applicationData listeners orders))
    (hlog' : fetcher.fetchData logs' orders' job'.appId = .ok (applicationData listeners' orders'))
    (hexecutors : (getExecutorData listeners orders).getExecutors ≠ [])
    (hexecutors' : (getExecutorData listeners' orders').getExecutors ≠ [])
    (hworse : ∀ heuristic ∈ heuristics, heuristic.LooksAtWorse platform listeners listeners' orders orders')
    (configured : List (SchedulerKind × SchedulerConfigurationData)) {result result' : AppResult}
    (h : (AnalyticJob.getAnalysis context (sparkSetup configured) job).1 = .ok result)
    (h' : (AnalyticJob.getAnalysis context' (sparkSetup configured) job').1 = .ok result') :
    result.severity.getValue ≤ result'.severity.getValue := by
  obtain ⟨results, hresults, hseverity⟩ := getAnalysis_severity hconfigured hlog hexecutors configured h
  obtain ⟨results', hresults', hseverity'⟩ := getAnalysis_severity hconfigured' hlog' hexecutors' configured h'
  rw [hseverity, hseverity']
  exact maxAll_le (applyHeuristics_worse hworse hresults hresults')

/-- One executor and a completed job of which some tasks have failed. -/
private def someFailed (numFailedTasks : Int) : Listeners StorageStatusTrackingListener.blockSizes :=
  { listenersOf
      { jobIdToData := .putAll .empty [(0, { jobId := 0, stageIds := [0], numCompletedTasks := 4, numFailedTasks })]
        stageIdToData := .putAll .empty [(⟨0, 0⟩, { numCompleteTasks := 4, numFailedTasks })]
        stageIdToInfo := .putAll .empty [(0, { stageId := 0, attemptId := 0, name := some "count" })]
        completedJobs := [{ jobId := 0, stageIds := [0], numCompletedTasks := 4, numFailedTasks }] } with
    executorsListener := { storageStatusList := [⟨⟨"1", "host:1"⟩, 500⟩] } }

private def oneSmallFile : FileSystem := ⟨fun _ => .ok (some ⟨false, 1000⟩), fun _ => .ok []⟩

private def numFailedTasksIn : LogInput → Int
  | .eventLog path => if path = "/system/spark-history/application_1_1.snappy" then 1 else 12
  | .legacy _ _ _ => 0

/-- A cluster in which one task of application_1 has failed, and twelve of any other. -/
private def someFailedPlatform : LogPlatform StorageStatusTrackingListener.blockSizes where
  readJsonNode _ := .error (.io "")
  hadoopConf _ := none
  sparkConf _ := none
  getPath path := .ok (some path)
  fileSystem _ := oneSmallFile
  resolve parent child := parent ++ "/" ++ child
  isCodec _ := false
  replay log := .ok (someFailed (numFailedTasksIn log))

private def evenLoad : List SparkHeuristic := [.jobRuntime jobRuntime, .executorLoad defaultLimits]

private def someFailedContext : ElephantContext SparkApplicationData where
  typeToFetcher _ := some (SparkFSFetcher.withoutParams.elephantFetcher someFailedPlatform .insertion)
  typeToHeuristics _ := some (evenLoad.map (SparkHeuristic.apply .plain))
  appTypeToJobTypes _ := some []
  nameToType _ := some APPLICATION_TYPE
  toUpperCase name := name

private def someFailedJob (appId : String) : AnalyticJob where
  type := APPLICATION_TYPE
  appId := appId
  name := "job"
  queueName := "default"
  user := "user"
  trackingUrl := none
  startTime := 1000
  finishTime := 2000

private theorem someFailed_worse : ∀ heuristic ∈ evenLoad,
    heuristic.LooksAtWorse .plain (someFailed 1) (someFailed 12) .insertion .insertion := by
  refine List.forall_mem_cons.mpr ⟨?_, List.forall_mem_singleton.mpr ?_⟩
  · refine ⟨fun _ h => h, ?_, ?_⟩
    · intro jobId hjobId job hjob
      cases List.mem_singleton.mp hjobId
      cases hjob
      exact ⟨_, rfl, ⟨by decide, by decide⟩, ⟨by decide, by decide⟩, by decide, by decide⟩
    · exact ⟨⟨by decide, by decide⟩, ⟨by decide, by decide⟩, by decide, by decide⟩
  · exact ⟨⟨rfl, le_rfl, le_rfl⟩, ⟨rfl, le_rfl, le_rfl⟩, ⟨rfl, le_rfl, le_rfl⟩⟩

private theorem fetchData_someFailed (appId : String) {numFailedTasks : Int}
    (hfailed : numFailedTasksIn (.eventLog ("/system/spark-history/" ++ appId ++ SparkFSFetcher.defSparkLogExt)) =
      numFailedTasks) :
    SparkFSFetcher.withoutParams.fetchData someFailedPlatform .insertion (someFailedJob appId).appId =
      .ok (applicationData (someFailed numFailedTasks) .insertion) := by
  rw [← hfailed]
  have hread : SparkFSFetcher.withoutParams.Readable 1000 :=
    (SparkFSFetcher.readable_withoutParams_iff (by decide)).mpr (by decide)
  have hthrottle : ∀ path, SparkFSFetcher.withoutParams.shouldThrottle oneSmallFile path = .ok false :=
    fun _ => SparkFSFetcher.shouldThrottle_eq_ok_iff.mpr
      ⟨⟨false, 1000⟩, rfl, iff_of_false Bool.false_ne_true (not_not_intro hread)⟩
  have hfound : SparkFSFetcher.withoutParams.findLog someFailedPlatform oneSmallFile
      ("/system/spark-history/" ++ appId) =
      .ok (some (.eventLog ("/system/spark-history/" ++ appId ++ SparkFSFetcher.defSparkLogExt))) :=
    bind_eq_ok_iff.mpr ⟨false, rfl, bind_eq_ok_iff.mpr ⟨false, hthrottle _, rfl⟩⟩
  exact bind_eq_ok_iff.mpr ⟨"/system/spark-history", rfl, bind_eq_ok_iff.mpr ⟨_, hfound, rfl⟩⟩

theorem getAnalysis_worse_someFailed : ∃ result result',
    (AnalyticJob.getAnalysis someFailedContext (sparkSetup []) (someFailedJob "application_1")).1 = .ok result ∧
      (AnalyticJob.getAnalysis someFailedContext (sparkSetup []) (someFailedJob "application_2")).1 = .ok result' ∧
      result.severity.getValue ≤ result'.severity.getValue := by
  have hreturns : ∀ appId ∈ ["application_1", "application_2"],
      (AnalyticJob.getAnalysis someFailedContext (sparkSetup []) (someFailedJob appId)).1.toOption.isSome =
        true := by decide +kernel
  have hanalysis : ∀ appId ∈ ["application_1", "application_2"], ∃ result,
      (AnalyticJob.getAnalysis someFailedContext (sparkSetup []) (someFailedJob appId)).1 = .ok result := by
    intro appId hmem
    have hreturned := hreturns appId hmem
    cases hresult : (AnalyticJob.getAnalysis someFailedContext (sparkSetup []) (someFailedJob appId)).1 with
    | error e =>
      rw [hresult] at hreturned
      cases hreturned
    | ok result => exact ⟨result, rfl⟩
  obtain ⟨result, hresult⟩ := hanalysis "application_1" List.mem_cons_self
  obtain ⟨result', hresult'⟩ := hanalysis "application_2" (List.mem_cons_of_mem _ List.mem_cons_self)
  have hconfigured : ∀ appId, SparkConfigured someFailedContext (someFailedJob appId).type
      (SparkFSFetcher.withoutParams.elephantFetcher someFailedPlatform .insertion) .plain evenLoad [] :=
    fun _ => ⟨rfl, rfl, rfl⟩
  have hexecutors : ∀ numFailedTasks, (getExecutorData (someFailed numFailedTasks) .insertion).getExecutors ≠ [] :=
    fun _ => List.cons_ne_nil _ _
  have hlog := @fetchData_someFailed "application_1" 1 (by decide)
  have hlog' := @fetchData_someFailed "application_2" 12 (by decide)
  exact ⟨result, result', hresult, hresult', getAnalysis_worse (hconfigured "application_1")
    (hconfigured "application_2") hlog hlog' (hexecutors 1) (hexecutors 12) someFailed_worse [] hresult hresult'⟩

end analysis

end drelephant.spark
