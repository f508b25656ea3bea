import DrElephant.Spark.Heuristics.ExecutorLoad
import DrElephant.Spark.SparkDataCollection
import DrElephant.Util.MemoryStrings

open collections drelephant.analysis drelephant.math drelephant.util ieee java.lang machine
  org.apache.spark.deploy.history org.apache.spark.deploy.history.SparkDataCollection org.apache.spark.storage

namespace drelephant.spark

namespace ValueObserver

/-- The first values have been observed, the others are 0 yet. -/
structure Observes (observer : ValueObserver) (done : List Int) (rest : Nat) : Prop where
  values : observer.values = done ++ List.replicate rest 0
  min : observer.min = done.min?
  max : observer.max = done.max?

variable {observer : ValueObserver} {done values : List Int} {rest : Nat}

theorem observes_new (size : Nat) : (new size).Observes [] size := ⟨rfl, rfl, rfl⟩

/-- The next value is within the array and joins those observed. -/
theorem Observes.set (h : observer.Observes done (rest + 1)) (value : Int) :
    ∃ next, observer.set done.length value = .ok next ∧ next.Observes (done ++ [value]) rest := by
  have hlength : done.length < observer.values.length := by
    rw [h.values, List.length_append, List.length_replicate]
    omega
  have hmin : (done ++ [value]).min? = some (done.min?.elim value (Min.min value)) := by
    cases done with
    | nil => rfl
    | cons first done =>
      rw [List.cons_append, List.min?_cons', List.min?_cons', List.foldl_concat, Option.elim_some, min_comm]
  have hmax : (done ++ [value]).max? = some (done.max?.elim value (Max.max value)) := by
    cases done with
    | nil => rfl
    | cons first done =>
      rw [List.cons_append, List.max?_cons', List.max?_cons', List.foldl_concat, Option.elim_some, max_comm]
  rw [ValueObserver.set, if_pos hlength]
  refine ⟨_, rfl, ⟨?_, ?_, ?_⟩⟩
  · rw [h.values, List.set_append_right _ _ le_rfl, Nat.sub_self, List.replicate_succ, List.set_cons_zero,
      List.append_assoc, List.singleton_append]
  · rw [h.min, hmin]
  · rw [h.max, hmax]

/-- Max(max-avg, avg-min) / avg of values, 0 if their average is 0. -/
def deviationFactor (values : List Int) : Binary64 :=
  let avg := Statistics.average values
  if avg = 0 then .ofInt 0
  else (Binary64.ofInt (Max.max (values.max?.getD 0 - avg) (avg - values.min?.getD 0))).div (.ofInt avg)

/-- Bytes and milliseconds are longs that are not negative. -/
def InRange (values : List Int) : Prop := ∀ value ∈ values, 0 ≤ value ∧ value < 2 ^ 63

theorem average_range (h : InRange values) :
    0 ≤ Statistics.average values ∧ Statistics.average values < 2 ^ 63 := by
  have hnonneg := Statistics.average_nonneg (fun value hvalue => (h value hvalue).1)
    fun value hvalue => (h value hvalue).2.le
  have hlt := (Statistics.average_range values).2
  omega

theorem extremes_range (h : InRange values) :
    (0 ≤ values.min?.getD 0 ∧ values.min?.getD 0 < 2 ^ 63) ∧
      (0 ≤ values.max?.getD 0 ∧ values.max?.getD 0 < 2 ^ 63) := by
  constructor
  · cases hmin : values.min? with
    | none => decide
    | some value => exact h value (List.min?_mem hmin)
  · cases hmax : values.max? with
    | none => decide
    | some value => exact h value (List.max?_mem hmax)

/-- What has been observed of all values is what holds of them. -/
theorem Observes.getDeviationFactor (h : observer.Observes values 0) (hrange : InRange values) :
    observer.getDeviationFactor = deviationFactor values := by
  have hvalues : observer.values = values := h.values.trans (List.append_nil values)
  obtain ⟨hlo, hhi⟩ := average_range hrange
  obtain ⟨⟨hminLo, hminHi⟩, hmaxLo, hmaxHi⟩ := extremes_range hrange
  rw [ValueObserver.getDeviationFactor, deviationFactor, getAvg, getMin, getMax, hvalues, h.min, h.max]
  simp only []
  rw [wrap64_eq_self (by omega) (by omega), wrap64_eq_self (by omega) (by omega),
    Binary64.mul_ofInt_one (by omega) (by omega)]

/-- No load is more even than one without any deviation. -/
theorem le_deviationFactor (hrange : InRange values) :
    (Binary64.ofInt 0).le (deviationFactor values) = true := by
  have hzero : Binary64.ofInt 0 = .finite 0 := Binary64.ofInt_eq_finite (by decide)
  obtain ⟨hlo, hhi⟩ := average_range hrange
  obtain ⟨⟨hminLo, hminHi⟩, hmaxLo, hmaxHi⟩ := extremes_range hrange
  rw [deviationFactor]
  by_cases havg : Statistics.average values = 0
  · rw [if_pos havg, hzero]
    exact Binary64.le_refl (by simp)
  · have hordered : values.min?.getD 0 ≤ values.max?.getD 0 := by
      cases values with
      | nil => rfl
      | cons value values =>
        have hmin : (value :: values).min? = some _ := List.min?_cons'
        have hmax : (value :: values).max? = some _ := List.max?_cons'
        exact ((List.min?_eq_some_iff.mp hmin).2 value List.mem_cons_self).trans
          ((List.max?_eq_some_iff.mp hmax).2 value List.mem_cons_self)
    rw [if_neg havg, hzero]
    have hdiff : 0 ≤ Max.max (values.max?.getD 0 - Statistics.average values)
        (Statistics.average values - values.min?.getD 0) := by omega
    obtain ⟨hfinite, -⟩ := Binary64.ofInt_of_range (n := Max.max (values.max?.getD 0 - Statistics.average values)
        (Statistics.average values - values.min?.getD 0)) (by omega) (by omega)
    rw [hfinite]
    exact Binary64.zero_le_div_ofInt (Binary64.roundFinite_nonneg (by exact_mod_cast hdiff)) (by omega)

theorem deviationFactor_zeros {values : List Int} (h : ∀ value ∈ values, value = 0) :
    deviationFactor values = .ofInt 0 := by
  have havg : Statistics.average values = 0 := by
    cases values with
    | nil => exact Statistics.average_nil
    | cons value values =>
      have hsum : (value :: values).sum = 0 := List.sum_eq_zero h
      rw [Statistics.average_eq (by simp) (fun value hvalue => (h value hvalue).ge) (by rw [hsum]; decide), hsum,
        Int.zero_ediv]
  rw [deviationFactor, if_pos havg]

/-- The description of an observer returns where the format knows all values that are not negative. -/
theorem Observes.describe_returns (h : observer.Observes values 0) (hrange : InRange values)
    {format : Int → Except JavaException String} (hformat : ∀ value, 0 ≤ value → ∃ text, format value = .ok text) :
    ∃ text, observer.describe format = .ok text := by
  have hvalues : observer.values = values := h.values.trans (List.append_nil values)
  obtain ⟨⟨hmin, -⟩, hmax, -⟩ := extremes_range hrange
  obtain ⟨avgText, havg⟩ := hformat _ (average_range hrange).1
  obtain ⟨minText, hminText⟩ := hformat _ hmin
  obtain ⟨maxText, hmaxText⟩ := hformat _ hmax
  rw [describe, getAvg, getMin, getMax, hvalues, h.min, h.max, havg, hminText, hmaxText]
  exact ⟨_, rfl⟩

end ValueObserver

section executors

variable {storage : Storage} (listeners : Listeners storage) (orders : DataOrders)

/-- The executors that are observed, in the order in which their table is walked. -/
def nonDriverExecutors : List String :=
  (getExecutorData listeners orders).getExecutors.filter (· != EXECUTOR_DRIVER_NAME)

variable {listeners orders}

theorem executorInfoMap_eq : (getExecutorData listeners orders).executorInfoMap =
    OrderedMap.empty.putAll (listeners.executorsListener.storageStatusList.map fun status =>
      (status.blockManagerId.executorId, toExecutorInfo listeners status)) := by
  rw [OrderedMap.putAll, List.foldl_map]
  rfl

theorem mem_getExecutors {execId : String} : execId ∈ (getExecutorData listeners orders).getExecutors ↔
    ∃ status ∈ listeners.executorsListener.storageStatusList, status.blockManagerId.executorId = execId := by
  have hkeys : execId ∈ (getExecutorData listeners orders).getExecutors ↔
      execId ∈ (getExecutorData listeners orders).executorInfoMap.keys :=
    ((orders.executors.perm _).map Prod.fst).mem_iff
  rw [hkeys, OrderedMap.mem_keys_iff, executorInfoMap_eq, OrderedMap.containsKey_putAll, Bool.or_eq_true,
    List.any_map, List.any_eq_true]
  simp [OrderedMap.containsKey]

theorem nodup_getExecutors : (getExecutorData listeners orders).getExecutors.Nodup := by
  have hkeys : (getExecutorData listeners orders).executorInfoMap.keys.Nodup :=
    (getExecutorData listeners orders).executorInfoMap.distinct.imp fun h => by simpa using h
  exact ((orders.executors.perm _).map Prod.fst).nodup_iff.mpr hkeys

/-- Every executor of the table has the data of a status with its id. -/
theorem exists_getExecutorInfo {execId : String} (h : execId ∈ (getExecutorData listeners orders).getExecutors) :
    ∃ status : ExecutorStatus, status.blockManagerId.executorId = execId ∧
      (getExecutorData listeners orders).getExecutorInfo execId = some (toExecutorInfo listeners status) := by
  have hfound : ((getExecutorData listeners orders).getExecutorInfo execId).isSome = true := by
    rw [SparkExecutorData.getExecutorInfo, OrderedMap.isSome_get?, ← OrderedMap.mem_keys_iff]
    exact ((orders.executors.perm _).map Prod.fst).mem_iff.mp h
  obtain ⟨info, hinfo⟩ := Option.isSome_iff_exists.mp hfound
  have hput := hinfo
  rw [SparkExecutorData.getExecutorInfo, executorInfoMap_eq, OrderedMap.get?_putAll, OrderedMap.get?_empty,
    Option.or_none, Option.map_eq_some_iff] at hput
  obtain ⟨entry, hentry, rfl⟩ := hput
  have hkey : (entry.1 == execId) = true := List.find?_some (p := fun e : String × ExecutorInfo => e.1 == execId) hentry
  obtain ⟨status, -, rfl⟩ := List.mem_map.mp (List.mem_reverse.mp (List.mem_of_find?_eq_some hentry))
  exact ⟨status, eq_of_beq hkey, hinfo⟩

theorem mem_nonDriverExecutors {execId : String} : execId ∈ nonDriverExecutors listeners orders ↔
    execId ≠ EXECUTOR_DRIVER_NAME ∧ ∃ status ∈ listeners.executorsListener.storageStatusList,
      status.blockManagerId.executorId = execId := by
  rw [nonDriverExecutors, List.mem_filter, mem_getExecutors, bne_iff_ne, and_comm]

theorem nodup_nonDriverExecutors : (nonDriverExecutors listeners orders).Nodup :=
  nodup_getExecutors.filter _

/-- The arrays have one place for each executor that is observed. -/
theorem length_nonDriverExecutors : (nonDriverExecutors listeners orders).length =
    if EXECUTOR_DRIVER_NAME ∈ (getExecutorData listeners orders).getExecutors then
      (getExecutorData listeners orders).getExecutors.length - 1
    else (getExecutorData listeners orders).getExecutors.length := by
  rw [nonDriverExecutors, ← nodup_getExecutors.erase_eq_filter, List.length_erase]

end executors

section run

variable {storage : Storage} (listeners : Listeners storage)

/-- The peak storage memory of an executor, where less than 1 MB counts as nothing. -/
def observedPeakMem (execId : String) : Int :=
  let memUsed := StorageStatusTrackingListener.maxUsedMem execId listeners.storageStatusTrackingListener
  if memUsed < 2 ^ 20 then 0 else memUsed

def recordedDuration (execId : String) : Int := getOrZero listeners.executorsListener.executorToDuration execId

def recordedInputBytes (execId : String) : Int :=
  getOrZero listeners.executorsListener.executorToInputBytes execId

def recordedOutputBytes (execId : String) : Int :=
  getOrZero listeners.executorsListener.executorToOutputBytes execId

/-- What has been observed after some of the executors. No bytes are known to be written. -/
structure Observed (metrics : ExecutorMetrics) (done : List String) (rest : Nat) : Prop where
  visited : metrics.visited = done.length
  peakMems : metrics.peakMems.Observes (done.map (observedPeakMem listeners)) rest
  durations : metrics.durations.Observes (done.map (recordedDuration listeners)) rest
  inputBytes : metrics.inputBytes.Observes (done.map (recordedInputBytes listeners)) rest
  outputBytes : metrics.outputBytes.Observes (done.map fun _ => 0) rest

variable {listeners} {orders : DataOrders} {metrics : ExecutorMetrics} {done : List String} {rest : Nat}

theorem observed_new (size : Nat) : Observed listeners
    { peakMems := .new size, durations := .new size, inputBytes := .new size, outputBytes := .new size } [] size :=
  ⟨rfl, ValueObserver.observes_new size, ValueObserver.observes_new size, ValueObserver.observes_new size,
    ValueObserver.observes_new size⟩

/-- An executor that is not the driver takes the next place in every array. -/
theorem Observed.observe (h : Observed listeners metrics done (rest + 1)) {execId : String}
    (hmem : execId ∈ (getExecutorData listeners orders).getExecutors) (hdriver : execId ≠ EXECUTOR_DRIVER_NAME) :
    ∃ next, ExecutorLoadHeuristic.observe (2 ^ 20) (getExecutorData listeners orders) metrics execId = .ok next ∧
      Observed listeners next (done ++ [execId]) rest := by
  obtain ⟨status, rfl, hinfo⟩ := exists_getExecutorInfo hmem
  have hplace : ∀ value : String → Int, metrics.visited = (done.map value).length := by
    intro value
    rw [List.length_map, h.visited]
  obtain ⟨peakMems, hpeakMems, hpeakMemsObserves⟩ := h.peakMems.set
    (observedPeakMem listeners status.blockManagerId.executorId)
  obtain ⟨durations, hdurations, hdurationsObserves⟩ := h.durations.set
    (recordedDuration listeners status.blockManagerId.executorId)
  obtain ⟨inputBytes, hinputBytes, hinputBytesObserves⟩ := h.inputBytes.set
    (recordedInputBytes listeners status.blockManagerId.executorId)
  obtain ⟨outputBytes, houtputBytes, houtputBytesObserves⟩ := h.outputBytes.set 0
  rw [← hplace] at hpeakMems hdurations hinputBytes houtputBytes
  refine ⟨{ visited := metrics.visited + 1, peakMems, durations, inputBytes, outputBytes }, ?_, ?_, ?_, ?_, ?_, ?_⟩
  · rw [ExecutorLoadHeuristic.observe, if_neg hdriver, hinfo]
    refine bind_eq_ok_iff.mpr ⟨_, rfl, bind_eq_ok_iff.mpr ⟨_, hpeakMems, bind_eq_ok_iff.mpr ⟨_, hdurations,
      bind_eq_ok_iff.mpr ⟨_, hinputBytes, bind_eq_ok_iff.mpr ⟨_, houtputBytes, rfl⟩⟩⟩⟩⟩
  · rw [List.length_append, ← h.visited]
    rfl
  · rwa [List.map_append]
  · rwa [List.map_append]
  · rwa [List.map_append]
  · rwa [List.map_append]

/-- The loop observes all executors but the driver, one after the other. -/
theorem Observed.foldlM {execIds : List String}
    (hmem : ∀ execId ∈ execIds, execId ∈ (getExecutorData listeners orders).getExecutors)
    (h : Observed listeners metrics done (execIds.filter (· != EXECUTOR_DRIVER_NAME)).length) :
    ∃ result, execIds.foldlM (ExecutorLoadHeuristic.observe (2 ^ 20) (getExecutorData listeners orders)) metrics =
        .ok result ∧
      Observed listeners result (done ++ execIds.filter (· != EXECUTOR_DRIVER_NAME)) 0 := by
  induction execIds generalizing metrics done with
  | nil => exact ⟨metrics, rfl, by rwa [List.filter_nil, List.append_nil]⟩
  | cons execId execIds ih =>
    obtain ⟨hfirst, hrest⟩ := List.forall_mem_cons.mp hmem
    rw [List.foldlM_cons]
    by_cases hdriver : execId = EXECUTOR_DRIVER_NAME
    · have hskip : (execId :: execIds).filter (· != EXECUTOR_DRIVER_NAME) =
          execIds.filter (· != EXECUTOR_DRIVER_NAME) := by
        rw [List.filter_cons, hdriver, bne_self_eq_false, if_neg Bool.false_ne_true]
      rw [hskip] at h ⊢
      obtain ⟨result, hresult, hobserved⟩ := ih hrest h
      exact ⟨result, bind_eq_ok_iff.mpr ⟨metrics, if_pos hdriver, hresult⟩, hobserved⟩
    · have hkeep : (execId :: execIds).filter (· != EXECUTOR_DRIVER_NAME) =
          execId :: execIds.filter (· != EXECUTOR_DRIVER_NAME) := by
        rw [List.filter_cons, if_pos (bne_iff_ne.mpr hdriver)]
      rw [hkeep, List.length_cons] at h
      obtain ⟨next, hnext, hnextObserved⟩ := h.observe hfirst hdriver
      obtain ⟨result, hresult, hobserved⟩ := ih hrest hnextObserved
      refine ⟨result, bind_eq_ok_iff.mpr ⟨next, hnext, hresult⟩, ?_⟩
      rwa [hkeep, ← List.singleton_append, ← List.append_assoc]

theorem exists_observeAll : ∃ metrics,
    ExecutorLoadHeuristic.observeAll (2 ^ 20) (getExecutorData listeners orders) = .ok metrics ∧
      Observed listeners metrics (nonDriverExecutors listeners orders) 0 := by
  have hstart : Observed listeners _ [] (nonDriverExecutors listeners orders).length := observed_new _
  have hmem : ∀ execId ∈ (getExecutorData listeners orders).getExecutors,
      execId ∈ (getExecutorData listeners orders).getExecutors := fun _ h => h
  obtain ⟨result, hresult, hobserved⟩ := hstart.foldlM hmem
  refine ⟨result, ?_, hobserved⟩
  rw [ExecutorLoadHeuristic.observeAll, ← length_nonDriverExecutors]
  exact hresult

end run

section severity

variable {storage : Storage} (heuristic : ExecutorLoadHeuristic) (listeners : Listeners storage)
  (execIds : List String)

/-- The severity of the deviation of a metric that by nature deviates a bit more. -/
def looserSeverity (metric : String → Int) : Severity :=
  Severity.getSeverityAscending (ValueObserver.deviationFactor (execIds.map metric)) heuristic.looserMetDevLimits

def normalSeverity (metric : String → Int) : Severity :=
  Severity.getSeverityAscending (ValueObserver.deviationFactor (execIds.map metric)) heuristic.metDevLimits

/-- The severity of the load of executors as the listeners have recorded it. -/
def recordedSeverity : Severity :=
  Severity.maxAll
    [looserSeverity heuristic execIds (observedPeakMem listeners),
      normalSeverity heuristic execIds (recordedDuration listeners),
      normalSeverity heuristic execIds (recordedInputBytes listeners),
      looserSeverity heuristic execIds (recordedOutputBytes listeners)]

/-- The severity of the load without regard to the bytes that were written. -/
def severityOfRest : Severity :=
  Severity.maxAll
    [looserSeverity heuristic execIds (observedPeakMem listeners),
      normalSeverity heuristic execIds (recordedDuration listeners),
      normalSeverity heuristic execIds (recordedInputBytes listeners),
      Severity.getSeverityAscending (.ofInt 0) heuristic.looserMetDevLimits]

variable {heuristic listeners execIds}

theorem inRange_peakMem : ValueObserver.InRange (execIds.map (observedPeakMem listeners)) := by
  rw [ValueObserver.InRange, List.forall_mem_map]
  intro execId _
  have hrange := listeners.maxUsedMem_range execId
  simp only [observedPeakMem]
  split
  · decide
  · exact hrange

theorem inRange_getOrZero {amounts : OrderedMap String Amount} :
    ValueObserver.InRange (execIds.map (getOrZero amounts)) := by
  rw [ValueObserver.InRange, List.forall_mem_map]
  exact fun execId _ => getOrZero_range amounts execId

theorem inRange_zeros : ValueObserver.InRange (execIds.map fun _ => 0) := by
  rw [ValueObserver.InRange, List.forall_mem_map]
  exact fun _ _ => by decide

/-- One severity among others is the maximum of no more than what it is raised from
if the others or that reach it. -/
theorem maxAll_replace_iff {a b c low high : Severity} (h : low.getValue ≤ high.getValue) :
    Severity.maxAll [a, b, c, low] = Severity.maxAll [a, b, c, high] ↔
      high.getValue ≤ (Severity.maxAll [a, b, c, low]).getValue := by
  have hvalue : ∀ d : Severity, (Severity.maxAll [a, b, c, d]).getValue =
      Max.max (Severity.maxAll [a, b, c]).getValue d.getValue := fun d => Severity.getValue_max _ d
  constructor
  · intro heq
    rw [heq, hvalue]
    exact le_max_right _ _
  · intro hle
    refine Severity.getValue_injective ?_
    rw [hvalue] at hle ⊢
    rw [hvalue]
    omega

theorem exists_bytesToString {value : Int} (h : 0 ≤ value) :
    ∃ text, MemoryFormatUtils.bytesToString value = .ok text := by
  rw [MemoryFormatUtils.bytesToString, if_neg (not_lt.mpr h)]
  split
  · exact ⟨_, rfl⟩
  · exact ⟨_, rfl⟩

/-- The text "1 MB". -/
def oneMegabyte : MemoryFormatUtils.MemoryText where
  number := MemoryFormatUtils.wholeNumber 1
  space := [' ']
  letter := some 'M'
  b := some 'B'
  isSpace := MemoryFormatUtils.isSpace_blank
  letter_mem := MemoryFormatUtils.forall_mem_some (by decide)
  b_eq := MemoryFormatUtils.toUpper_B

theorem memoryObservationThreshold (platform : Platform) :
    ExecutorLoadHeuristic.MEMORY_OBSERVATION_THRESHOLD platform = .ok (2 ^ 20) := by
  have htext : "1 MB".toList = oneMegabyte.text := rfl
  exact MemoryFormatUtils.stringToBytes_wholeNumber platform.formats (n := 1) htext rfl (by decide) (by decide)

variable {orders : DataOrders}

variable (heuristic) in
/-- The heuristic reports, with the severity of the load but for the bytes that were written. -/
theorem apply_eq (platform : Platform) : ∃ result,
    heuristic.apply platform (applicationData listeners orders) = .ok (some result) ∧
      result.severity = severityOfRest heuristic listeners (nonDriverExecutors listeners orders) := by
  obtain ⟨metrics, hmetrics, hobserved⟩ := @exists_observeAll _ listeners orders
  have hformat : ∀ value : Int, 0 ≤ value → ∃ text, MemoryFormatUtils.bytesToString value = .ok text :=
    fun _ => exists_bytesToString
  obtain ⟨peakMems, hpeakMems⟩ := hobserved.peakMems.describe_returns inRange_peakMem hformat
  have htimespan : ∀ value : Int, 0 ≤ value →
      ∃ text, (pure (Statistics.readableTimespan value) : Except JavaException String) = .ok text :=
    fun _ _ => ⟨_, rfl⟩
  obtain ⟨runtimes, hruntimes⟩ := hobserved.durations.describe_returns inRange_getOrZero htimespan
  obtain ⟨inputBytes, hinputBytes⟩ := hobserved.inputBytes.describe_returns inRange_getOrZero hformat
  obtain ⟨outputBytes, houtputBytes⟩ := hobserved.outputBytes.describe_returns inRange_zeros hformat
  have hzeros : ∀ value ∈ (nonDriverExecutors listeners orders).map fun _ => (0 : Int), value = 0 := by simp
  have hseverity : heuristic.severity metrics =
      severityOfRest heuristic listeners (nonDriverExecutors listeners orders) := by
    rw [ExecutorLoadHeuristic.severity, ExecutorLoadHeuristic.getLooserMetricDeviationSeverity,
      ExecutorLoadHeuristic.getMetricDeviationSeverity, ExecutorLoadHeuristic.getMetricDeviationSeverity,
      ExecutorLoadHeuristic.getLooserMetricDeviationSeverity,
      hobserved.peakMems.getDeviationFactor inRange_peakMem,
      hobserved.durations.getDeviationFactor inRange_getOrZero,
      hobserved.inputBytes.getDeviationFactor inRange_getOrZero,
      hobserved.outputBytes.getDeviationFactor inRange_zeros,
      ValueObserver.deviationFactor_zeros hzeros]
    rfl
  refine ⟨heuristic.report (heuristic.severity metrics) peakMems runtimes inputBytes outputBytes, ?_, hseverity⟩
  exact bind_eq_ok_iff.mpr ⟨_, memoryObservationThreshold platform, bind_eq_ok_iff.mpr ⟨_, hmetrics,
    bind_eq_ok_iff.mpr ⟨_, hpeakMems, bind_eq_ok_iff.mpr ⟨_, hruntimes, bind_eq_ok_iff.mpr ⟨_, hinputBytes,
      bind_eq_ok_iff.mpr ⟨_, houtputBytes, rfl⟩⟩⟩⟩⟩⟩

variable (heuristic listeners orders) in
/-- The heuristic reports the severity of the load as the listeners have recorded it. -/
def ReflectsListeners (platform : Platform) : Prop :=
  ∃ result, heuristic.apply platform (applicationData listeners orders) = .ok (some result) ∧
    result.severity = recordedSeverity heuristic listeners (nonDriverExecutors listeners orders)

/-- Each executor of the storage status list but the driver is observed once and
the heuristic reports. What it reports reflects the listeners exactly when the
deviation of the bytes that were written is no more severe than one of the other
metrics or an even load. -/
theorem reflectsListeners_iff (heuristic : ExecutorLoadHeuristic) (platform : Platform)
    (listeners : Listeners storage) (orders : DataOrders) :
    ((nonDriverExecutors listeners orders).Nodup ∧
      ∀ execId, execId ∈ nonDriverExecutors listeners orders ↔ execId ≠ EXECUTOR_DRIVER_NAME ∧
        ∃ status ∈ listeners.executorsListener.storageStatusList, status.blockManagerId.executorId = execId) ∧
    (∃ result, heuristic.apply platform (applicationData listeners orders) = .ok (some result)) ∧
    (ReflectsListeners heuristic listeners orders platform ↔
      (looserSeverity heuristic (nonDriverExecutors listeners orders) (recordedOutputBytes listeners)).getValue ≤
        (severityOfRest heuristic listeners (nonDriverExecutors listeners orders)).getValue) := by
  obtain ⟨result, hresult, hseverity⟩ := @apply_eq _ heuristic listeners orders platform
  refine ⟨⟨nodup_nonDriverExecutors, fun _ => mem_nonDriverExecutors⟩, ⟨result, hresult⟩, ?_⟩
  have houtputBytes : ValueObserver.InRange ((nonDriverExecutors listeners orders).map (recordedOutputBytes listeners)) :=
    inRange_getOrZero
  have heven := Severity.getSeverityAscending_mono (.inr (ValueObserver.le_deviationFactor houtputBytes))
    heuristic.looserMetDevLimits
  refine Iff.trans ?_ (maxAll_replace_iff heven)
  constructor
  · rintro ⟨result', hresult', hreflects⟩
    obtain rfl := Option.some.inj (Except.ok.inj (hresult.symm.trans hresult'))
    exact hseverity.symm.trans hreflects
  · intro heq
    exact ⟨result, hresult, hseverity.trans heq⟩

/-- The limits that are used where none are configured. -/
def defaultLimits : ExecutorLoadHeuristic where
  heuristicConfData := ⟨"Spark Executor Load Balance", "ExecutorLoadHeuristic"⟩
  looserMetDevLimits := ⟨.ofRat (4 / 5), .ofRat 1, .ofRat (6 / 5), .ofRat (7 / 5)⟩
  metDevLimits := ⟨.ofRat (2 / 5), .ofRat (3 / 5), .ofRat (4 / 5), .ofRat 1⟩

theorem amount_oneGigabyte : 0 ≤ (2 ^ 30 : Int) ∧ (2 ^ 30 : Int) < 2 ^ 63 := by decide

theorem usedMem_new_range : 0 ≤ (0 : Int) ∧ (0 : Int) < 2 ^ 63 := ⟨le_refl 0, by decide⟩

/-- A driver and two executors, one of which has written all bytes. -/
def oneWriter : Listeners StorageStatusTrackingListener.blockSizes where
  applicationId := none
  sparkProperties _ := none
  storageStatusTrackingListener := {}
  executorsListener :=
    { storageStatusList := [⟨⟨"driver", "host:1"⟩, 500⟩, ⟨⟨"1", "host:2"⟩, 500⟩, ⟨⟨"2", "host:3"⟩, 500⟩]
      executorToOutputBytes := .putAll .empty [("2", ⟨2 ^ 30, amount_oneGigabyte⟩)] }
  jobProgressListener := {}
  maxUsedMem_range _ := usedMem_new_range

theorem not_reflectsListeners_oneWriter :
    ¬ ReflectsListeners defaultLimits oneWriter .insertion .plain := by
  have hreported : (defaultLimits.apply .plain (applicationData oneWriter .insertion)).toOption.join.map
      HeuristicResult.severity = some .NONE := by decide +kernel
  have hrecorded : recordedSeverity defaultLimits oneWriter (nonDriverExecutors oneWriter .insertion) =
      .MODERATE := by decide +kernel
  rintro ⟨result, hresult, hseverity⟩
  rw [hresult] at hreported
  have hnone : result.severity = .NONE := Option.some.inj hreported
  rw [hnone, hrecorded] at hseverity
  cases hseverity

end severity

end drelephant.spark
