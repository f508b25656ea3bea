import DrElephant.MapReduce.Heuristics.MapperSpeed

open drelephant.analysis drelephant.math java.lang machine

namespace drelephant.mapreduce

/-- The bytes per second of a task, rounded down. -/
def MapReduceTaskData.exactSpeed (task : MapReduceTaskData) : Int :=
  1000 * ((task.counterHolder.map (·.get .HDFS_BYTES_READ)).getD 0) / task.totalTimeMs

/-- The number of bytes that a task has read, times 1000, as a long. -/
def MapReduceTaskData.product (task : MapReduceTaskData) : Int :=
  wrap64 (1000 * ((task.counterHolder.map (·.get .HDFS_BYTES_READ)).getD 0))

/-- What the heuristic is given: a sampled mapper has counters, which are
non-negative longs as its run time is. -/
structure MapReduceTaskData.Timed (task : MapReduceTaskData) : Prop where
  counters : ∃ counters, task.counterHolder = some counters ∧ 0 ≤ counters.get .HDFS_BYTES_READ ∧
    counters.get .HDFS_BYTES_READ < 2 ^ 63
  totalTimeMs : 0 ≤ task.totalTimeMs ∧ task.totalTimeMs < 2 ^ 63

/-- A succeeded job with mappers of which one at least is sampled, if there is any. -/
structure MapReduceApplicationData.TimedMappers (data : MapReduceApplicationData)
    (mappers : List MapReduceTaskData) : Prop where
  succeeded : data.succeeded = true
  mapperData : data.mapperData = some mappers
  sampled : mappers ≠ [] → mappers.filter MapReduceTaskData.sampled ≠ []
  timed : ∀ task ∈ mappers.filter MapReduceTaskData.sampled, task.Timed

namespace MapperSpeedHeuristic

/-- The heuristic reports on speeds that are not negative and whose median lies
between the speeds of two mappers. -/
def Reports (heuristic : MapperSpeedHeuristic) (formats : NumberFormats)
    (data : MapReduceApplicationData) (mappers : List MapReduceTaskData) : Prop :=
  ∃ metrics computed,
    data.sampledMetrics .mapper read = .ok (mappers.length, metrics) ∧
    (∀ task ∈ metrics, 0 ≤ task.speed) ∧
    medians mappers.length metrics = .ok computed ∧
    heuristic.apply formats data = .ok (some (heuristic.report formats mappers.length computed)) ∧
    (mappers ≠ [] →
      ∃ slowest ∈ mappers.filter MapReduceTaskData.sampled,
      ∃ fastest ∈ mappers.filter MapReduceTaskData.sampled,
        slowest.exactSpeed ≤ computed.speed ∧ computed.speed ≤ fastest.exactSpeed)

section read

variable {task : MapReduceTaskData}

/-- The number of bytes that a task has read, times 1000, fits in a long. -/
def ProductFits (task : MapReduceTaskData) : Prop :=
  ∀ counters, task.counterHolder = some counters → 1000 * counters.get .HDFS_BYTES_READ < 2 ^ 63

/-- Without a run time there is no speed. -/
theorem read_of_totalTimeMs_eq_zero (htimed : task.Timed) (hzero : task.totalTimeMs = 0) :
    read task = .error (.other "ArithmeticException") := by
  obtain ⟨counters, hcounters, -⟩ := htimed.counters
  rw [read, MapReduceTaskData.counter, hcounters]
  simp [divideLong, hzero, bind, Except.bind, pure, Except.pure]

/-- A speed that is not negative comes from a product that is not, or is too
small to count. -/
theorem neg_totalTimeMs_lt_product {metrics : SpeedMetrics} (htimed : task.Timed)
    (hread : read task = .ok metrics) (hspeed : 0 ≤ metrics.speed) : -task.totalTimeMs < task.product := by
  obtain ⟨counters, hcounters, -⟩ := htimed.counters
  simp only [read, MapReduceTaskData.counter, hcounters, dereference_some, bind_eq_ok_iff,
    pure_eq_ok_iff, Except.ok.injEq, exists_eq_left', divideLong] at hread
  obtain ⟨speed, hdivide, rfl⟩ := hread
  split at hdivide
  · cases hdivide
  · rename_i htime
    have htimepos : 0 < task.totalTimeMs := by
      have := htimed.totalTimeMs.1
      omega
    obtain rfl := Except.ok.inj hdivide
    simp only [MapReduceTaskData.product, hcounters, Option.map_some, Option.getD_some]
    generalize hproduct : wrap64 (1000 * counters.get .HDFS_BYTES_READ) = product at hspeed ⊢
    have hlo : -2 ^ 63 ≤ product := hproduct ▸ (wrap64_range _).1
    by_contra hnot
    have hquotient : product.tdiv task.totalTimeMs ≤ -1 := by
      refine (Int.tdiv_le_tdiv htimepos (not_lt.mp hnot)).trans ?_
      rw [Int.neg_tdiv, Int.tdiv_self htime]
    have habs := Int.natAbs_tdiv_le_natAbs product task.totalTimeMs
    rw [wrap64_eq_self (by omega) (by omega)] at hspeed
    exact absurd hspeed (not_le.mpr (hquotient.trans_lt (by decide)))

/-- With one the speed is exact, unless the product has wrapped around. -/
theorem read_of_productFits (htimed : task.Timed) (htime : task.totalTimeMs ≠ 0)
    (hfits : ProductFits task) :
    ∃ metrics, read task = .ok metrics ∧ metrics.speed = task.exactSpeed ∧ 0 ≤ task.exactSpeed ∧
      task.exactSpeed < 2 ^ 63 := by
  obtain ⟨counters, hcounters, hlo, hhi⟩ := htimed.counters
  obtain ⟨htimelo, htimehi⟩ := htimed.totalTimeMs
  have hproduct := hfits counters hcounters
  have hdiv := Int.ediv_le_self task.totalTimeMs (by omega : 0 ≤ 1000 * counters.get .HDFS_BYTES_READ)
  have hnonneg : 0 ≤ 1000 * counters.get .HDFS_BYTES_READ / task.totalTimeMs :=
    Int.ediv_nonneg (by omega) htimelo
  simp only [MapReduceTaskData.exactSpeed, hcounters, Option.map_some, Option.getD_some]
  refine ⟨⟨counters.get .HDFS_BYTES_READ, task.totalTimeMs, _⟩, ?_, rfl, hnonneg, by omega⟩
  rw [read, MapReduceTaskData.counter, hcounters]
  simp only [dereference_some, bind, Except.bind, pure, Except.pure, divideLong, if_neg htime]
  rw [wrap64_eq_self (by omega) hproduct, Int.tdiv_eq_ediv_of_nonneg (by omega),
    wrap64_eq_self (by omega) (by omega)]

end read

/-- Of an even number of speeds the two in the middle are added up in a long. -/
def MiddleFits (mappers : List MapReduceTaskData) : Prop :=
  let speeds := (mappers.filter MapReduceTaskData.sampled).map MapReduceTaskData.exactSpeed
  speeds.length % 2 = 0 → Statistics.lowerMiddle speeds + Statistics.upperMiddle speeds < 2 ^ 63

section median

variable {speeds : List Int}

/-- A median that has not wrapped around lies between two of the values. -/
private theorem median_between (hne : speeds ≠ []) (hnonneg : ∀ speed ∈ speeds, 0 ≤ speed)
    (hfits : speeds.length % 2 = 0 → Statistics.lowerMiddle speeds + Statistics.upperMiddle speeds < 2 ^ 63) :
    ∃ median, Statistics.median speeds = .ok median ∧ Statistics.lowerMiddle speeds ≤ median ∧
      median ≤ Statistics.upperMiddle speeds := by
  have hlower := hnonneg _ (Statistics.lowerMiddle_mem hne)
  have hle := Statistics.lowerMiddle_le_upperMiddle hne
  refine ⟨_, Statistics.median_eq hne, ?_⟩
  split
  · rename_i heven
    have hsum := hfits heven
    rw [wrap64_eq_self (by omega) (by omega), Int.tdiv_eq_ediv_of_nonneg (by omega)]
    omega
  · exact ⟨hle, le_rfl⟩

/-- A median that has wrapped around is negative. -/
private theorem median_neg (hne : speeds ≠ []) (hrange : ∀ speed ∈ speeds, 0 ≤ speed ∧ speed < 2 ^ 63)
    (heven : speeds.length % 2 = 0)
    (hsum : 2 ^ 63 ≤ Statistics.lowerMiddle speeds + Statistics.upperMiddle speeds) {median : Int}
    (hmedian : Statistics.median speeds = .ok median) : median < 0 := by
  have hlower := hrange _ (Statistics.lowerMiddle_mem hne)
  have hupper := hrange _ (Statistics.upperMiddle_mem hne)
  rw [Statistics.median_eq hne, if_pos heven] at hmedian
  obtain rfl := Except.ok.inj hmedian
  have hsign : Int.sign 2 = 1 := rfl
  rw [wrap64_eq_sub hsum (by omega), Int.tdiv_eq_ediv]
  split <;> omega

end median

section reports

variable {heuristic : MapperSpeedHeuristic} {formats : NumberFormats} {data : MapReduceApplicationData}
  {mappers : List MapReduceTaskData}

private theorem sampledMetrics_eq_ok_iff (h : data.TimedMappers mappers) {numTasks : Nat}
    {metrics : List SpeedMetrics} :
    data.sampledMetrics .mapper read = .ok (numTasks, metrics) ↔
      (mappers.filter MapReduceTaskData.sampled).mapM read = .ok metrics ∧ mappers.length = numTasks := by
  simp only [MapReduceApplicationData.sampledMetrics, MapReduceApplicationData.getTasks, h.mapperData,
    dereference_some, MapReduceTaskData.readSampled, bind_eq_ok_iff, pure_eq_ok_iff]
  constructor
  · rintro ⟨_, ⟨⟩, _, hloop, ⟨⟩⟩
    exact ⟨hloop, rfl⟩
  · rintro ⟨hloop, rfl⟩
    exact ⟨mappers, rfl, metrics, hloop, rfl⟩

private theorem speeds_eq {tasks : List MapReduceTaskData} {metrics : List SpeedMetrics}
    (h : List.Forall₂ (fun task metric => SpeedMetrics.speed metric = task.exactSpeed ∧
      0 ≤ task.exactSpeed ∧ task.exactSpeed < 2 ^ 63) tasks metrics) :
    metrics.map SpeedMetrics.speed = tasks.map MapReduceTaskData.exactSpeed ∧
      ∀ metric ∈ metrics, 0 ≤ metric.speed ∧ metric.speed < 2 ^ 63 := by
  induction h with
  | nil => simp
  | cons hmetric _ ih =>
    obtain ⟨hspeed, hlo, hhi⟩ := hmetric
    rw [List.map_cons, List.map_cons, hspeed, ih.1, List.forall_mem_cons, hspeed]
    exact ⟨rfl, ⟨hlo, hhi⟩, ih.2⟩

/-- With run times and without overflow the heuristic computes the exact speeds. -/
private theorem exactSpeeds (h : data.TimedMappers mappers)
    (htimes : ∀ task ∈ mappers.filter MapReduceTaskData.sampled, task.totalTimeMs ≠ 0)
    (hfits : ∀ task ∈ mappers.filter MapReduceTaskData.sampled, ProductFits task) :
    ∃ metrics, data.sampledMetrics .mapper read = .ok (mappers.length, metrics) ∧
      metrics.map SpeedMetrics.speed =
        (mappers.filter MapReduceTaskData.sampled).map MapReduceTaskData.exactSpeed ∧
      ∀ metric ∈ metrics, 0 ≤ metric.speed ∧ metric.speed < 2 ^ 63 := by
  obtain ⟨metrics, hloop, hmetrics⟩ := mapM_ok_of_forall fun task htask =>
    read_of_productFits (h.timed task htask) (htimes task htask) (hfits task htask)
  exact ⟨metrics, (sampledMetrics_eq_ok_iff h).mpr ⟨hloop, rfl⟩, speeds_eq hmetrics⟩

private theorem apply_eq (h : data.TimedMappers mappers) {metrics : List SpeedMetrics}
    {computed : SpeedMedians}
    (hmetrics : data.sampledMetrics .mapper read = .ok (mappers.length, metrics))
    (hcomputed : medians mappers.length metrics = .ok computed) :
    heuristic.apply formats data = .ok (some (heuristic.report formats mappers.length computed)) := by
  rw [apply, h.succeeded, hmetrics]
  simp only [Bool.not_true, Bool.false_eq_true, if_false, bind, Except.bind, hcomputed]
  rfl

private theorem medians_ok {numTasks : Nat} {metrics : List SpeedMetrics} (hnum : numTasks ≠ 0)
    (hne : metrics ≠ []) {speed : Int}
    (hspeed : Statistics.median (metrics.map SpeedMetrics.speed) = .ok speed) :
    ∃ computed, medians numTasks metrics = .ok computed ∧ computed.speed = speed := by
  rw [medians, if_pos hnum, hspeed, Statistics.median_eq (by simpa using hne),
    Statistics.median_eq (by simpa using hne)]
  exact ⟨_, rfl, rfl⟩

theorem reports_of_fits (h : data.TimedMappers mappers)
    (htimes : ∀ task ∈ mappers.filter MapReduceTaskData.sampled, task.totalTimeMs ≠ 0)
    (hfits : ∀ task ∈ mappers.filter MapReduceTaskData.sampled, ProductFits task)
    (hmiddle : MiddleFits mappers) : heuristic.Reports formats data mappers := by
  obtain ⟨metrics, hmetrics, hspeeds, hrange⟩ := exactSpeeds h htimes hfits
  by_cases hmappers : mappers = []
  · subst hmappers
    have hmedians : medians 0 metrics = .ok {} := rfl
    exact ⟨metrics, {}, hmetrics, fun task htask => (hrange task htask).1, hmedians,
      apply_eq h hmetrics hmedians, fun hne => absurd rfl hne⟩
  · have hne : metrics.map SpeedMetrics.speed ≠ [] := by
      rw [hspeeds]
      simpa using h.sampled hmappers
    have hnonneg : ∀ speed ∈ metrics.map SpeedMetrics.speed, 0 ≤ speed := by
      rw [List.forall_mem_map]
      exact fun metric hmetric => (hrange metric hmetric).1
    obtain ⟨median, hmedian, hlower, hupper⟩ := median_between hne hnonneg (by rwa [hspeeds])
    obtain ⟨computed, hcomputed, rfl⟩ := medians_ok (mt List.length_eq_zero_iff.mp hmappers)
      (by simpa using hne) hmedian
    have hlowermem := Statistics.lowerMiddle_mem hne
    have huppermem := Statistics.upperMiddle_mem hne
    rw [hspeeds] at hlower hupper hlowermem huppermem
    obtain ⟨slowest, hslowest, hslow⟩ := List.mem_map.mp hlowermem
    obtain ⟨fastest, hfastest, hfast⟩ := List.mem_map.mp huppermem
    exact ⟨metrics, computed, hmetrics, fun task htask => (hrange task htask).1, hcomputed,
      apply_eq h hmetrics hcomputed, fun _ => ⟨slowest, hslowest, fastest, hfastest,
        hslow ▸ hlower, hfast ▸ hupper⟩⟩

/-- Mappers without a run time make the heuristic throw. -/
theorem Reports.times (h : data.TimedMappers mappers) (hreports : heuristic.Reports formats data mappers) :
    ∀ task ∈ mappers.filter MapReduceTaskData.sampled, task.totalTimeMs ≠ 0 := by
  obtain ⟨metrics, computed, hmetrics, -⟩ := hreports
  intro task htask hzero
  obtain ⟨hloop, -⟩ := (sampledMetrics_eq_ok_iff h).mp hmetrics
  obtain ⟨metric, -, hread⟩ := exists_ok_of_mapM hloop task htask
  rw [read_of_totalTimeMs_eq_zero (h.timed task htask) hzero] at hread
  cases hread

/-- Products that wrap around to less than the run time make negative speeds. -/
theorem Reports.products (h : data.TimedMappers mappers)
    (hreports : heuristic.Reports formats data mappers) :
    ∀ task ∈ mappers.filter MapReduceTaskData.sampled, -task.totalTimeMs < task.product := by
  obtain ⟨metrics, computed, hmetrics, hspeeds, -⟩ := hreports
  intro task htask
  obtain ⟨hloop, -⟩ := (sampledMetrics_eq_ok_iff h).mp hmetrics
  obtain ⟨metric, hmetric, hread⟩ := exists_ok_of_mapM hloop task htask
  exact neg_totalTimeMs_lt_product (h.timed task htask) hread (hspeeds metric hmetric)

/-- Where no product wraps around the two speeds in the middle have to fit. -/
theorem Reports.middleFits (h : data.TimedMappers mappers)
    (hreports : heuristic.Reports formats data mappers)
    (hfits : ∀ task ∈ mappers.filter MapReduceTaskData.sampled, ProductFits task) :
    MiddleFits mappers := by
  obtain ⟨metrics, hmetrics, hspeeds, hrange⟩ := exactSpeeds h (hreports.times h) hfits
  obtain ⟨metrics', computed, hmetrics', -, hcomputed, -, hbetween⟩ := hreports
  rw [hmetrics] at hmetrics'
  obtain ⟨-, rfl⟩ := Prod.mk.inj (Except.ok.inj hmetrics')
  intro heven
  by_contra hsum
  by_cases hmappers : mappers = []
  · subst hmappers
    exact hsum (by decide)
  · have hne : metrics.map SpeedMetrics.speed ≠ [] := by
      rw [hspeeds]
      simpa using h.sampled hmappers
    have hmedian := Statistics.median_eq hne
    obtain ⟨computed', hcomputed', hspeed⟩ := medians_ok (mt List.length_eq_zero_iff.mp hmappers)
      (by simpa using hne) hmedian
    rw [hcomputed] at hcomputed'
    obtain rfl := Except.ok.inj hcomputed'
    have hneg : computed.speed < 0 := by
      refine median_neg hne (List.forall_mem_map.mpr hrange) (by rwa [hspeeds]) ?_ (hspeed ▸ hmedian)
      rw [hspeeds]
      omega
    obtain ⟨slowest, hslowest, -, -, hslow, -⟩ := hbetween hmappers
    have hmem : slowest.exactSpeed ∈ metrics.map SpeedMetrics.speed :=
      hspeeds ▸ List.mem_map_of_mem hslowest
    obtain ⟨metric, hmetric, heq⟩ := List.mem_map.mp hmem
    have := (hrange metric hmetric).1
    omega

end reports

/-- Speed analysis works on mappers that have run for some time, have read so
few bytes that 1000 times as many fit in a long, and whose speeds in the middle
add up to a long. It fails without a run time, where a product wraps around far
enough to be negative, and where only the sum in the middle wraps around. -/
theorem reports_spec (heuristic : MapperSpeedHeuristic) (formats : NumberFormats)
    {data : MapReduceApplicationData} {mappers : List MapReduceTaskData} (h : data.TimedMappers mappers) :
    ((∀ task ∈ mappers.filter MapReduceTaskData.sampled, task.totalTimeMs ≠ 0 ∧ ProductFits task) ∧
        MiddleFits mappers → heuristic.Reports formats data mappers) ∧
      (heuristic.Reports formats data mappers →
        (∀ task ∈ mappers.filter MapReduceTaskData.sampled,
          task.totalTimeMs ≠ 0 ∧ -task.totalTimeMs < task.product) ∧
        ((∀ task ∈ mappers.filter MapReduceTaskData.sampled, ProductFits task) → MiddleFits mappers)) :=
  ⟨fun ⟨htasks, hmiddle⟩ => reports_of_fits h (fun task htask => (htasks task htask).1)
      (fun task htask => (htasks task htask).2) hmiddle,
    fun hreports => ⟨fun task htask => ⟨hreports.times h task htask, hreports.products h task htask⟩,
      hreports.middleFits h⟩⟩

/-- A mapper that has read the given number of bytes in the given time. -/
def timedMapper (bytes totalTimeMs : Int) : MapReduceTaskData :=
  (taskWithCounter .HDFS_BYTES_READ bytes).setTime (totalTimeMs, 0, 0)

private theorem get_timedMapper (bytes totalTimeMs : Int) {counters : MapReduceCounterData}
    (h : (timedMapper bytes totalTimeMs).counterHolder = some counters) :
    counters.get .HDFS_BYTES_READ = bytes := by
  obtain rfl := Option.some.inj h
  exact Except.ok.inj (counter_taskWithCounter .HDFS_BYTES_READ .HDFS_BYTES_READ bytes)

private theorem timed_timedMapper {bytes totalTimeMs : Int} (hbytes : 0 ≤ bytes ∧ bytes < 2 ^ 63)
    (htime : 0 ≤ totalTimeMs ∧ totalTimeMs < 2 ^ 63) : (timedMapper bytes totalTimeMs).Timed := by
  refine ⟨⟨_, rfl, ?_⟩, htime.1, htime.2⟩
  rw [get_timedMapper bytes totalTimeMs rfl]
  exact hbytes

theorem reports_spec_twoMappers :
    Reports ⟨⟨"Mapper Speed", "MapperSpeedHeuristic"⟩,
        ⟨.ofInt 50, .ofInt 30, .ofInt 10, .ofInt 1⟩, ⟨.ofInt 1, .ofInt 2, .ofInt 3, .ofInt 4⟩⟩
      ⟨toString, fun _ => "", fun _ => ""⟩ (ofTasks [timedMapper 5000 20, timedMapper 70 7])
      [timedMapper 5000 20, timedMapper 70 7] := by
  have htimed : (ofTasks [timedMapper 5000 20, timedMapper 70 7]).TimedMappers
      [timedMapper 5000 20, timedMapper 70 7] := by
    refine ⟨rfl, rfl, fun _ => List.cons_ne_nil _ _, fun task htask => ?_⟩
    rcases List.mem_cons.mp (List.mem_filter.mp htask).1 with rfl | hlast
    · exact timed_timedMapper (by decide) (by decide)
    · obtain rfl := List.mem_singleton.mp hlast
      exact timed_timedMapper (by decide) (by decide)
  refine (reports_spec _ _ htimed).1 ⟨fun task htask => ?_, fun _ => by decide⟩
  rcases List.mem_cons.mp (List.mem_filter.mp htask).1 with rfl | hlast
  · refine ⟨by decide, fun counters hcounters => ?_⟩
    rw [get_timedMapper 5000 20 hcounters]
    decide
  · obtain rfl := List.mem_singleton.mp hlast
    refine ⟨by decide, fun counters hcounters => ?_⟩
    rw [get_timedMapper 70 7 hcounters]
    decide

/-- A mapper that started and finished within one millisecond has no speed. -/
theorem not_reports_zero_runtime :
    (oneTask (timedMapper 5 0)).TimedMappers [timedMapper 5 0] ∧
      ¬ Reports ⟨⟨"Mapper Speed", "MapperSpeedHeuristic"⟩,
          ⟨.ofInt 50, .ofInt 30, .ofInt 10, .ofInt 1⟩, ⟨.ofInt 1, .ofInt 2, .ofInt 3, .ofInt 4⟩⟩
        ⟨toString, fun _ => "", fun _ => ""⟩ (oneTask (timedMapper 5 0)) [timedMapper 5 0] := by
  have htimed : (oneTask (timedMapper 5 0)).TimedMappers [timedMapper 5 0] := by
    refine ⟨rfl, rfl, fun _ => List.cons_ne_nil _ _, fun task htask => ?_⟩
    obtain rfl := List.mem_singleton.mp (List.mem_filter.mp htask).1
    exact timed_timedMapper (by decide) (by decide)
  refine ⟨htimed, fun hreports => ?_⟩
  exact hreports.times htimed _ (List.mem_filter.mpr ⟨List.mem_cons_self, rfl⟩) rfl

end MapperSpeedHeuristic

end drelephant.mapreduce
