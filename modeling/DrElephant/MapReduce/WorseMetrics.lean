import Mathlib.Data.List.Forall2
import DrElephant.MapReduce.Heuristics.MapReduceHeuristic

open collections drelephant.analysis drelephant.math ieee java.lang machine

namespace drelephant.mapreduce

/-- The same task with one non-negative counter raised. Counters are longs. -/
structure MapReduceTaskData.CounterRaised (raised : CounterName) (task task' : MapReduceTaskData) :
    Prop where
  others : { task' with counterHolder := task.counterHolder } = task
  counters : Option.Rel (fun counters counters' => ∀ counterName,
    0 ≤ counters.get counterName ∧ counters'.get counterName < 2 ^ 63 ∧
      if counterName = raised then counters.get counterName ≤ counters'.get counterName
      else counters'.get counterName = counters.get counterName) task.counterHolder task'.counterHolder

/-- The same task with longer shuffle or sort times and the same code execution
time. Times are longs. -/
structure MapReduceTaskData.ShuffleSortRaised (task task' : MapReduceTaskData) : Prop where
  sampled : task'.sampled = task.sampled
  exec : task'.getCodeExecutionTimeMs = task.getCodeExecutionTimeMs
  shuffle : -2 ^ 63 ≤ task.shuffleTimeMs ∧ task.shuffleTimeMs ≤ task'.shuffleTimeMs ∧
    task'.shuffleTimeMs < 2 ^ 63
  sort : -2 ^ 63 ≤ task.sortTimeMs ∧ task.sortTimeMs ≤ task'.sortTimeMs ∧ task'.sortTimeMs < 2 ^ 63

/-- The same task with a shorter code execution time, be it zero or negative. -/
structure MapReduceTaskData.ExecLowered (task task' : MapReduceTaskData) : Prop where
  sampled : task'.sampled = task.sampled
  exec : task'.getCodeExecutionTimeMs ≤ task.getCodeExecutionTimeMs
  shuffle : task'.shuffleTimeMs = task.shuffleTimeMs
  sort : task'.sortTimeMs = task.sortTimeMs

namespace MapReduceApplicationData

/-- Of tasks that are related one by one related metrics are read. -/
theorem Related.sampledMetrics {related : MapReduceTaskData → MapReduceTaskData → Prop}
    {data data' : MapReduceApplicationData} {α : Type} {relatedMetrics : α → α → Prop}
    {array : TaskArray} {read : MapReduceTaskData → Except JavaException α} {numTasks : Nat}
    {metrics : List α} (h : Related (List.Forall₂ related) data data')
    (hsampled : ∀ task task', related task task' → task'.sampled = task.sampled)
    (hread : ∀ task task' metrics, related task task' → read task = .ok metrics →
      ∃ metrics', read task' = .ok metrics' ∧ relatedMetrics metrics metrics')
    (hmetrics : data.sampledMetrics array read = .ok (numTasks, metrics)) :
    ∃ metrics', data'.sampledMetrics array read = .ok (numTasks, metrics') ∧
      List.Forall₂ relatedMetrics metrics metrics' := by
  simp only [MapReduceApplicationData.sampledMetrics, bind_eq_ok_iff, pure_eq_ok_iff] at hmetrics ⊢
  obtain ⟨tasks, htasks, metrics, hloop, hpair⟩ := hmetrics
  obtain ⟨rfl, rfl⟩ := Prod.mk.inj hpair
  obtain ⟨tasks', htasks', hrelated⟩ := h.getTasks htasks
  have hfilter : List.Forall₂ related (tasks.filter MapReduceTaskData.sampled)
      (tasks'.filter MapReduceTaskData.sampled) :=
    List.rel_filter (fun task task' h => Bool.eq_iff_iff.mp (hsampled task task' h).symm) hrelated
  obtain ⟨metrics', hloop', hmetrics'⟩ := mapM_related hread hfilter hloop
  exact ⟨metrics', ⟨tasks', htasks', metrics', hloop', by rw [hrelated.length_eq]⟩, hmetrics'⟩

end MapReduceApplicationData

/-- When a heuristic reports on the first job it also does on the second one,
with a severity that is related. -/
def SeveritiesRelated (related : Int → Int → Prop)
    (report report' : Except JavaException (Option HeuristicResult)) : Prop :=
  ∀ result, report = .ok (some result) → ∃ result', report' = .ok (some result') ∧
    related result.severity.getValue result'.severity.getValue

section averages

variable {α : Type} {relatedMetrics : α → α → Prop} {metrics metrics' : List α} {value : α → Int}

private theorem map_eq_of_related (h : List.Forall₂ relatedMetrics metrics metrics')
    (hvalue : ∀ a b, relatedMetrics a b → value b = value a) :
    metrics'.map value = metrics.map value := by
  induction h with
  | nil => rfl
  | cons hab _ ih => rw [List.map_cons, List.map_cons, hvalue _ _ hab, ih]

private theorem forall_of_related {p : α → α → Prop} (h : List.Forall₂ relatedMetrics metrics metrics')
    (hp : ∀ a b, relatedMetrics a b → p a b) :
    (∀ a ∈ metrics, ∃ b, p a b) ∧ ∀ b ∈ metrics', ∃ a, p a b := by
  induction h with
  | nil => simp
  | cons hab _ ih =>
    simp only [List.forall_mem_cons]
    exact ⟨⟨⟨_, hp _ _ hab⟩, ih.1⟩, ⟨_, hp _ _ hab⟩, ih.2⟩

private theorem map_le_of_related (h : List.Forall₂ relatedMetrics metrics metrics')
    (hvalue : ∀ a b, relatedMetrics a b → value a ≤ value b) :
    List.Forall₂ (· ≤ ·) (metrics.map value) (metrics'.map value) := by
  rw [List.forall₂_map_left_iff, List.forall₂_map_right_iff]
  exact h.imp hvalue

private theorem average_le_of_related (h : List.Forall₂ relatedMetrics metrics metrics')
    (hvalue : ∀ a b, relatedMetrics a b → -2 ^ 63 ≤ value a ∧ value a ≤ value b ∧ value b < 2 ^ 63) :
    Statistics.average (metrics.map value) ≤ Statistics.average (metrics'.map value) := by
  obtain ⟨hlo, hhi⟩ := forall_of_related h hvalue
  refine Statistics.average_mono (map_le_of_related h fun a b hab => (hvalue a b hab).2.1) ?_ ?_
  · simp only [List.mem_map, forall_exists_index, and_imp, forall_apply_eq_imp_iff₂]
    intro a ha
    obtain ⟨b, hlo, -⟩ := hlo a ha
    exact hlo
  · simp only [List.mem_map, forall_exists_index, and_imp, forall_apply_eq_imp_iff₂]
    intro b hb
    obtain ⟨a, -, -, hhi⟩ := hhi b hb
    exact hhi.le

private theorem sum_nonneg_of_related (h : List.Forall₂ relatedMetrics metrics metrics')
    (hvalue : ∀ a b, relatedMetrics a b → 0 ≤ value a) : 0 ≤ (metrics.map value).sum := by
  refine List.sum_nonneg ?_
  simp only [List.mem_map, forall_exists_index, and_imp, forall_apply_eq_imp_iff₂]
  intro a ha
  obtain ⟨_, hlo⟩ := (forall_of_related h hvalue).1 a ha
  exact hlo

private theorem average_nonneg_of_related (h : List.Forall₂ relatedMetrics metrics metrics')
    (hvalue : ∀ a b, relatedMetrics a b → 0 ≤ value a ∧ value a < 2 ^ 63) :
    0 ≤ Statistics.average (metrics.map value) := by
  obtain ⟨hrange, -⟩ := forall_of_related h hvalue
  refine Statistics.average_nonneg ?_ ?_
  all_goals
    simp only [List.mem_map, forall_exists_index, and_imp, forall_apply_eq_imp_iff₂]
    intro a ha
    obtain ⟨_, hlo, hhi⟩ := hrange a ha
    omega

end averages

section report

variable {related : MapReduceTaskData → MapReduceTaskData → Prop} {data data' : MapReduceApplicationData}
  {α : Type} {relatedMetrics : α → α → Prop} {relatedSeverity : Int → Int → Prop} {array : TaskArray}
  {read : MapReduceTaskData → Except JavaException α} (report : Nat → List α → HeuristicResult)

private theorem bind_report_related (h : data.Related (List.Forall₂ related) data')
    (hsampled : ∀ task task', related task task' → task'.sampled = task.sampled)
    (hread : ∀ task task' metrics, related task task' → read task = .ok metrics →
      ∃ metrics', read task' = .ok metrics' ∧ relatedMetrics metrics metrics')
    (hreport : ∀ numTasks metrics metrics', data.sampledMetrics array read = .ok (numTasks, metrics) →
      data'.sampledMetrics array read = .ok (numTasks, metrics') →
      List.Forall₂ relatedMetrics metrics metrics' →
      relatedSeverity (report numTasks metrics).severity.getValue
        (report numTasks metrics').severity.getValue) :
    SeveritiesRelated relatedSeverity
      (data.sampledMetrics array read >>= fun sampled => pure (some (report sampled.1 sampled.2)))
      (data'.sampledMetrics array read >>= fun sampled => pure (some (report sampled.1 sampled.2))) := by
  intro result hresult
  simp only [bind_eq_ok_iff, pure_eq_ok_iff] at hresult ⊢
  obtain ⟨⟨numTasks, metrics⟩, hmetrics, hreported⟩ := hresult
  obtain rfl := Option.some.inj hreported
  obtain ⟨metrics', hmetrics', hrelated⟩ := h.sampledMetrics hsampled hread hmetrics
  exact ⟨_, ⟨(numTasks, metrics'), hmetrics', rfl⟩,
    hreport numTasks metrics metrics' hmetrics hmetrics' hrelated⟩

/-- No heuristic but the one for exceptions reports on a failed job. -/
private theorem succeeded_related {x x' : Except JavaException (Option HeuristicResult)}
    (h : data.Related (List.Forall₂ related) data') (hx : SeveritiesRelated relatedSeverity x x') :
    SeveritiesRelated relatedSeverity (if !data.succeeded then .ok none else x)
      (if !data'.succeeded then .ok none else x') := by
  rw [h.succeeded]
  split
  · intro result hresult
    cases hresult
  · exact hx

end report

theorem MapReduceTaskData.CounterRaised.sampled {raised : CounterName} {task task' : MapReduceTaskData}
    (h : task.CounterRaised raised task') : task'.sampled = task.sampled := by
  simpa using congrArg MapReduceTaskData.sampled h.others

theorem MapReduceTaskData.CounterRaised.totalTimeMs {raised : CounterName}
    {task task' : MapReduceTaskData} (h : task.CounterRaised raised task') :
    task'.totalTimeMs = task.totalTimeMs := by
  simpa using congrArg MapReduceTaskData.totalTimeMs h.others

theorem MapReduceTaskData.CounterRaised.counter {raised : CounterName} {task task' : MapReduceTaskData}
    (h : task.CounterRaised raised task') {counterName : CounterName} {value : Int}
    (hvalue : task.counter counterName = .ok value) :
    ∃ value', task'.counter counterName = .ok value' ∧ 0 ≤ value ∧ value' < 2 ^ 63 ∧
      if counterName = raised then value ≤ value' else value' = value := by
  simp only [MapReduceTaskData.counter, bind_eq_ok_iff, pure_eq_ok_iff, dereference_eq_ok_iff]
    at hvalue ⊢
  obtain ⟨counterHolder, hholder, rfl⟩ := hvalue
  have hcounters := h.counters
  rw [hholder] at hcounters
  cases hholder' : task'.counterHolder with
  | none =>
    rw [hholder'] at hcounters
    cases hcounters
  | some counterHolder' =>
    rw [hholder'] at hcounters
    cases hcounters with
    | some hcounters => exact ⟨_, ⟨_, rfl, rfl⟩, hcounters counterName⟩

section GC

/-- What is read of a task and of the same task with a longer GC time. -/
private structure GCRaised (metrics metrics' : GCMetrics) : Prop where
  runtimeMs : metrics'.runtimeMs = metrics.runtimeMs
  cpuMs : metrics'.cpuMs = metrics.cpuMs
  cpu_range : 0 ≤ metrics.cpuMs ∧ metrics.cpuMs < 2 ^ 63
  gcMs : 0 ≤ metrics.gcMs ∧ metrics.gcMs ≤ metrics'.gcMs ∧ metrics'.gcMs < 2 ^ 63

private theorem read_gcRaised {task task' : MapReduceTaskData} {metrics : GCMetrics}
    (h : task.CounterRaised .GC_MILLISECONDS task')
    (hread : GenericGCHeuristic.read task = .ok metrics) :
    ∃ metrics', GenericGCHeuristic.read task' = .ok metrics' ∧ GCRaised metrics metrics' := by
  simp only [GenericGCHeuristic.read, bind_eq_ok_iff, pure_eq_ok_iff] at hread ⊢
  obtain ⟨gcMs, hgc, cpuMs, hcpu, rfl⟩ := hread
  obtain ⟨gcMs', hgc', hgclo, hgchi, hgcle⟩ := h.counter hgc
  obtain ⟨cpuMs', hcpu', hcpulo, hcpuhi, hcpueq⟩ := h.counter hcpu
  rw [if_pos rfl] at hgcle
  rw [if_neg (by decide)] at hcpueq
  subst hcpueq
  exact ⟨_, ⟨gcMs', hgc', cpuMs', hcpu', rfl⟩, h.totalTimeMs, rfl, ⟨hcpulo, hcpuhi⟩,
    ⟨hgclo, hgcle, hgchi⟩⟩

private theorem getGcRatioSeverity_mono (heuristic : GenericGCHeuristic) (runtimeMs : Int)
    {cpuMs gcMs gcMs' : Int} (hcpu : 0 ≤ cpuMs ∧ cpuMs ≤ 2 ^ 63) (hgc : 0 ≤ gcMs) (hle : gcMs ≤ gcMs')
    (hgc' : gcMs' ≤ 2 ^ 63) :
    (heuristic.getGcRatioSeverity runtimeMs cpuMs gcMs).getValue ≤
      (heuristic.getGcRatioSeverity runtimeMs cpuMs gcMs').getValue := by
  have hratio : ((Binary64.ofInt gcMs).div (.ofInt cpuMs)) = .nan ∨
      ((Binary64.ofInt gcMs).div (.ofInt cpuMs)).le ((Binary64.ofInt gcMs').div (.ofInt cpuMs)) := by
    rw [(Binary64.ofInt_of_range (by omega) (by omega : gcMs ≤ 2 ^ 63)).1,
      (Binary64.ofInt_of_range (by omega) (by omega : gcMs' ≤ 2 ^ 63)).1,
      (Binary64.ofInt_of_range (by omega) (by omega : cpuMs ≤ 2 ^ 63)).1]
    exact Binary64.div_mono_or_nan (Binary64.roundFinite_nonneg (by exact_mod_cast hgc))
      (roundFinite_mono (by exact_mod_cast hle)) (Binary64.roundFinite_nonneg (by exact_mod_cast hcpu.1))
  simp only [GenericGCHeuristic.getGcRatioSeverity, Severity.getValue_min]
  exact min_le_min_right _ (Severity.getSeverityAscending_mono hratio heuristic.gcRatioLimits)

/-- Raising the GC time of tasks never lowers the severity. -/
private theorem genericGC_related (heuristic : GenericGCHeuristic) (formats : NumberFormats)
    {data data' : MapReduceApplicationData}
    (h : data.Related (List.Forall₂ (MapReduceTaskData.CounterRaised .GC_MILLISECONDS)) data') :
    SeveritiesRelated (· ≤ ·) (heuristic.apply formats data) (heuristic.apply formats data') := by
  refine succeeded_related h ?_
  refine bind_report_related (heuristic.report formats) h
    (fun _ _ => MapReduceTaskData.CounterRaised.sampled) (fun _ _ _ => read_gcRaised) ?_
  intro numTasks metrics metrics' _ _ hrelated
  simp only [GenericGCHeuristic.report, HeuristicResult.addResultDetail_severity,
    HeuristicResult.new_severity]
  split
  · exact le_rfl
  · rw [map_eq_of_related hrelated fun _ _ h => GCRaised.runtimeMs h,
      map_eq_of_related hrelated fun _ _ h => GCRaised.cpuMs h]
    refine getGcRatioSeverity_mono heuristic _ ⟨?_, (Statistics.average_range _).2.trans (by omega)⟩
      ?_ ?_ ((Statistics.average_range _).2.trans (by omega))
    · exact average_nonneg_of_related hrelated fun _ _ h => GCRaised.cpu_range h
    · exact average_nonneg_of_related hrelated fun _ _ h =>
        ⟨h.gcMs.1, h.gcMs.2.1.trans_lt h.gcMs.2.2⟩
    · exact average_le_of_related hrelated fun _ _ h =>
        ⟨(by decide : -2 ^ 63 ≤ (0 : Int)).trans h.gcMs.1, h.gcMs.2⟩

end GC

section spill

/-- What is read of a task and of the same task with more spilled records. -/
private structure SpillsRaised (metrics metrics' : SpillMetrics) : Prop where
  spills : 0 ≤ metrics.spills ∧ metrics.spills ≤ metrics'.spills
  outputRecords : metrics'.outputRecords = metrics.outputRecords
  output_nonneg : 0 ≤ metrics.outputRecords

private theorem read_spillsRaised {task task' : MapReduceTaskData} {metrics : SpillMetrics}
    (h : task.CounterRaised .SPILLED_RECORDS task')
    (hread : MapperSpillHeuristic.read task = .ok metrics) :
    ∃ metrics', MapperSpillHeuristic.read task' = .ok metrics' ∧ SpillsRaised metrics metrics' := by
  simp only [MapperSpillHeuristic.read, bind_eq_ok_iff, pure_eq_ok_iff] at hread ⊢
  obtain ⟨spills, hspills, outputRecords, houtput, rfl⟩ := hread
  obtain ⟨spills', hspills', hlo, -, hle⟩ := h.counter hspills
  obtain ⟨outputRecords', houtput', houtputlo, -, houtputeq⟩ := h.counter houtput
  rw [if_pos rfl] at hle
  rw [if_neg (by decide)] at houtputeq
  subst houtputeq
  exact ⟨_, ⟨spills', hspills', outputRecords', houtput', rfl⟩, ⟨hlo, hle⟩, rfl, houtputlo⟩

private theorem ratioSpills_mono {spills spills' outputRecords : Int} (hspills : 0 ≤ spills)
    (hle : spills ≤ spills') (hspills' : spills' < 2 ^ 63)
    (houtput : 0 ≤ outputRecords ∧ outputRecords < 2 ^ 63) :
    (MapperSpillHeuristic.ratioSpills spills outputRecords).le
      (MapperSpillHeuristic.ratioSpills spills' outputRecords) := by
  have hzero : Binary64.ofInt 0 = .finite 0 := Binary64.ofInt_eq_finite (by simp)
  simp only [MapperSpillHeuristic.ratioSpills]
  by_cases hspillszero : spills' = 0
  · rw [if_pos (by omega), if_pos hspillszero]
    exact Binary64.le_refl (by simp [hzero])
  · have hpos' : 0 < roundFinite spills' := Binary64.roundFinite_pos (by omega)
    have houtputnonneg : 0 ≤ roundFinite outputRecords :=
      Binary64.roundFinite_nonneg (by exact_mod_cast houtput.1)
    rw [if_neg hspillszero, (Binary64.ofInt_of_range (by omega) (by omega : spills' ≤ 2 ^ 63)).1,
      (Binary64.ofInt_of_range (by omega) (by omega : outputRecords ≤ 2 ^ 63)).1]
    by_cases hfirst : spills = 0
    · rw [if_pos hfirst, hzero]
      exact Binary64.zero_le_div hpos' houtputnonneg
    · have hpos : 0 < roundFinite spills := Binary64.roundFinite_pos (by omega)
      rw [if_neg hfirst, (Binary64.ofInt_of_range (by omega) (by omega : spills ≤ 2 ^ 63)).1]
      refine (Binary64.div_mono_or_nan hpos.le (roundFinite_mono (by exact_mod_cast hle))
        houtputnonneg).resolve_left (Binary64.div_ne_nan (.inl hpos.ne'))

private theorem getSpillSeverity_mono (heuristic : MapperSpillHeuristic) {ratio ratio' : Binary64}
    (h : ratio.le ratio') :
    (heuristic.getSpillSeverity ratio).getValue ≤ (heuristic.getSpillSeverity ratio').getValue := by
  have hfactor : Binary64.ofInt THRESHOLD_SPILL_FACTOR = .finite 10000 :=
    Binary64.ofInt_eq_finite (by decide)
  have hlong : (ratio.mul (.finite 10000)).toLong ≤ (ratio'.mul (.finite 10000)).toLong :=
    Binary64.toLong_mono (Binary64.mul_mono h (by norm_num))
  simp only [MapperSpillHeuristic.getSpillSeverity, hfactor]
  exact Severity.getSeverityAscending_mono (.inr (Binary64.ofInt_mono hlong)) heuristic.spillLimits

/-- The totals of the sampled tasks fit in longs. -/
def MapReduceApplicationData.SpillTotalsFit (data : MapReduceApplicationData) : Prop :=
  data.SampledSatisfy .mapper MapperSpillHeuristic.read fun metrics =>
    (metrics.map SpillMetrics.spills).sum < 2 ^ 63 ∧
      (metrics.map SpillMetrics.outputRecords).sum < 2 ^ 63

/-- Raising the spilled records of tasks never lowers the severity. -/
private theorem mapperSpill_related (heuristic : MapperSpillHeuristic) (formats : NumberFormats)
    {data data' : MapReduceApplicationData}
    (h : data.Related (List.Forall₂ (MapReduceTaskData.CounterRaised .SPILLED_RECORDS)) data')
    (hfit : data'.SpillTotalsFit) :
    SeveritiesRelated (· ≤ ·) (heuristic.apply formats data) (heuristic.apply formats data') := by
  refine succeeded_related h ?_
  refine bind_report_related (heuristic.report formats) h
    (fun _ _ => MapReduceTaskData.CounterRaised.sampled) (fun _ _ _ => read_spillsRaised) ?_
  intro numTasks metrics metrics' _ hmetrics' hrelated
  obtain ⟨hspillsfit, houtputfit⟩ := hfit numTasks metrics' hmetrics'
  have houtputeq : metrics'.map SpillMetrics.outputRecords = metrics.map SpillMetrics.outputRecords :=
    map_eq_of_related hrelated fun _ _ h => h.outputRecords
  have hle : (metrics.map SpillMetrics.spills).sum ≤ (metrics'.map SpillMetrics.spills).sum :=
    (map_le_of_related hrelated fun _ _ h => h.spills.2).sum_le_sum
  have hspills : 0 ≤ (metrics.map SpillMetrics.spills).sum :=
    sum_nonneg_of_related hrelated fun _ _ h => h.spills.1
  have houtput : 0 ≤ (metrics.map SpillMetrics.outputRecords).sum :=
    sum_nonneg_of_related hrelated fun _ _ h => h.output_nonneg
  rw [houtputeq] at houtputfit
  simp only [MapperSpillHeuristic.report, HeuristicResult.addResultDetail_severity,
    HeuristicResult.new_severity, Severity.getValue_min, sum64_eq, houtputeq]
  rw [wrap64_eq_self (by omega) (by omega), wrap64_eq_self (by omega) (by omega),
    wrap64_eq_self (by omega) (by omega)]
  have hseverity := getSpillSeverity_mono heuristic
    (ratioSpills_mono hspills hle hspillsfit ⟨houtput, houtputfit⟩)
  exact min_le_min_right _ hseverity

end spill

section shuffleSort

/-- The averages that are doubled fit in longs when they are. -/
def ShuffleSortAveragesFit (metrics : List ShuffleSortMetrics) : Prop :=
  (-2 ^ 62 ≤ Statistics.average (metrics.map ShuffleSortMetrics.shuffleTimeMs) ∧
    Statistics.average (metrics.map ShuffleSortMetrics.shuffleTimeMs) < 2 ^ 62) ∧
  (-2 ^ 62 ≤ Statistics.average (metrics.map ShuffleSortMetrics.sortTimeMs) ∧
    Statistics.average (metrics.map ShuffleSortMetrics.sortTimeMs) < 2 ^ 62)

def ShuffleSortAveragesNonneg (metrics : List ShuffleSortMetrics) : Prop :=
  0 ≤ Statistics.average (metrics.map ShuffleSortMetrics.shuffleTimeMs) ∧
    0 ≤ Statistics.average (metrics.map ShuffleSortMetrics.sortTimeMs)

private theorem getShuffleSortSeverity_mono (heuristic : ShuffleSortHeuristic) {runtimeMs runtimeMs' : Int}
    {codetimeMs : Int} (hle : runtimeMs ≤ runtimeMs') (hlo : -2 ^ 62 ≤ runtimeMs)
    (hhi : runtimeMs' < 2 ^ 62) :
    (heuristic.getShuffleSortSeverity runtimeMs codetimeMs).getValue ≤
      (heuristic.getShuffleSortSeverity runtimeMs' codetimeMs).getValue := by
  have hruntime := Severity.getSeverityAscending_mono (.inr (Binary64.ofInt_mono hle))
    heuristic.runtimeLimits
  simp only [ShuffleSortHeuristic.getShuffleSortSeverity]
  split_ifs with hcode
  · exact hruntime
  · have hvalue : (wrap64 (runtimeMs * 2)).tdiv codetimeMs ≤ (wrap64 (runtimeMs' * 2)).tdiv codetimeMs := by
      rw [wrap64_eq_self (by omega) (by omega), wrap64_eq_self (by omega) (by omega)]
      exact Int.tdiv_le_tdiv (by omega) (by omega)
    rw [Severity.getValue_min, Severity.getValue_min]
    exact min_le_min hruntime
      (Severity.getSeverityAscending_mono (.inr (Binary64.ofInt_mono hvalue)) heuristic.runtimeRatioLimits)

private theorem getShuffleSortSeverity_anti (heuristic : ShuffleSortHeuristic) {runtimeMs : Int}
    {codetimeMs codetimeMs' : Int} (hle : codetimeMs' ≤ codetimeMs) (hlo : 0 ≤ runtimeMs)
    (hhi : runtimeMs < 2 ^ 62) :
    (heuristic.getShuffleSortSeverity runtimeMs codetimeMs).getValue ≤
      (heuristic.getShuffleSortSeverity runtimeMs codetimeMs').getValue := by
  simp only [ShuffleSortHeuristic.getShuffleSortSeverity]
  split_ifs with hcode hcode'
  · exact le_rfl
  · omega
  · rw [Severity.getValue_min]
    exact min_le_left _ _
  · have hvalue : (wrap64 (runtimeMs * 2)).tdiv codetimeMs ≤ (wrap64 (runtimeMs * 2)).tdiv codetimeMs' := by
      rw [wrap64_eq_self (by omega) (by omega), Int.tdiv_eq_ediv_of_nonneg (by omega),
        Int.tdiv_eq_ediv_of_nonneg (by omega)]
      have hquotient : 0 ≤ runtimeMs * 2 / codetimeMs := Int.ediv_nonneg (by omega) (by omega)
      refine Int.le_ediv_of_mul_le (by omega) ?_
      calc runtimeMs * 2 / codetimeMs * codetimeMs' ≤ runtimeMs * 2 / codetimeMs * codetimeMs :=
            Int.mul_le_mul_of_nonneg_left hle hquotient
        _ ≤ runtimeMs * 2 := Int.ediv_mul_le _ (by omega)
    rw [Severity.getValue_min, Severity.getValue_min]
    exact min_le_min_left _
      (Severity.getSeverityAscending_mono (.inr (Binary64.ofInt_mono hvalue)) heuristic.runtimeRatioLimits)

private theorem severity_max_mono {a b a' b' : Severity} (ha : a.getValue ≤ a'.getValue)
    (hb : b.getValue ≤ b'.getValue) : (Severity.max a b).getValue ≤ (Severity.max a' b').getValue := by
  rw [Severity.getValue_max, Severity.getValue_max]
  exact max_le_max ha hb

/-- What is read of a task and of the same task with longer shuffle or sort times. -/
private structure TimesRaised (metrics metrics' : ShuffleSortMetrics) : Prop where
  exec : metrics'.execTimeMs = metrics.execTimeMs
  shuffle : -2 ^ 63 ≤ metrics.shuffleTimeMs ∧ metrics.shuffleTimeMs ≤ metrics'.shuffleTimeMs ∧
    metrics'.shuffleTimeMs < 2 ^ 63
  sort : -2 ^ 63 ≤ metrics.sortTimeMs ∧ metrics.sortTimeMs ≤ metrics'.sortTimeMs ∧
    metrics'.sortTimeMs < 2 ^ 63

/-- Raising the shuffle or sort times of reducers never lowers the severity. -/
private theorem shuffleSort_raised (heuristic : ShuffleSortHeuristic) (formats : NumberFormats)
    {data data' : MapReduceApplicationData}
    (h : data.Related (List.Forall₂ MapReduceTaskData.ShuffleSortRaised) data')
    (hfit : data.SampledSatisfy .reducer ShuffleSortHeuristic.read ShuffleSortAveragesFit)
    (hfit' : data'.SampledSatisfy .reducer ShuffleSortHeuristic.read ShuffleSortAveragesFit) :
    SeveritiesRelated (· ≤ ·) (heuristic.apply formats data) (heuristic.apply formats data') := by
  have hread : ∀ task task' metrics, task.ShuffleSortRaised task' →
      ShuffleSortHeuristic.read task = .ok metrics →
      ∃ metrics', ShuffleSortHeuristic.read task' = .ok metrics' ∧ TimesRaised metrics metrics' := by
    intro task task' metrics h hread
    obtain rfl := pure_eq_ok_iff.mp hread
    exact ⟨_, rfl, h.exec, h.shuffle, h.sort⟩
  refine succeeded_related h ?_
  refine bind_report_related (heuristic.report formats) h
    (fun _ _ => MapReduceTaskData.ShuffleSortRaised.sampled) hread ?_
  intro numTasks metrics metrics' hmetrics hmetrics' hrelated
  obtain ⟨⟨hshufflelo, -⟩, hsortlo, -⟩ := hfit numTasks metrics hmetrics
  obtain ⟨⟨-, hshufflehi⟩, -, hsorthi⟩ := hfit' numTasks metrics' hmetrics'
  have hexec : metrics'.map ShuffleSortMetrics.execTimeMs = metrics.map ShuffleSortMetrics.execTimeMs :=
    map_eq_of_related hrelated fun _ _ h => h.exec
  simp only [ShuffleSortHeuristic.report, HeuristicResult.addResultDetail_severity,
    HeuristicResult.new_severity, hexec]
  apply severity_max_mono
  · exact getShuffleSortSeverity_mono heuristic
      (average_le_of_related hrelated fun _ _ h => h.shuffle) hshufflelo hshufflehi
  · exact getShuffleSortSeverity_mono heuristic
      (average_le_of_related hrelated fun _ _ h => h.sort) hsortlo hsorthi

/-- What is read of a task and of the same task with a shorter code execution time. -/
private structure ExecLowered (metrics metrics' : ShuffleSortMetrics) : Prop where
  exec : -2 ^ 63 ≤ metrics'.execTimeMs ∧ metrics'.execTimeMs ≤ metrics.execTimeMs ∧
    metrics.execTimeMs < 2 ^ 63
  shuffle : metrics'.shuffleTimeMs = metrics.shuffleTimeMs
  sort : metrics'.sortTimeMs = metrics.sortTimeMs

/-- Lowering the code execution times of reducers never lowers the severity,
as long as the average shuffle and sort times are not negative. -/
private theorem shuffleSort_execLowered (heuristic : ShuffleSortHeuristic) (formats : NumberFormats)
    {data data' : MapReduceApplicationData}
    (h : data.Related (List.Forall₂ MapReduceTaskData.ExecLowered) data')
    (hfit : data.SampledSatisfy .reducer ShuffleSortHeuristic.read ShuffleSortAveragesFit)
    (hnonneg : data.SampledSatisfy .reducer ShuffleSortHeuristic.read ShuffleSortAveragesNonneg) :
    SeveritiesRelated (· ≤ ·) (heuristic.apply formats data) (heuristic.apply formats data') := by
  have hread : ∀ task task' metrics, task.ExecLowered task' →
      ShuffleSortHeuristic.read task = .ok metrics →
      ∃ metrics', ShuffleSortHeuristic.read task' = .ok metrics' ∧ ExecLowered metrics metrics' := by
    intro task task' metrics h hread
    obtain rfl := pure_eq_ok_iff.mp hread
    exact ⟨_, rfl, ⟨(wrap64_range _).1, h.exec, (wrap64_range _).2⟩, h.shuffle, h.sort⟩
  refine succeeded_related h ?_
  refine bind_report_related (heuristic.report formats) h
    (fun _ _ => MapReduceTaskData.ExecLowered.sampled) hread ?_
  intro numTasks metrics metrics' hmetrics _ hrelated
  obtain ⟨⟨-, hshufflehi⟩, -, hsorthi⟩ := hfit numTasks metrics hmetrics
  obtain ⟨hshufflelo, hsortlo⟩ := hnonneg numTasks metrics hmetrics
  have hshuffle : metrics'.map ShuffleSortMetrics.shuffleTimeMs =
      metrics.map ShuffleSortMetrics.shuffleTimeMs :=
    map_eq_of_related hrelated fun _ _ h => h.shuffle
  have hsort : metrics'.map ShuffleSortMetrics.sortTimeMs = metrics.map ShuffleSortMetrics.sortTimeMs :=
    map_eq_of_related hrelated fun _ _ h => h.sort
  have hexec : Statistics.average (metrics'.map ShuffleSortMetrics.execTimeMs) ≤
      Statistics.average (metrics.map ShuffleSortMetrics.execTimeMs) := by
    have hflip : List.Forall₂ (flip ExecLowered) metrics' metrics := hrelated.flip
    exact average_le_of_related hflip fun _ _ h => h.exec
  simp only [ShuffleSortHeuristic.report, HeuristicResult.addResultDetail_severity,
    HeuristicResult.new_severity, hshuffle, hsort]
  apply severity_max_mono
  · exact getShuffleSortSeverity_anti heuristic hexec hshufflelo hshufflehi
  · exact getShuffleSortSeverity_anti heuristic hexec hsortlo hsorthi

end shuffleSort

section memory

/-- What is read of a task and of the same task with more physical memory. -/
private structure MemoryRaised (metrics metrics' : MemoryMetrics) : Prop where
  taskPMem : -2 ^ 63 ≤ metrics.taskPMem ∧ metrics.taskPMem ≤ metrics'.taskPMem ∧
    metrics'.taskPMem < 2 ^ 63

private theorem read_memoryRaised {task task' : MapReduceTaskData} {metrics : MemoryMetrics}
    (h : task.CounterRaised .PHYSICAL_MEMORY_BYTES task')
    (hread : GenericMemoryHeuristic.read task = .ok metrics) :
    ∃ metrics', GenericMemoryHeuristic.read task' = .ok metrics' ∧ MemoryRaised metrics metrics' := by
  simp only [GenericMemoryHeuristic.read, bind_eq_ok_iff, pure_eq_ok_iff] at hread ⊢
  obtain ⟨taskPMem, hpmem, taskVMem, hvmem, rfl⟩ := hread
  obtain ⟨taskPMem', hpmem', hlo, hhi, hle⟩ := h.counter hpmem
  obtain ⟨taskVMem', hvmem', -⟩ := h.counter hvmem
  rw [if_pos rfl] at hle
  exact ⟨_, ⟨taskPMem', hpmem', taskVMem', hvmem', rfl⟩,
    (by decide : -2 ^ 63 ≤ (0 : Int)).trans hlo, hle, hhi⟩

private theorem getTaskMemoryUtilSeverity_anti (heuristic : GenericMemoryHeuristic)
    {taskMemAvg taskMemAvg' taskMemMax : Int} (hle : taskMemAvg ≤ taskMemAvg')
    (hlo : -2 ^ 63 ≤ taskMemAvg) (hhi : taskMemAvg' ≤ 2 ^ 63) (hmax : 0 < taskMemMax) :
    (heuristic.getTaskMemoryUtilSeverity taskMemAvg' taskMemMax).getValue ≤
      (heuristic.getTaskMemoryUtilSeverity taskMemAvg taskMemMax).getValue := by
  have hratio : ((Binary64.ofInt taskMemAvg).div (.ofInt taskMemMax)).le
      ((Binary64.ofInt taskMemAvg').div (.ofInt taskMemMax)) := by
    rw [(Binary64.ofInt_of_range hlo (by omega)).1, (Binary64.ofInt_of_range (by omega) hhi).1]
    exact Binary64.div_ofInt_mono (roundFinite_mono (by exact_mod_cast hle)) hmax
  simp only [GenericMemoryHeuristic.getTaskMemoryUtilSeverity, Severity.getValue_min]
  exact min_le_min_right _ (Severity.getSeverityDescending_anti hratio heuristic.memRatioLimits)

/-- The container size in bytes, when there is one. -/
def MapReduceApplicationData.ContainerPositive (data : MapReduceApplicationData)
    (digit : Char → Option Nat) (containerMemConf : String) : Prop :=
  ∀ conf containerSizeStr containerMem, data.jobConf = some conf →
    conf containerMemConf = some containerSizeStr →
    GenericMemoryHeuristic.containerMemory digit conf containerSizeStr = .ok containerMem →
    0 < wrap64 (containerMem * ONE_MB)

/-- Raising the physical memory of tasks never raises the severity. -/
private theorem genericMemory_related (heuristic : GenericMemoryHeuristic) (formats : NumberFormats)
    (digit : Char → Option Nat) {data data' : MapReduceApplicationData}
    (h : data.Related (List.Forall₂ (MapReduceTaskData.CounterRaised .PHYSICAL_MEMORY_BYTES)) data')
    (hpositive : data.ContainerPositive digit heuristic.containerMemConf) :
    SeveritiesRelated (· ≥ ·) (heuristic.apply formats digit data)
      (heuristic.apply formats digit data') := by
  have hreport : ∀ containerMem, 0 < containerMem → ∀ numTasks metrics metrics',
      data.sampledMetrics heuristic.tasks GenericMemoryHeuristic.read = .ok (numTasks, metrics) →
      data'.sampledMetrics heuristic.tasks GenericMemoryHeuristic.read = .ok (numTasks, metrics') →
      List.Forall₂ MemoryRaised metrics metrics' →
      (heuristic.report formats containerMem numTasks metrics).severity.getValue ≥
        (heuristic.report formats containerMem numTasks metrics').severity.getValue := by
    intro containerMem hmax numTasks metrics metrics' _ _ hrelated
    simp only [GenericMemoryHeuristic.report, HeuristicResult.addResultDetail_severity,
      HeuristicResult.new_severity]
    split
    · exact le_rfl
    · exact getTaskMemoryUtilSeverity_anti heuristic
        (average_le_of_related hrelated fun _ _ h => h.taskPMem) (Statistics.average_range _).1
        ((Statistics.average_range _).2.trans (by omega)) hmax
  refine succeeded_related h ?_
  rw [h.jobConf]
  intro result hresult
  rw [bind_eq_ok_iff] at hresult
  obtain ⟨conf, hconf, hresult⟩ := hresult
  rw [hconf]
  cases hsize : conf heuristic.containerMemConf with
  | none =>
    rw [hsize] at hresult
    cases hresult
  | some containerSizeStr =>
    simp only [hsize] at hresult
    rw [bind_eq_ok_iff] at hresult
    obtain ⟨containerMem, hmem, hresult⟩ := hresult
    have hmax := hpositive conf containerSizeStr containerMem (dereference_eq_ok_iff.mp hconf) hsize hmem
    obtain ⟨result', hresult', hseverity⟩ :=
      bind_report_related (heuristic.report formats (wrap64 (containerMem * ONE_MB))) h
        (fun _ _ => MapReduceTaskData.CounterRaised.sampled) (fun _ _ _ => read_memoryRaised)
        (hreport _ hmax) result hresult
    refine ⟨result', ?_, hseverity⟩
    rw [bind_eq_ok_iff]
    refine ⟨conf, rfl, ?_⟩
    simp only [hsize]
    rw [bind_eq_ok_iff]
    exact ⟨containerMem, hmem, hresult'⟩

end memory

/-- Worse metrics never lower a severity, whatever the thresholds are: longer GC
times, more spilled records, longer shuffle or sort times, shorter code
execution times next to shuffle and sort times that are not negative. More
physical memory never raises one. -/
theorem worse_metrics_no_less_severe (formats : NumberFormats) (digit : Char → Option Nat) :
    (∀ (heuristic : GenericGCHeuristic) (data data' : MapReduceApplicationData),
      data.Related (List.Forall₂ (MapReduceTaskData.CounterRaised .GC_MILLISECONDS)) data' →
      SeveritiesRelated (· ≤ ·) (heuristic.apply formats data) (heuristic.apply formats data')) ∧
    (∀ (heuristic : MapperSpillHeuristic) (data data' : MapReduceApplicationData),
      data.Related (List.Forall₂ (MapReduceTaskData.CounterRaised .SPILLED_RECORDS)) data' →
      data'.SpillTotalsFit →
      SeveritiesRelated (· ≤ ·) (heuristic.apply formats data) (heuristic.apply formats data')) ∧
    (∀ (heuristic : ShuffleSortHeuristic) (data data' : MapReduceApplicationData),
      data.Related (List.Forall₂ MapReduceTaskData.ShuffleSortRaised) data' →
      data.SampledSatisfy .reducer ShuffleSortHeuristic.read ShuffleSortAveragesFit →
      data'.SampledSatisfy .reducer ShuffleSortHeuristic.read ShuffleSortAveragesFit →
      SeveritiesRelated (· ≤ ·) (heuristic.apply formats data) (heuristic.apply formats data')) ∧
    (∀ (heuristic : ShuffleSortHeuristic) (data data' : MapReduceApplicationData),
      data.Related (List.Forall₂ MapReduceTaskData.ExecLowered) data' →
      data.SampledSatisfy .reducer ShuffleSortHeuristic.read ShuffleSortAveragesFit →
      data.SampledSatisfy .reducer ShuffleSortHeuristic.read ShuffleSortAveragesNonneg →
      SeveritiesRelated (· ≤ ·) (heuristic.apply formats data) (heuristic.apply formats data')) ∧
    (∀ (heuristic : GenericMemoryHeuristic) (data data' : MapReduceApplicationData),
      data.Related (List.Forall₂ (MapReduceTaskData.CounterRaised .PHYSICAL_MEMORY_BYTES)) data' →
      data.ContainerPositive digit heuristic.containerMemConf →
      SeveritiesRelated (· ≥ ·) (heuristic.apply formats digit data)
        (heuristic.apply formats digit data')) :=
  ⟨fun heuristic _ _ h => genericGC_related heuristic formats h,
    fun heuristic _ _ h hfit => mapperSpill_related heuristic formats h hfit,
    fun heuristic _ _ h hfit hfit' => shuffleSort_raised heuristic formats h hfit hfit',
    fun heuristic _ _ h hfit hnonneg => shuffleSort_execLowered heuristic formats h hfit hnonneg,
    fun heuristic _ _ h hpositive => genericMemory_related heuristic formats digit h hpositive⟩

private theorem ofTasks_related {related : MapReduceTaskData → MapReduceTaskData → Prop}
    {tasks tasks' : List MapReduceTaskData} (h : List.Forall₂ related tasks tasks') :
    (ofTasks tasks).Related (List.Forall₂ related) (ofTasks tasks') :=
  ⟨.some h, .some h, rfl⟩

private theorem taskWithCounter_raised {counterName : CounterName} {value value' : Int}
    (hlo : 0 ≤ value) (hle : value ≤ value') (hhi : value' < 2 ^ 63) :
    (taskWithCounter counterName value).CounterRaised counterName (taskWithCounter counterName value') := by
  refine ⟨rfl, .some fun name => ?_⟩
  have hget := fun value => Except.ok.inj (counter_taskWithCounter counterName name value)
  simp only [hget]
  split <;> omega

private theorem sampledSatisfy_ofTasks {α : Type} {tasks : List MapReduceTaskData} {array : TaskArray}
    {read : MapReduceTaskData → Except JavaException α} {metrics : List α} {property : List α → Prop}
    (hread : (tasks.filter MapReduceTaskData.sampled).mapM read = .ok metrics) (h : property metrics) :
    (ofTasks tasks).SampledSatisfy array read property := by
  have hmetrics : (ofTasks tasks).sampledMetrics array read = .ok (tasks.length, metrics) := by
    cases array <;>
      simp [MapReduceApplicationData.sampledMetrics, MapReduceApplicationData.getTasks, ofTasks,
        MapReduceTaskData.readSampled, hread, bind, Except.bind, pure, Except.pure]
  intro numTasks metrics' hmetrics'
  rw [hmetrics] at hmetrics'
  obtain ⟨-, rfl⟩ := Prod.mk.inj (Except.ok.inj hmetrics')
  exact h

/-- Two tasks with each of the metrics made worse in both or in one of them. -/
theorem worse_metrics_twoTasks :
    let limits : Severity.Limits := ⟨.ofInt 1, .ofInt 2, .ofInt 3, .ofInt 4⟩
    let conf : HeuristicConfigurationData := ⟨"", ""⟩
    let formats : NumberFormats := ⟨toString, fun _ => "", fun _ => ""⟩
    let digit : Char → Option Nat := fun c => if c = '1' then some 1 else none
    let counted := fun counterName first second =>
      ofTasks [taskWithCounter counterName first, taskWithCounter counterName second]
    let timed := fun first second => ofTasks [first, second]
    SeveritiesRelated (· ≤ ·)
      ((MapperGCHeuristic conf limits limits).apply formats (counted .GC_MILLISECONDS 1 3))
      ((MapperGCHeuristic conf limits limits).apply formats (counted .GC_MILLISECONDS 5 3)) ∧
    SeveritiesRelated (· ≤ ·)
      ((MapperSpillHeuristic.mk conf limits limits).apply formats (counted .SPILLED_RECORDS 1 2))
      ((MapperSpillHeuristic.mk conf limits limits).apply formats (counted .SPILLED_RECORDS 5 8)) ∧
    SeveritiesRelated (· ≤ ·)
      ((ShuffleSortHeuristic.mk conf limits limits).apply formats
        (timed (taskWithTimes 10 1 1) (taskWithTimes 20 4 6)))
      ((ShuffleSortHeuristic.mk conf limits limits).apply formats
        (timed (taskWithTimes 12 2 2) (taskWithTimes 28 8 10))) ∧
    SeveritiesRelated (· ≤ ·)
      ((ShuffleSortHeuristic.mk conf limits limits).apply formats
        (timed (taskWithTimes 10 1 1) (taskWithTimes 20 4 6)))
      ((ShuffleSortHeuristic.mk conf limits limits).apply formats
        (timed (taskWithTimes 5 1 1) (taskWithTimes 15 4 6))) ∧
    SeveritiesRelated (· ≥ ·)
      ((MapperMemoryHeuristic conf limits limits).apply formats digit
        (counted .PHYSICAL_MEMORY_BYTES 1 7))
      ((MapperMemoryHeuristic conf limits limits).apply formats digit
        (counted .PHYSICAL_MEMORY_BYTES 5 9)) := by
  intro limits conf formats digit counted timed
  have hcounted : ∀ {counterName : CounterName} {first first' second second' : Int},
      0 ≤ first → first ≤ first' → first' < 2 ^ 63 → 0 ≤ second → second ≤ second' →
      second' < 2 ^ 63 → (counted counterName first second).Related
        (List.Forall₂ (MapReduceTaskData.CounterRaised counterName))
        (counted counterName first' second') :=
    fun hlo hle hhi hlo' hle' hhi' => ofTasks_related
      (.cons (taskWithCounter_raised hlo hle hhi) (.cons (taskWithCounter_raised hlo' hle' hhi') .nil))
  have hfit : ∀ first second : ShuffleSortMetrics,
      0 ≤ first.shuffleTimeMs → 0 ≤ second.shuffleTimeMs → 0 ≤ first.sortTimeMs →
      0 ≤ second.sortTimeMs → first.shuffleTimeMs + second.shuffleTimeMs < 2 ^ 53 →
      first.sortTimeMs + second.sortTimeMs < 2 ^ 53 →
      ShuffleSortAveragesFit [first, second] ∧ ShuffleSortAveragesNonneg [first, second] := by
    intro first second hshuffle hshuffle' hsort hsort' hshuffles hsorts
    have haverage : ∀ value value' : Int, 0 ≤ value → 0 ≤ value' → value + value' < 2 ^ 53 →
        Statistics.average [value, value'] = (value + value') / 2 := by
      intro value value' hvalue hvalue' hsum
      rw [Statistics.average_eq (by simp) (by simp [hvalue, hvalue']) (by simpa using hsum)]
      simp
    simp only [ShuffleSortAveragesFit, ShuffleSortAveragesNonneg, List.map_cons, List.map_nil,
      haverage _ _ hshuffle hshuffle' hshuffles, haverage _ _ hsort hsort' hsorts]
    omega
  have htimes := hfit ⟨8, 1, 1⟩ ⟨10, 4, 6⟩ (by decide) (by decide) (by decide) (by decide)
    (by decide) (by decide)
  have htimes' := hfit ⟨8, 2, 2⟩ ⟨10, 8, 10⟩ (by decide) (by decide) (by decide) (by decide)
    (by decide) (by decide)
  obtain ⟨hgc, hspill, hraised, hlowered, hmemory⟩ := worse_metrics_no_less_severe formats digit
  refine ⟨hgc _ _ _ (hcounted (by decide) (by decide) (by decide) (by decide) (by decide) (by decide)),
    hspill _ _ _ (hcounted (by decide) (by decide) (by decide) (by decide) (by decide) (by decide)) ?_,
    hraised _ _ _ (ofTasks_related (.cons ⟨rfl, by decide, by decide, by decide⟩
      (.cons ⟨rfl, by decide, by decide, by decide⟩ .nil))) ?_ ?_,
    hlowered _ _ _ (ofTasks_related (.cons ⟨rfl, by decide, rfl, rfl⟩
      (.cons ⟨rfl, by decide, rfl, rfl⟩ .nil))) ?_ ?_,
    hmemory _ _ _ (hcounted (by decide) (by decide) (by decide) (by decide) (by decide) (by decide)) ?_⟩
  · have hread : ∀ value : Int, MapperSpillHeuristic.read (taskWithCounter .SPILLED_RECORDS value) =
        .ok ⟨value, 0⟩ := by
      intro value
      simp [MapperSpillHeuristic.read, counter_taskWithCounter, bind, Except.bind, pure, Except.pure]
    have hsampled : [taskWithCounter .SPILLED_RECORDS 5, taskWithCounter .SPILLED_RECORDS 8].filter
        MapReduceTaskData.sampled =
          [taskWithCounter .SPILLED_RECORDS 5, taskWithCounter .SPILLED_RECORDS 8] := rfl
    have hreads : [taskWithCounter .SPILLED_RECORDS 5, taskWithCounter .SPILLED_RECORDS 8].mapM
        MapperSpillHeuristic.read = .ok [⟨5, 0⟩, ⟨8, 0⟩] := by
      simp [List.mapM_cons, hread, bind, Except.bind, pure, Except.pure]
    exact sampledSatisfy_ofTasks (hsampled ▸ hreads) (by decide)
  · exact sampledSatisfy_ofTasks rfl htimes.1
  · exact sampledSatisfy_ofTasks rfl htimes'.1
  · exact sampledSatisfy_ofTasks rfl htimes.1
  · exact sampledSatisfy_ofTasks rfl htimes.2
  · rintro conf containerSizeStr containerMem hconf hsize hmem
    obtain rfl := Option.some.inj hconf
    obtain rfl := Option.some.inj hsize
    have hcontainer : GenericMemoryHeuristic.containerMemory digit (fun _ => some "1") "1" = .ok 1 := by
      decide
    rw [hcontainer] at hmem
    obtain rfl := Except.ok.inj hmem
    decide

/-- A shorter code execution time lowers the severity from CRITICAL to NONE:
nothing checks the sign of the times that the history server reports. -/
theorem execLowered_negative_times :
    let heuristic : ShuffleSortHeuristic := {
      heuristicConfData := ⟨"Shuffle & Sort", "ShuffleSortHeuristic"⟩
      runtimeRatioLimits := ⟨.ofInt 0, .ofInt 0, .ofInt 0, .ofInt 0⟩
      runtimeLimits := ⟨.ofInt (-1), .ofInt (-1), .ofInt (-1), .ofInt (-1)⟩ }
    let formats : NumberFormats := ⟨toString, fun _ => "", fun _ => ""⟩
    let data := oneTask (taskWithTimes 8 (-1) (-1))
    let data' := oneTask (taskWithTimes 0 (-1) (-1))
    data.Related (List.Forall₂ MapReduceTaskData.ExecLowered) data' ∧
      data.SampledSatisfy .reducer ShuffleSortHeuristic.read ShuffleSortAveragesFit ∧
      ¬ SeveritiesRelated (· ≤ ·) (heuristic.apply formats data) (heuristic.apply formats data') := by
  intro heuristic formats data data'
  have hnegative : Binary64.ofInt (-1) = .finite (-1) := by
    simpa using Binary64.ofInt_eq_finite (by decide : |(-1 : Int)| ≤ 2 ^ 53)
  have hzero : Binary64.ofInt 0 = .finite 0 := Binary64.ofInt_eq_finite (by decide)
  have haverage : ∀ value : Int, |value| ≤ 2 ^ 53 → Statistics.average [value] = value :=
    fun _ => Statistics.average_singleton
  have hfit : ShuffleSortAveragesFit [⟨10, -1, -1⟩] := by
    simp only [ShuffleSortAveragesFit, List.map_cons, List.map_nil]
    rw [haverage (-1) (by decide)]
    omega
  have hseverity : ∀ exec, |exec| ≤ 2 ^ 53 →
      (heuristic.report formats 1 [⟨exec, -1, -1⟩]).severity =
        heuristic.getShuffleSortSeverity (-1) exec := by
    intro exec hexec
    simp only [ShuffleSortHeuristic.report, HeuristicResult.addResultDetail_severity,
      HeuristicResult.new_severity, List.map_cons, List.map_nil]
    rw [haverage (-1) (by decide), haverage exec hexec]
    exact ite_self _
  have hbefore : heuristic.getShuffleSortSeverity (-1) 10 = .CRITICAL := by
    have hvalue : (wrap64 (-2)).tdiv 10 = 0 := by decide
    simp [ShuffleSortHeuristic.getShuffleSortSeverity, Severity.getSeverityAscending, hvalue,
      heuristic, hnegative, hzero, Severity.min]
  have hafter : heuristic.getShuffleSortSeverity (-1) 2 = .NONE := by
    have hvalue : (wrap64 (-2)).tdiv 2 = -1 := by decide
    norm_num [ShuffleSortHeuristic.getShuffleSortSeverity, Severity.getSeverityAscending, hvalue,
      heuristic, hnegative, hzero, Severity.min, Severity.getValue]
  refine ⟨ofTasks_related (.cons ⟨rfl, by decide, rfl, rfl⟩ .nil), sampledSatisfy_ofTasks rfl hfit, ?_⟩
  intro hrelated
  obtain ⟨result', hresult', hle⟩ := hrelated (heuristic.report formats 1 [⟨10, -1, -1⟩]) rfl
  have hreport' : heuristic.apply formats data' =
      .ok (some (heuristic.report formats 1 [⟨2, -1, -1⟩])) := rfl
  rw [hreport'] at hresult'
  obtain rfl := Option.some.inj (Except.ok.inj hresult')
  rw [hseverity 10 (by decide), hseverity 2 (by decide), hbefore, hafter] at hle
  exact absurd hle (by decide)

end drelephant.mapreduce
