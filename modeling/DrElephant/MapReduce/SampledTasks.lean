import DrElephant.MapReduce.MapReduceData

open java.lang

namespace drelephant.mapreduce

/-- The value of a counter of a task, 0 without counters. -/
def MapReduceTaskData.counterValue (task : MapReduceTaskData) (counterName : CounterName) : Int :=
  (task.counterHolder.map (·.get counterName)).getD 0

namespace MapReduceApplicationData

variable {data : MapReduceApplicationData} {array : TaskArray} {tasks : List MapReduceTaskData}

/-- A succeeded job, some of whose tasks are sampled. A sampled task has counters,
which are longs, and the length of an array is an int. -/
structure SampledTasks (data : MapReduceApplicationData) (array : TaskArray)
    (tasks : List MapReduceTaskData) : Prop where
  succeeded : data.succeeded = true
  getTasks : data.getTasks array = .ok tasks
  length : tasks.length < 2 ^ 31
  sampled : tasks.filter MapReduceTaskData.sampled ≠ []
  counters : ∀ task ∈ tasks.filter MapReduceTaskData.sampled, ∃ counters,
    task.counterHolder = some counters ∧
      ∀ counterName, -2 ^ 63 ≤ counters.get counterName ∧ counters.get counterName < 2 ^ 63

theorem SampledTasks.counter (h : data.SampledTasks array tasks) {task : MapReduceTaskData}
    (htask : task ∈ tasks.filter MapReduceTaskData.sampled) (counterName : CounterName) :
    task.counter counterName = .ok (task.counterValue counterName) := by
  obtain ⟨counters, hcounters, -⟩ := h.counters task htask
  simp [MapReduceTaskData.counter, MapReduceTaskData.counterValue, hcounters, bind, Except.bind, pure,
    Except.pure]

theorem SampledTasks.counterValue_range (h : data.SampledTasks array tasks) {task : MapReduceTaskData}
    (htask : task ∈ tasks.filter MapReduceTaskData.sampled) (counterName : CounterName) :
    -2 ^ 63 ≤ task.counterValue counterName ∧ task.counterValue counterName < 2 ^ 63 := by
  obtain ⟨counters, hcounters, hrange⟩ := h.counters task htask
  simpa [MapReduceTaskData.counterValue, hcounters] using hrange counterName

/-- What a heuristic reads when it can read every sampled task. -/
theorem SampledTasks.sampledMetrics (h : data.SampledTasks array tasks) {α : Type}
    {read : MapReduceTaskData → Except JavaException α} {metrics : MapReduceTaskData → α}
    (hread : ∀ task ∈ tasks.filter MapReduceTaskData.sampled, read task = .ok (metrics task)) :
    data.sampledMetrics array read =
      .ok (tasks.length, (tasks.filter MapReduceTaskData.sampled).map metrics) := by
  rw [MapReduceApplicationData.sampledMetrics, h.getTasks]
  simp only [MapReduceTaskData.readSampled, mapM_eq_ok hread, bind, Except.bind, pure, Except.pure]

/-- What a heuristic reports that looks at succeeded jobs only. -/
theorem SampledTasks.apply_eq (h : data.SampledTasks array tasks) {α β : Type}
    {read : MapReduceTaskData → Except JavaException α} {metrics : MapReduceTaskData → α}
    (hread : ∀ task ∈ tasks.filter MapReduceTaskData.sampled, read task = .ok (metrics task))
    (report : Nat → List α → β) :
    (if !data.succeeded then .ok none
      else data.sampledMetrics array read >>= fun result => pure (some (report result.1 result.2))) =
      (.ok (some (report tasks.length ((tasks.filter MapReduceTaskData.sampled).map metrics))) :
        Except JavaException (Option β)) := by
  rw [h.succeeded, h.sampledMetrics hread]
  rfl

/-- All tasks are sampled when there are as many sampled ones. -/
theorem length_sampled_eq_iff : (tasks.filter MapReduceTaskData.sampled).length = tasks.length ↔
    ∀ task ∈ tasks, task.sampled = true :=
  List.length_filter_eq_length_iff

/-- A job of mappers that are all alike, only some of which are sampled. -/
def partlySampled (task : MapReduceTaskData) (sampled unsampled : Nat) : MapReduceApplicationData where
  mapperData := some (List.replicate sampled { task with sampled := true } ++
    List.replicate unsampled { taskId := task.taskId, attemptId := task.attemptId })

/-- The mappers of such a job. -/
def partlySampledTasks (task : MapReduceTaskData) (sampled unsampled : Nat) : List MapReduceTaskData :=
  (partlySampled task sampled unsampled).mapperData.getD []

theorem length_partlySampledTasks (task : MapReduceTaskData) (sampled unsampled : Nat) :
    (partlySampledTasks task sampled unsampled).length = sampled + unsampled := by
  simp [partlySampledTasks, partlySampled]

theorem filter_partlySampledTasks (task : MapReduceTaskData) (sampled unsampled : Nat) :
    (partlySampledTasks task sampled unsampled).filter MapReduceTaskData.sampled =
      List.replicate sampled { task with sampled := true } := by
  simp [partlySampledTasks, partlySampled]

theorem counterValues_partlySampledTasks (task : MapReduceTaskData) (sampled unsampled : Nat)
    (counterName : CounterName) :
    ((partlySampledTasks task sampled unsampled).filter MapReduceTaskData.sampled).map
      (·.counterValue counterName) = List.replicate sampled (task.counterValue counterName) := by
  rw [filter_partlySampledTasks, List.map_replicate]
  rfl

theorem sampledTasks_partlySampled {task : MapReduceTaskData} {sampled unsampled : Nat}
    (hsampled : 0 < sampled) (hlength : sampled + unsampled < 2 ^ 31)
    (hcounters : ∃ counters, task.counterHolder = some counters ∧
      ∀ counterName, -2 ^ 63 ≤ counters.get counterName ∧ counters.get counterName < 2 ^ 63) :
    (partlySampled task sampled unsampled).SampledTasks .mapper
      (partlySampledTasks task sampled unsampled) := by
  refine ⟨rfl, rfl, by rwa [length_partlySampledTasks], ?_, ?_⟩
  · rw [filter_partlySampledTasks]
    simpa using hsampled.ne'
  · intro task' htask'
    rw [filter_partlySampledTasks] at htask'
    obtain rfl := List.eq_of_mem_replicate htask'
    exact hcounters

end MapReduceApplicationData

/-- The counters of a task that has a single one are longs. -/
theorem counters_taskWithCounter {counterName : CounterName} {value : Int} (hlo : -2 ^ 63 ≤ value)
    (hhi : value < 2 ^ 63) : ∃ counters, (taskWithCounter counterName value).counterHolder = some counters ∧
      ∀ name, -2 ^ 63 ≤ counters.get name ∧ counters.get name < 2 ^ 63 := by
  refine ⟨_, rfl, fun name => ?_⟩
  have hget : MapReduceCounterData.get _ name = if name = counterName then value else 0 :=
    Except.ok.inj (counter_taskWithCounter counterName name value)
  rw [hget]
  split <;> omega

end drelephant.mapreduce
