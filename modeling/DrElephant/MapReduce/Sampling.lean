import DrElephant.MapReduce.Heuristics.MapReduceHeuristic
import DrElephant.MapReduce.MapReduceFetcherHadoop2

open drelephant.analysis drelephant.math jackson java.lang machine collections

namespace drelephant.mapreduce

section succeededTasks

/-- The text of a field, if the node has it. -/
def textOf (node : JsonNode) (field : String) : Option String :=
  (node.get? field).map JsonNode.getValueAsText

/-- The ids of the succeeded tasks among the nodes, those of the mappers or
those of the other types, with the ids of their attempts. -/
def succeededTasks (isMapper : Bool) (nodes : List JsonNode) : List (Option String × Option String) :=
  (nodes.filter fun node =>
    textOf node "state" == some "SUCCEEDED" && (textOf node "type" == some "MAP") == isMapper).map
      fun node => (textOf node "id", textOf node "successfulAttempt")

def MapReduceTaskData.ids (task : MapReduceTaskData) : Option String × Option String :=
  (some task.taskId, some task.attemptId)

/-- A task that has not been sampled yet. -/
def MapReduceTaskData.Fresh (task : MapReduceTaskData) : Prop :=
  task.sampled = false ∧ task.counterHolder = none

theorem getText_eq_ok_iff {node : JsonNode} {field text : String} :
    MapReduceFetcherHadoop2.getText node field = .ok text ↔ textOf node field = some text := by
  simp only [MapReduceFetcherHadoop2.getText, JsonNode.getOrThrow, textOf, bind_eq_ok_iff, pure_eq_ok_iff]
  cases node.get? field <;> simp

private theorem readTask_ok {node : JsonNode} {task : Option (Bool × MapReduceTaskData)}
    (h : MapReduceFetcherHadoop2.readTask node = .ok task) (isMapper : Bool) :
    succeededTasks isMapper [node] =
        ((task.filter (·.1 == isMapper)).map (·.2.ids)).toList ∧
      ∀ sampled ∈ task, sampled.2.Fresh := by
  simp only [MapReduceFetcherHadoop2.readTask, bind_eq_ok_iff] at h
  obtain ⟨state, hstate, h⟩ := h
  rw [getText_eq_ok_iff] at hstate
  split at h
  · rename_i hfailed
    obtain rfl := pure_eq_ok_iff.mp h
    simp [succeededTasks, hstate, hfailed]
  · rename_i hsucceeded
    simp only [bind_eq_ok_iff, pure_eq_ok_iff, getText_eq_ok_iff] at h
    obtain ⟨taskId, hid, attemptId, hattempt, type, htype, rfl⟩ := h
    rw [not_not] at hsucceeded
    refine ⟨?_, by rintro _ ⟨⟩; exact ⟨rfl, rfl⟩⟩
    simp only [succeededTasks, List.filter_singleton, hstate, hsucceeded, htype, MapReduceTaskData.ids,
      Option.filter_some, beq_self_eq_true, Bool.true_and, Option.some_beq_some]
    by_cases hkind : ((type == "MAP") == isMapper) = true <;> simp [hkind, hid, hattempt]

/-- What is read of a list of tasks are the ids of the succeeded ones. -/
private theorem readTasks_ok {nodes : List JsonNode} {tasks : List (Option (Bool × MapReduceTaskData))}
    (h : nodes.mapM MapReduceFetcherHadoop2.readTask = .ok tasks) (isMapper : Bool) :
    (tasks.filterMap fun task => (task.filter (·.1 == isMapper)).map Prod.snd).map
        MapReduceTaskData.ids = succeededTasks isMapper nodes ∧
      ∀ task ∈ tasks.filterMap fun task => (task.filter (·.1 == isMapper)).map Prod.snd,
        task.Fresh := by
  have hrelated := mapM_eq_ok_iff.mp h
  induction hrelated with
  | nil => simp [succeededTasks]
  | @cons node task nodes tasks hnode hnodes ih =>
    obtain ⟨hids, hfresh⟩ := readTask_ok hnode isMapper
    obtain ⟨hrestids, hrestfresh⟩ := ih (mapM_eq_ok_iff.mpr hnodes)
    have hsplit : succeededTasks isMapper (node :: nodes) =
        succeededTasks isMapper [node] ++ succeededTasks isMapper nodes := by
      simp only [succeededTasks, ← List.map_append, ← List.filter_append, List.singleton_append]
    rw [hsplit, hids, ← hrestids]
    cases hkind : task.filter (·.1 == isMapper) with
    | none =>
      simp only [List.filterMap_cons, hkind, Option.map_none]
      exact ⟨rfl, hrestfresh⟩
    | some sampled =>
      simp only [List.filterMap_cons, hkind, Option.map_some, List.forall_mem_cons]
      refine ⟨rfl, hfresh sampled ?_, hrestfresh⟩
      exact (Option.filter_eq_some_iff.mp hkind).1

end succeededTasks

section sampling

variable {fetcher : MapReduceFetcherHadoop2} {jobId : String}

/-- An array of tasks of which a sample has been fetched. -/
structure MapReduceFetcherHadoop2.SampledArray (fetcher : MapReduceFetcherHadoop2) (jobId : String)
    (tasks : List MapReduceTaskData) : Prop where
  numSampled : (tasks.filter MapReduceTaskData.sampled).length = min tasks.length 200
  sampled_iff : ∀ task ∈ tasks, task.sampled = true ↔ task.counterHolder ≠ none
  counters : ∀ task ∈ tasks, ∀ counters, task.counterHolder = some counters →
    fetcher.getTaskCounter (fetcher.getTaskCounterURL jobId task.taskId) = .ok counters

private theorem sampleTask_ok {task sampled : MapReduceTaskData}
    (h : fetcher.sampleTask jobId task = .ok sampled) :
    sampled.ids = task.ids ∧ sampled.sampled = true ∧ ∃ counters,
      sampled.counterHolder = some counters ∧
        fetcher.getTaskCounter (fetcher.getTaskCounterURL jobId sampled.taskId) = .ok counters := by
  simp only [MapReduceFetcherHadoop2.sampleTask, bind_eq_ok_iff, pure_eq_ok_iff] at h
  obtain ⟨counters, hcounters, time, -, rfl⟩ := h
  exact ⟨rfl, rfl, counters, rfl, hcounters⟩

/-- Sampling a prefix of fresh tasks samples that many of them. -/
private theorem sampleTasks_ok {tasks sampled : List MapReduceTaskData}
    (h : tasks.mapM (fetcher.sampleTask jobId) = .ok sampled) :
    sampled.map MapReduceTaskData.ids = tasks.map MapReduceTaskData.ids ∧
      ∀ task ∈ sampled, task.sampled = true ∧ ∃ counters, task.counterHolder = some counters ∧
        fetcher.getTaskCounter (fetcher.getTaskCounterURL jobId task.taskId) = .ok counters := by
  have hrelated := mapM_eq_ok_iff.mp h
  clear h
  induction hrelated with
  | nil => simp
  | cons htask _ ih =>
    obtain ⟨hids, hsampled⟩ := sampleTask_ok htask
    rw [List.map_cons, List.map_cons, hids, ih.1, List.forall_mem_cons]
    exact ⟨rfl, hsampled, ih.2⟩

theorem getTaskData_ok {shuffle : Shuffle} {taskList tasks : List MapReduceTaskData}
    (hfresh : ∀ task ∈ taskList, task.Fresh)
    (h : fetcher.getTaskData shuffle jobId taskList = .ok tasks) :
    (tasks.map MapReduceTaskData.ids).Perm (taskList.map MapReduceTaskData.ids) ∧
      fetcher.SampledArray jobId tasks := by
  simp only [MapReduceFetcherHadoop2.getTaskData, bind_eq_ok_iff, pure_eq_ok_iff] at h
  obtain ⟨sampled, hloop, rfl⟩ := h
  have hperm : (if taskList.length > MAX_SAMPLE_SIZE then shuffle.shuffle taskList else taskList).Perm
      taskList := by
    split
    · exact shuffle.perm taskList
    · exact .refl _
  generalize (if taskList.length > MAX_SAMPLE_SIZE then shuffle.shuffle taskList else taskList) =
    shuffled at hperm hloop
  obtain ⟨hids, hsampled⟩ := sampleTasks_ok hloop
  have hlength : sampled.length = min shuffled.length MAX_SAMPLE_SIZE := by
    have := congrArg List.length hids
    rw [List.length_map, List.length_map, List.length_take] at this
    omega
  have hrest : ∀ task ∈ shuffled.drop (min shuffled.length MAX_SAMPLE_SIZE), task.Fresh :=
    fun task htask => hfresh task (hperm.mem_iff.mp (List.mem_of_mem_drop htask))
  refine ⟨?_, ?_, ?_, ?_⟩
  · rw [List.map_append, hids, ← List.map_append, List.take_append_drop]
    exact hperm.map _
  · rw [List.filter_append, List.filter_eq_self.mpr fun task htask => (hsampled task htask).1,
      List.filter_eq_nil_iff.mpr fun task htask => by simp [(hrest task htask).1], List.append_nil,
      hlength, List.length_append, hlength, List.length_drop, MAX_SAMPLE_SIZE]
    omega
  · intro task htask
    rcases List.mem_append.mp htask with htask | htask
    · obtain ⟨hflag, counters, hcounters, -⟩ := hsampled task htask
      simp [hflag, hcounters]
    · simp [(hrest task htask).1, (hrest task htask).2]
  · intro task htask counters hcounters
    rcases List.mem_append.mp htask with htask | htask
    · obtain ⟨-, counters', hcounters', hfetched⟩ := hsampled task htask
      rw [hcounters'] at hcounters
      exact Option.some.inj hcounters ▸ hfetched
    · rw [(hrest task htask).2] at hcounters
      cases hcounters

/-- What a fetch returns for a job. -/
structure MapReduceFetcherHadoop2.Fetched (fetcher : MapReduceFetcherHadoop2) (jobId : String)
    (data : MapReduceApplicationData) : Prop where
  state : fetcher.getState (fetcher.getJobURL jobId) =
    .ok (some (if data.succeeded then "SUCCEEDED" else "FAILED"))
  jobConf : data.jobConf ≠ none
  failed : data.succeeded = false → data.mapperData = none ∧ data.reducerData = none
  succeeded : data.succeeded = true →
    ∃ nodes, fetcher.taskNodes (fetcher.getTaskListURL jobId) = .ok nodes ∧
    ∃ mapperData, data.mapperData = some mapperData ∧
      (mapperData.map MapReduceTaskData.ids).Perm (succeededTasks true nodes) ∧
      fetcher.SampledArray jobId mapperData ∧
    ∃ reducerData, data.reducerData = some reducerData ∧
      (reducerData.map MapReduceTaskData.ids).Perm (succeededTasks false nodes) ∧
      fetcher.SampledArray jobId reducerData

theorem fetchJob_ok {appId : String} {data : MapReduceApplicationData}
    (h : fetcher.fetchJob appId jobId = .ok data) : fetcher.Fetched jobId data := by
  simp only [MapReduceFetcherHadoop2.fetchJob, bind_eq_ok_iff] at h
  obtain ⟨jobConf, -, answered, hanswered, state, hstate, h⟩ := h
  rw [dereference_eq_ok_iff.mp hstate] at hanswered
  split at h
  · rename_i hsucceeded
    simp only [bind_eq_ok_iff, pure_eq_ok_iff, MapReduceFetcherHadoop2.getTaskDataAll] at h
    obtain ⟨jobCounter, -, ⟨mapperData, reducerData⟩, htasks, rfl⟩ := h
    obtain ⟨nodes, hnodes, tasks, hread, mappers, hmappers, reducers, hreducers, hpair⟩ := htasks
    obtain ⟨rfl, rfl⟩ := Prod.mk.inj hpair
    obtain ⟨hmapperids, hmapperfresh⟩ := readTasks_ok hread true
    obtain ⟨hreducerids, hreducerfresh⟩ := readTasks_ok hread false
    simp only [beq_true] at hmapperids hmapperfresh
    simp only [beq_false] at hreducerids hreducerfresh
    obtain ⟨hmapperperm, hmappersampled⟩ := getTaskData_ok hmapperfresh hmappers
    obtain ⟨hreducerperm, hreducersampled⟩ := getTaskData_ok hreducerfresh hreducers
    rw [hmapperids] at hmapperperm
    rw [hreducerids] at hreducerperm
    refine ⟨hsucceeded ▸ hanswered, by simp, by simp, fun _ => ⟨nodes, hnodes, ?_⟩⟩
    exact ⟨_, rfl, hmapperperm, hmappersampled, _, rfl, hreducerperm, hreducersampled⟩
  · split at h
    · rename_i hfailed
      obtain rfl := pure_eq_ok_iff.mp h
      exact ⟨hfailed ▸ hanswered, by simp, fun _ => ⟨rfl, rfl⟩, by simp⟩
    · cases h

end sampling

section safety

/-- What a heuristic may throw at most: no null is dereferenced and no median
is taken of an empty list. -/
def Harmless (e : JavaException) : Prop :=
  e ≠ .nullPointer ∧ e ≠ .other "IllegalArgumentException"

/-- The heuristics can go over the arrays of a succeeded job. -/
structure MapReduceApplicationData.Readable (data : MapReduceApplicationData) : Prop where
  jobConf : data.jobConf ≠ none
  tasks : data.succeeded = true → ∀ array, ∃ tasks, data.getTasks array = .ok tasks ∧
    (∀ task ∈ tasks, task.sampled = true → task.counterHolder ≠ none) ∧
    (tasks ≠ [] → ∃ task ∈ tasks, task.sampled = true)

theorem MapReduceFetcherHadoop2.SampledArray.readable {fetcher : MapReduceFetcherHadoop2}
    {jobId : String} {tasks : List MapReduceTaskData} (h : fetcher.SampledArray jobId tasks) :
    (∀ task ∈ tasks, task.sampled = true → task.counterHolder ≠ none) ∧
      (tasks ≠ [] → ∃ task ∈ tasks, task.sampled = true) := by
  refine ⟨fun task htask => (h.sampled_iff task htask).mp, fun hne => ?_⟩
  have hpos : 0 < (tasks.filter MapReduceTaskData.sampled).length := by
    have := List.length_pos_iff.mpr hne
    rw [h.numSampled]
    omega
  obtain ⟨task, htask⟩ := List.exists_mem_of_length_pos hpos
  obtain ⟨hmem, hsampled⟩ := List.mem_filter.mp htask
  exact ⟨task, hmem, hsampled⟩

theorem MapReduceFetcherHadoop2.Fetched.readable {fetcher : MapReduceFetcherHadoop2} {jobId : String}
    {data : MapReduceApplicationData} (h : fetcher.Fetched jobId data) : data.Readable := by
  refine ⟨h.jobConf, fun hsucceeded array => ?_⟩
  obtain ⟨nodes, -, mapperData, hmapper, -, hmappersampled, reducerData, hreducer, -, hreducersampled⟩ :=
    h.succeeded hsucceeded
  cases array with
  | mapper => exact ⟨mapperData, by simp [MapReduceApplicationData.getTasks, hmapper], hmappersampled.readable⟩
  | reducer =>
    exact ⟨reducerData, by simp [MapReduceApplicationData.getTasks, hreducer], hreducersampled.readable⟩

variable {data : MapReduceApplicationData}

theorem counter_harmless {task : MapReduceTaskData} {counterName : CounterName}
    (h : task.counterHolder ≠ none) : OnlyThrows Harmless (task.counter counterName) := by
  obtain ⟨counterHolder, hholder⟩ := Option.ne_none_iff_exists'.mp h
  rw [MapReduceTaskData.counter, hholder]
  exact OnlyThrows.ok

/-- Reading the sampled tasks of a job is harmless when reading one of them is,
and it yields something for a job that has tasks at all. -/
theorem sampledMetrics_harmless {α : Type} {read : MapReduceTaskData → Except JavaException α}
    (h : data.Readable) (hsucceeded : data.succeeded = true) (array : TaskArray)
    (hread : ∀ task : MapReduceTaskData, task.counterHolder ≠ none → OnlyThrows Harmless (read task)) :
    OnlyThrows Harmless (data.sampledMetrics array read) ∧
      ∀ numTasks metrics, data.sampledMetrics array read = .ok (numTasks, metrics) →
        numTasks ≠ 0 → metrics ≠ [] := by
  obtain ⟨tasks, htasks, hsampled, hsome⟩ := h.tasks hsucceeded array
  rw [MapReduceApplicationData.sampledMetrics, htasks]
  constructor
  · refine OnlyThrows.ok.bind fun _ htasks => ?_
    obtain rfl := Except.ok.inj htasks
    refine OnlyThrows.bind (OnlyThrows.mapM fun task htask => hread task ?_) fun _ _ => OnlyThrows.ok
    obtain ⟨hmem, hflag⟩ := List.mem_filter.mp htask
    exact hsampled task hmem hflag
  · rintro numTasks _ hmetrics hnum rfl
    simp only [bind_eq_ok_iff, pure_eq_ok_iff] at hmetrics
    obtain ⟨_, htasks, metrics, hloop, hpair⟩ := hmetrics
    obtain rfl := Except.ok.inj htasks
    obtain ⟨rfl, rfl⟩ := Prod.mk.inj hpair
    obtain ⟨task, hmem, hflag⟩ := hsome (List.length_pos_iff.mp (Nat.pos_of_ne_zero hnum))
    have hlength := (mapM_eq_ok_iff.mp hloop).length_eq
    exact List.not_mem_nil (List.length_eq_zero_iff.mp hlength ▸ List.mem_filter.mpr ⟨hmem, hflag⟩)

/-- The shape of a heuristic: nothing for a failed job, otherwise a report on
what is read of the sampled tasks. -/
private theorem report_harmless {α : Type} {read : MapReduceTaskData → Except JavaException α}
    {array : TaskArray} (report : Nat → List α → Except JavaException (Option HeuristicResult))
    (h : data.Readable)
    (hread : ∀ task : MapReduceTaskData, task.counterHolder ≠ none → OnlyThrows Harmless (read task))
    (hreport : ∀ numTasks metrics, (numTasks ≠ 0 → metrics ≠ []) →
      OnlyThrows Harmless (report numTasks metrics)) :
    OnlyThrows Harmless (if !data.succeeded then .ok none
      else data.sampledMetrics array read >>= fun sampled => report sampled.1 sampled.2) := by
  split
  · exact OnlyThrows.ok
  · rename_i hsucceeded
    obtain ⟨hmetrics, hnonempty⟩ := sampledMetrics_harmless h (by simpa using hsucceeded) array hread
    exact hmetrics.bind fun sampled hsampled => hreport _ _ (hnonempty _ _ hsampled)

private theorem genericDataSkew_harmless (heuristic : GenericDataSkewHeuristic) (formats : NumberFormats)
    (h : data.Readable) : OnlyThrows Harmless (heuristic.apply formats data) :=
  report_harmless (fun numTasks inputBytes => .ok (some (heuristic.report formats numTasks inputBytes)))
    h (fun _ => counter_harmless) fun _ _ _ => OnlyThrows.ok

private theorem genericGC_harmless (heuristic : GenericGCHeuristic) (formats : NumberFormats)
    (h : data.Readable) : OnlyThrows Harmless (heuristic.apply formats data) := by
  refine report_harmless (fun numTasks metrics => .ok (some (heuristic.report formats numTasks metrics)))
    h (fun task hcounters => ?_) fun _ _ _ => OnlyThrows.ok
  exact (counter_harmless hcounters).bind fun _ _ => (counter_harmless hcounters).bind fun _ _ =>
    OnlyThrows.ok

private theorem mapperSpill_harmless (heuristic : MapperSpillHeuristic) (formats : NumberFormats)
    (h : data.Readable) : OnlyThrows Harmless (heuristic.apply formats data) := by
  refine report_harmless (fun numTasks metrics => .ok (some (heuristic.report formats numTasks metrics)))
    h (fun task hcounters => ?_) fun _ _ _ => OnlyThrows.ok
  exact (counter_harmless hcounters).bind fun _ _ => (counter_harmless hcounters).bind fun _ _ =>
    OnlyThrows.ok

private theorem mapperTime_harmless (heuristic : TaskTimeHeuristic) (formats : NumberFormats)
    (h : data.Readable) : OnlyThrows Harmless (MapperTimeHeuristic.apply heuristic formats data) := by
  refine report_harmless (fun numTasks metrics =>
    .ok (some (MapperTimeHeuristic.report heuristic formats numTasks metrics)))
    h (fun task hcounters => ?_) fun _ _ _ => OnlyThrows.ok
  exact (counter_harmless hcounters).bind fun _ _ => OnlyThrows.ok

private theorem reducerTime_harmless (heuristic : TaskTimeHeuristic) (h : data.Readable) :
    OnlyThrows Harmless (ReducerTimeHeuristic.apply heuristic data) :=
  report_harmless (fun numTasks runTimesMs =>
    .ok (some (ReducerTimeHeuristic.report heuristic numTasks runTimesMs))) h (fun _ _ => OnlyThrows.ok)
    fun _ _ _ => OnlyThrows.ok

private theorem shuffleSort_harmless (heuristic : ShuffleSortHeuristic) (formats : NumberFormats)
    (h : data.Readable) : OnlyThrows Harmless (heuristic.apply formats data) :=
  report_harmless (fun numTasks metrics => .ok (some (heuristic.report formats numTasks metrics)))
    h (fun _ _ => OnlyThrows.ok) fun _ _ _ => OnlyThrows.ok

private theorem median_harmless {values : List Int} (h : values ≠ []) :
    OnlyThrows Harmless (Statistics.median values) := by
  rw [Statistics.median_eq h]
  exact OnlyThrows.ok

/-- The run times that divide may be zero, but the medians are of what has been read. -/
private theorem mapperSpeed_harmless (heuristic : MapperSpeedHeuristic) (formats : NumberFormats)
    (h : data.Readable) : OnlyThrows Harmless (heuristic.apply formats data) := by
  refine report_harmless (fun numTasks metrics => do
    let medians ← MapperSpeedHeuristic.medians numTasks metrics
    pure (some (heuristic.report formats numTasks medians))) h (fun task hcounters => ?_)
    fun numTasks metrics hnonempty => ?_
  · refine (counter_harmless hcounters).bind fun inputBytes _ => OnlyThrows.bind ?_ fun _ _ => OnlyThrows.ok
    rw [divideLong]
    split
    · exact OnlyThrows.error ⟨by simp, by simp⟩
    · exact OnlyThrows.ok
  · refine OnlyThrows.bind ?_ fun _ _ => OnlyThrows.ok
    rw [MapperSpeedHeuristic.medians]
    split
    · rename_i hnum
      have hmetrics := hnonempty hnum
      exact (median_harmless (by simpa using hmetrics)).bind fun _ _ =>
        (median_harmless (by simpa using hmetrics)).bind fun _ _ =>
        (median_harmless (by simpa using hmetrics)).bind fun _ _ => OnlyThrows.ok
    · exact OnlyThrows.ok

private theorem containerMemory_harmless (digit : Char → Option Nat) (conf : Properties)
    (containerSizeStr : String) :
    OnlyThrows Harmless (GenericMemoryHeuristic.containerMemory digit conf containerSizeStr) := by
  have hnumber : Harmless .numberFormat := ⟨by simp, by simp⟩
  rw [GenericMemoryHeuristic.containerMemory]
  split
  · exact OnlyThrows.ok
  · split
    · refine OnlyThrows.bind ?_ fun realContainerConf _ => ?_
      · rw [substring]
        split
        · exact OnlyThrows.error ⟨by simp, by simp⟩
        · exact OnlyThrows.ok
      · split
        · exact OnlyThrows.ok
        · exact OnlyThrows.error hnumber
    · exact OnlyThrows.error hnumber

private theorem genericMemory_harmless (heuristic : GenericMemoryHeuristic) (formats : NumberFormats)
    (digit : Char → Option Nat) (h : data.Readable) :
    OnlyThrows Harmless (heuristic.apply formats digit data) := by
  rw [GenericMemoryHeuristic.apply]
  split
  · exact OnlyThrows.ok
  · rename_i hsucceeded
    obtain ⟨conf, hconf⟩ := Option.ne_none_iff_exists'.mp h.jobConf
    rw [hconf]
    refine OnlyThrows.ok.bind fun conf _ => ?_
    split
    · exact OnlyThrows.ok
    · refine (containerMemory_harmless digit conf _).bind fun containerMem _ => ?_
      refine (sampledMetrics_harmless h (by simpa using hsucceeded) _ fun task hcounters => ?_).1.bind
        fun _ _ => OnlyThrows.ok
      exact (counter_harmless hcounters).bind fun _ _ => (counter_harmless hcounters).bind fun _ _ =>
        OnlyThrows.ok

theorem MapReduceHeuristic.apply_harmless (heuristic : MapReduceHeuristic) (formats : NumberFormats)
    (digit : Char → Option Nat) (h : data.Readable) :
    OnlyThrows Harmless (heuristic.apply formats digit data) := by
  cases heuristic with
  | mapperDataSkew | reducerDataSkew => exact genericDataSkew_harmless _ formats h
  | mapperGC | reducerGC => exact genericGC_harmless _ formats h
  | mapperMemory | reducerMemory => exact genericMemory_harmless _ formats digit h
  | mapperTime => exact mapperTime_harmless _ formats h
  | mapperSpeed => exact mapperSpeed_harmless _ formats h
  | mapperSpill => exact mapperSpill_harmless _ formats h
  | reducerTime => exact reducerTime_harmless _ h
  | shuffleSort => exact shuffleSort_harmless _ formats h
  | exception =>
    simp only [apply, ExceptionHeuristic.apply]
    split
    · exact OnlyThrows.ok
    · split <;> exact OnlyThrows.ok

theorem MapReduceApplicationData.Readable.isEmpty (h : data.Readable) :
    ∃ empty, data.isEmpty = .ok empty := by
  rw [MapReduceApplicationData.isEmpty]
  split
  · rename_i hsucceeded
    obtain ⟨mapperData, hmapper, -⟩ := h.tasks hsucceeded .mapper
    obtain ⟨reducerData, hreducer, -⟩ := h.tasks hsucceeded .reducer
    simp only [MapReduceApplicationData.getTasks] at hmapper hreducer
    rw [hmapper, hreducer]
    by_cases hnone : mapperData.length = 0
    · exact ⟨_, by simp [hnone, bind, Except.bind]; rfl⟩
    · exact ⟨false, by simp [hnone, bind, Except.bind]⟩
  · exact ⟨false, rfl⟩

/-- Only the heuristic for exceptions reports on a failed job, and only on one. -/
theorem MapReduceHeuristic.apply_failed (heuristic : MapReduceHeuristic) (formats : NumberFormats)
    (digit : Char → Option Nat) (h : data.succeeded = false) :
    (∃ result, heuristic.apply formats digit data = .ok (some result)) ∧
        (∃ conf, heuristic = exception conf) ∨
      heuristic.apply formats digit data = .ok none ∧ ∀ conf, heuristic ≠ exception conf := by
  cases heuristic with
  | exception conf =>
    refine .inl ⟨?_, conf, rfl⟩
    simp only [apply, ExceptionHeuristic.apply, h, Bool.false_eq_true, if_false]
    split <;> exact ⟨_, rfl⟩
  | _ =>
    refine .inr ⟨?_, by simp⟩
    simp only [apply, GenericDataSkewHeuristic.apply, GenericGCHeuristic.apply,
      GenericMemoryHeuristic.apply, MapperTimeHeuristic.apply, ReducerTimeHeuristic.apply,
      MapperSpeedHeuristic.apply, MapperSpillHeuristic.apply, ShuffleSortHeuristic.apply, h,
      Bool.not_false, if_true]

end safety

/-- A fetched job has exactly the succeeded tasks of the history server, the
sampled ones with the counters of their ids, and every heuristic is safe on it. -/
theorem fetchData_safe (fetcher : MapReduceFetcherHadoop2) (analyticJob : AnalyticJob)
    (formats : NumberFormats) (digit : Char → Option Nat) {data : MapReduceApplicationData}
    (h : (fetcher.fetchData analyticJob).1 = .ok (some data)) :
    fetcher.Fetched (util.Utils.getJobIdFromApplicationId analyticJob.appId) data ∧
      (∃ empty, data.isEmpty = .ok empty) ∧
      (∀ heuristic : MapReduceHeuristic, OnlyThrows Harmless (heuristic.apply formats digit data)) ∧
      (data.succeeded = false → ∀ heuristic : MapReduceHeuristic,
        (∃ result, heuristic.apply formats digit data = .ok (some result)) ∧
            (∃ conf, heuristic = .exception conf) ∨
          heuristic.apply formats digit data = .ok none ∧ ∀ conf, heuristic ≠ .exception conf) ∧
      (data.succeeded = true → ∀ conf,
        (MapReduceHeuristic.exception conf).apply formats digit data = .ok none) := by
  have hjob : fetcher.fetchJob analyticJob.appId
      (util.Utils.getJobIdFromApplicationId analyticJob.appId) = .ok data := by
    rw [MapReduceFetcherHadoop2.fetchData] at h
    cases hjob : fetcher.fetchJob analyticJob.appId
        (util.Utils.getJobIdFromApplicationId analyticJob.appId) with
    | error e =>
      rw [hjob] at h
      cases h
    | ok fetched =>
      rw [hjob] at h
      rw [Option.some.inj (Except.ok.inj h)]
  have hfetched := fetchJob_ok hjob
  refine ⟨hfetched, hfetched.readable.isEmpty, fun heuristic =>
    heuristic.apply_harmless formats digit hfetched.readable,
    fun hfailed heuristic => heuristic.apply_failed formats digit hfailed, fun hsucceeded conf => ?_⟩
  simp only [MapReduceHeuristic.apply, ExceptionHeuristic.apply, hsucceeded, if_true]

/-- A task of the list that the history server gives. -/
def taskNode (id state type : String) : JsonNode :=
  .object [("id", .text id), ("state", .text state), ("type", .text type),
    ("successfulAttempt", .text ("attempt_" ++ id))]

/-- A history server that answers every url with one document, in which a job
has succeeded though a mapper has failed and a reducer was killed. -/
def mixedTasksServer : MapReduceFetcherHadoop2 where
  jhistoryAddr := "localhost:19888"
  readJsonNode _ := .ok (.object [
    ("job", .object [("state", .text "SUCCEEDED")]),
    ("tasks", .object [("task", .array [taskNode "m_1" "SUCCEEDED" "MAP", taskNode "m_2" "FAILED" "MAP",
      taskNode "r_1" "SUCCEEDED" "REDUCE", taskNode "m_3" "SUCCEEDED" "MAP",
      taskNode "r_2" "KILLED" "REDUCE"])]),
    ("taskAttempt", .object [("startTime", .number 1000), ("finishTime", .number 5000),
      ("type", .text "REDUCE"), ("elapsedShuffleTime", .number 300), ("elapsedMergeTime", .number 200)])])
  shuffleMappers := ⟨List.reverse, List.reverse_perm⟩
  shuffleReducers := ⟨id, fun _ => .refl _⟩
  order := .insertion

theorem fetchData_safe_mixedTasks : ∃ data,
    (mixedTasksServer.fetchData ⟨0, ⟨"MAPREDUCE"⟩, "application_1", "", "", "", none, 1, 2⟩).1 =
      .ok (some data) ∧
    data.mapperData.map (List.map MapReduceTaskData.taskId) = some ["m_1", "m_3"] ∧
    data.reducerData.map (List.map MapReduceTaskData.taskId) = some ["r_1"] ∧
    (∀ heuristic : MapReduceHeuristic,
      OnlyThrows Harmless (heuristic.apply ⟨toString, fun _ => "", fun _ => ""⟩ (fun _ => none) data)) ∧
    (MapReduceHeuristic.exception ⟨"Exception", ""⟩).apply ⟨toString, fun _ => "", fun _ => ""⟩
      (fun _ => none) data = .ok none := by
  refine ⟨_, rfl, rfl, rfl, ?_, ?_⟩
  · exact (fetchData_safe mixedTasksServer _ _ _ rfl).2.2.1
  · exact (fetchData_safe mixedTasksServer _ _ _ rfl).2.2.2.2 rfl _

end drelephant.mapreduce
