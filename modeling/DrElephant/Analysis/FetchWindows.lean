import Mathlib.Data.List.ReduceOption
import DrElephant.Analysis.ResourceManager
import DrElephant.Library.StepSystem
import DrElephant.Library.Tiling

open jackson java.lang memory models

namespace drelephant.analysis

/-- A call of `fetchAnalyticJobs` that returned: the cursor before and after
it, the table as it was then, and the list returned. Objects made by the call
have references from `next` on. -/
structure Fetch where
  lastTime : Int
  currentTime : Int
  byId : String → Except JavaException (Option AppResult)
  next : Nat
  todos : List (Option Nat)

namespace Fetch

def window (fetch : Fetch) : Set Int := Set.Icc (fetch.lastTime + 1) fetch.currentTime

theorem window_eq (fetch : Fetch) : fetch.window = Set.Ioc fetch.lastTime fetch.currentTime := by
  ext time
  exact and_congr_left fun _ => Int.add_one_le_iff

/-- The jobs of the resource manager, which the call made. -/
def created (fetch : Fetch) : List Nat :=
  fetch.todos.reduceOption.filter fun promise => fetch.next ≤ promise

/-- The jobs that were there before the call. -/
def retried (fetch : Fetch) : List Nat :=
  fetch.todos.reduceOption.filter fun promise => promise < fetch.next

end Fetch

/-- One generator instance over the lifetime of a process: its calls that
returned, oldest first, and the last reading of the clock. -/
structure GeneratorRun where
  generator : AnalyticJobGeneratorHadoop2
  heap : Heap AnalyticJob
  clock : Int
  fetches : List Fetch

namespace GeneratorRun

variable {δ : Type}

/-- Everything that was handed to the job queue, in order. -/
def jobQueue (run : GeneratorRun) : List (Option Nat) := run.fetches.flatMap Fetch.todos

/-- The jobs handed over for the first time. -/
def created (run : GeneratorRun) : List Nat := run.fetches.flatMap Fetch.created

/-- A call of the generator. The clock never goes back and has passed the
fetch delay, and what the resource manager answers is constrained by `answers`;
every read of a fetch may throw, and so may its renewal of the token. -/
inductive Step (context : ElephantContext δ) (answers : AppsUrl → JsonNode → Prop) :
    GeneratorRun → GeneratorRun → Prop
  | updateAddresses (run : GeneratorRun) (configuration : String → Option String)
      (readState : String → Except JavaException JsonNode) (now : Int)
      (newToken : Except JavaException Unit) :
      Step context answers run { run with generator :=
        (run.generator.updateResourceManagerAddresses configuration readState now newToken).2 }
  | fetch (run : GeneratorRun) (env : AnalyticJobGeneratorHadoop2.FetchEnvironment)
      (todos : Except JavaException (List (Option Nat))) (generator : AnalyticJobGeneratorHadoop2)
      (heap : Heap AnalyticJob) (hclock : run.clock ≤ env.currentTimeMillis)
      (hdelay : FETCH_DELAY < env.currentTimeMillis)
      (hanswers : ∀ url node, env.readJsonNode url = .ok node → answers url node)
      (hfetch : run.generator.fetchAnalyticJobs context env run.heap = (todos, generator, heap)) :
      Step context answers run
        { generator, heap
          clock := env.currentTimeMillis
          fetches := match todos with
            | .error _ => run.fetches
            | .ok todos => run.fetches ++ [
                { lastTime := run.generator.lastTime
                  currentTime := generator.currentTime
                  byId := env.byId
                  next := run.heap.next
                  todos }] }
  | addIntoRetries (run : GeneratorRun) (promise : Nat) (hhanded : some promise ∈ run.jobQueue)
      (hretry : (run.heap.cell promise).retry.1 = true) :
      Step context answers run { run with
        generator := run.generator.addIntoRetries promise
        heap := run.heap.modify promise fun job => job.retry.2 }

/-- The first fetch that returned did not find the application in the table,
if it came across it at all. -/
def Unsaved (run : GeneratorRun) (app : FinishedApp) : Prop :=
  ∀ first, run.fetches.head? = some first → app.finishedTime ≤ first.currentTime →
    first.byId app.id = .ok none

end GeneratorRun

/-- The runs of one generator instance from its construction on. -/
def generatorRuns {δ : Type} (context : ElephantContext δ) (answers : AppsUrl → JsonNode → Prop) :
    transition.System GeneratorRun where
  init run := run.generator.lastTime = 0 ∧ run.generator.retryQueue = [] ∧ run.fetches = []
  step := GeneratorRun.Step context answers

namespace GeneratorRun

variable {δ : Type} {context : ElephantContext δ} {answers : AppsUrl → JsonNode → Prop}

/-- What every run keeps true of one generator. -/
structure Valid (run : GeneratorRun) : Prop where
  tiles : cursor.Tiles (run.fetches.map Fetch.window) 0 run.generator.lastTime
  nonneg : 0 ≤ run.generator.lastTime
  first : run.generator.lastTime = 0 ↔ run.fetches = []
  delayed : 0 < run.generator.lastTime → run.generator.lastTime ≤ run.clock - FETCH_DELAY
  current_le : ∀ fetch ∈ run.fetches, fetch.currentTime ≤ run.generator.lastTime
  todos_eq : ∀ fetch ∈ run.fetches, fetch.todos = (fetch.created ++ fetch.retried).map some
  retried : ∀ fetch ∈ run.fetches, fetch.retried ⊆ run.created
  created_lt : ∀ promise ∈ run.created, promise < run.heap.next
  retryQueue : run.generator.retryQueue ⊆ run.created

theorem Valid.mem_created {run : GeneratorRun} (h : run.Valid) {promise : Nat}
    (hhanded : some promise ∈ run.jobQueue) : promise ∈ run.created := by
  obtain ⟨fetch, hfetch, hpromise⟩ := List.mem_flatMap.mp hhanded
  rw [h.todos_eq fetch hfetch, List.mem_map_of_injective (Option.some_injective _),
    List.mem_append] at hpromise
  rcases hpromise with hcreated | hretried
  · exact List.mem_flatMap.mpr ⟨fetch, hfetch, hcreated⟩
  · exact h.retried fetch hfetch hretried

section fetch

variable {run : GeneratorRun} {jobs : List AnalyticJob}

/-- The objects of a fetch are told apart by their references. -/
private theorem split_todos (h : run.Valid) (jobs : List AnalyticJob) (lastTime currentTime : Int)
    (byId : String → Except JavaException (Option AppResult)) :
    let fetch : Fetch := { lastTime, currentTime, byId, next := run.heap.next
                           todos := ((run.heap.allocAll jobs).1 ++ run.generator.retryQueue).map some }
    fetch.created = (run.heap.allocAll jobs).1 ∧ fetch.retried = run.generator.retryQueue := by
  have hnew : ∀ promise ∈ (run.heap.allocAll jobs).1, run.heap.next ≤ promise :=
    fun promise hpromise => (Heap.mem_allocAll.mp hpromise).1
  have hold : ∀ promise ∈ run.generator.retryQueue, promise < run.heap.next :=
    fun promise hpromise => h.created_lt promise (h.retryQueue hpromise)
  have hreduce : ∀ promises : List Nat, (promises.map some).reduceOption = promises := by
    intro promises
    simp [List.reduceOption]
  simp only [Fetch.created, Fetch.retried, hreduce, List.filter_append]
  constructor
  · rw [List.filter_eq_self.mpr (by simpa using hnew), List.filter_eq_nil_iff.mpr (by simpa using hold),
      List.append_nil]
  · rw [List.filter_eq_nil_iff.mpr (by simpa using hnew), List.filter_eq_self.mpr (by simpa using hold),
      List.nil_append]

/-- A fetch that returned extends the run by the window it read. -/
private theorem Valid.append (h : run.Valid) {generator : AnalyticJobGeneratorHadoop2} {now : Int}
    (byId : String → Except JavaException (Option AppResult)) (hclock : run.clock ≤ now)
    (hdelay : FETCH_DELAY < now) (hlast : generator.lastTime = now - FETCH_DELAY)
    (hcurrent : generator.currentTime = now - FETCH_DELAY) (hretries : generator.retryQueue = []) :
    GeneratorRun.Valid
      { generator
        heap := (run.heap.allocAll jobs).2
        clock := now
        fetches := run.fetches ++ [
          { lastTime := run.generator.lastTime, currentTime := generator.currentTime, byId
            next := run.heap.next
            todos := ((run.heap.allocAll jobs).1 ++ run.generator.retryQueue).map some }] } := by
  obtain ⟨hcreated, hretried⟩ :=
    split_todos h jobs run.generator.lastTime generator.currentTime byId
  have hmono : run.generator.lastTime ≤ now - FETCH_DELAY := by
    rcases h.nonneg.eq_or_lt with hzero | hpos
    · omega
    · have := h.delayed hpos
      omega
  constructor
  · simpa [hlast, hcurrent, Fetch.window_eq] using h.tiles.advance h.nonneg hmono
  · simp only [hlast]
    omega
  · simp only [hlast, List.append_eq_nil_iff, List.cons_ne_self, and_false, iff_false]
    omega
  · intro _
    simp only [hlast]
    omega
  · simp only [List.forall_mem_append, List.forall_mem_singleton, hlast, hcurrent, le_refl, and_true]
    exact fun fetch hfetch => (h.current_le fetch hfetch).trans hmono
  · simp only [List.forall_mem_append, List.forall_mem_singleton, hcreated, hretried, and_true]
    exact h.todos_eq
  · simp only [List.forall_mem_append, List.forall_mem_singleton, hretried, created,
      List.flatMap_append]
    exact ⟨fun fetch hfetch => List.subset_append_of_subset_left _ (h.retried fetch hfetch),
      List.subset_append_of_subset_left _ h.retryQueue⟩
  · simp only [created, List.flatMap_append, List.forall_mem_append, List.flatMap_singleton, hcreated]
    refine ⟨fun promise hpromise => ?_, fun promise hpromise => (Heap.mem_allocAll.mp hpromise).2⟩
    have hlt := h.created_lt promise hpromise
    rw [Heap.allocAll_next]
    omega
  · simp only [hretries, List.nil_subset]

end fetch

theorem Valid.step {run run' : GeneratorRun} (h : run.Valid)
    (hstep : GeneratorRun.Step context answers run run') : run'.Valid := by
  cases hstep with
  | updateAddresses configuration readState now newToken =>
    obtain ⟨hlast, hretries⟩ := AnalyticJobGeneratorHadoop2.updateResourceManagerAddresses_frame
      configuration readState now newToken run.generator
    exact { h with
      tiles := by simpa only [hlast] using h.tiles
      nonneg := by simpa only [hlast] using h.nonneg
      first := by simpa only [hlast] using h.first
      delayed := by simpa only [hlast] using h.delayed
      current_le := by simpa only [hlast] using h.current_le
      retryQueue := by
        dsimp only
        rw [hretries]
        exact h.retryQueue }
  | fetch env todos generator heap hclock hdelay hanswers hfetch =>
    cases todos with
    | error e =>
      obtain ⟨rfl, rfl⟩ := AnalyticJobGeneratorHadoop2.fetchAnalyticJobs_error hfetch
      exact { h with
        tiles := by simpa using h.tiles
        nonneg := by simpa using h.nonneg
        first := by simpa using h.first
        delayed := fun hpos => by
          have := h.delayed (by simpa using hpos)
          simp only [AnalyticJobGeneratorHadoop2.beginFetch_lastTime]
          omega
        current_le := by simpa using h.current_le
        retryQueue := by
          dsimp only
          rw [AnalyticJobGeneratorHadoop2.beginFetch_retryQueue]
          exact h.retryQueue }
    | ok todos =>
      obtain ⟨jobs, -, rfl, rfl, hlast, hcurrent, hretries⟩ :=
        AnalyticJobGeneratorHadoop2.fetchAnalyticJobs_ok hfetch
      exact h.append env.byId hclock hdelay hlast hcurrent hretries
  | addIntoRetries promise hhanded hretry =>
    exact { h with
      retryQueue := by
        refine List.append_subset.mpr ⟨h.retryQueue, ?_⟩
        exact List.cons_subset.mpr ⟨h.mem_created hhanded, List.nil_subset _⟩ }

theorem valid_invariant : (generatorRuns context answers).Invariant GeneratorRun.Valid where
  init run hinit := by
    obtain ⟨hlast, hretries, hfetches⟩ := hinit
    constructor <;> simp [hlast, hretries, hfetches, created, cursor.Tiles.nil]
  step _ _ h hstep := h.step hstep

section truthful

variable {rm : ResourceManager}

/-- An application that has to have been handed over by now. -/
def Due (run : GeneratorRun) (app : FinishedApp) : Prop :=
  (app.finalStatus = .SUCCEEDED ∨ app.finalStatus = .FAILED) ∧
    app.finishedTime ≤ run.generator.lastTime ∧ run.Unsaved app

/-- The jobs handed over stand for the applications that are due. -/
def Delivers (run : GeneratorRun) (rm : ResourceManager) (context : ElephantContext δ) : Prop :=
  rm.Lists context (run.created.map run.heap.cell) run.Due

theorem Delivers.congr {run run' : GeneratorRun} (h : run.Delivers rm context)
    (hfetches : run'.fetches = run.fetches)
    (hlast : run'.generator.lastTime = run.generator.lastTime)
    (hids : ∀ promise, (run'.heap.cell promise).appId = (run.heap.cell promise).appId) :
    run'.Delivers rm context := by
  obtain ⟨apps, hnodup, happs, hjobs⟩ := h
  refine ⟨apps, hnodup, ?_, ?_⟩
  · simpa only [Due, Unsaved, hfetches, hlast] using happs
  · simpa only [created, hfetches, List.map_map, Function.comp_def, hids] using hjobs

/-- Whether an application is due after a fetch that returned: it was before,
or it lies in the window of this fetch. -/
private theorem due_append {run : GeneratorRun} (h : run.Valid)
    {generator : AnalyticJobGeneratorHadoop2} {heap : Heap AnalyticJob} {now : Int}
    {byId : String → Except JavaException (Option AppResult)} {todos : List (Option Nat)}
    (hmono : run.generator.lastTime ≤ generator.currentTime)
    (hlast : generator.lastTime = generator.currentTime) (app : FinishedApp) :
    GeneratorRun.Due
        { generator, heap
          clock := now
          fetches := run.fetches ++ [
            { lastTime := run.generator.lastTime, currentTime := generator.currentTime, byId
              next := run.heap.next, todos }] } app ↔
      run.Due app ∨
        ResourceManager.InWindow run.generator.lastTime generator.currentTime byId app := by
  have hfinished := app.finished
  cases hfetches : run.fetches with
  | nil =>
    have hzero := h.first.mpr hfetches
    simp only [Due, Unsaved, hfetches, List.nil_append, List.head?_cons, Option.some.injEq,
      forall_eq', ResourceManager.InWindow, FinishedApp.Unseen, hzero, hlast]
    grind
  | cons first rest =>
    have hpos : 0 < run.generator.lastTime :=
      lt_of_le_of_ne h.nonneg fun hzero => by simp [h.first.mp hzero.symm] at hfetches
    have hcurrent := h.current_le first (by simp [hfetches])
    simp only [Due, Unsaved, hfetches, List.cons_append, List.head?_cons, Option.some.injEq,
      forall_eq', ResourceManager.InWindow, FinishedApp.Unseen, hpos, hlast]
    grind

theorem Delivers.step (hanswers : ∀ url node, answers url node → rm.Answers url node)
    {run run' : GeneratorRun} (hvalid : run.Valid) (h : run.Delivers rm context)
    (hstep : GeneratorRun.Step context answers run run') : run'.Delivers rm context := by
  cases hstep with
  | updateAddresses configuration readState now newToken =>
    exact h.congr rfl (AnalyticJobGeneratorHadoop2.updateResourceManagerAddresses_frame
      configuration readState now newToken run.generator).1 fun _ => rfl
  | fetch env todos generator heap hclock hdelay hanswers' hfetch =>
    cases todos with
    | error e =>
      obtain ⟨rfl, rfl⟩ := AnalyticJobGeneratorHadoop2.fetchAnalyticJobs_error hfetch
      exact h.congr rfl (by simp) fun _ => rfl
    | ok todos =>
      obtain ⟨jobs, hread, rfl, rfl, hlast, hcurrent, -⟩ :=
        AnalyticJobGeneratorHadoop2.fetchAnalyticJobs_ok hfetch
      have hwindow := ResourceManager.readWindow_lists
        (fun url node hnode => hanswers url node (hanswers' url node hnode)) hread
      simp only [AnalyticJobGeneratorHadoop2.beginFetch_lastTime,
        AnalyticJobGeneratorHadoop2.beginFetch_currentTime, ← hcurrent] at hwindow
      have hcreated := (split_todos hvalid jobs run.generator.lastTime
        generator.currentTime env.byId).1
      have hold : run.created.map (run.heap.allocAll jobs).2.cell = run.created.map run.heap.cell :=
        List.map_congr_left fun promise hpromise =>
          run.heap.allocAll_cell_of_lt jobs (hvalid.created_lt promise hpromise)
      have hmono : run.generator.lastTime ≤ generator.currentTime := by
        rcases hvalid.nonneg.eq_or_lt with hzero | hpos
        · omega
        · have := hvalid.delayed hpos
          omega
      unfold Delivers created
      dsimp only
      rw [List.flatMap_append, List.flatMap_singleton, hcreated]
      rw [List.map_append, Heap.allocAll_map_cell, ← created, hold]
      refine ResourceManager.Lists.congr (ResourceManager.Lists.append h hwindow ?_)
        fun app _ => due_append hvalid hmono (hlast.trans hcurrent.symm) app
      rintro app ⟨-, hle, -⟩ ⟨-, hlt, -⟩
      omega
  | addIntoRetries promise hhanded hretry =>
    exact h.congr rfl rfl fun other => run.heap.modify_cell_map promise other AnalyticJob.retry_appId

theorem valid_delivers_invariant (hanswers : ∀ url node, answers url node → rm.Answers url node) :
    (generatorRuns context answers).Invariant fun run => run.Valid ∧ run.Delivers rm context := by
  refine valid_invariant.and ?_ fun run run' hvalid h hstep => h.step hanswers hvalid hstep
  intro run hinit
  obtain ⟨hlast, hretries, hfetches⟩ := hinit
  refine ⟨[], List.nodup_nil, fun app => ?_, by simp [created, hfetches]⟩
  have hfinished := app.finished
  simp only [List.not_mem_nil, Due, hlast, false_iff, not_and]
  intro _ hdue _
  omega

/-- One application that is due has been made a job, and only once. -/
theorem Delivers.handedOnce {run : GeneratorRun} (hvalid : run.Valid)
    (h : run.Delivers rm context) {app : FinishedApp} (happ : app ∈ rm.apps)
    (hanalysable : app.Analysable context) (hdue : run.Due app) :
    ∃ promise, run.created.count promise = 1 ∧
      ∀ other, some other ∈ run.jobQueue ∧ (run.heap.cell other).appId = app.id ↔ other = promise := by
  have hnodup := h.nodup
  rw [List.map_map] at hnodup
  have hmem := (h.mem_iff happ).mpr ⟨hdue, hanalysable.2⟩
  rw [List.map_map, List.mem_map] at hmem
  obtain ⟨promise, hpromise, hid⟩ := hmem
  refine ⟨promise, List.count_eq_one_of_mem hnodup.of_map hpromise, fun other => ?_⟩
  constructor
  · rintro ⟨hhanded, hother⟩
    exact List.inj_on_of_nodup_map hnodup (hvalid.mem_created hhanded) hpromise
      (hother.trans hid.symm)
  · rintro rfl
    obtain ⟨fetch, hfetch, hcreated⟩ := List.mem_flatMap.mp hpromise
    refine ⟨List.mem_flatMap.mpr ⟨fetch, hfetch, ?_⟩, hid⟩
    rw [hvalid.todos_eq fetch hfetch]
    exact List.mem_map_of_mem (List.mem_append_left _ hcreated)

end truthful

end GeneratorRun

section coverage

variable {δ : Type} {context : ElephantContext δ} {answers : AppsUrl → JsonNode → Prop}

/-- The windows of the calls that returned cover the time up to the cursor
without overlap, and a call that throws moves neither the cursor nor the retry
queue. When the resource manager answers every query exactly, each application
the table did not hold at first is handed to the job queue once, its retries
apart: what a call hands over besides the jobs it made was handed over before. -/
theorem fetch_windows_cover {run : GeneratorRun}
    (hrun : (generatorRuns context answers).Reachable run) :
    ((run.fetches.map Fetch.window).Pairwise Disjoint ∧
      (⋃ fetch ∈ run.fetches, fetch.window) = Set.Icc 1 run.generator.lastTime) ∧
    (∀ env e generator heap,
      run.generator.fetchAnalyticJobs context env run.heap = (.error e, generator, heap) →
        generator.lastTime = run.generator.lastTime ∧
          generator.retryQueue = run.generator.retryQueue) ∧
    (∀ fetch ∈ run.fetches, fetch.todos = (fetch.created ++ fetch.retried).map some ∧
      fetch.retried ⊆ run.created) ∧
    ∀ rm : ResourceManager, (∀ url node, answers url node → rm.Answers url node) →
      ∀ app ∈ rm.apps, app.Analysable context → app.finishedTime ≤ run.generator.lastTime →
        run.Unsaved app →
        ∃ promise, run.created.count promise = 1 ∧
          ∀ other, some other ∈ run.jobQueue ∧ (run.heap.cell other).appId = app.id ↔
            other = promise := by
  have hvalid := GeneratorRun.valid_invariant.of_reachable hrun
  have hcursor : Set.Icc 1 run.generator.lastTime = Set.Ioc 0 run.generator.lastTime := by
    ext time
    simp only [Set.mem_Icc, Set.mem_Ioc]
    omega
  refine ⟨⟨hvalid.tiles.disjoint, ?_⟩, ?_,
    fun fetch hfetch => ⟨hvalid.todos_eq fetch hfetch, hvalid.retried fetch hfetch⟩, ?_⟩
  · rw [hcursor, ← hvalid.tiles.union]
    simp
  · intro env e generator heap hfetch
    obtain ⟨rfl, -⟩ := AnalyticJobGeneratorHadoop2.fetchAnalyticJobs_error hfetch
    simp
  · intro rm hanswers app happ hanalysable hle hunsaved
    have hdelivers :=
      ((GeneratorRun.valid_delivers_invariant hanswers).of_reachable hrun).2
    exact hdelivers.handedOnce hvalid happ hanalysable ⟨hanalysable.1, hle, hunsaved⟩

/-- A generator before its first call. -/
private def firstRun : GeneratorRun where
  generator := ⟨none, 0, 0, 0, 0, []⟩
  heap := ⟨0, fun _ => ⟨0, ⟨""⟩, "", "", "", "", none, 0, 0⟩⟩
  clock := 0
  fetches := []

private def firstFetch : AnalyticJobGeneratorHadoop2.FetchEnvironment where
  currentTimeMillis := FETCH_DELAY + 10
  newToken := .ok ()
  readJsonNode url := .ok (ResourceManager.answer [.wordCount] url)
  byId _ := .ok none

theorem fetch_windows_cover_firstFetch : ∃ run : GeneratorRun, run.generator.lastTime = 10 ∧
    (⋃ fetch ∈ run.fetches, fetch.window) = Set.Icc 1 run.generator.lastTime ∧
    ∃ promise, run.created.count promise = 1 ∧
      ∀ other, some other ∈ run.jobQueue ∧
        (run.heap.cell other).appId = FinishedApp.wordCount.id ↔ other = promise := by
  let context : ElephantContext Unit := .single "MAPREDUCE" fun job => (.ok none, job.trackingUrl)
  let answers : AppsUrl → JsonNode → Prop :=
    fun url node => node = ResourceManager.answer [.wordCount] url
  have hstep : GeneratorRun.Step context answers firstRun _ := .fetch firstRun firstFetch
    (.ok [some 0]) _ _ (by decide) (by decide) (by simp [firstFetch, answers, eq_comm]) rfl
  obtain ⟨⟨-, hunion⟩, -, -, honce⟩ := fetch_windows_cover
    ⟨firstRun, ⟨rfl, rfl, rfl⟩, .single hstep⟩
  refine ⟨_, rfl, hunion, honce (.ofList [.wordCount] (by decide)) ?_ .wordCount ?_ ?_ ?_ ?_⟩
  · rintro url node rfl
    exact ResourceManager.answers_answer _ url
  · exact List.mem_singleton_self _
  · exact ⟨.inl rfl, rfl⟩
  · decide
  · rintro first hfirst -
    cases hfirst
    rfl

end coverage

end drelephant.analysis
