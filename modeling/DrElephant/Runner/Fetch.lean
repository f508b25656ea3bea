import DrElephant.Analysis.ResourceManager
import DrElephant.Runner.ElephantRunner

open jackson java.lang memory models
open drelephant.util drelephant.analysis

namespace drelephant.ElephantRunner

variable {δ : Type} [HadoopApplicationData δ] {n : Nat} {env : Environment δ}

private theorem single {s t : ElephantRunner n} (h : MainStep env s t) : (runs env n).Run s t :=
  .single (.inl h)

/-- The drain loop run on its own empties the retry queue as `drainRetries` does. -/
theorem run_drainRetries {s : ElephantRunner n} {appList : List (Option Nat)}
    (hmain : s.mainThread = .testRetries appList) : (runs env n).Run s { s with
      analyticJobGenerator :=
        AnalyticJobGeneratorHadoop2.endFetch { s.analyticJobGenerator with retryQueue := [] }
      mainThread := .enqueue (AnalyticJobGeneratorHadoop2.drainRetries appList
        s.analyticJobGenerator.retryQueue) } := by
  generalize hqueue : s.analyticJobGenerator.retryQueue = retryQueue
  induction retryQueue generalizing s appList with
  | nil =>
    have hend : MainStep env s _ := .retriesEmpty s appList hmain hqueue
    simpa only [AnalyticJobGeneratorHadoop2.drainRetries, AnalyticJobGeneratorHadoop2.endFetch,
      hqueue] using single hend
  | cons promise rest ih =>
    have htest : MainStep env s _ := .retriesNotEmpty s appList hmain (by simp [hqueue])
    have hpoll : MainStep env { s with mainThread := .pollRetries appList } _ :=
      .pollRetries _ appList (some promise) rest rfl (by simp only [hqueue]; rfl)
    exact ((single htest).trans (single hpoll)).trans (ih rfl rfl)

/-- A fetch whose steps no executor comes between is a call of
`fetchAnalyticJobs`, when it returns. -/
theorem run_fetchAnalyticJobs_ok {s : ElephantRunner n}
    {fetch : AnalyticJobGeneratorHadoop2.FetchEnvironment} (hmain : s.mainThread = .checkLogin)
    (hclock : env.ticks s.clock fetch.currentTimeMillis) (hlooks : s.Looks fetch.byId)
    (hanswers : ∀ url node, fetch.readJsonNode url = .ok node → env.answers url node)
    {todos : List (Option Nat)} {generator : AnalyticJobGeneratorHadoop2} {heap : Heap AnalyticJob}
    (hfetch : s.analyticJobGenerator.fetchAnalyticJobs env.context fetch s.heap =
      (.ok todos, generator, heap)) :
    ∃ created, todos = (created ++ s.analyticJobGenerator.retryQueue).map some ∧
      (runs env n).Run s { s with
        heap
        analyticJobGenerator := generator
        mainThread := .enqueue todos
        clock := fetch.currentTimeMillis
        returned := s.returned ++ created } := by
  unfold AnalyticJobGeneratorHadoop2.fetchAnalyticJobs at hfetch
  cases hbegin : s.analyticJobGenerator.beginFetch fetch.currentTimeMillis fetch.newToken with
  | mk result begun =>
    cases result with
    | error e => simp [hbegin] at hfetch
    | ok _ =>
      cases hread : AnalyticJobGeneratorHadoop2.readWindow env.context fetch begun with
      | error e => simp [hbegin, hread] at hfetch
      | ok jobs =>
        simp only [hbegin, hread, Prod.mk.injEq, Except.ok.injEq] at hfetch
        obtain ⟨rfl, rfl, rfl⟩ := hfetch
        simp only [AnalyticJobGeneratorHadoop2.readWindow, bind_eq_ok_iff, pure_eq_ok_iff] at hread
        obtain ⟨node, hnode, succeededApps, hsucceeded, node', hnode', failedApps, hfailed, rfl⟩ :=
          hread
        obtain ⟨-, -, hretries⟩ := AnalyticJobGeneratorHadoop2.frame_of_beginFetch hbegin
        refine ⟨(s.heap.allocAll (succeededApps ++ failedApps)).1, ?_, ?_⟩
        · rw [AnalyticJobGeneratorHadoop2.drainRetries_eq, ← List.map_append, hretries]
        let begunState : ElephantRunner n := { s with
          analyticJobGenerator := begun
          clock := fetch.currentTimeMillis
          mainThread := .readSucceeded }
        have hstart : MainStep env s begunState := .beginFetch s _ _ _ _ hmain hclock hbegin
        have hreadSucceeded : MainStep env begunState _ :=
          .readSucceeded _ node fetch.byId succeededApps rfl hlooks (hanswers _ _ hnode) hsucceeded
        have hreadFailed : MainStep env { begunState with mainThread := .readFailed succeededApps } _ :=
          .readFailed _ succeededApps node' fetch.byId failedApps _ _ rfl hlooks (hanswers _ _ hnode')
            hfailed rfl
        refine (single hstart).trans ((single hreadSucceeded).trans ?_)
        exact (single hreadFailed).trans (run_drainRetries rfl)

/-- Enqueueing a list without null puts it behind the queue. -/
theorem run_enqueue {s : ElephantRunner n} {todos : List Nat}
    (hmain : s.mainThread = .enqueue (todos.map some)) :
    (runs env n).Run s { s with
      jobQueue := s.jobQueue ++ todos
      mainThread := .loopHead } := by
  induction todos generalizing s with
  | nil => simpa using single (.enqueued s hmain)
  | cons job todos ih =>
    have hrest := ih (s := { s with
      jobQueue := s.jobQueue ++ [job]
      mainThread := .enqueue (todos.map some) }) rfl
    simpa only [List.append_assoc, List.singleton_append] using
      (single (.enqueue s job _ hmain)).trans hrest

/-- The first round of a daemon puts the jobs of its fetch into the job queue. -/
theorem Launched.run_fetched {s : ElephantRunner n} (h : s.Launched)
    {readState : String → Except JavaException JsonNode} {now : Int}
    {newToken : Except JavaException Unit} {updated : AnalyticJobGeneratorHadoop2}
    (hupdate : s.analyticJobGenerator.updateResourceManagerAddresses env.configuration readState now
      newToken = (.ok (), updated))
    {fetch : AnalyticJobGeneratorHadoop2.FetchEnvironment}
    (hclock : env.ticks s.clock fetch.currentTimeMillis) (hlooks : s.Looks fetch.byId)
    (hanswers : ∀ url node, fetch.readJsonNode url = .ok node → env.answers url node)
    {todos : List Nat} {generator : AnalyticJobGeneratorHadoop2} {heap : Heap AnalyticJob}
    (hfetch : updated.fetchAnalyticJobs env.context fetch s.heap =
      (.ok (todos.map some), generator, heap)) :
    (runs env n).Run s { s with
      heap
      analyticJobGenerator := generator
      mainThread := .loopHead
      jobQueue := s.jobQueue ++ todos
      clock := fetch.currentTimeMillis
      returned := s.returned ++ todos } := by
  have hretries : updated.retryQueue = [] := by
    obtain ⟨-, hframe⟩ := AnalyticJobGeneratorHadoop2.frame_of_updateResourceManagerAddresses hupdate
    rw [hframe, h.retryQueue]
  have hstart : MainStep env s _ :=
    .updateAddresses s readState now newToken _ _ h.mainThread hupdate
  obtain ⟨created, htodos, hrun⟩ := run_fetchAnalyticJobs_ok (s := { s with
    analyticJobGenerator := updated
    mainThread := .checkLogin }) rfl hclock hlooks hanswers hfetch
  simp only [hretries, List.append_nil] at htodos
  obtain rfl : todos = created := List.map_inj_right (fun _ _ => Option.some.inj) |>.mp htodos
  exact (single hstart).trans (hrun.trans (run_enqueue rfl))

/-- A daemon launched on an empty database, for examples. -/
def wordCountDaemon : ElephantRunner 2 where
  heap := ⟨0, fun _ => ⟨0, ⟨""⟩, "", "", "", "", none, 0, 0⟩⟩
  analyticJobGenerator := ⟨none, 0, 0, 0, 0, []⟩
  mainThread := .loopHead
  jobQueue := []
  executors _ := none
  table := []
  clock := 0
  launchTable := []
  returned := []
  saved := []
  dropped := []
  failures _ := 0

def wordCountEnvironment : Environment Unit where
  context := .single "MAPREDUCE" fun job => (.ok none, job.trackingUrl)
  configuration _ := some "localhost:8088"
  answers url node := node = ResourceManager.answer [.wordCount] url
  ticks last now := last ≤ now ∧ FETCH_DELAY < now

theorem launched_wordCountDaemon : wordCountDaemon.Launched :=
  ⟨rfl, rfl, rfl, rfl, fun _ => rfl, rfl, rfl, rfl, rfl, fun _ => rfl⟩

def wordCountFetch : AnalyticJobGeneratorHadoop2.FetchEnvironment :=
  ⟨FETCH_DELAY + 10, .ok (), fun url => .ok (ResourceManager.answer [.wordCount] url), fun _ => .ok none⟩

theorem exists_run_wordCount : ∃ s, (runs wordCountEnvironment 2).Run wordCountDaemon s ∧
    s.returned = [0] ∧ s.analyticJobGenerator.lastTime = 10 := by
  let updated := { wordCountDaemon.analyticJobGenerator with
    resourceManagerAddress := some "localhost:8088" }
  have hupdate : wordCountDaemon.analyticJobGenerator.updateResourceManagerAddresses
      wordCountEnvironment.configuration (fun _ => .error .nullPointer) 0 (.ok ()) =
        (.ok (), updated) := rfl
  have hfetch : updated.fetchAnalyticJobs wordCountEnvironment.context wordCountFetch
      wordCountDaemon.heap = (.ok ([0].map some), _, _) := rfl
  have hclock : wordCountEnvironment.ticks wordCountDaemon.clock wordCountFetch.currentTimeMillis :=
    show (0 : Int) ≤ FETCH_DELAY + 10 ∧ FETCH_DELAY < FETCH_DELAY + 10 by decide
  exact ⟨_, launched_wordCountDaemon.run_fetched hupdate hclock (fun _ _ hrow => by cases hrow; rfl)
    (fun _ _ hnode => by cases hnode; rfl) hfetch, rfl, rfl⟩

/-- The fetched job is taken by an executor, analysed, with data that has no
contents, and saved. -/
theorem exists_run_saved : ∃ s t row, (runs wordCountEnvironment 2).Run wordCountDaemon s ∧
    s.executors 0 = some 0 ∧ (runs wordCountEnvironment 2).Run s t ∧ t.returned = [0] ∧ t.table = [row] ∧
    row.id = some FinishedApp.wordCount.id ∧ t.clock = FETCH_DELAY + 10 := by
  let updated := { wordCountDaemon.analyticJobGenerator with
    resourceManagerAddress := some "localhost:8088" }
  have hupdate : wordCountDaemon.analyticJobGenerator.updateResourceManagerAddresses
      wordCountEnvironment.configuration (fun _ => .error .nullPointer) 0 (.ok ()) =
        (.ok (), updated) := rfl
  have hfetch : updated.fetchAnalyticJobs wordCountEnvironment.context wordCountFetch
      wordCountDaemon.heap = (.ok ([0].map some), _, _) := rfl
  have hclock : wordCountEnvironment.ticks wordCountDaemon.clock wordCountFetch.currentTimeMillis :=
    show (0 : Int) ≤ FETCH_DELAY + 10 ∧ FETCH_DELAY < FETCH_DELAY + 10 by decide
  have hfetched := launched_wordCountDaemon.run_fetched hupdate hclock (fun _ _ hrow => by cases hrow; rfl)
    (fun _ _ hnode => by cases hnode; rfl) hfetch
  have htaken := hfetched.tail (.inr (.take _ 0 0 [] rfl rfl))
  let context : ElephantContext Unit := .single "MAPREDUCE" fun job => (.ok (some ()), job.trackingUrl)
  refine ⟨_, _, _, htaken, rfl, .single (.inr (.save _ 0 0 context ⟨[], fun _ => .ok none⟩ _ _ rfl rfl)), rfl,
    rfl, ?_, rfl⟩
  exact Utils.truncateField_of_le (by decide)

end drelephant.ElephantRunner
