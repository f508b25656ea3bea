import DrElephant.Analysis.AnalyticJobGeneratorHadoop2
import DrElephant.Analysis.GetAnalysis
import DrElephant.Library.StepSystem

open jackson java.lang memory models
open drelephant.util drelephant.analysis

namespace drelephant

/-- Where the main thread is in its loop, with the variables that are live there. -/
inductive MainThread
  | loopHead
  | checkLogin
  | readSucceeded
  | readFailed (succeededApps : List AnalyticJob)
  | testRetries (appList : List (Option Nat))
  | pollRetries (appList : List (Option Nat))
  | enqueue (todos : List (Option Nat))
  | terminated

/-- The list that a fetch is building, or that is left of the one it returned. -/
def MainThread.todos : MainThread → List (Option Nat)
  | testRetries appList => appList
  | pollRetries appList => appList
  | enqueue todos => todos
  | _ => []

/-- A running daemon with `n` executor threads and the database. The last five
fields record the history of this lifetime: the table it was launched with, the
jobs that successful fetches made, those saved, those dropped, and how often
each failed. -/
structure ElephantRunner (n : Nat) where
  heap : Heap AnalyticJob
  analyticJobGenerator : AnalyticJobGeneratorHadoop2
  mainThread : MainThread
  jobQueue : List Nat
  executors : Fin n → Option Nat
  table : List AppResult
  clock : Int
  launchTable : List AppResult
  returned : List Nat
  saved : List Nat
  dropped : List Nat
  failures : Nat → Nat

/-- What surrounds a daemon: its configuration, what the resource manager may
answer, and which readings of the clock may follow each other. -/
structure Environment (δ : Type) where
  context : ElephantContext δ
  configuration : String → Option String
  answers : AppsUrl → JsonNode → Prop
  ticks : Int → Int → Prop

/-- The main thread is between the beginning of a fetch and its end. -/
def MainThread.Fetching : MainThread → Prop
  | readSucceeded => True
  | readFailed _ => True
  | testRetries _ => True
  | pollRetries _ => True
  | _ => False

namespace ElephantRunner

variable {δ : Type} {n : Nat}

/-- The lookups of a fetch that returned from the table. -/
def Looks (s : ElephantRunner n) (byId : String → Except JavaException (Option AppResult)) : Prop :=
  ∀ appId row, byId appId = .ok row → row = AppResult.byId s.table appId

/-- The steps of the main loop, each with at most one access to what the
threads share. A fetch may throw at any of its reads. -/
inductive MainStep (env : Environment δ) : ElephantRunner n → ElephantRunner n → Prop
  | updateAddresses (s : ElephantRunner n)
      (readState : String → Except JavaException JsonNode) (now : Int)
      (newToken : Except JavaException Unit) (result : Except JavaException Unit)
      (generator : AnalyticJobGeneratorHadoop2) (hmain : s.mainThread = .loopHead)
      (hupdate : s.analyticJobGenerator.updateResourceManagerAddresses env.configuration readState now
        newToken = (result, generator)) :
      MainStep env s { s with
        analyticJobGenerator := generator
        mainThread := match result with
          | .ok () => .checkLogin
          | .error _ => .terminated }
  | checkLoginFails (s : ElephantRunner n) (hmain : s.mainThread = .checkLogin) :
      MainStep env s { s with mainThread := .loopHead }
  | beginFetch (s : ElephantRunner n) (now : Int) (newToken : Except JavaException Unit)
      (result : Except JavaException Unit) (generator : AnalyticJobGeneratorHadoop2)
      (hmain : s.mainThread = .checkLogin) (hclock : env.ticks s.clock now)
      (hbegin : s.analyticJobGenerator.beginFetch now newToken = (result, generator)) :
      MainStep env s { s with
        analyticJobGenerator := generator
        clock := now
        mainThread := match result with
          | .ok () => .readSucceeded
          | .error _ => .loopHead }
  | readSucceeded (s : ElephantRunner n) (rootNode : JsonNode)
      (byId : String → Except JavaException (Option AppResult)) (succeededApps : List AnalyticJob)
      (hmain : s.mainThread = .readSucceeded) (hlooks : s.Looks byId)
      (hanswer : env.answers (s.analyticJobGenerator.appsUrl "SUCCEEDED") rootNode)
      (hread : AnalyticJobGeneratorHadoop2.readApps env.context s.analyticJobGenerator.lastTime byId
        rootNode = .ok succeededApps) :
      MainStep env s { s with mainThread := .readFailed succeededApps }
  | readSucceededThrows (s : ElephantRunner n) (hmain : s.mainThread = .readSucceeded) :
      MainStep env s { s with mainThread := .loopHead }
  | readFailed (s : ElephantRunner n) (succeededApps : List AnalyticJob) (rootNode : JsonNode)
      (byId : String → Except JavaException (Option AppResult)) (failedApps : List AnalyticJob)
      (appList : List Nat) (heap : Heap AnalyticJob)
      (hmain : s.mainThread = .readFailed succeededApps) (hlooks : s.Looks byId)
      (hanswer : env.answers (s.analyticJobGenerator.appsUrl "FAILED") rootNode)
      (hread : AnalyticJobGeneratorHadoop2.readApps env.context s.analyticJobGenerator.lastTime byId
        rootNode = .ok failedApps)
      (halloc : s.heap.allocAll (succeededApps ++ failedApps) = (appList, heap)) :
      MainStep env s { s with
        heap
        mainThread := .testRetries (appList.map some)
        returned := s.returned ++ appList }
  | readFailedThrows (s : ElephantRunner n) (succeededApps : List AnalyticJob)
      (hmain : s.mainThread = .readFailed succeededApps) :
      MainStep env s { s with mainThread := .loopHead }
  | retriesNotEmpty (s : ElephantRunner n) (appList : List (Option Nat))
      (hmain : s.mainThread = .testRetries appList)
      (hretries : s.analyticJobGenerator.retryQueue ≠ []) :
      MainStep env s { s with mainThread := .pollRetries appList }
  | pollRetries (s : ElephantRunner n) (appList : List (Option Nat)) (promise : Option Nat)
      (rest : List Nat) (hmain : s.mainThread = .pollRetries appList)
      (hpoll : AnalyticJobGeneratorHadoop2.poll s.analyticJobGenerator.retryQueue = (promise, rest)) :
      MainStep env s { s with
        analyticJobGenerator := { s.analyticJobGenerator with retryQueue := rest }
        mainThread := .testRetries (appList ++ [promise]) }
  | retriesEmpty (s : ElephantRunner n) (appList : List (Option Nat))
      (hmain : s.mainThread = .testRetries appList)
      (hretries : s.analyticJobGenerator.retryQueue = []) :
      MainStep env s { s with
        analyticJobGenerator := s.analyticJobGenerator.endFetch
        mainThread := .enqueue appList }
  | enqueue (s : ElephantRunner n) (job : Nat) (todos : List (Option Nat))
      (hmain : s.mainThread = .enqueue (some job :: todos)) :
      MainStep env s { s with
        jobQueue := s.jobQueue ++ [job]
        mainThread := .enqueue todos }
  -- A blocking queue refuses null, with an exception that ends the main thread.
  | enqueueNull (s : ElephantRunner n) (todos : List (Option Nat))
      (hmain : s.mainThread = .enqueue (none :: todos)) :
      MainStep env s { s with mainThread := .terminated }
  | enqueued (s : ElephantRunner n) (hmain : s.mainThread = .enqueue []) :
      MainStep env s { s with mainThread := .loopHead }

/-- The steps of the executor threads. Fetchers and schedulers may answer
differently at each analysis, and saving may fail after an analysis that
returned. -/
inductive ExecutorStep [HadoopApplicationData δ] : ElephantRunner n → ElephantRunner n → Prop
  | take (s : ElephantRunner n) (thread : Fin n) (analyticJob : Nat) (rest : List Nat)
      (hidle : s.executors thread = none) (hqueue : s.jobQueue = analyticJob :: rest) :
      ExecutorStep s { s with
        jobQueue := rest
        executors := Function.update s.executors thread (some analyticJob) }
  | save (s : ElephantRunner n) (thread : Fin n) (analyticJob : Nat) (context : ElephantContext δ)
      (setup : InfoExtractor.Setup δ) (result : AppResult) (job : AnalyticJob)
      (hholds : s.executors thread = some analyticJob)
      (hanalysis : (s.heap.cell analyticJob).getAnalysis context setup = (.ok result, job)) :
      ExecutorStep s { s with
        heap := s.heap.modify analyticJob fun _ => job
        executors := Function.update s.executors thread none
        table := s.table ++ [result]
        saved := s.saved ++ [analyticJob] }
  | retry (s : ElephantRunner n) (thread : Fin n) (analyticJob : Nat) (context : ElephantContext δ)
      (setup : InfoExtractor.Setup δ) (result : Except JavaException AppResult)
      (failed retried : AnalyticJob) (hholds : s.executors thread = some analyticJob)
      (hanalysis : (s.heap.cell analyticJob).getAnalysis context setup = (result, failed))
      (hretry : failed.retry = (true, retried)) :
      ExecutorStep s { s with
        heap := s.heap.modify analyticJob fun _ => retried
        analyticJobGenerator := s.analyticJobGenerator.addIntoRetries analyticJob
        executors := Function.update s.executors thread none
        failures := Function.update s.failures analyticJob (s.failures analyticJob + 1) }
  | drop (s : ElephantRunner n) (thread : Fin n) (analyticJob : Nat) (context : ElephantContext δ)
      (setup : InfoExtractor.Setup δ) (result : Except JavaException AppResult)
      (failed dropped : AnalyticJob) (hholds : s.executors thread = some analyticJob)
      (hanalysis : (s.heap.cell analyticJob).getAnalysis context setup = (result, failed))
      (hretry : failed.retry = (false, dropped)) :
      ExecutorStep s { s with
        heap := s.heap.modify analyticJob fun _ => dropped
        executors := Function.update s.executors thread none
        dropped := s.dropped ++ [analyticJob]
        failures := Function.update s.failures analyticJob (s.failures analyticJob + 1) }

/-- A daemon that has just been launched: only the database outlives a process. -/
structure Launched (s : ElephantRunner n) : Prop where
  lastTime : s.analyticJobGenerator.lastTime = 0
  retryQueue : s.analyticJobGenerator.retryQueue = []
  mainThread : s.mainThread = .loopHead
  jobQueue : s.jobQueue = []
  executors : ∀ thread, s.executors thread = none
  launchTable : s.launchTable = s.table
  returned : s.returned = []
  saved : s.saved = []
  dropped : s.dropped = []
  failures : ∀ job, s.failures job = 0

/-- The main thread and the executors take steps in any order. -/
def runs [HadoopApplicationData δ] (env : Environment δ) (n : Nat) :
    transition.System (ElephantRunner n) where
  init := Launched
  step s t := MainStep env s t ∨ ExecutorStep (δ := δ) s t

/-- The main thread leaves the table and the work of the executors alone. -/
theorem MainStep.frame {env : Environment δ} {s t : ElephantRunner n} (hstep : MainStep env s t) :
    t.executors = s.executors ∧ t.table = s.table ∧ t.launchTable = s.launchTable ∧
      t.saved = s.saved ∧ t.dropped = s.dropped ∧ t.failures = s.failures := by
  cases hstep <;> exact ⟨rfl, rfl, rfl, rfl, rfl, rfl⟩

/-- An executor leaves alone what the fetch loop works with, the queues apart,
and the ids of the jobs. -/
theorem ExecutorStep.frame [HadoopApplicationData δ] {s t : ElephantRunner n}
    (hstep : ExecutorStep (δ := δ) s t) :
    t.mainThread = s.mainThread ∧ t.clock = s.clock ∧ t.launchTable = s.launchTable ∧
      t.returned = s.returned ∧
      t.analyticJobGenerator.lastTime = s.analyticJobGenerator.lastTime ∧
      t.analyticJobGenerator.currentTime = s.analyticJobGenerator.currentTime ∧
      ∀ job, (t.heap.cell job).appId = (s.heap.cell job).appId := by
  have hmodify : ∀ (analyticJob : Nat) (changed : AnalyticJob),
      changed.appId = (s.heap.cell analyticJob).appId → ∀ job,
        ((s.heap.modify analyticJob fun _ => changed).cell job).appId = (s.heap.cell job).appId := by
    intro analyticJob changed happId job
    by_cases heq : job = analyticJob
    · subst heq
      rw [Heap.modify_cell_self, happId]
    · rw [Heap.modify_cell_of_ne _ _ heq]
  have hanalysis : ∀ (context : ElephantContext δ) (setup : InfoExtractor.Setup δ) (job : AnalyticJob)
      result changed, job.getAnalysis context setup = (result, changed) →
        changed.appId = job.appId := by
    intro context setup job result changed h
    obtain ⟨trackingUrl, rfl⟩ := AnalyticJob.getAnalysis_job h
    rfl
  cases hstep with
  | take => exact ⟨rfl, rfl, rfl, rfl, rfl, rfl, fun _ => rfl⟩
  | save thread analyticJob context setup result job hholds h =>
    exact ⟨rfl, rfl, rfl, rfl, rfl, rfl, hmodify _ _ (hanalysis _ _ _ _ _ h)⟩
  | retry thread analyticJob context setup result failed retried hholds h hretry =>
    have happId : retried.appId = failed.appId := by
      rw [← AnalyticJob.retry_appId failed, hretry]
    exact ⟨rfl, rfl, rfl, rfl, rfl, rfl, hmodify _ _ (happId.trans (hanalysis _ _ _ _ _ h))⟩
  | drop thread analyticJob context setup result failed dropped hholds h hretry =>
    have happId : dropped.appId = failed.appId := by
      rw [← AnalyticJob.retry_appId failed, hretry]
    exact ⟨rfl, rfl, rfl, rfl, rfl, rfl, hmodify _ _ (happId.trans (hanalysis _ _ _ _ _ h))⟩

/-- The end of the last window whose applications were returned; the cursor
follows when the retries are drained. -/
def frontier (s : ElephantRunner n) : Int :=
  match s.mainThread with
  | .testRetries _ => s.analyticJobGenerator.currentTime
  | .pollRetries _ => s.analyticJobGenerator.currentTime
  | _ => s.analyticJobGenerator.lastTime

/-- The main thread makes jobs in one step only, which ends the reading of a
window; no other step moves the frontier. -/
theorem MainStep.makes {env : Environment δ} {s t : ElephantRunner n} (hstep : MainStep env s t) :
    t.returned = s.returned ∧ t.heap = s.heap ∧ t.frontier = s.frontier ∨
      ∃ succeededApps failedApps rootNode byId, s.mainThread = .readFailed succeededApps ∧
        s.Looks byId ∧ env.answers (s.analyticJobGenerator.appsUrl "FAILED") rootNode ∧
        AnalyticJobGeneratorHadoop2.readApps env.context s.analyticJobGenerator.lastTime byId
          rootNode = .ok failedApps ∧
        t = { s with
          heap := (s.heap.allocAll (succeededApps ++ failedApps)).2
          mainThread :=
            .testRetries ((s.heap.allocAll (succeededApps ++ failedApps)).1.map some)
          returned := s.returned ++ (s.heap.allocAll (succeededApps ++ failedApps)).1 } := by
  cases hstep with
  | readFailed succeededApps rootNode byId failedApps appList heap hmain hlooks hanswer hread halloc =>
    refine .inr ⟨succeededApps, failedApps, rootNode, byId, hmain, hlooks, hanswer, hread, ?_⟩
    simp only [halloc]
  | updateAddresses readState now newToken result generator hmain hupdate =>
    obtain ⟨hlast, -⟩ :=
      AnalyticJobGeneratorHadoop2.frame_of_updateResourceManagerAddresses hupdate
    cases result <;> exact .inl ⟨rfl, rfl, by simp [frontier, hmain, hlast]⟩
  | beginFetch now newToken result generator hmain hclock hbegin =>
    obtain ⟨hlast, -, -⟩ := AnalyticJobGeneratorHadoop2.frame_of_beginFetch hbegin
    cases result <;> exact .inl ⟨rfl, rfl, by simp [frontier, hmain, hlast]⟩
  | retriesEmpty appList hmain hretries =>
    exact .inl ⟨rfl, rfl, by simp [frontier, hmain, AnalyticJobGeneratorHadoop2.endFetch]⟩
  | checkLoginFails hmain => exact .inl ⟨rfl, rfl, by simp [frontier, hmain]⟩
  | readSucceeded rootNode byId apps hmain => exact .inl ⟨rfl, rfl, by simp [frontier, hmain]⟩
  | readSucceededThrows hmain => exact .inl ⟨rfl, rfl, by simp [frontier, hmain]⟩
  | readFailedThrows apps hmain => exact .inl ⟨rfl, rfl, by simp [frontier, hmain]⟩
  | retriesNotEmpty appList hmain => exact .inl ⟨rfl, rfl, by simp [frontier, hmain]⟩
  | pollRetries appList promise rest hmain => exact .inl ⟨rfl, rfl, by simp [frontier, hmain]⟩
  | enqueue job todos hmain => exact .inl ⟨rfl, rfl, by simp [frontier, hmain]⟩
  | enqueueNull todos hmain => exact .inl ⟨rfl, rfl, by simp [frontier, hmain]⟩
  | enqueued hmain => exact .inl ⟨rfl, rfl, by simp [frontier, hmain]⟩

/-- The main thread comes to read the failed applications from having read the
succeeded ones. -/
theorem MainStep.reads {env : Environment δ} {s t : ElephantRunner n} (hstep : MainStep env s t)
    {succeededApps : List AnalyticJob} (hmain : t.mainThread = .readFailed succeededApps) :
    ∃ rootNode byId, s.mainThread = .readSucceeded ∧ s.Looks byId ∧
      env.answers (s.analyticJobGenerator.appsUrl "SUCCEEDED") rootNode ∧
      AnalyticJobGeneratorHadoop2.readApps env.context s.analyticJobGenerator.lastTime byId
        rootNode = .ok succeededApps ∧
      t = { s with mainThread := .readFailed succeededApps } := by
  cases hstep with
  | readSucceeded rootNode byId apps hmain' hlooks hanswer hread =>
    cases hmain
    exact ⟨rootNode, byId, hmain', hlooks, hanswer, hread, rfl⟩
  | updateAddresses readState now newToken result generator hmain' hupdate =>
    cases result <;> simp at hmain
  | beginFetch now newToken result generator hmain' hclock hbegin =>
    cases result <;> simp at hmain
  | _ => simp at hmain

end ElephantRunner

end drelephant
