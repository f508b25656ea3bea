import DrElephant.Runner.Recovery

open jackson java.lang memory models transition
open drelephant.util drelephant.analysis

namespace drelephant.analysis

variable {δ : Type} {context : ElephantContext δ}

/-- A job that still tells what it was made from; only its tries and its
tracking url may have changed since. -/
def FinishedApp.Became (context : ElephantContext δ) (app : FinishedApp) (job : AnalyticJob) : Prop :=
  app.toJob context = some { job with retries := 0, trackingUrl := app.trackingUrl }

theorem FinishedApp.Became.isSome {app : FinishedApp} {job : AnalyticJob} (h : app.Became context job) :
    (context.getApplicationTypeForName app.applicationType).isSome := by
  have hsome : (app.toJob context).isSome := by rw [h]; rfl
  simpa [FinishedApp.toJob] using hsome

theorem FinishedApp.became_of_toJob {app : FinishedApp} {job : AnalyticJob}
    (h : app.toJob context = some job) : app.Became context job := by
  obtain ⟨type, -, rfl⟩ := Option.map_eq_some_iff.mp h
  exact h

/-- A row that tells of an application what the resource manager told of it, as
far as the columns hold it. -/
structure FinishedApp.RecordedBy (app : FinishedApp) (row : AppResult) : Prop where
  id : row.id = Utils.truncateField (some app.id) AppResult.ID_LIMIT
  username : row.username = Utils.truncateField (some app.user) AppResult.USERNAME_LIMIT
  queueName : row.queueName = Utils.truncateField (some app.queue) AppResult.QUEUE_NAME_LIMIT
  name : row.name = Utils.truncateField (some app.name) AppResult.APP_NAME_LIMIT
  startTime : row.startTime = AnalyticJob.timestamp app.startedTime
  finishTime : row.finishTime = AnalyticJob.timestamp app.finishedTime
  accounted : row.Accounted

/-- The analysis of a job records the application that the job was made from. -/
theorem FinishedApp.Became.recordedBy [HadoopApplicationData δ] {app : FinishedApp} {job changed : AnalyticJob}
    (h : app.Became context job) {context' : ElephantContext δ} {setup : InfoExtractor.Setup δ}
    {row : AppResult} (hanalysis : job.getAnalysis context' setup = (.ok row, changed)) :
    app.RecordedBy row := by
  obtain ⟨type, -, hjob⟩ := Option.map_eq_some_iff.mp h
  have haccounted := (AnalyticJob.getAnalysis_accounted (congrArg Prod.fst hanalysis)).1
  obtain ⟨fetchData, data, trackingUrl, -, -, hresult⟩ :=
    AnalyticJob.getAnalysis_spec (congrArg Prod.fst hanalysis)
  obtain ⟨results, jobType, -, heq⟩ := AnalyticJob.analyzeData_spec hresult
  -- The record is compared outside the scheduler fields, which it has none of.
  have hfield : ∀ {α : Type} (field : AppResult → α),
      (∀ result, field (InfoExtractor.withoutSchedulerInfo result) = field result) →
        field row = field (AnalyticJob.toAppResult { job with trackingUrl } results jobType) := by
    intro α field hkept
    rw [← hkept row, heq, hkept]
  have happId := congrArg AnalyticJob.appId hjob
  have huser := congrArg AnalyticJob.user hjob
  have hqueue := congrArg AnalyticJob.queueName hjob
  have hname := congrArg AnalyticJob.name hjob
  have hstart := congrArg AnalyticJob.startTime hjob
  have hfinish := congrArg AnalyticJob.finishTime hjob
  dsimp only at happId huser hqueue hname hstart hfinish
  constructor
  · rw [hfield AppResult.id fun _ => rfl, AnalyticJob.toAppResult, happId]
  · rw [hfield AppResult.username fun _ => rfl, AnalyticJob.toAppResult, huser]
  · rw [hfield AppResult.queueName fun _ => rfl, AnalyticJob.toAppResult, hqueue]
  · rw [hfield AppResult.name fun _ => rfl, AnalyticJob.toAppResult, hname]
  · rw [hfield AppResult.startTime fun _ => rfl, AnalyticJob.toAppResult, hstart]
  · rw [hfield AppResult.finishTime fun _ => rfl, AnalyticJob.toAppResult, hfinish]
  · exact haccounted

/-- The jobs that an exact answer is read as were made from applications of the
queried status. -/
theorem ResourceManager.readApps_became {rm : ResourceManager} {lastTime : Int}
    {byId : String → Except JavaException (Option AppResult)} {url : AppsUrl} {rootNode : JsonNode}
    {jobs : List AnalyticJob} (hanswer : rm.Answers url rootNode)
    (hread : AnalyticJobGeneratorHadoop2.readApps context lastTime byId rootNode = .ok jobs) :
    ∀ job ∈ jobs, ∃ app ∈ rm.apps, app.finalStatus.toText = url.finalStatus ∧ app.Became context job := by
  classical
  obtain ⟨apps, -, happs, hreported⟩ := hanswer
  obtain rfl := AnalyticJobGeneratorHadoop2.readElements_reported hreported hread
  intro job hjob
  obtain ⟨app, happ, htoJob⟩ := List.mem_filterMap.mp hjob
  obtain ⟨hmem, hstatus, -⟩ := (happs app).mp (List.mem_filter.mp happ).1
  exact ⟨app, hmem, hstatus, FinishedApp.became_of_toJob htoJob⟩

end drelephant.analysis

namespace drelephant.ElephantRunner

variable {δ : Type} {n : Nat} {env : Environment δ} {rm : ResourceManager}

/-- An application of the resource manager that a job was made from. -/
def MadeFrom (rm : ResourceManager) (context : ElephantContext δ) (job : AnalyticJob) : Prop :=
  ∃ app ∈ rm.apps, app.Analysable context ∧ app.Became context job

/-- Where the jobs and the rows of a lifetime come from; the rows of a launch
table may be older. -/
structure Sourced (rm : ResourceManager) (context : ElephantContext δ) (old : List AppResult)
    (s : ElephantRunner n) : Prop where
  jobs : ∀ job ∈ s.returned, MadeFrom rm context (s.heap.cell job)
  reading : ∀ succeededApps, s.mainThread = .readFailed succeededApps →
    ∀ job ∈ succeededApps, MadeFrom rm context job
  rows : ∀ row ∈ s.table, row ∈ old ∨
    ∃ app ∈ rm.apps, app.Analysable context ∧ app.RecordedBy row

theorem madeFrom_of_readApps {context : ElephantContext δ} {lastTime : Int}
    {byId : String → Except JavaException (Option AppResult)} {url : AppsUrl} {rootNode : JsonNode}
    {jobs : List AnalyticJob} (hanswer : rm.Answers url rootNode)
    (hread : AnalyticJobGeneratorHadoop2.readApps context lastTime byId rootNode = .ok jobs)
    (hstatus : ∀ status : FinalStatus, status.toText = url.finalStatus →
      status = .SUCCEEDED ∨ status = .FAILED) :
    ∀ job ∈ jobs, MadeFrom rm context job := by
  intro job hjob
  obtain ⟨app, happ, happStatus, hbecame⟩ := ResourceManager.readApps_became hanswer hread job hjob
  exact ⟨app, happ, ⟨hstatus _ happStatus, hbecame.isSome⟩, hbecame⟩

theorem MainStep.sourced (htruthful : env.Truthful rm) {old : List AppResult} {s t : ElephantRunner n}
    (hconserved : s.Conserved) (h : Sourced rm env.context old s) (hstep : MainStep env s t) :
    Sourced rm env.context old t := by
  obtain ⟨-, htable, -⟩ := hstep.frame
  have hreading : ∀ succeededApps, t.mainThread = .readFailed succeededApps →
      ∀ job ∈ succeededApps, MadeFrom rm env.context job := by
    intro succeededApps hmain
    obtain ⟨rootNode, byId, -, -, hanswer, hread, -⟩ := hstep.reads hmain
    refine madeFrom_of_readApps (htruthful.answers _ _ hanswer) hread fun status hstatus => ?_
    cases status <;> simp [FinalStatus.toText, AnalyticJobGeneratorHadoop2.appsUrl] at hstatus ⊢
  rcases hstep.makes with ⟨hreturned, hheap, -⟩ | hmakes
  · refine ⟨?_, hreading, ?_⟩
    · rw [hreturned, hheap]
      exact h.jobs
    · rw [htable]
      exact h.rows
  · obtain ⟨succeededApps, failedApps, rootNode, byId, hmain, -, hanswer, hread, rfl⟩ := hmakes
    have hfailed := madeFrom_of_readApps (htruthful.answers _ _ hanswer) hread fun status hstatus => by
      cases status <;> simp [FinalStatus.toText, AnalyticJobGeneratorHadoop2.appsUrl] at hstatus ⊢
    refine ⟨fun job hjob => ?_, hreading, h.rows⟩
    rcases List.mem_append.mp hjob with hold | hmade
    · dsimp only
      rw [s.heap.allocAll_cell_of_lt _ (hconserved.allocated job hold)]
      exact h.jobs job hold
    · rcases List.mem_append.mp (Heap.allocAll_cell_mem hmade) with hsucceeded | hother
      · exact h.reading succeededApps hmain _ hsucceeded
      · exact hfailed _ hother

section executors

variable [HadoopApplicationData δ]

theorem ExecutorStep.sourced {context : ElephantContext δ} {old : List AppResult} {s t : ElephantRunner n}
    (hconserved : s.Conserved) (h : Sourced rm context old s) (hstep : ExecutorStep (δ := δ) s t) :
    Sourced rm context old t := by
  obtain ⟨hmain, -, -, hreturned, -⟩ := hstep.frame
  have hreading : ∀ succeededApps, t.mainThread = .readFailed succeededApps →
      ∀ job ∈ succeededApps, MadeFrom rm context job := by
    rw [hmain]
    exact h.reading
  -- An analysis changes the tries and the tracking url of its job, and nothing else.
  have hjobs : ∀ {analyticJob : Nat} {changed : AnalyticJob},
      (∃ retries trackingUrl, changed = { s.heap.cell analyticJob with retries, trackingUrl }) →
        ∀ job ∈ s.returned, MadeFrom rm context ((s.heap.modify analyticJob fun _ => changed).cell job) := by
    rintro analyticJob _ ⟨retries, trackingUrl, rfl⟩ job hjob
    by_cases heq : job = analyticJob
    · subst heq
      rw [Heap.modify_cell_self]
      exact h.jobs job hjob
    · rw [Heap.modify_cell_of_ne _ _ heq]
      exact h.jobs job hjob
  cases hstep with
  | take => exact ⟨h.jobs, hreading, h.rows⟩
  | save thread analyticJob context' setup result job hholds hanalysis =>
    obtain ⟨trackingUrl, hjob⟩ := AnalyticJob.getAnalysis_job hanalysis
    refine ⟨hjobs ⟨_, trackingUrl, hjob⟩, hreading, fun row hrow => ?_⟩
    rcases List.mem_append.mp hrow with hbefore | hsaved
    · exact h.rows row hbefore
    · obtain rfl := List.mem_singleton.mp hsaved
      have hplace : analyticJob ∈ s.contents (.executor thread) := by simp [contents, hholds]
      obtain ⟨app, happ, hanalysable, hbecame⟩ := h.jobs analyticJob (hconserved.mem_returned hplace)
      exact .inr ⟨app, happ, hanalysable, hbecame.recordedBy hanalysis⟩
  | retry thread analyticJob context' setup result failed retried hholds hanalysis hretry =>
    obtain ⟨trackingUrl, rfl⟩ := AnalyticJob.getAnalysis_job hanalysis
    obtain ⟨-, rfl⟩ := Prod.mk.inj hretry
    exact ⟨hjobs ⟨_, trackingUrl, rfl⟩, hreading, h.rows⟩
  | drop thread analyticJob context' setup result failed dropped hholds hanalysis hretry =>
    obtain ⟨trackingUrl, rfl⟩ := AnalyticJob.getAnalysis_job hanalysis
    obtain ⟨-, rfl⟩ := Prod.mk.inj hretry
    exact ⟨hjobs ⟨_, trackingUrl, rfl⟩, hreading, h.rows⟩

theorem sourced_of_run (htruthful : env.Truthful rm) {start s : ElephantRunner n}
    (hstart : (lifetimes env rm n).init start) (hrun : (lifetimes env rm n).Run start s) :
    Sourced rm env.context start.table s ∧ s.Conserved ∧ s.Timed ∧ Recovered rm env.context s := by
  have hinvariant := lifetimes_invariant (n := n) htruthful
  refine hrun.preserves (p := fun t => Sourced rm env.context start.table t ∧
    t.Conserved ∧ t.Timed ∧ Recovered rm env.context t) ?_ ⟨?_, hinvariant.init start hstart⟩
  · rintro t u ⟨ht, hkept⟩ hstep
    refine ⟨?_, hinvariant.step t u hkept hstep⟩
    rcases hstep with (hmain | hexecutor) | ⟨hlaunched, htable, -⟩
    · exact hmain.sourced htruthful hkept.1 ht
    · exact hexecutor.sourced hkept.1 ht
    · refine ⟨by simp [hlaunched.returned], by simp [hlaunched.mainThread], ?_⟩
      rw [htable]
      exact ht.rows
  · exact ⟨by simp [hstart.1.returned], by simp [hstart.1.mainThread], fun row hrow => .inl hrow⟩

/-- Over all lifetimes, a row of the table was there at the first launch, or it
records an application that the daemon was there to analyse and that had
finished before the fetch delay; no two rows record the same application. -/
theorem rows_recorded (htruthful : env.Truthful rm) {start s : ElephantRunner n}
    (hstart : (lifetimes env rm n).init start) (hrun : (lifetimes env rm n).Run start s) :
    (s.table.map AppResult.id).Nodup ∧
    ∀ row ∈ s.table, row ∈ start.table ∨
      ∃ app ∈ rm.apps, app.Analysable env.context ∧ app.RecordedBy row ∧
        app.finishedTime ≤ s.clock - FETCH_DELAY := by
  obtain ⟨hrows, hconserved, htimed, hrecovered⟩ := sourced_of_run htruthful hstart hrun
  have hpersisted := hrecovered.persisted hconserved htimed
  refine ⟨hpersisted.nodup, fun row hrow => (hrows.rows row hrow).imp id ?_⟩
  rintro ⟨app, happ, hanalysable, hrecorded⟩
  refine ⟨app, happ, hanalysable, hrecorded, hpersisted.finished app happ ?_⟩
  have hid := hrecorded.id
  rw [Utils.truncateField_of_le (htruthful.ids app happ)] at hid
  rw [Stored, ← hid]
  exact List.mem_map_of_mem hrow

end executors

theorem rows_recorded_wordCount : ∃ s row, (runs wordCountEnvironment 2).Run wordCountDaemon s ∧
    s.table = [row] ∧ FinishedApp.wordCount.RecordedBy row := by
  obtain ⟨_, s, row, htaken, -, hsaved, -, htable, -⟩ := exists_run_saved
  have hrun := htaken.trans hsaved
  obtain ⟨-, hrows⟩ := rows_recorded truthful_wordCount lifetimes_init_wordCount (hrun.mono fun _ _ => Or.inl)
  obtain ⟨app, happ, -, hrecorded, -⟩ := (hrows row (by simp [htable])).resolve_left
    (by simp [wordCountDaemon])
  obtain rfl : app = .wordCount := List.mem_singleton.mp happ
  exact ⟨s, row, hrun, htable, hrecorded⟩

end drelephant.ElephantRunner
