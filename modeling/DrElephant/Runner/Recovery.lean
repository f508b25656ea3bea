import DrElephant.Runner.JobConservation

open jackson java.lang memory models
open drelephant.util drelephant.analysis

namespace drelephant

/-- The environment is as the daemon relies on it: the resource manager answers
exactly, the clock does not go back and has passed the fetch delay, and ids fit
their column. -/
structure Environment.Truthful {δ : Type} (env : Environment δ) (rm : ResourceManager) : Prop where
  answers : ∀ url node, env.answers url node → rm.Answers url node
  ticks : ∀ last now, env.ticks last now → last ≤ now ∧ FETCH_DELAY < now
  ids : ∀ app ∈ rm.apps, utf16Length app.id ≤ AppResult.ID_LIMIT

namespace ElephantRunner

variable {δ : Type} {n : Nat} {env : Environment δ} {rm : ResourceManager}

/-- The cursor and the clock. -/
structure Timed (s : ElephantRunner n) : Prop where
  nonneg : 0 ≤ s.analyticJobGenerator.lastTime
  delayed : 0 < s.analyticJobGenerator.lastTime →
    s.analyticJobGenerator.lastTime ≤ s.clock - FETCH_DELAY
  fetching : s.mainThread.Fetching → s.analyticJobGenerator.currentTime = s.clock - FETCH_DELAY ∧
    0 < s.analyticJobGenerator.currentTime

theorem Timed.lastTime_le {s : ElephantRunner n} (h : s.Timed) (hmain : s.mainThread.Fetching) :
    s.analyticJobGenerator.lastTime ≤ s.analyticJobGenerator.currentTime := by
  obtain ⟨hcurrent, hpos⟩ := h.fetching hmain
  have hnonneg := h.nonneg
  have hdelayed := h.delayed
  omega

/-- The main thread moves neither the clock nor the cursor back. -/
theorem MainStep.timed (htruthful : env.Truthful rm) {s t : ElephantRunner n} (h : s.Timed)
    (hstep : MainStep env s t) : t.Timed ∧ s.clock ≤ t.clock ∧
      s.analyticJobGenerator.lastTime ≤ t.analyticJobGenerator.lastTime := by
  cases hstep with
  | updateAddresses readState now newToken result generator hmain hupdate =>
    obtain ⟨hlast, -⟩ :=
      AnalyticJobGeneratorHadoop2.frame_of_updateResourceManagerAddresses hupdate
    refine ⟨⟨hlast ▸ h.nonneg, hlast ▸ h.delayed, ?_⟩, le_refl _, hlast.ge⟩
    cases result <;> simp [MainThread.Fetching]
  | beginFetch now newToken result generator hmain hclock hbegin =>
    obtain ⟨hlast, hcurrent, -⟩ := AnalyticJobGeneratorHadoop2.frame_of_beginFetch hbegin
    obtain ⟨hmono, hdelay⟩ := htruthful.ticks _ _ hclock
    refine ⟨⟨hlast ▸ h.nonneg, fun hpos => ?_, fun _ => ⟨hcurrent, ?_⟩⟩, hmono, hlast.ge⟩
    · have hdelayed := h.delayed (hlast ▸ hpos)
      dsimp only
      omega
    · dsimp only
      omega
  | retriesEmpty appList hmain hretries =>
    have hfetching : s.mainThread.Fetching := by simp [hmain, MainThread.Fetching]
    obtain ⟨hcurrent, hpos⟩ := h.fetching hfetching
    refine ⟨⟨hpos.le, fun _ => hcurrent.le, ?_⟩, le_refl _, h.lastTime_le hfetching⟩
    simp [MainThread.Fetching]
  | readSucceeded rootNode byId apps hmain =>
    refine ⟨⟨h.nonneg, h.delayed, fun _ => h.fetching ?_⟩, le_refl _, le_refl _⟩
    simp [hmain, MainThread.Fetching]
  | readFailed apps rootNode byId failedApps appList heap hmain =>
    refine ⟨⟨h.nonneg, h.delayed, fun _ => h.fetching ?_⟩, le_refl _, le_refl _⟩
    simp [hmain, MainThread.Fetching]
  | retriesNotEmpty appList hmain =>
    refine ⟨⟨h.nonneg, h.delayed, fun _ => h.fetching ?_⟩, le_refl _, le_refl _⟩
    simp [hmain, MainThread.Fetching]
  | pollRetries appList promise rest hmain =>
    refine ⟨⟨h.nonneg, h.delayed, fun _ => h.fetching ?_⟩, le_refl _, le_refl _⟩
    simp [hmain, MainThread.Fetching]
  | _ => exact ⟨⟨h.nonneg, h.delayed, by simp [MainThread.Fetching]⟩, le_refl _, le_refl _⟩

theorem ExecutorStep.timed [HadoopApplicationData δ] {s t : ElephantRunner n} (h : s.Timed)
    (hstep : ExecutorStep (δ := δ) s t) : t.Timed := by
  cases hstep <;> exact ⟨h.nonneg, h.delayed, h.fetching⟩

/-- The table at launch has the row of an application. -/
def Stored (table : List AppResult) (app : FinishedApp) : Prop :=
  some app.id ∈ table.map AppResult.id

/-- How the table and the jobs of a lifetime stand for the applications of the
resource manager: what the table held at launch has finished by the frontier,
the jobs made since are the other applications up to it, and the rows saved
since are those of jobs saved. -/
structure Recovered (rm : ResourceManager) (context : ElephantContext δ) (s : ElephantRunner n) :
    Prop where
  launchNodup : (s.launchTable.map AppResult.id).Nodup
  launchFinished : ∀ app ∈ rm.apps, Stored s.launchTable app →
    app.finishedTime ≤ s.clock - FETCH_DELAY
  launchSeen : 0 < s.frontier → ∀ app ∈ rm.apps, Stored s.launchTable app →
    app.finishedTime ≤ s.frontier
  table : s.table.map AppResult.id =
    s.launchTable.map AppResult.id ++ s.saved.map fun job => some (s.heap.cell job).appId
  lists : rm.Lists context (s.returned.map s.heap.cell) fun app =>
    (app.finalStatus = .SUCCEEDED ∨ app.finalStatus = .FAILED) ∧
      app.finishedTime ≤ s.frontier ∧ ¬ Stored s.launchTable app
  reading : ∀ succeededApps, s.mainThread = .readFailed succeededApps →
    rm.Lists context succeededApps fun app => app.finalStatus = .SUCCEEDED ∧
      s.analyticJobGenerator.lastTime < app.finishedTime ∧
      app.finishedTime ≤ s.analyticJobGenerator.currentTime ∧
      (0 < s.analyticJobGenerator.lastTime ∨
        s.analyticJobGenerator.lastTime = 0 ∧ ¬ Stored s.launchTable app)

namespace Recovered

variable {context : ElephantContext δ} {s t : ElephantRunner n}

/-- Before the first window is read there is no job, so nothing was saved. -/
theorem table_of_lastTime_eq_zero (hconserved : s.Conserved) (h : Recovered rm context s)
    (hmain : s.frontier = s.analyticJobGenerator.lastTime)
    (hzero : s.analyticJobGenerator.lastTime = 0) :
    s.table.map AppResult.id = s.launchTable.map AppResult.id := by
  have hnone : s.returned.map s.heap.cell = [] := by
    apply h.lists.eq_nil
    intro app _ hdue
    have hfinished := app.finished
    have hle := hdue.2.1
    omega
  have hsaved : s.saved = [] := by
    apply List.eq_nil_iff_forall_not_mem.mpr
    intro job hjob
    have hmem := hconserved.returned_of_saved hjob
    simp only [List.map_eq_nil_iff] at hnone
    simp [hnone] at hmem
  rw [h.table, hsaved, List.map_nil, List.append_nil]

/-- The applications of a window that is being read, by status. -/
theorem reads (hconserved : s.Conserved) (h : Recovered rm context s)
    (hfrontier : s.frontier = s.analyticJobGenerator.lastTime)
    {byId : String → Except JavaException (Option AppResult)} (hlooks : s.Looks byId)
    {status : FinalStatus} {rootNode : JsonNode} {jobs : List AnalyticJob}
    (hanswer : rm.Answers (s.analyticJobGenerator.appsUrl status.toText) rootNode)
    (hread : AnalyticJobGeneratorHadoop2.readApps context s.analyticJobGenerator.lastTime byId
      rootNode = .ok jobs) :
    rm.Lists context jobs fun app => app.finalStatus = status ∧
      s.analyticJobGenerator.lastTime < app.finishedTime ∧
      app.finishedTime ≤ s.analyticJobGenerator.currentTime ∧
      (0 < s.analyticJobGenerator.lastTime ∨
        s.analyticJobGenerator.lastTime = 0 ∧ ¬ Stored s.launchTable app) := by
  have hstatus : ∀ other : FinalStatus, other.toText = status.toText ↔ other = status := by
    intro other
    cases other <;> cases status <;> decide
  refine (ResourceManager.readApps_lists_table hlooks hanswer hread).congr fun app _ => ?_
  simp only [AnalyticJobGeneratorHadoop2.appsUrl, hstatus, Int.add_one_le_iff]
  refine and_congr_right fun _ => and_congr_right fun _ => and_congr_right fun _ => ?_
  refine or_congr_right (and_congr_right fun hzero => ?_)
  rw [Stored, h.table_of_lastTime_eq_zero hconserved hfrontier hzero]

end Recovered

/-- An application up to the end of a window was due before, or it is in the
window; only the first window meets applications that the table has. -/
private theorem due_iff {lastTime currentTime : Int} {status stored : Prop} {finishedTime : Int}
    (hnonneg : 0 ≤ lastTime) (hmono : lastTime ≤ currentTime)
    (hseen : 0 < lastTime → stored → finishedTime ≤ lastTime) :
    status ∧ finishedTime ≤ currentTime ∧ ¬ stored ↔
      status ∧ finishedTime ≤ lastTime ∧ ¬ stored ∨
      status ∧ lastTime < finishedTime ∧ finishedTime ≤ currentTime ∧
        (0 < lastTime ∨ lastTime = 0 ∧ ¬ stored) := by
  constructor
  · rintro ⟨hstatus, hle, hnotStored⟩
    rcases lt_or_ge lastTime finishedTime with hlt | hge
    · exact .inr ⟨hstatus, hlt, hle, hnonneg.lt_or_eq.imp id fun hzero => ⟨hzero.symm, hnotStored⟩⟩
    · exact .inl ⟨hstatus, hge, hnotStored⟩
  · rintro (⟨hstatus, hle, hnotStored⟩ | ⟨hstatus, hlt, hle, hlast | ⟨-, hnotStored⟩⟩)
    · exact ⟨hstatus, hle.trans hmono, hnotStored⟩
    · exact ⟨hstatus, hle, fun hstored => (hseen hlast hstored).not_gt hlt⟩
    · exact ⟨hstatus, hle, hnotStored⟩

/-- The jobs of a window join those of the windows before it. -/
private theorem Recovered.window {context : ElephantContext δ} {s : ElephantRunner n}
    (htimed : s.Timed) (h : Recovered rm context s)
    {succeededApps failedApps : List AnalyticJob}
    (hmain : s.mainThread = .readFailed succeededApps)
    (hfailed : rm.Lists context failedApps fun app => app.finalStatus = .FAILED ∧
      s.analyticJobGenerator.lastTime < app.finishedTime ∧
      app.finishedTime ≤ s.analyticJobGenerator.currentTime ∧
      (0 < s.analyticJobGenerator.lastTime ∨
        s.analyticJobGenerator.lastTime = 0 ∧ ¬ Stored s.launchTable app)) :
    rm.Lists context (s.returned.map s.heap.cell ++ (succeededApps ++ failedApps)) fun app =>
      (app.finalStatus = .SUCCEEDED ∨ app.finalStatus = .FAILED) ∧
        app.finishedTime ≤ s.analyticJobGenerator.currentTime ∧ ¬ Stored s.launchTable app := by
  have hmono := htimed.lastTime_le (by simp [hmain, MainThread.Fetching])
  have hfrontier : s.frontier = s.analyticJobGenerator.lastTime := by simp [frontier, hmain]
  have hseen := hfrontier ▸ h.launchSeen
  have hwindow := (h.reading succeededApps hmain).append hfailed fun app hsucceeded hfailed => by
    simp [hsucceeded.1] at hfailed
  have hlists := h.lists
  rw [hfrontier] at hlists
  refine (hlists.append hwindow ?_).congr fun app happ => ?_
  · rintro app ⟨-, hle, -⟩ (⟨-, hlt, -⟩ | ⟨-, hlt, -⟩) <;> exact hle.not_gt hlt
  · rw [due_iff htimed.nonneg hmono fun hpos => hseen hpos app happ]
    exact or_congr_right or_and_right

theorem MainStep.recovered (htruthful : env.Truthful rm) {s t : ElephantRunner n}
    (hconserved : s.Conserved) (htimed : s.Timed) (h : Recovered rm env.context s)
    (hstep : MainStep env s t) : Recovered rm env.context t := by
  obtain ⟨-, htable, hlaunch, hsaved, -, -⟩ := hstep.frame
  obtain ⟨-, hclock, -⟩ := hstep.timed htruthful htimed
  rcases hstep.makes with ⟨hreturned, hheap, hfrontier⟩ | hmakes
  · constructor
    · exact hlaunch ▸ h.launchNodup
    · intro app happ hstored
      have := h.launchFinished app happ (hlaunch ▸ hstored)
      omega
    · simpa only [hfrontier, hlaunch] using h.launchSeen
    · simpa only [htable, hlaunch, hsaved, hheap] using h.table
    · simpa only [hreturned, hheap, hfrontier, hlaunch] using h.lists
    · intro succeededApps hmain
      obtain ⟨rootNode, byId, hreads, hlooks, hanswer, hread, rfl⟩ := hstep.reads hmain
      have hanswered : rm.Answers (s.analyticJobGenerator.appsUrl FinalStatus.SUCCEEDED.toText)
          rootNode := htruthful.answers _ _ hanswer
      exact h.reads hconserved (by simp [frontier, hreads]) hlooks hanswered hread
  · obtain ⟨succeededApps, failedApps, rootNode, byId, hmain, hlooks, hanswer, hread, rfl⟩ := hmakes
    have hanswered : rm.Answers (s.analyticJobGenerator.appsUrl FinalStatus.FAILED.toText)
        rootNode := htruthful.answers _ _ hanswer
    have hfailed := h.reads hconserved (by simp [frontier, hmain]) hlooks hanswered hread
    have hcurrent := (htimed.fetching (by simp [hmain, MainThread.Fetching])).1
    have hold : ∀ job ∈ s.returned,
        (s.heap.allocAll (succeededApps ++ failedApps)).2.cell job = s.heap.cell job :=
      fun job hjob => s.heap.allocAll_cell_of_lt _ (hconserved.allocated job hjob)
    constructor
    · exact h.launchNodup
    · exact h.launchFinished
    · intro _ app happ hstored
      simpa only [frontier, hcurrent] using h.launchFinished app happ hstored
    · rw [h.table]
      refine congrArg _ (List.map_congr_left fun job hjob => ?_)
      rw [hold job (hconserved.returned_of_saved hjob)]
    · rw [List.map_append, Heap.allocAll_map_cell, List.map_congr_left hold]
      exact h.window htimed hmain hfailed
    · simp

theorem Launched.timed {s : ElephantRunner n} (h : s.Launched) : s.Timed :=
  ⟨h.lastTime.ge, by simp [h.lastTime], by simp [h.mainThread, MainThread.Fetching]⟩

/-- A database that earlier lifetimes may have left: no application twice, and
none that finished too late for them to have fetched it. -/
structure Persisted (rm : ResourceManager) (table : List AppResult) (clock : Int) : Prop where
  nodup : (table.map AppResult.id).Nodup
  finished : ∀ app ∈ rm.apps, Stored table app → app.finishedTime ≤ clock - FETCH_DELAY

theorem Launched.recovered {s : ElephantRunner n} (h : s.Launched)
    (hpersisted : Persisted rm s.table s.clock) : Recovered rm env.context s := by
  have hfrontier : s.frontier = 0 := by simp [frontier, h.mainThread, h.lastTime]
  constructor
  · exact h.launchTable ▸ hpersisted.nodup
  · exact h.launchTable ▸ hpersisted.finished
  · simp [hfrontier]
  · simp [h.launchTable, h.saved]
  · refine ⟨[], List.nodup_nil, fun app => ?_, by simp [h.returned]⟩
    have hfinished := app.finished
    simp only [List.not_mem_nil, hfrontier, false_iff, not_and]
    intro _ hdue _
    omega
  · simp [h.mainThread]

/-- No job stands for an application whose row is stored, saved jobs apart. -/
theorem Recovered.not_stored {context : ElephantContext δ} {s : ElephantRunner n}
    (hconserved : s.Conserved) (h : Recovered rm context s) {job : Nat} (hjob : job ∈ s.returned)
    (hsaved : job ∉ s.saved) : some (s.heap.cell job).appId ∉ s.table.map AppResult.id := by
  have hnodup := h.lists.nodup
  rw [List.map_map] at hnodup
  rw [h.table, List.mem_append, not_or]
  constructor
  · intro hstored
    obtain ⟨app, -, hid, ⟨-, -, hnotStored⟩, -⟩ := h.lists.exists_app
      (List.mem_map_of_mem (List.mem_map_of_mem (f := s.heap.cell) hjob))
    exact hnotStored (by rwa [Stored, hid])
  · intro hrow
    obtain ⟨other, hother, hid⟩ := List.mem_map.mp hrow
    have hreturned := hconserved.returned_of_saved hother
    obtain rfl := List.inj_on_of_nodup_map hnodup hreturned hjob (Option.some.inj hid)
    exact hsaved hother

theorem Conserved.nodup_saved {s : ElephantRunner n} (h : s.Conserved) : s.saved.Nodup := by
  have hle : (s.saved : Multiset Nat) ≤ s.owned :=
    (Multiset.le_add_left _ _).trans (Multiset.le_add_right _ _)
  rw [h.owned] at hle
  exact Multiset.coe_nodup.mp (Multiset.nodup_of_le hle (Multiset.coe_nodup.mpr h.nodup))

theorem frontier_cases (s : ElephantRunner n) : s.frontier = s.analyticJobGenerator.lastTime ∨
    s.mainThread.Fetching ∧ s.frontier = s.analyticJobGenerator.currentTime := by
  unfold frontier
  split
  · rename_i appList hmain
    exact .inr ⟨by simp [hmain, MainThread.Fetching], rfl⟩
  · rename_i appList hmain
    exact .inr ⟨by simp [hmain, MainThread.Fetching], rfl⟩
  · exact .inl rfl

theorem Timed.lastTime_le_frontier {s : ElephantRunner n} (h : s.Timed) :
    s.analyticJobGenerator.lastTime ≤ s.frontier := by
  rcases s.frontier_cases with hlast | ⟨hfetching, hcurrent⟩
  · exact hlast.ge
  · rw [hcurrent]
    exact h.lastTime_le hfetching

theorem Timed.frontier_le {s : ElephantRunner n} (h : s.Timed) (hpos : 0 < s.frontier) :
    s.frontier ≤ s.clock - FETCH_DELAY := by
  rcases s.frontier_cases with hlast | ⟨hfetching, hcurrent⟩
  · rw [hlast] at hpos ⊢
    exact h.delayed hpos
  · rw [hcurrent]
    exact (h.fetching hfetching).1.le

/-- What a lifetime leaves in the database is what the next one may start from. -/
theorem Recovered.persisted {context : ElephantContext δ} {s : ElephantRunner n}
    (hconserved : s.Conserved) (htimed : s.Timed) (h : Recovered rm context s) :
    Persisted rm s.table s.clock := by
  have hjobs := h.lists.nodup
  rw [List.map_map] at hjobs
  have hsavedApp : ∀ job ∈ s.saved, ∃ app ∈ rm.apps, app.id = (s.heap.cell job).appId ∧
      app.finishedTime ≤ s.frontier ∧ ¬ Stored s.launchTable app := by
    intro job hjob
    have hreturned := hconserved.returned_of_saved hjob
    obtain ⟨app, happ, hid, ⟨-, hle, hnotStored⟩, -⟩ := h.lists.exists_app
      (List.mem_map_of_mem (List.mem_map_of_mem (f := s.heap.cell) hreturned))
    exact ⟨app, happ, hid, hle, hnotStored⟩
  constructor
  · rw [h.table]
    refine List.nodup_append.mpr ⟨h.launchNodup, ?_, ?_⟩
    · refine hconserved.nodup_saved.map_on fun job hjob other hother hid => ?_
      exact List.inj_on_of_nodup_map hjobs (hconserved.returned_of_saved hjob)
        (hconserved.returned_of_saved hother) (Option.some.inj hid)
    · rintro id hlaunched _ hsaved rfl
      obtain ⟨job, hjob, rfl⟩ := List.mem_map.mp hsaved
      obtain ⟨app, -, hid, -, hnotStored⟩ := hsavedApp job hjob
      exact hnotStored (by rwa [Stored, hid])
  · intro app happ hstored
    rw [Stored, h.table, List.mem_append] at hstored
    rcases hstored with hlaunched | hsaved
    · exact h.launchFinished app happ hlaunched
    · obtain ⟨job, hjob, hid⟩ := List.mem_map.mp hsaved
      obtain ⟨app', happ', hid', hle, -⟩ := hsavedApp job hjob
      obtain rfl := rm.unique app' happ' app happ (hid'.trans (Option.some.inj hid))
      exact hle.trans (htimed.frontier_le (app'.finished.trans_le hle))

section executors

variable [HadoopApplicationData δ]

theorem ExecutorStep.recovered (htruthful : env.Truthful rm) {s t : ElephantRunner n}
    (hconserved : s.Conserved) (h : Recovered rm env.context s)
    (hstep : ExecutorStep (δ := δ) s t) : Recovered rm env.context t := by
  obtain ⟨hmain, hclock, hlaunch, hreturned, hlast, hcurrent, hids⟩ := hstep.frame
  have hfrontier : t.frontier = s.frontier := by simp only [frontier, hmain, hlast, hcurrent]
  constructor
  · exact hlaunch ▸ h.launchNodup
  · simpa only [hlaunch, hclock] using h.launchFinished
  · simpa only [hfrontier, hlaunch] using h.launchSeen
  · have htable := h.table
    simp only [← hids] at htable
    cases hstep with
    | save thread analyticJob context setup result job hholds hanalysis =>
      have hplace : analyticJob ∈ s.contents (.executor thread) := by simp [contents, hholds]
      have hjob := hconserved.mem_returned hplace
      obtain ⟨app, happ, hid, -⟩ := h.lists.exists_app
        (List.mem_map_of_mem (List.mem_map_of_mem (f := s.heap.cell) hjob))
      have hlength : utf16Length (s.heap.cell analyticJob).appId ≤ AppResult.ID_LIMIT :=
        hid ▸ htruthful.ids app happ
      have hresult : result.id = some (s.heap.cell analyticJob).appId := by
        rw [AnalyticJob.getAnalysis_id (congrArg Prod.fst hanalysis),
          Utils.truncateField_of_le hlength]
      dsimp only at htable hids ⊢
      rw [List.map_append, List.map_append, htable, List.map_singleton, List.map_singleton, hresult,
        hids, List.append_assoc]
    | _ => exact htable
  · obtain ⟨apps, hnodup, happs, hjobs⟩ := h.lists
    refine ⟨apps, hnodup, by simpa only [hfrontier, hlaunch] using happs, ?_⟩
    simpa only [hreturned, List.map_map, Function.comp_def, hids] using hjobs
  · simpa only [hmain, hlast, hcurrent, hlaunch] using h.reading

/-- Lifetimes of the daemon over one database. A process may crash between any
two steps; the next one is launched on the table as it was left. -/
def lifetimes (env : Environment δ) (rm : ResourceManager) (n : Nat) :
    transition.System (ElephantRunner n) where
  init s := s.Launched ∧ Persisted rm s.table s.clock
  step s t := (runs env n).step s t ∨ t.Launched ∧ t.table = s.table ∧ t.clock = s.clock

theorem lifetimes_invariant (htruthful : env.Truthful rm) : (lifetimes env rm n).Invariant fun s =>
    s.Conserved ∧ s.Timed ∧ Recovered rm env.context s where
  init s hs := ⟨hs.1.conserved, hs.1.timed, hs.1.recovered hs.2⟩
  step s t h hstep := by
    obtain ⟨hconserved, htimed, hrecovered⟩ := h
    rcases hstep with hstep | ⟨hlaunched, htable, hclock⟩
    · refine ⟨hconserved.step hstep, ?_⟩
      rcases hstep with hmain | hexecutor
      · exact ⟨(hmain.timed htruthful htimed).1,
          hmain.recovered htruthful hconserved htimed hrecovered⟩
      · exact ⟨hexecutor.timed htimed, hexecutor.recovered htruthful hconserved hrecovered⟩
    · have hpersisted := hrecovered.persisted hconserved htimed
      rw [← htable, ← hclock] at hpersisted
      exact ⟨hlaunched.conserved, hlaunched.timed, hlaunched.recovered hpersisted⟩

/-- Within a lifetime the cursor does not go back. -/
theorem lastTime_le_of_run (htruthful : env.Truthful rm) {s t : ElephantRunner n}
    (hs : (lifetimes env rm n).Reachable s) (hrun : (runs env n).Run s t) :
    (lifetimes env rm n).Reachable t ∧
      s.analyticJobGenerator.lastTime ≤ t.analyticJobGenerator.lastTime := by
  refine hrun.preserves (p := fun t => (lifetimes env rm n).Reachable t ∧
    s.analyticJobGenerator.lastTime ≤ t.analyticJobGenerator.lastTime) ?_ ⟨hs, le_refl _⟩
  rintro u v ⟨hreach, hle⟩ hstep
  refine ⟨hreach.step (.inl hstep), hle.trans ?_⟩
  rcases hstep with hmain | hexecutor
  · have htimed := ((lifetimes_invariant htruthful).of_reachable hreach).2.1
    exact (hmain.timed htruthful htimed).2.2
  · exact hexecutor.frame.2.2.2.2.1.ge

/-- Over all lifetimes no application is saved twice, and none that is saved is
with an executor. Once a fetch of a lifetime has returned, every application it
was there to analyse is saved, or is a job of this lifetime, until a crash. -/
theorem crash_recovery (htruthful : env.Truthful rm) {s : ElephantRunner n}
    (hs : (lifetimes env rm n).Reachable s) :
    (s.table.map AppResult.id).Nodup ∧
    (∀ thread job, s.executors thread = some job →
      some (s.heap.cell job).appId ∉ s.table.map AppResult.id) ∧
    (0 < s.analyticJobGenerator.lastTime → ∀ t, (runs env n).Run s t →
      ∀ app ∈ rm.apps, app.Analysable env.context →
        app.finishedTime ≤ s.analyticJobGenerator.lastTime →
        some app.id ∈ t.table.map AppResult.id ∨
          ∃ place job, place ≠ .saved ∧ job ∈ t.contents place ∧ (t.heap.cell job).appId = app.id) := by
  obtain ⟨hconserved, htimed, hrecovered⟩ := (lifetimes_invariant htruthful).of_reachable hs
  refine ⟨(hrecovered.persisted hconserved htimed).nodup, ?_, ?_⟩
  · intro thread job hholds
    have hplace : job ∈ s.contents (.executor thread) := by simp [contents, hholds]
    apply hrecovered.not_stored hconserved (hconserved.mem_returned hplace)
    intro hsaved
    cases hconserved.unique hplace (show job ∈ s.contents .saved from hsaved)
  · intro _ t hrun app happ hanalysable hle
    obtain ⟨ht, hmono⟩ := lastTime_le_of_run htruthful hs hrun
    obtain ⟨hconserved', htimed', hrecovered'⟩ := (lifetimes_invariant htruthful).of_reachable ht
    have hfrontier := htimed'.lastTime_le_frontier
    by_cases hlaunched : Stored t.launchTable app
    · apply Or.inl
      rw [hrecovered'.table]
      exact List.mem_append_left _ hlaunched
    · have hmem := (hrecovered'.lists.mem_iff happ).mpr
        ⟨⟨hanalysable.1, by omega, hlaunched⟩, hanalysable.2⟩
      rw [List.map_map, List.mem_map] at hmem
      obtain ⟨job, hjob, hid⟩ := hmem
      obtain ⟨place, hplace, -⟩ := hconserved'.place hjob
      have hcontents : job ∈ t.contents place := Multiset.count_pos.mp (by omega)
      by_cases hsaved : place = .saved
      · subst hsaved
        apply Or.inl
        rw [hrecovered'.table]
        exact List.mem_append_right _
          (List.mem_map.mpr ⟨job, hcontents, congrArg some hid⟩)
      · exact .inr ⟨place, job, hsaved, hcontents, hid⟩

end executors

theorem truthful_wordCount : wordCountEnvironment.Truthful (.ofList [.wordCount] (List.nodup_singleton _)) := by
  refine ⟨?_, fun _ _ h => h, ?_⟩
  · rintro url node rfl
    exact ResourceManager.answers_answer _ url
  · rintro app happ
    obtain rfl := List.mem_singleton.mp happ
    decide

theorem lifetimes_init_wordCount :
    (lifetimes wordCountEnvironment (.ofList [.wordCount] (List.nodup_singleton _)) 2).init wordCountDaemon :=
  ⟨launched_wordCountDaemon, List.nodup_nil, by simp [Stored, wordCountDaemon]⟩

/-- The daemon after a crash, launched on the table that is left, for examples. -/
def restarted (table : List AppResult) : ElephantRunner 2 :=
  { wordCountDaemon with
    table
    launchTable := table
    clock := FETCH_DELAY + 10 }

/-- The first fetch of the next lifetime returns no application that has a row. -/
private theorem exists_run_restarted {row : AppResult} (hid : row.id = some FinishedApp.wordCount.id) :
    ∃ s, (runs wordCountEnvironment 2).Run (restarted [row]) s ∧ s.returned = [] ∧
      s.analyticJobGenerator.lastTime = 20 := by
  let updated := { (restarted [row]).analyticJobGenerator with
    resourceManagerAddress := some "localhost:8088" }
  let fetch : AnalyticJobGeneratorHadoop2.FetchEnvironment := { wordCountFetch with
    currentTimeMillis := FETCH_DELAY + 20
    byId appId := if appId = FinishedApp.wordCount.id then .ok (some row) else .error .nullPointer }
  have hlaunched : (restarted [row]).Launched :=
    ⟨rfl, rfl, rfl, rfl, fun _ => rfl, rfl, rfl, rfl, rfl, fun _ => rfl⟩
  have hupdate : (restarted [row]).analyticJobGenerator.updateResourceManagerAddresses
      wordCountEnvironment.configuration (fun _ => .error .nullPointer) 0 (.ok ()) =
        (.ok (), updated) := rfl
  have hfetch : updated.fetchAnalyticJobs wordCountEnvironment.context fetch (restarted [row]).heap =
      (.ok (([] : List Nat).map some), _, _) := rfl
  have hclock : wordCountEnvironment.ticks (restarted [row]).clock fetch.currentTimeMillis :=
    show FETCH_DELAY + 10 ≤ FETCH_DELAY + 20 ∧ FETCH_DELAY < FETCH_DELAY + 20 by decide
  have hlooks : (restarted [row]).Looks fetch.byId := by
    intro appId found hfound
    replace hfound : (if appId = FinishedApp.wordCount.id then .ok (some row) else .error .nullPointer :
      Except JavaException (Option AppResult)) = .ok found := hfound
    by_cases happId : appId = FinishedApp.wordCount.id
    · rw [if_pos happId] at hfound
      rw [← Except.ok.inj hfound, happId]
      simp [AppResult.byId, restarted, hid]
    · rw [if_neg happId] at hfound
      cases hfound
  exact ⟨_, hlaunched.run_fetched hupdate hclock hlooks (fun _ _ hnode => by cases hnode; rfl) hfetch, rfl, rfl⟩

theorem crash_recovery_wordCount : ∃ (before after : ElephantRunner 2) (row : AppResult),
    (runs wordCountEnvironment 2).Run wordCountDaemon before ∧ before.table = [row] ∧
    (runs wordCountEnvironment 2).Run (restarted before.table) after ∧
    after.analyticJobGenerator.lastTime = 20 ∧ after.returned = [] ∧
    (after.table.map AppResult.id).Nodup ∧
    (some FinishedApp.wordCount.id ∈ after.table.map AppResult.id ∨
      ∃ place job, place ≠ .saved ∧ job ∈ after.contents place ∧
        (after.heap.cell job).appId = FinishedApp.wordCount.id) := by
  obtain ⟨_, before, row, htaken, -, hsaved, -, htable, hid, hclock⟩ := exists_run_saved
  obtain ⟨after, hrestarted, hreturned, hlast⟩ := exists_run_restarted hid
  have hrun := htaken.trans hsaved
  have hbefore : (lifetimes wordCountEnvironment (.ofList [.wordCount] (List.nodup_singleton _)) 2).Reachable
      before := ⟨_, lifetimes_init_wordCount, hrun.mono fun _ _ => Or.inl⟩
  have hlaunched : (restarted before.table).Launched :=
    ⟨rfl, rfl, rfl, rfl, fun _ => rfl, rfl, rfl, rfl, rfl, fun _ => rfl⟩
  have hcrash := hbefore.step (.inr ⟨hlaunched, rfl, hclock.symm⟩)
  rw [← htable] at hrestarted
  obtain ⟨hnodup, -, hfetched⟩ := crash_recovery truthful_wordCount (hcrash.run (hrestarted.mono fun _ _ => Or.inl))
  refine ⟨before, after, row, hrun, htable, hrestarted, hlast, hreturned, hnodup,
    hfetched (by omega) after .refl .wordCount (List.mem_singleton_self _) ?_ ?_⟩
  · exact ⟨.inl rfl, rfl⟩
  · rw [hlast]
    decide

end ElephantRunner

end drelephant
