import Mathlib.Algebra.BigOperators.Group.Finset.Basic
import Mathlib.Data.Fintype.Basic
import Mathlib.Data.List.ReduceOption
import Mathlib.Tactic.Abel
import DrElephant.Runner.Fetch

open java.lang memory models
open drelephant.util drelephant.analysis

namespace drelephant

/-- The places where a job can be. -/
inductive Place (n : Nat)
  | todos
  | jobQueue
  | executor (thread : Fin n)
  | retryQueue
  | saved
  | dropped
  deriving DecidableEq

namespace ElephantRunner

variable {δ : Type} {n : Nat} {env : Environment δ}

def contents (s : ElephantRunner n) : Place n → Multiset Nat
  | .todos => s.mainThread.todos.reduceOption
  | .jobQueue => s.jobQueue
  | .executor thread => (s.executors thread).toList
  | .retryQueue => s.analyticJobGenerator.retryQueue
  | .saved => s.saved
  | .dropped => s.dropped

/-- The jobs that the executor threads hold. -/
def held (executors : Fin n → Option Nat) : Multiset Nat :=
  ∑ thread, ((executors thread).toList : Multiset Nat)

/-- All jobs, as often as they are anywhere. -/
def owned (s : ElephantRunner n) : Multiset Nat :=
  s.contents .todos + s.contents .jobQueue + held s.executors + s.contents .retryQueue +
    s.contents .saved + s.contents .dropped

theorem held_update (executors : Fin n → Option Nat) (thread : Fin n) (job : Option Nat) :
    held (Function.update executors thread job) + (executors thread).toList =
      held executors + job.toList := by
  unfold held
  rw [← Finset.add_sum_erase _ _ (Finset.mem_univ thread),
    ← Finset.add_sum_erase Finset.univ (fun thread => ((executors thread).toList : Multiset Nat))
      (Finset.mem_univ thread), Function.update_self]
  have hothers : ∀ other ∈ Finset.univ.erase thread,
      ((Function.update executors thread job other).toList : Multiset Nat) =
        (executors other).toList := by
    intro other hother
    rw [Function.update_of_ne (Finset.ne_of_mem_erase hother)]
  rw [Finset.sum_congr rfl hothers]
  abel

/-- A thread without a job gets one. -/
theorem held_take {executors : Fin n → Option Nat} {thread : Fin n} (hidle : executors thread = none)
    (job : Nat) : held (Function.update executors thread (some job)) = held executors + {job} := by
  simpa [hidle] using held_update executors thread (some job)

/-- A thread gives its job away. -/
theorem held_release {executors : Fin n → Option Nat} {thread : Fin n} {job : Nat}
    (hholds : executors thread = some job) :
    held (Function.update executors thread none) + {job} = held executors := by
  simpa [hholds] using held_update executors thread none

/-- What a step does to the jobs: it moves them between places, and those it
gains are objects it makes. -/
structure Moves (s t : ElephantRunner n) (created : List Nat) : Prop where
  owned : t.owned = s.owned + created
  returned : t.returned = s.returned ++ created
  fresh : created = List.range' s.heap.next created.length
  next : t.heap.next = s.heap.next + created.length

/-- A step that makes no job. -/
private theorem Moves.of_owned {s t : ElephantRunner n} (howned : t.owned = s.owned)
    (hreturned : t.returned = s.returned) (hnext : t.heap.next = s.heap.next) : s.Moves t [] :=
  ⟨by simpa using howned, by simpa using hreturned, rfl, hnext⟩

/-- A step of the main thread that takes its list along, or has none. -/
private theorem Moves.of_mainThread {s : ElephantRunner n} {mainThread : MainThread}
    (htodos : mainThread.todos = s.mainThread.todos) : s.Moves { s with mainThread } [] := by
  apply Moves.of_owned
  · simp only [ElephantRunner.owned, contents, htodos]
  · rfl
  · rfl

/-- The drain never polls an empty queue, so it collects no null. -/
structure Drains (s : ElephantRunner n) : Prop where
  notNull : none ∉ s.mainThread.todos
  polled : ∀ appList, s.mainThread = .pollRetries appList →
    s.analyticJobGenerator.retryQueue ≠ []

/-- A main thread that neither drains nor enqueues. -/
private theorem Drains.of_todos_eq_nil {s : ElephantRunner n} (htodos : s.mainThread.todos = [])
    (hpoll : ∀ appList, s.mainThread ≠ .pollRetries appList) : s.Drains :=
  ⟨by simp [htodos], fun appList hmain => absurd hmain (hpoll appList)⟩

theorem MainStep.drains {s t : ElephantRunner n} (h : s.Drains) (hstep : MainStep env s t) :
    t.Drains := by
  obtain ⟨hnull, hpolled⟩ := h
  cases hstep with
  | updateAddresses readState now newToken result generator hmain hupdate =>
    cases result <;> exact .of_todos_eq_nil rfl nofun
  | beginFetch now newToken result generator hmain hclock hbegin =>
    cases result <;> exact .of_todos_eq_nil rfl nofun
  | checkLoginFails => exact .of_todos_eq_nil rfl nofun
  | readSucceeded => exact .of_todos_eq_nil rfl nofun
  | readSucceededThrows => exact .of_todos_eq_nil rfl nofun
  | readFailed => exact ⟨by simp [MainThread.todos], by simp⟩
  | readFailedThrows => exact .of_todos_eq_nil rfl nofun
  | retriesNotEmpty appList hmain hretries =>
    rw [hmain] at hnull
    exact ⟨hnull, fun _ _ => hretries⟩
  | pollRetries appList promise rest hmain hpoll =>
    rw [hmain] at hnull
    obtain ⟨job, rfl, -⟩ := AnalyticJobGeneratorHadoop2.eq_cons_of_poll (hpolled appList hmain) hpoll
    exact ⟨by simpa [MainThread.todos] using hnull, by simp⟩
  | retriesEmpty appList hmain hretries =>
    rw [hmain] at hnull
    exact ⟨hnull, by simp⟩
  | enqueue job todos hmain =>
    rw [hmain] at hnull
    exact ⟨fun hmem => hnull (List.mem_cons_of_mem _ hmem), by simp⟩
  | enqueueNull => exact .of_todos_eq_nil rfl nofun
  | enqueued => exact .of_todos_eq_nil rfl nofun

theorem ExecutorStep.drains [HadoopApplicationData δ] {s t : ElephantRunner n} (h : s.Drains)
    (hstep : ExecutorStep (δ := δ) s t) : t.Drains := by
  obtain ⟨hnull, hpolled⟩ := h
  cases hstep with
  | take => exact ⟨hnull, hpolled⟩
  | save => exact ⟨hnull, hpolled⟩
  | retry => exact ⟨hnull, fun _ _ => by simp [AnalyticJobGeneratorHadoop2.addIntoRetries]⟩
  | drop => exact ⟨hnull, hpolled⟩

theorem ExecutorStep.moves [HadoopApplicationData δ] {s t : ElephantRunner n}
    (hstep : ExecutorStep (δ := δ) s t) : s.Moves t [] := by
  cases hstep with
  | take thread analyticJob rest hidle hqueue =>
    refine Moves.of_owned ?_ rfl rfl
    simp only [owned, contents, held_take hidle, hqueue, ← Multiset.cons_coe,
      ← Multiset.singleton_add]
    abel
  | save thread analyticJob context setup result job hholds hanalysis =>
    refine Moves.of_owned ?_ rfl rfl
    simp only [owned, contents, ← held_release hholds, ← Multiset.coe_add, Multiset.coe_singleton]
    abel
  | retry thread analyticJob context setup result failed retried hholds hanalysis hretry =>
    refine Moves.of_owned ?_ rfl rfl
    simp only [owned, contents, ← held_release hholds, AnalyticJobGeneratorHadoop2.addIntoRetries,
      ← Multiset.coe_add, Multiset.coe_singleton]
    abel
  | drop thread analyticJob context setup result failed dropped hholds hanalysis hretry =>
    refine Moves.of_owned ?_ rfl rfl
    simp only [owned, contents, ← held_release hholds, ← Multiset.coe_add, Multiset.coe_singleton]
    abel

/-- The main thread gains jobs where it has read the failed applications, and
loses none because what it collects holds no null. -/
theorem MainStep.moves {s t : ElephantRunner n} (h : s.Drains) (hstep : MainStep env s t) :
    ∃ created, s.Moves t created := by
  obtain ⟨hnull, hpolled⟩ := h
  cases hstep with
  | updateAddresses readState now newToken result generator hmain hupdate =>
    obtain ⟨-, hretries⟩ :=
      AnalyticJobGeneratorHadoop2.frame_of_updateResourceManagerAddresses hupdate
    refine ⟨[], Moves.of_owned ?_ rfl rfl⟩
    cases result <;> simp [owned, contents, hmain, MainThread.todos, hretries]
  | beginFetch now newToken result generator hmain hclock hbegin =>
    obtain ⟨-, -, hretries⟩ := AnalyticJobGeneratorHadoop2.frame_of_beginFetch hbegin
    refine ⟨[], Moves.of_owned ?_ rfl rfl⟩
    cases result <;> simp [owned, contents, hmain, MainThread.todos, hretries]
  | checkLoginFails hmain =>
    exact ⟨[], Moves.of_mainThread (by rw [hmain]; rfl)⟩
  | readSucceeded rootNode byId succeededApps hmain =>
    exact ⟨[], Moves.of_mainThread (by rw [hmain]; rfl)⟩
  | readSucceededThrows hmain =>
    exact ⟨[], Moves.of_mainThread (by rw [hmain]; rfl)⟩
  | readFailed succeededApps rootNode byId failedApps appList heap hmain hlooks hanswer hread halloc =>
    have hrefs := s.heap.allocAll_refs (succeededApps ++ failedApps)
    have hnext := s.heap.allocAll_next (succeededApps ++ failedApps)
    simp only [halloc] at hrefs hnext
    have hlength : appList.length = (succeededApps ++ failedApps).length := by
      rw [hrefs, List.length_range']
    refine ⟨appList, ?_, rfl, hlength ▸ hrefs, hlength ▸ hnext⟩
    simp only [owned, contents, hmain, MainThread.todos, List.reduceOption_nil]
    simp only [List.reduceOption, List.filterMap_map, Function.id_comp, List.filterMap_some,
      Multiset.coe_nil]
    abel
  | readFailedThrows succeededApps hmain =>
    exact ⟨[], Moves.of_mainThread (by rw [hmain]; rfl)⟩
  | retriesNotEmpty appList hmain hretries =>
    exact ⟨[], Moves.of_mainThread (by rw [hmain]; rfl)⟩
  | pollRetries appList promise rest hmain hpoll =>
    obtain ⟨job, rfl, hqueue⟩ :=
      AnalyticJobGeneratorHadoop2.eq_cons_of_poll (hpolled appList hmain) hpoll
    refine ⟨[], Moves.of_owned ?_ rfl rfl⟩
    simp only [owned, contents, hmain, hqueue, MainThread.todos, List.reduceOption_append,
      List.reduceOption_singleton, Option.toList_some, ← Multiset.coe_add, ← Multiset.cons_coe,
      ← Multiset.singleton_add, Multiset.coe_nil]
    abel
  | retriesEmpty appList hmain hretries =>
    refine ⟨[], Moves.of_owned ?_ rfl rfl⟩
    simp [owned, contents, hmain, MainThread.todos, AnalyticJobGeneratorHadoop2.endFetch]
  | enqueue job todos hmain =>
    refine ⟨[], Moves.of_owned ?_ rfl rfl⟩
    simp only [owned, contents, hmain, MainThread.todos, List.reduceOption_cons_of_some,
      ← Multiset.coe_add, ← Multiset.cons_coe, ← Multiset.singleton_add, Multiset.coe_nil]
    abel
  | enqueueNull todos hmain =>
    rw [hmain] at hnull
    exact absurd List.mem_cons_self hnull
  | enqueued hmain =>
    exact ⟨[], Moves.of_mainThread (by rw [hmain]; rfl)⟩

/-- Every job made is somewhere, once, and is an object of the heap. -/
structure Conserved (s : ElephantRunner n) : Prop where
  drains : s.Drains
  owned : s.owned = s.returned
  nodup : s.returned.Nodup
  allocated : ∀ job ∈ s.returned, job < s.heap.next

theorem Conserved.moves {s t : ElephantRunner n} {created : List Nat} (h : s.Conserved)
    (hdrains : t.Drains) (hmoves : s.Moves t created) : t.Conserved where
  drains := hdrains
  owned := by rw [hmoves.owned, hmoves.returned, h.owned, Multiset.coe_add]
  nodup := by
    rw [hmoves.returned, hmoves.fresh]
    refine List.nodup_append.mpr ⟨h.nodup, List.nodup_range', ?_⟩
    rintro job hjob _ hcreated rfl
    have hlt := h.allocated job hjob
    have hle := (List.mem_range'_1.mp hcreated).1
    omega
  allocated := by
    intro job hjob
    rw [hmoves.next]
    rw [hmoves.returned, List.mem_append] at hjob
    rcases hjob with hold | hnew
    · have hlt := h.allocated job hold
      omega
    · rw [hmoves.fresh] at hnew
      exact (List.mem_range'_1.mp hnew).2

theorem count_held (executors : Fin n → Option Nat) (job : Nat) :
    (held executors).count job = ∑ thread, ((executors thread).toList : Multiset Nat).count job := by
  unfold held
  exact map_sum (Multiset.countAddMonoidHom job) _ _

/-- A job that is owned once has one place. -/
theorem exists_place {s : ElephantRunner n} {job : Nat} (h : s.owned.count job = 1) :
    ∃ place, (s.contents place).count job = 1 ∧
      ∀ other, other ≠ place → (s.contents other).count job = 0 := by
  have hsum : (s.contents .todos).count job + (s.contents .jobQueue).count job +
      (∑ thread, (s.contents (.executor thread)).count job) +
      (s.contents .retryQueue).count job + (s.contents .saved).count job +
      (s.contents .dropped).count job = 1 := by
    simpa only [owned, Multiset.count_add, count_held, contents] using h
  by_cases hheld : (∑ thread, (s.contents (.executor thread)).count job) = 0
  · have hidle : ∀ thread, (s.contents (.executor thread)).count job = 0 := by
      simpa using hheld
    have hplace : ∃ place, (s.contents place).count job ≠ 0 := by
      by_contra hnone
      push Not at hnone
      have := hnone .todos
      have := hnone .jobQueue
      have := hnone .retryQueue
      have := hnone .saved
      have := hnone .dropped
      omega
    obtain ⟨place, hplace⟩ := hplace
    refine ⟨place, ?_, fun other hother => ?_⟩
    · cases place with
      | executor thread => exact absurd (hidle thread) hplace
      | _ => omega
    · cases other with
      | executor thread => exact hidle thread
      | _ => cases place with
        | executor thread => exact absurd (hidle thread) hplace
        | _ => first | exact absurd rfl hother | omega
  · obtain ⟨thread, -, hthread⟩ := Finset.exists_ne_zero_of_sum_ne_zero hheld
    rw [← Finset.add_sum_erase _ _ (Finset.mem_univ thread)] at hsum
    have hidle : ∑ other ∈ Finset.univ.erase thread, (s.contents (.executor other)).count job = 0 := by
      omega
    refine ⟨.executor thread, by omega, fun other hother => ?_⟩
    cases other with
    | executor other =>
      have hne : other ≠ thread := fun heq => hother (heq ▸ rfl)
      exact Finset.sum_eq_zero_iff.mp hidle other (Finset.mem_erase.mpr ⟨hne, Finset.mem_univ _⟩)
    | _ => omega

theorem Conserved.place {s : ElephantRunner n} (h : s.Conserved) {job : Nat}
    (hjob : job ∈ s.returned) : ∃ place, (s.contents place).count job = 1 ∧
      ∀ other, other ≠ place → (s.contents other).count job = 0 := by
  apply exists_place
  rw [h.owned, Multiset.coe_count]
  exact List.count_eq_one_of_mem h.nodup hjob

theorem mem_owned {s : ElephantRunner n} {job : Nat} {place : Place n}
    (h : job ∈ s.contents place) : job ∈ s.owned := by
  simp only [owned, Multiset.mem_add]
  cases place with
  | executor thread =>
    have hheld : job ∈ held s.executors := Multiset.mem_sum.mpr ⟨thread, Finset.mem_univ _, h⟩
    simp only [hheld, true_or, or_true]
  | _ => simp only [h, true_or, or_true]

theorem Conserved.mem_returned {s : ElephantRunner n} (h : s.Conserved) {job : Nat}
    {place : Place n} (hplace : job ∈ s.contents place) : job ∈ s.returned := by
  rw [← Multiset.mem_coe, ← h.owned]
  exact mem_owned hplace

theorem Conserved.returned_of_saved {s : ElephantRunner n} (h : s.Conserved) {job : Nat}
    (hsaved : job ∈ s.saved) : job ∈ s.returned :=
  h.mem_returned (show job ∈ s.contents .saved from hsaved)

theorem Conserved.returned_of_dropped {s : ElephantRunner n} (h : s.Conserved) {job : Nat}
    (hdropped : job ∈ s.dropped) : job ∈ s.returned :=
  h.mem_returned (show job ∈ s.contents .dropped from hdropped)

/-- A job in one place is in no other. -/
theorem Conserved.unique {s : ElephantRunner n} (h : s.Conserved) {job : Nat} {place other : Place n}
    (hplace : job ∈ s.contents place) (hother : job ∈ s.contents other) : place = other := by
  obtain ⟨only, -, hothers⟩ := h.place (h.mem_returned hplace)
  have honly : ∀ any, job ∈ s.contents any → any = only := by
    intro any hany
    by_contra hne
    exact Multiset.count_eq_zero.mp (hothers any hne) hany
  rw [honly place hplace, honly other hother]

/-- The retry counter of a job counts its failures, and the last one drops it. -/
structure Counted (s : ElephantRunner n) : Prop where
  untried : ∀ succeededApps, s.mainThread = .readFailed succeededApps →
    ∀ job ∈ succeededApps, job.retries = 0
  unreturned : ∀ job ∉ s.returned, s.failures job = 0
  retries : ∀ job ∈ s.returned, (s.heap.cell job).retries = s.failures job
  limit : ∀ job ∈ s.returned, (s.failures job : Int) ≤ 1 + RETRY_LIMIT
  dropped : ∀ job ∈ s.returned, job ∈ s.dropped ↔ (s.failures job : Int) = 1 + RETRY_LIMIT

/-- What is counted of one job. -/
structure JobCounted (s : ElephantRunner n) (job : Nat) : Prop where
  retries : (s.heap.cell job).retries = s.failures job
  limit : (s.failures job : Int) ≤ 1 + RETRY_LIMIT
  dropped : job ∈ s.dropped ↔ (s.failures job : Int) = 1 + RETRY_LIMIT

private theorem Counted.job {s : ElephantRunner n} (h : s.Counted) {job : Nat}
    (hjob : job ∈ s.returned) : s.JobCounted job :=
  ⟨h.retries job hjob, h.limit job hjob, h.dropped job hjob⟩

private theorem Counted.of_jobs {s : ElephantRunner n}
    (huntried : ∀ succeededApps, s.mainThread = .readFailed succeededApps →
      ∀ job ∈ succeededApps, job.retries = 0)
    (hunreturned : ∀ job ∉ s.returned, s.failures job = 0)
    (hjobs : ∀ job ∈ s.returned, s.JobCounted job) : s.Counted :=
  ⟨huntried, hunreturned, fun job hjob => (hjobs job hjob).retries,
    fun job hjob => (hjobs job hjob).limit, fun job hjob => (hjobs job hjob).dropped⟩

/-- A job that a step leaves alone. -/
private theorem JobCounted.congr {s t : ElephantRunner n} {job : Nat} (h : s.JobCounted job)
    (hfailures : t.failures job = s.failures job)
    (hretries : (t.heap.cell job).retries = (s.heap.cell job).retries)
    (hdropped : job ∈ t.dropped ↔ job ∈ s.dropped) : t.JobCounted job := by
  obtain ⟨hcell, hlimit, hiff⟩ := h
  constructor
  · rw [hretries, hcell, hfailures]
  · rwa [hfailures]
  · rw [hdropped, hiff, hfailures]

theorem MainStep.counted {s t : ElephantRunner n} (hconserved : s.Conserved) (h : s.Counted)
    (hstep : MainStep env s t) : t.Counted := by
  obtain ⟨-, -, -, -, hdropped, hfailures⟩ := hstep.frame
  have huntried : ∀ succeededApps, t.mainThread = .readFailed succeededApps →
      ∀ job ∈ succeededApps, job.retries = 0 := by
    intro succeededApps hmain
    obtain ⟨rootNode, byId, -, -, -, hread, -⟩ := hstep.reads hmain
    exact AnalyticJobGeneratorHadoop2.readElements_retries hread
  rcases hstep.makes with ⟨hreturned, hheap, -⟩ | hmakes
  · refine .of_jobs huntried (by simpa only [hreturned, hfailures] using h.unreturned) ?_
    intro job hjob
    rw [hreturned] at hjob
    exact (h.job hjob).congr (by rw [hfailures]) (by rw [hheap]) (by rw [hdropped])
  · obtain ⟨succeededApps, failedApps, rootNode, byId, hmain, -, -, hread, rfl⟩ := hmakes
    refine .of_jobs (by simp) (fun job hjob => h.unreturned job fun hmem =>
      hjob (List.mem_append_left _ hmem)) ?_
    intro job hjob
    rcases List.mem_append.mp hjob with hold | hmade
    · refine (h.job hold).congr rfl ?_ Iff.rfl
      dsimp only
      rw [s.heap.allocAll_cell_of_lt _ (hconserved.allocated job hold)]
    · have hle := (Heap.mem_allocAll.mp hmade).1
      have hunreturned : job ∉ s.returned := by
        intro hmem
        have hlt := hconserved.allocated job hmem
        omega
      have hzero : s.failures job = 0 := h.unreturned job hunreturned
      have hnotDropped : job ∉ s.dropped := fun hmem =>
        hunreturned (hconserved.returned_of_dropped hmem)
      have hretries : ((s.heap.allocAll (succeededApps ++ failedApps)).2.cell job).retries = 0 := by
        rcases List.mem_append.mp (Heap.allocAll_cell_mem hmade) with hsucceeded | hfailed
        · exact h.untried succeededApps hmain _ hsucceeded
        · exact AnalyticJobGeneratorHadoop2.readElements_retries hread _ hfailed
      constructor
      · simp only [hretries, hzero, Nat.cast_zero]
      · simp [hzero, RETRY_LIMIT]
      · simp [hzero, hnotDropped, RETRY_LIMIT]

section executors

variable [HadoopApplicationData δ]

/-- The job that a thread holds is neither idle, saved nor dropped, so it may fail once more. -/
private theorem Counted.held {s : ElephantRunner n} (hconserved : s.Conserved) (h : s.Counted)
    {thread : Fin n} {job : Nat} (hholds : s.executors thread = some job) :
    job ∈ s.returned ∧ job ∉ s.dropped ∧ (s.failures job : Int) ≤ RETRY_LIMIT := by
  have hplace : job ∈ s.contents (.executor thread) := by simp [contents, hholds]
  have hjob := hconserved.mem_returned hplace
  have hdropped : job ∉ s.dropped := by
    intro hmem
    cases hconserved.unique hplace (show job ∈ s.contents .dropped from hmem)
  have hlimit := h.limit job hjob
  have hne := (h.dropped job hjob).not.mp hdropped
  exact ⟨hjob, hdropped, by omega⟩

/-- One more failure of a job that a thread holds. -/
private theorem Counted.fails {s : ElephantRunner n} (hconserved : s.Conserved) (h : s.Counted)
    {thread : Fin n} {analyticJob : Nat} (hholds : s.executors thread = some analyticJob)
    {t : ElephantRunner n} {failed : AnalyticJob}
    (hretries : failed.retries = (s.heap.cell analyticJob).retries)
    (hmain : t.mainThread = s.mainThread) (hreturned : t.returned = s.returned)
    (hheap : t.heap = s.heap.modify analyticJob fun _ => failed.retry.2)
    (hfailures : t.failures =
      Function.update s.failures analyticJob (s.failures analyticJob + 1))
    (hdropped : t.dropped = if failed.retry.1 then s.dropped else s.dropped ++ [analyticJob]) :
    t.Counted := by
  obtain ⟨hjob, hnotDropped, hle⟩ := h.held hconserved hholds
  have hcount : failed.retries = s.failures analyticJob := hretries.trans (h.retries analyticJob hjob)
  have hretry : failed.retry.1 = decide ((s.failures analyticJob : Int) < RETRY_LIMIT) := by
    simp [AnalyticJob.retry, hcount]
  refine .of_jobs (by simpa only [hmain] using h.untried) ?_ ?_
  · intro other hunreturned
    rw [hreturned] at hunreturned
    have hne : other ≠ analyticJob := fun heq => hunreturned (heq ▸ hjob)
    rw [hfailures, Function.update_of_ne hne]
    exact h.unreturned other hunreturned
  · intro other hmem
    rw [hreturned] at hmem
    by_cases heq : other = analyticJob
    · subst heq
      have hcounted : t.failures other = s.failures other + 1 := by rw [hfailures, Function.update_self]
      constructor
      · rw [hheap, Heap.modify_cell_self, AnalyticJob.retry_retries (by omega) (by omega), hcount,
          hcounted]
        rfl
      · rw [hcounted]
        push_cast
        omega
      · rw [hdropped, hretry, hcounted]
        push_cast
        by_cases hlt : (s.failures other : Int) < RETRY_LIMIT
        · simp only [hlt, decide_true, if_true, hnotDropped, false_iff]
          omega
        · simp only [hlt, decide_false, Bool.false_eq_true, if_false, List.mem_append,
            List.mem_singleton, or_true, true_iff]
          omega
    · refine (h.job hmem).congr (by simp [hfailures, heq])
        (by rw [hheap, Heap.modify_cell_of_ne _ _ heq]) ?_
      rw [hdropped]
      split <;> simp [heq]

theorem ExecutorStep.counted {s t : ElephantRunner n} (hconserved : s.Conserved) (h : s.Counted)
    (hstep : ExecutorStep (δ := δ) s t) : t.Counted := by
  cases hstep with
  | take => exact { h with }
  | save thread analyticJob context setup result job hholds hanalysis =>
    have hretries : ∀ other, ((s.heap.modify analyticJob fun _ => job).cell other).retries =
        (s.heap.cell other).retries := by
      intro other
      by_cases heq : other = analyticJob
      · subst heq
        rw [Heap.modify_cell_self]
        obtain ⟨trackingUrl, rfl⟩ := AnalyticJob.getAnalysis_job hanalysis
        rfl
      · rw [Heap.modify_cell_of_ne _ _ heq]
    exact { h with retries := by simpa only [hretries] using h.retries }
  | retry thread analyticJob context setup result failed retried hholds hanalysis hretry =>
    obtain ⟨trackingUrl, hfailed⟩ := AnalyticJob.getAnalysis_job hanalysis
    have hkept : failed.retries = (s.heap.cell analyticJob).retries := by rw [hfailed]
    exact h.fails hconserved hholds hkept rfl rfl (by rw [hretry]) rfl (by rw [hretry]; rfl)
  | drop thread analyticJob context setup result failed dropped hholds hanalysis hretry =>
    obtain ⟨trackingUrl, hfailed⟩ := AnalyticJob.getAnalysis_job hanalysis
    have hkept : failed.retries = (s.heap.cell analyticJob).retries := by rw [hfailed]
    exact h.fails hconserved hholds hkept rfl rfl (by rw [hretry]) rfl (by rw [hretry]; rfl)

theorem Launched.conserved {s : ElephantRunner n} (h : s.Launched) : s.Conserved := by
  have howned : s.owned = 0 := by
    simp [owned, contents, held, h.mainThread, h.jobQueue, h.executors, h.retryQueue, h.saved,
      h.dropped, MainThread.todos]
  refine ⟨⟨?_, ?_⟩, ?_, ?_, ?_⟩
  all_goals simp [h.mainThread, h.returned, howned, MainThread.todos]

theorem Launched.counted {s : ElephantRunner n} (h : s.Launched) : s.Counted := by
  refine ⟨?_, fun job _ => h.failures job, ?_, ?_, ?_⟩
  all_goals simp [h.mainThread, h.returned]

theorem Conserved.step {s t : ElephantRunner n} (h : s.Conserved) (hstep : (runs env n).step s t) :
    t.Conserved := by
  rcases hstep with hmain | hexecutor
  · obtain ⟨created, hmoves⟩ := hmain.moves h.drains
    exact h.moves (hmain.drains h.drains) hmoves
  · exact h.moves (hexecutor.drains h.drains) hexecutor.moves

theorem conserved_counted_invariant :
    (runs env n).Invariant fun s => s.Conserved ∧ s.Counted where
  init s hs := ⟨hs.conserved, hs.counted⟩
  step s t h hstep := by
    refine ⟨h.1.step hstep, ?_⟩
    rcases hstep with hmain | hexecutor
    · exact hmain.counted h.1 h.2
    · exact hexecutor.counted h.1 h.2

theorem dropped_subset {s t : ElephantRunner n} (hstep : (runs env n).step s t) :
    s.dropped ⊆ t.dropped := by
  rcases hstep with hmain | hexecutor
  · rw [hmain.frame.2.2.2.2.1]
    exact List.Subset.refl _
  · cases hexecutor with
    | drop => exact List.subset_append_left _ _
    | _ => exact List.Subset.refl _

/-- In every state that the daemon reaches, each job a successful fetch made is
in exactly one place. It is dropped when it has failed one time more than it is
retried, and a dropped job stays dropped and is never saved. No list on its way
to the job queue holds a null. -/
theorem job_conservation {s : ElephantRunner n} (hs : (runs env n).Reachable s) :
    (∀ job ∈ s.returned, ∃ place, (s.contents place).count job = 1 ∧
      ∀ other, other ≠ place → (s.contents other).count job = 0) ∧
    (∀ job ∈ s.returned, job ∈ s.dropped ↔ (s.failures job : Int) = 1 + RETRY_LIMIT) ∧
    (∀ job ∈ s.dropped, ∀ t, (runs env n).Run s t → job ∈ t.dropped ∧ job ∉ t.saved) ∧
    none ∉ s.mainThread.todos := by
  obtain ⟨hconserved, hcounted⟩ := conserved_counted_invariant.of_reachable hs
  refine ⟨fun job => hconserved.place, hcounted.dropped, ?_, hconserved.drains.notNull⟩
  intro job hdropped t hrun
  have hstays : job ∈ t.dropped :=
    hrun.preserves (fun _ _ hmem hstep => dropped_subset hstep hmem) hdropped
  have hconserved' := (conserved_counted_invariant.of_reachable (hs.run hrun)).1
  refine ⟨hstays, fun hsaved => ?_⟩
  cases hconserved'.unique (show job ∈ t.contents .dropped from hstays)
    (show job ∈ t.contents .saved from hsaved)

end executors

theorem job_conservation_wordCount : ∃ s : ElephantRunner 2, s.returned = [0] ∧
    (∃ place, (s.contents place).count 0 = 1 ∧
      ∀ other, other ≠ place → (s.contents other).count 0 = 0) ∧
    none ∉ s.mainThread.todos := by
  obtain ⟨s, hrun, hreturned, -⟩ := exists_run_wordCount
  obtain ⟨hplace, -, -, hnull⟩ := job_conservation ⟨_, launched_wordCountDaemon, hrun⟩
  exact ⟨s, hreturned, hplace 0 (by simp [hreturned]), hnull⟩

end ElephantRunner

end drelephant
