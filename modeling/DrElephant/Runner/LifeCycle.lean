import DrElephant.Library.Simulation
import DrElephant.Runner.JobConservation

open java.lang memory models transition
open drelephant.util drelephant.analysis

namespace drelephant

/-- Where a job is in its life, with the number of its failed analyses. -/
inductive LifeCycle
  | unknown
  | waiting (failures : Nat)
  | analysing (failures : Nat)
  | saved (failures : Nat)
  | dropped
  deriving DecidableEq

namespace LifeCycle

/-- What may happen to a job: it is analysed again while it has failed no more
often than the limit, and the failure after that drops it. -/
inductive Step : LifeCycle → LifeCycle → Prop
  | returned : Step .unknown (.waiting 0)
  | taken (failures : Nat) : Step (.waiting failures) (.analysing failures)
  | saved (failures : Nat) : Step (.analysing failures) (.saved failures)
  | retried (failures : Nat) (hlimit : (failures : Int) < RETRY_LIMIT) :
      Step (.analysing failures) (.waiting (failures + 1))
  | dropped (failures : Nat) (hlimit : (failures : Int) = RETRY_LIMIT) : Step (.analysing failures) .dropped

/-- The life of one job, as a system of its own. -/
def lives : System LifeCycle where
  init := (· = .unknown)
  step := Step

end LifeCycle

namespace ElephantRunner

variable {δ : Type} {n : Nat} {env : Environment δ}

def lifeCycle (s : ElephantRunner n) (job : Nat) : LifeCycle :=
  if job ∉ s.returned then .unknown
  else if job ∈ s.saved then .saved (s.failures job)
  else if job ∈ s.dropped then .dropped
  else if ∃ thread, s.executors thread = some job then .analysing (s.failures job)
  else .waiting (s.failures job)

/-- The life of a job depends on where it is and how often it failed. -/
theorem lifeCycle_congr {s t : ElephantRunner n} {job : Nat}
    (hreturned : job ∈ t.returned ↔ job ∈ s.returned) (hsaved : job ∈ t.saved ↔ job ∈ s.saved)
    (hdropped : job ∈ t.dropped ↔ job ∈ s.dropped)
    (hheld : (∃ thread, t.executors thread = some job) ↔ ∃ thread, s.executors thread = some job)
    (hfailures : t.failures job = s.failures job) : t.lifeCycle job = s.lifeCycle job := by
  simp only [lifeCycle, hreturned, hsaved, hdropped, hheld, hfailures]

theorem lifeCycle_of_not_returned {s : ElephantRunner n} {job : Nat} (h : job ∉ s.returned) :
    s.lifeCycle job = .unknown := by
  rw [lifeCycle, if_pos h]

section places

variable {s : ElephantRunner n} {job : Nat}

theorem Conserved.lifeCycle_saved (h : s.Conserved) (hjob : job ∈ s.saved) :
    s.lifeCycle job = .saved (s.failures job) := by
  rw [lifeCycle, if_neg (not_not_intro (h.returned_of_saved hjob)), if_pos hjob]

theorem Conserved.lifeCycle_dropped (h : s.Conserved) (hjob : job ∈ s.dropped) :
    s.lifeCycle job = .dropped := by
  have hsaved : job ∉ s.saved := by
    intro hsaved
    cases h.unique (show job ∈ s.contents .dropped from hjob) (show job ∈ s.contents .saved from hsaved)
  rw [lifeCycle, if_neg (not_not_intro (h.returned_of_dropped hjob)), if_neg hsaved, if_pos hjob]

/-- A job that is in neither of the last two places. -/
private theorem Conserved.not_ended (h : s.Conserved) {place : Place n} (hplace : job ∈ s.contents place)
    (hsaved : place ≠ .saved) (hdropped : place ≠ .dropped) :
    job ∈ s.returned ∧ job ∉ s.saved ∧ job ∉ s.dropped :=
  ⟨h.mem_returned hplace,
    fun hmem => hsaved (h.unique hplace (show job ∈ s.contents .saved from hmem)),
    fun hmem => hdropped (h.unique hplace (show job ∈ s.contents .dropped from hmem))⟩

theorem Conserved.lifeCycle_analysing (h : s.Conserved) {thread : Fin n}
    (hholds : s.executors thread = some job) : s.lifeCycle job = .analysing (s.failures job) := by
  have hplace : job ∈ s.contents (.executor thread) := by simp [contents, hholds]
  obtain ⟨hreturned, hsaved, hdropped⟩ := h.not_ended hplace (by simp) (by simp)
  rw [lifeCycle, if_neg (not_not_intro hreturned), if_neg hsaved, if_neg hdropped,
    if_pos ⟨thread, hholds⟩]

/-- The places where a job waits for an executor. -/
def Waits (s : ElephantRunner n) (job : Nat) : Prop :=
  job ∈ s.contents .todos ∨ job ∈ s.contents .jobQueue ∨ job ∈ s.contents .retryQueue

theorem Conserved.lifeCycle_waiting (h : s.Conserved) (hwaits : s.Waits job) :
    s.lifeCycle job = .waiting (s.failures job) := by
  have hother : ∃ place, job ∈ s.contents place ∧
      (place = .todos ∨ place = .jobQueue ∨ place = .retryQueue) := by
    rcases hwaits with htodos | hqueue | hretry
    · exact ⟨.todos, htodos, .inl rfl⟩
    · exact ⟨.jobQueue, hqueue, .inr (.inl rfl)⟩
    · exact ⟨.retryQueue, hretry, .inr (.inr rfl)⟩
  obtain ⟨place, hplace, hwhich⟩ := hother
  obtain ⟨hreturned, hsaved, hdropped⟩ := h.not_ended hplace
    (by rcases hwhich with rfl | rfl | rfl <;> simp) (by rcases hwhich with rfl | rfl | rfl <;> simp)
  have hidle : ¬ ∃ thread, s.executors thread = some job := by
    rintro ⟨thread, hholds⟩
    have hheld : job ∈ s.contents (.executor thread) := by simp [contents, hholds]
    have hsame := h.unique hplace hheld
    rw [hsame] at hwhich
    rcases hwhich with h | h | h <;> cases h
  rw [lifeCycle, if_neg (not_not_intro hreturned), if_neg hsaved, if_neg hdropped, if_neg hidle]

/-- Each state of a life is a place in the daemon. -/
theorem Conserved.lifeCycle_cases (h : s.Conserved) (job : Nat) :
    job ∉ s.returned ∧ s.lifeCycle job = .unknown ∨
    s.Waits job ∧ s.lifeCycle job = .waiting (s.failures job) ∨
    (∃ thread, s.executors thread = some job) ∧ s.lifeCycle job = .analysing (s.failures job) ∨
    job ∈ s.saved ∧ s.lifeCycle job = .saved (s.failures job) ∨
    job ∈ s.dropped ∧ s.lifeCycle job = .dropped := by
  by_cases hreturned : job ∈ s.returned
  · obtain ⟨place, hcount, -⟩ := h.place hreturned
    have hplace : job ∈ s.contents place := Multiset.count_pos.mp (by omega)
    cases place with
    | todos => exact .inr (.inl ⟨.inl hplace, h.lifeCycle_waiting (.inl hplace)⟩)
    | jobQueue => exact .inr (.inl ⟨.inr (.inl hplace), h.lifeCycle_waiting (.inr (.inl hplace))⟩)
    | retryQueue => exact .inr (.inl ⟨.inr (.inr hplace), h.lifeCycle_waiting (.inr (.inr hplace))⟩)
    | executor thread =>
      have hholds : s.executors thread = some job := by simpa [contents] using hplace
      exact .inr (.inr (.inl ⟨⟨thread, hholds⟩, h.lifeCycle_analysing hholds⟩))
    | saved => exact .inr (.inr (.inr (.inl ⟨hplace, h.lifeCycle_saved hplace⟩)))
    | dropped => exact .inr (.inr (.inr (.inr ⟨hplace, h.lifeCycle_dropped hplace⟩)))
  · exact .inl ⟨hreturned, lifeCycle_of_not_returned hreturned⟩

end places

/-- A thread takes or gives away one job; who holds the others stays the same. -/
theorem exists_held_update {executors : Fin n → Option Nat} {thread : Fin n} {job : Option Nat}
    {other : Nat} (hbefore : executors thread ≠ some other) (hafter : job ≠ some other) :
    (∃ held, Function.update executors thread job held = some other) ↔
      ∃ held, executors held = some other := by
  constructor
  · rintro ⟨held, hheld⟩
    have hne : held ≠ thread := by
      rintro rfl
      exact hafter (by rwa [Function.update_self] at hheld)
    exact ⟨held, by rwa [Function.update_of_ne hne] at hheld⟩
  · rintro ⟨held, hheld⟩
    have hne : held ≠ thread := by
      rintro rfl
      exact hbefore hheld
    exact ⟨held, by rwa [Function.update_of_ne hne]⟩

/-- The main thread begins lives and moves none. -/
theorem MainStep.lifeCycle {s t : ElephantRunner n} (h : s.Conserved) (hcounted : s.Counted)
    (hstep : MainStep env s t) (job : Nat) :
    t.lifeCycle job = s.lifeCycle job ∨
      s.lifeCycle job = .unknown ∧ t.lifeCycle job = .waiting 0 := by
  obtain ⟨hexecutors, -, -, hsaved, hdropped, hfailures⟩ := hstep.frame
  by_cases hnew : job ∈ t.returned ↔ job ∈ s.returned
  · exact .inl (lifeCycle_congr hnew (by rw [hsaved]) (by rw [hdropped]) (by rw [hexecutors])
      (by rw [hfailures]))
  · obtain ⟨created, hmoves⟩ := hstep.moves h.drains
    have hreturned : job ∉ s.returned := by
      intro hold
      refine hnew ⟨fun _ => hold, fun _ => ?_⟩
      rw [hmoves.returned]
      exact List.mem_append_left _ hold
    have hmade : job ∈ t.returned := by
      by_contra hnot
      exact hnew ⟨fun hmem => absurd hmem hnot, fun hmem => absurd hmem hreturned⟩
    have hidle : ¬ ∃ thread, t.executors thread = some job := by
      rintro ⟨thread, hholds⟩
      rw [hexecutors] at hholds
      have hplace : job ∈ s.contents (.executor thread) := by simp [contents, hholds]
      exact hreturned (h.mem_returned hplace)
    refine .inr ⟨lifeCycle_of_not_returned hreturned, ?_⟩
    rw [ElephantRunner.lifeCycle, if_neg (not_not_intro hmade),
      if_neg fun hmem => hreturned (h.returned_of_saved (hsaved ▸ hmem)),
      if_neg fun hmem => hreturned (h.returned_of_dropped (hdropped ▸ hmem)), if_neg hidle,
      hfailures, hcounted.unreturned job hreturned]

section executors

variable [HadoopApplicationData δ]

/-- Whether a job that failed is tried again is a matter of how often it failed. -/
theorem Counted.retry_eq {s : ElephantRunner n} (h : s.Conserved) (hcounted : s.Counted) {thread : Fin n}
    {job : Nat} (hholds : s.executors thread = some job) {context : ElephantContext δ}
    {setup : InfoExtractor.Setup δ} {result : Except JavaException AppResult} {failed : AnalyticJob}
    (hanalysis : (s.heap.cell job).getAnalysis context setup = (result, failed)) :
    failed.retry.1 = decide ((s.failures job : Int) < RETRY_LIMIT) ∧ (s.failures job : Int) ≤ RETRY_LIMIT := by
  obtain ⟨trackingUrl, rfl⟩ := AnalyticJob.getAnalysis_job hanalysis
  have hplace : job ∈ s.contents (.executor thread) := by simp [contents, hholds]
  have hreturned := h.mem_returned hplace
  have hnotDropped : job ∉ s.dropped := by
    intro hmem
    cases h.unique hplace (show job ∈ s.contents .dropped from hmem)
  have hle := hcounted.limit job hreturned
  have hne := (hcounted.dropped job hreturned).not.mp hnotDropped
  refine ⟨?_, by omega⟩
  rw [AnalyticJob.retry, hcounted.retries job hreturned]

/-- An executor moves the life of one job on and leaves the others alone. -/
theorem ExecutorStep.lifeCycle {s t : ElephantRunner n} (h : s.Conserved) (hcounted : s.Counted)
    (hconserved : t.Conserved) (hstep : ExecutorStep (δ := δ) s t) :
    ∃ job, LifeCycle.Step (s.lifeCycle job) (t.lifeCycle job) ∧
      ∀ other, other ≠ job → t.lifeCycle other = s.lifeCycle other := by
  cases hstep with
  | take thread analyticJob rest hidle hqueue =>
    have hwaits : s.Waits analyticJob := .inr (.inl (by simp [contents, hqueue]))
    refine ⟨analyticJob, ?_, fun other hother => ?_⟩
    · rw [h.lifeCycle_waiting hwaits, hconserved.lifeCycle_analysing (Function.update_self ..)]
      exact .taken _
    · exact lifeCycle_congr Iff.rfl Iff.rfl Iff.rfl
        (exists_held_update (by simp [hidle]) (by simpa using Ne.symm hother)) rfl
  | save thread analyticJob context setup result job hholds hanalysis =>
    refine ⟨analyticJob, ?_, fun other hother => ?_⟩
    · rw [h.lifeCycle_analysing hholds, hconserved.lifeCycle_saved (by simp)]
      exact .saved _
    · exact lifeCycle_congr Iff.rfl (by simp [hother]) Iff.rfl
        (exists_held_update (by simpa [hholds] using Ne.symm hother) (by simp)) rfl
  | retry thread analyticJob context setup result failed retried hholds hanalysis hretry =>
    obtain ⟨hdecide, -⟩ := hcounted.retry_eq h hholds hanalysis
    rw [hretry] at hdecide
    refine ⟨analyticJob, ?_, fun other hother => ?_⟩
    · have hwaiting := @Conserved.lifeCycle_waiting _ _ analyticJob hconserved
        (.inr (.inr (by simp [contents, AnalyticJobGeneratorHadoop2.addIntoRetries])))
      simp only [Function.update_self] at hwaiting
      rw [h.lifeCycle_analysing hholds, hwaiting]
      exact .retried _ (of_decide_eq_true hdecide.symm)
    · exact lifeCycle_congr Iff.rfl Iff.rfl Iff.rfl
        (exists_held_update (by simpa [hholds] using Ne.symm hother) (by simp))
        (Function.update_of_ne hother ..)
  | drop thread analyticJob context setup result failed dropped hholds hanalysis hretry =>
    obtain ⟨hdecide, hle⟩ := hcounted.retry_eq h hholds hanalysis
    rw [hretry] at hdecide
    have hge := of_decide_eq_false hdecide.symm
    refine ⟨analyticJob, ?_, fun other hother => ?_⟩
    · rw [h.lifeCycle_analysing hholds, hconserved.lifeCycle_dropped (by simp)]
      exact .dropped _ (by omega)
    · exact lifeCycle_congr Iff.rfl Iff.rfl (by simp [hother])
        (exists_held_update (by simpa [hholds] using Ne.symm hother) (by simp))
        (Function.update_of_ne hother ..)

/-- The daemon lives the life of each job, with steps that are about other jobs. -/
theorem lifeCycle_simulation (job : Nat) :
    Simulation (runs env n) LifeCycle.lives (fun s => s.Conserved ∧ s.Counted)
      (fun s => s.lifeCycle job) where
  init s hs := lifeCycle_of_not_returned (by simp [hs.returned])
  step s t hs hstep := by
    obtain ⟨hconserved, hcounted⟩ := hs
    have hconserved' := hconserved.step hstep
    rcases hstep with hmain | hexecutor
    · rcases hmain.lifeCycle hconserved hcounted job with hkept | ⟨hunknown, hwaiting⟩
      · exact .inr hkept
      · apply Or.inl
        rw [hunknown, hwaiting]
        exact LifeCycle.Step.returned
    · obtain ⟨moved, hmoved, hothers⟩ := hexecutor.lifeCycle hconserved hcounted hconserved'
      by_cases hjob : job = moved
      · subst hjob
        exact .inl hmoved
      · exact .inr (hothers job hjob)

/-- Along every run of the daemon each job lives as a job may live, and its
state there says where it is. -/
theorem lifeCycle_refines {s t : ElephantRunner n} (hs : (runs env n).Reachable s)
    (hrun : (runs env n).Run s t) (job : Nat) :
    LifeCycle.lives.Reachable (s.lifeCycle job) ∧
      LifeCycle.lives.Run (s.lifeCycle job) (t.lifeCycle job) ∧
      (job ∉ s.returned ∧ s.lifeCycle job = .unknown ∨
        s.Waits job ∧ s.lifeCycle job = .waiting (s.failures job) ∨
        (∃ thread, s.executors thread = some job) ∧ s.lifeCycle job = .analysing (s.failures job) ∨
        job ∈ s.saved ∧ s.lifeCycle job = .saved (s.failures job) ∨
        job ∈ s.dropped ∧ s.lifeCycle job = .dropped) := by
  have hinvariant := conserved_counted_invariant.of_reachable hs
  refine ⟨(lifeCycle_simulation job).reachable conserved_counted_invariant hs, ?_,
    hinvariant.1.lifeCycle_cases job⟩
  exact (lifeCycle_simulation job).run conserved_counted_invariant.step hinvariant hrun

end executors

theorem lifeCycle_refines_wordCount : ∃ s : ElephantRunner 2, s.returned = [0] ∧
    LifeCycle.lives.Run .unknown (s.lifeCycle 0) ∧ s.lifeCycle 0 ≠ .unknown := by
  obtain ⟨s, hrun, hreturned, -⟩ := exists_run_wordCount
  have hstart : (runs wordCountEnvironment 2).Reachable wordCountDaemon :=
    ⟨_, launched_wordCountDaemon, .refl⟩
  obtain ⟨-, hlife, -⟩ := lifeCycle_refines hstart hrun 0
  have hunknown : wordCountDaemon.lifeCycle 0 = .unknown := lifeCycle_of_not_returned (by simp [wordCountDaemon])
  rw [hunknown] at hlife
  refine ⟨s, hreturned, hlife, ?_⟩
  rcases (conserved_counted_invariant.of_reachable (hstart.run hrun)).1.lifeCycle_cases 0 with
    ⟨hnot, -⟩ | ⟨-, h⟩ | ⟨-, h⟩ | ⟨-, h⟩ | ⟨-, h⟩
  · simp [hreturned] at hnot
  all_goals simp [h]

section work

/-- What the executors have done: two steps for each analysis that ended, and
one for each under way. -/
def work (s : ElephantRunner n) : Nat :=
  2 * (s.saved.length + (s.returned.map s.failures).sum) + (held s.executors).card

/-- The main thread does none of it: new jobs have not failed yet. -/
theorem MainStep.work {s t : ElephantRunner n} (h : s.Conserved) (hcounted : s.Counted)
    (hstep : MainStep env s t) : t.work = s.work := by
  obtain ⟨hexecutors, -, -, hsaved, -, hfailures⟩ := hstep.frame
  obtain ⟨created, hmoves⟩ := hstep.moves h.drains
  have hfresh : (created.map s.failures).sum = 0 := by
    refine List.sum_eq_zero fun count hcount => ?_
    obtain ⟨job, hjob, rfl⟩ := List.mem_map.mp hcount
    refine hcounted.unreturned job fun hold => ?_
    rw [hmoves.fresh] at hjob
    have hlt := h.allocated job hold
    have hle := (List.mem_range'_1.mp hjob).1
    omega
  rw [ElephantRunner.work, ElephantRunner.work, hexecutors, hsaved, hfailures, hmoves.returned,
    List.map_append, List.sum_append, hfresh, Nat.add_zero]

variable [HadoopApplicationData δ]

/-- One more failure of one job. -/
private theorem sum_failures_update {returned : List Nat} (hnodup : returned.Nodup) {failures : Nat → Nat}
    {job : Nat} (hjob : job ∈ returned) :
    (returned.map (Function.update failures job (failures job + 1))).sum =
      (returned.map failures).sum + 1 := by
  have hothers : (returned.erase job).map (Function.update failures job (failures job + 1)) =
      (returned.erase job).map failures := by
    refine List.map_congr_left fun other hother => ?_
    exact Function.update_of_ne (hnodup.mem_erase_iff.mp hother).1 ..
  rw [← List.sum_map_erase _ hjob, ← List.sum_map_erase failures hjob, hothers, Function.update_self]
  omega

/-- Every step of an executor does one more. -/
theorem ExecutorStep.work {s t : ElephantRunner n} (h : s.Conserved) (hstep : ExecutorStep (δ := δ) s t) :
    t.work = s.work + 1 := by
  have hreturned : ∀ {thread : Fin n} {job : Nat}, s.executors thread = some job → job ∈ s.returned := by
    intro thread job hholds
    exact h.mem_returned (show job ∈ s.contents (.executor thread) by simp [contents, hholds])
  cases hstep with
  | take thread analyticJob rest hidle hqueue =>
    simp only [ElephantRunner.work, held_take hidle, Multiset.card_add, Multiset.card_singleton]
    omega
  | save thread analyticJob context setup result job hholds hanalysis =>
    simp only [ElephantRunner.work, ← held_release hholds, Multiset.card_add, Multiset.card_singleton,
      List.length_append, List.length_singleton]
    omega
  | retry thread analyticJob context setup result failed retried hholds hanalysis hretry =>
    simp only [ElephantRunner.work, ← held_release hholds, Multiset.card_add, Multiset.card_singleton,
      sum_failures_update h.nodup (hreturned hholds)]
    omega
  | drop thread analyticJob context setup result failed dropped hholds hanalysis hretry =>
    simp only [ElephantRunner.work, ← held_release hholds, Multiset.card_add, Multiset.card_singleton,
      sum_failures_update h.nodup (hreturned hholds)]
    omega

/-- A job that is dropped has failed four times, another one at most three. -/
private theorem sum_failures_le {failures : Nat → Nat} {returned dropped : List Nat}
    (hdropped : ∀ job ∈ returned, job ∈ dropped → failures job = 4)
    (hkept : ∀ job ∈ returned, job ∉ dropped → failures job ≤ 3) :
    (returned.map failures).sum ≤ 3 * returned.length + returned.countP (· ∈ dropped) := by
  induction returned with
  | nil => simp
  | cons job rest ih =>
    have hrest := ih (fun other hother => hdropped other (List.mem_cons_of_mem _ hother))
      (fun other hother => hkept other (List.mem_cons_of_mem _ hother))
    by_cases hjob : job ∈ dropped
    · have hfour := hdropped job List.mem_cons_self hjob
      rw [List.countP_cons_of_pos (by simpa using hjob), List.map_cons, List.sum_cons, List.length_cons]
      omega
    · have hthree := hkept job List.mem_cons_self hjob
      rw [List.countP_cons_of_neg (by simpa using hjob), List.map_cons, List.sum_cons, List.length_cons]
      omega

theorem work_le {s : ElephantRunner n} (h : s.Conserved) (hcounted : s.Counted) :
    s.work ≤ 8 * s.returned.length := by
  have hfailures : (s.returned.map s.failures).sum ≤
      3 * s.returned.length + s.returned.countP (· ∈ s.dropped) := by
    refine sum_failures_le (fun job hjob hmem => ?_) (fun job hjob hmem => ?_)
    · have heq := (hcounted.dropped job hjob).mp hmem
      rw [RETRY_LIMIT] at heq
      omega
    · have hle := hcounted.limit job hjob
      have hne := (hcounted.dropped job hjob).not.mp hmem
      rw [RETRY_LIMIT] at hle hne
      omega
  have hdropped : s.returned.countP (· ∈ s.dropped) ≤ s.dropped.length := by
    rw [List.countP_eq_length_filter]
    refine (List.subperm_of_subset (h.nodup.filter _) fun job hjob => ?_).length_le
    simpa using (List.mem_filter.mp hjob).2
  have hcard := congrArg Multiset.card h.owned
  simp only [owned, contents, Multiset.card_add, Multiset.coe_card] at hcard
  rw [work]
  omega

/-- How often a job has been analysed, an analysis under way included: each time
it failed, and the last one if that has not. -/
def analyses (s : ElephantRunner n) (job : Nat) : Nat :=
  s.failures job + if job ∈ s.saved ∨ ∃ thread, s.executors thread = some job then 1 else 0

omit [HadoopApplicationData δ] in
/-- The failure that drops a job is its last analysis. -/
theorem analyses_le {s : ElephantRunner n} (h : s.Conserved) (hcounted : s.Counted) {job : Nat}
    (hjob : job ∈ s.returned) : s.analyses job ≤ 4 := by
  have hlimit := hcounted.limit job hjob
  rw [RETRY_LIMIT] at hlimit
  rw [analyses]
  split
  · rename_i hlast
    have hkept : job ∉ s.dropped := by
      intro hdropped
      rcases hlast with hsaved | ⟨thread, hholds⟩
      · cases h.unique (show job ∈ s.contents .dropped from hdropped) (show job ∈ s.contents .saved from hsaved)
      · cases h.unique (show job ∈ s.contents .dropped from hdropped)
          (show job ∈ s.contents (.executor thread) by simp [contents, hholds])
    have hfewer := (hcounted.dropped job hjob).not.mp hkept
    rw [RETRY_LIMIT] at hfewer
    omega
  · omega

/-- In a run of the daemon the executors take two steps for each analysis that
ended and one for each under way, and no more than eight for each job that the
fetches returned: no job is analysed more than four times. -/
theorem executor_steps {s t : ElephantRunner n} (hs : s.Launched) {steps : Nat}
    (hrun : (runs env n).CountedRun (ExecutorStep (δ := δ)) s steps t) :
    steps = 2 * (t.saved.length + (t.returned.map t.failures).sum) + (held t.executors).card ∧
      steps ≤ 8 * t.returned.length ∧
      ∀ job ∈ t.returned, t.analyses job ≤ 4 := by
  have hinvariant : s.Conserved ∧ s.Counted :=
    (conserved_counted_invariant : (runs env n).Invariant _).init s hs
  have hwork : t.work = s.work + steps := by
    refine hrun.eq_add work conserved_counted_invariant.step ?_ ?_ hinvariant
    · intro u v hu _ hexecutor
      exact hexecutor.work hu.1
    · intro u v hu hstep hnot
      exact (hstep.resolve_right hnot).work hu.1 hu.2
  have hstart : s.work = 0 := by
    simp [work, hs.saved, hs.returned, held, hs.executors]
  obtain ⟨hconserved, hcounted⟩ := hrun.run.preserves conserved_counted_invariant.step hinvariant
  have hle := work_le hconserved hcounted
  refine ⟨?_, by omega, fun job => analyses_le hconserved hcounted⟩
  rw [← work]
  omega

end work

theorem executor_steps_wordCount : ∃ (s : ElephantRunner 2) (steps : Nat), s.returned = [0] ∧
    (runs wordCountEnvironment 2).CountedRun (ExecutorStep (δ := Unit)) wordCountDaemon steps s ∧
    s.table ≠ [] ∧ steps ≤ 8 ∧ s.analyses 0 ≤ 4 := by
  obtain ⟨s, t, row, htaken, -, hrun, hreturned, htable, -⟩ := exists_run_saved
  obtain ⟨steps, hcounted⟩ := (htaken.trans hrun).counted (ExecutorStep (δ := Unit))
  obtain ⟨-, hle, hanalyses⟩ := executor_steps launched_wordCountDaemon hcounted
  refine ⟨t, steps, hreturned, hcounted, by simp [htable], by simpa [hreturned] using hle, ?_⟩
  exact hanalyses 0 (by simp [hreturned])

end ElephantRunner

end drelephant
