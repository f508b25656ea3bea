import Mathlib.Algebra.Order.BigOperators.Group.Finset
import Mathlib.Data.Prod.Lex
import DrElephant.Library.Simulation
import DrElephant.Runner.JobConservation

open java.lang models transition
open drelephant.util drelephant.analysis

namespace drelephant

/-- Where a thread is with its loop, which goes on while the daemon runs and the
thread is not interrupted. -/
inductive Loop
  | test
  | round
  | terminated
  deriving DecidableEq

/-- A daemon that can be told to stop. -/
structure StoppableRunner (n : Nat) where
  runner : ElephantRunner n
  running : Bool
  interrupted : Fin n → Bool
  mainLoop : Loop
  executorLoops : Fin n → Loop

namespace StoppableRunner

variable {δ : Type} {n : Nat} {env : Environment δ}

/-- The main thread after a step of a round: the head of the loop is its test. -/
def mainLoopAt : MainThread → Loop
  | .loopHead => .test
  | .terminated => .terminated
  | _ => .round

section

variable [HadoopApplicationData δ]

/-- The steps of the threads with the tests of their loops, of `kill()`, and of
the interrupts that its `shutdownNow` sends. -/
inductive Step (env : Environment δ) : StoppableRunner n → StoppableRunner n → Prop
  | kill (s : StoppableRunner n) (hrunning : s.running = true) : Step env s { s with running := false }
  | interrupt (s : StoppableRunner n) (thread : Fin n) (hkilled : s.running = false)
      (hnot : s.interrupted thread = false) :
      Step env s { s with interrupted := Function.update s.interrupted thread true }
  | mainTest (s : StoppableRunner n) (hloop : s.mainLoop = .test) :
      Step env s { s with mainLoop := bif s.running then .round else .terminated }
  | main (s : StoppableRunner n) (runner : ElephantRunner n) (hloop : s.mainLoop = .round)
      (hstep : ElephantRunner.MainStep env s.runner runner) :
      Step env s { s with
        runner
        mainLoop := mainLoopAt runner.mainThread }
  | executorTest (s : StoppableRunner n) (thread : Fin n) (hloop : s.executorLoops thread = .test) :
      Step env s { s with
        executorLoops := Function.update s.executorLoops thread
          (bif s.running && !s.interrupted thread then .round else .terminated) }
  | take (s : StoppableRunner n) (thread : Fin n) (runner : ElephantRunner n)
      (hloop : s.executorLoops thread = .round) (hidle : s.runner.executors thread = none)
      (hstep : ElephantRunner.ExecutorStep (δ := δ) s.runner runner)
      (hthread : runner.executors thread ≠ none) : Step env s { s with runner }
  -- `take()` throws when the thread is interrupted, and the handler sets the flag again.
  | takeInterrupted (s : StoppableRunner n) (thread : Fin n) (hloop : s.executorLoops thread = .round)
      (hidle : s.runner.executors thread = none) (hinterrupted : s.interrupted thread = true) :
      Step env s { s with executorLoops := Function.update s.executorLoops thread .test }
  -- What an analysis calls may swallow an interrupt; it then ends as any other does.
  | finish (s : StoppableRunner n) (thread : Fin n) (runner : ElephantRunner n)
      (interrupted : Fin n → Bool) (hloop : s.executorLoops thread = .round)
      (hholds : s.runner.executors thread ≠ none)
      (hstep : ElephantRunner.ExecutorStep (δ := δ) s.runner runner)
      (hthread : runner.executors thread = none)
      (hinterrupted : interrupted = s.interrupted ∨
        interrupted = Function.update s.interrupted thread false) :
      Step env s { s with
        runner
        interrupted
        executorLoops := Function.update s.executorLoops thread .test }
  -- The job stays with the thread that gave it up: no other place gets it.
  | analysisInterrupted (s : StoppableRunner n) (thread : Fin n)
      (hloop : s.executorLoops thread = .round) (hholds : s.runner.executors thread ≠ none)
      (hinterrupted : s.interrupted thread = true) :
      Step env s { s with executorLoops := Function.update s.executorLoops thread .test }

/-- A daemon from its launch, with all its threads before their loops. -/
def stoppable (env : Environment δ) (n : Nat) : System (StoppableRunner n) where
  init s := s.runner.Launched ∧ s.running = true ∧ (∀ thread, s.interrupted thread = false) ∧
    s.mainLoop = .test ∧ ∀ thread, s.executorLoops thread = .test
  step := Step env

/-- The threads, told to stop or not, do what the daemon does. -/
theorem stoppable_simulation :
    Simulation (stoppable env n) (ElephantRunner.runs env n) (fun _ => True) runner where
  init s hs := hs.1
  step s t _ hstep := by
    cases hstep with
    | main runner hloop hstep => exact .inl (.inl hstep)
    | take thread runner hloop hidle hstep => exact .inl (.inr hstep)
    | finish thread runner interrupted hloop hholds hstep => exact .inl (.inr hstep)
    | _ => exact .inr rfl

theorem runner_reachable {s : StoppableRunner n} (hs : (stoppable env n).Reachable s) :
    (ElephantRunner.runs env n).Reachable s.runner :=
  stoppable_simulation.reachable ⟨fun _ _ => trivial, fun _ _ _ _ => trivial⟩ hs

theorem runner_run {s t : StoppableRunner n} (hrun : (stoppable env n).Run s t) :
    (ElephantRunner.runs env n).Run s.runner t.runner :=
  stoppable_simulation.run (fun _ _ _ _ => trivial) trivial hrun

/-- Nothing starts the daemon again. -/
theorem running_eq_false {s t : StoppableRunner n} (hkilled : s.running = false) (hstep : Step env s t) :
    t.running = false := by
  cases hstep with
  | kill => rfl
  | _ => exact hkilled

/-- A step that changes what a thread holds is a step of this thread. -/
theorem executors_of_ne {runner runner' : ElephantRunner n} {thread other : Fin n}
    (hstep : ElephantRunner.ExecutorStep (δ := δ) runner runner')
    (hthread : runner'.executors thread ≠ runner.executors thread) (hother : other ≠ thread) :
    runner'.executors other = runner.executors other := by
  have hupdate : ∃ acting job, runner'.executors = Function.update runner.executors acting job := by
    cases hstep with
    | take acting analyticJob => exact ⟨acting, some analyticJob, rfl⟩
    | save acting => exact ⟨acting, none, rfl⟩
    | retry acting => exact ⟨acting, none, rfl⟩
    | drop acting => exact ⟨acting, none, rfl⟩
  obtain ⟨acting, job, hupdate⟩ := hupdate
  rw [hupdate] at hthread ⊢
  have hacting : thread = acting := by
    by_contra hne
    exact hthread (Function.update_of_ne hne ..)
  exact Function.update_of_ne (hacting ▸ hother) ..

/-- What the loops of the threads know of the daemon: only a daemon that was told
to stop interrupts a thread, or has one leave a job behind. -/
structure Consistent (s : StoppableRunner n) : Prop where
  mainTest : s.mainLoop = .test → s.runner.mainThread = .loopHead
  mainRound : s.mainLoop = .round → s.runner.mainThread ≠ .terminated
  interrupted : ∀ thread, s.interrupted thread = true → s.running = false
  idle : s.running = true → ∀ thread, s.executorLoops thread ≠ .round → s.runner.executors thread = none

private theorem mainLoopAt_eq_test {mainThread : MainThread} (h : mainLoopAt mainThread = .test) :
    mainThread = .loopHead := by
  cases mainThread with
  | loopHead => rfl
  | _ => simp [mainLoopAt] at h

private theorem mainLoopAt_eq_round {mainThread : MainThread} (h : mainLoopAt mainThread = .round) :
    mainThread ≠ .loopHead ∧ mainThread ≠ .terminated := by
  cases mainThread with
  | loopHead => simp [mainLoopAt] at h
  | terminated => simp [mainLoopAt] at h
  | _ => exact ⟨nofun, nofun⟩

theorem Consistent.step {s t : StoppableRunner n} (h : s.Consistent) (hstep : Step env s t) :
    t.Consistent := by
  obtain ⟨hmainTest, hmainRound, hinterrupted, hidle⟩ := h
  cases hstep with
  | kill hrunning => exact ⟨hmainTest, hmainRound, fun _ _ => rfl, nofun⟩
  | interrupt thread hkilled hnot =>
    exact ⟨hmainTest, hmainRound, fun _ _ => hkilled, hidle⟩
  | mainTest hloop =>
    refine ⟨fun htest => ?_, fun _ => ?_, hinterrupted, hidle⟩
    · cases hrunning : s.running <;> simp [hrunning] at htest
    · simp [hmainTest hloop]
  | main runner hloop hstep =>
    refine ⟨mainLoopAt_eq_test, fun hround => (mainLoopAt_eq_round hround).2, hinterrupted, ?_⟩
    intro hrunning thread hnot
    dsimp only
    rw [hstep.frame.1]
    exact hidle hrunning thread hnot
  | executorTest thread hloop =>
    refine ⟨hmainTest, hmainRound, hinterrupted, fun hrunning other hnot => ?_⟩
    by_cases hother : other = thread
    · subst hother
      exact hidle hrunning other (by simp [hloop])
    · exact hidle hrunning other (by simpa only [Function.update_of_ne hother] using hnot)
  | take thread runner hloop hnone hstep hthread =>
    obtain ⟨hmain, -⟩ := hstep.frame
    refine ⟨fun htest => hmain ▸ hmainTest htest, fun hround => hmain ▸ hmainRound hround,
      hinterrupted, fun hrunning other hnot => ?_⟩
    have hother : other ≠ thread := by
      rintro rfl
      exact hnot hloop
    dsimp only
    rw [executors_of_ne hstep (hnone ▸ hthread) hother]
    exact hidle hrunning other hnot
  | takeInterrupted thread hloop hnone hflag =>
    refine ⟨hmainTest, hmainRound, hinterrupted, fun hrunning => ?_⟩
    simp [hinterrupted thread hflag] at hrunning
  | finish thread runner interrupted hloop hholds hstep hthread hflags =>
    obtain ⟨hmain, -⟩ := hstep.frame
    refine ⟨fun htest => hmain ▸ hmainTest htest, fun hround => hmain ▸ hmainRound hround, ?_, ?_⟩
    · intro other hflag
      rcases hflags with rfl | rfl
      · exact hinterrupted other hflag
      · by_cases hother : other = thread
        · simp [hother] at hflag
        · exact hinterrupted other (by simpa only [Function.update_of_ne hother] using hflag)
    · intro hrunning other hnot
      by_cases hother : other = thread
      · rw [hother]
        exact hthread
      · dsimp only at hnot ⊢
        rw [Function.update_of_ne hother] at hnot
        rw [executors_of_ne hstep (by simpa [hthread] using Ne.symm hholds) hother]
        exact hidle hrunning other hnot
  | analysisInterrupted thread hloop hholds hflag =>
    refine ⟨hmainTest, hmainRound, hinterrupted, fun hrunning => ?_⟩
    simp [hinterrupted thread hflag] at hrunning

theorem consistent {s : StoppableRunner n} (hs : (stoppable env n).Reachable s) : s.Consistent := by
  refine System.Invariant.of_reachable ⟨?_, fun _ _ h hstep => h.step hstep⟩ hs
  rintro s ⟨hlaunched, hrunning, hflags, hmain, hloops⟩
  refine ⟨fun _ => hlaunched.mainThread, by simp [hmain], ?_, fun _ thread _ => hlaunched.executors thread⟩
  intro thread hflag
  simp [hflags] at hflag

/-- A daemon that goes on: no thread is out of its loop for good. -/
structure GoesOn (s : StoppableRunner n) : Prop where
  running : s.running = true
  notInterrupted : ∀ thread, s.interrupted thread = false
  main : s.mainLoop = .terminated → s.runner.mainThread = .terminated
  executors : ∀ thread, s.executorLoops thread ≠ .terminated
  idle : ∀ thread, s.executorLoops thread ≠ .round → s.runner.executors thread = none

/-- An executor that is before its loop can begin a round. -/
theorem GoesOn.begin {s : StoppableRunner n} (h : s.GoesOn) (thread : Fin n) :
    ∃ t, (stoppable env n).Run s t ∧ t.GoesOn ∧ t.runner = s.runner ∧ t.executorLoops thread = .round := by
  cases hloop : s.executorLoops thread with
  | terminated => exact absurd hloop (h.executors thread)
  | round => exact ⟨s, .refl, h, rfl, hloop⟩
  | test =>
    refine ⟨_, .single (.executorTest s thread hloop), ?_, rfl, by simp [h.running, h.notInterrupted]⟩
    refine ⟨h.running, h.notInterrupted, h.main, fun other => ?_, fun other hnot => ?_⟩
    · by_cases hother : other = thread
      · simp [hother, h.running, h.notInterrupted]
      · simpa [Function.update_of_ne hother] using h.executors other
    · by_cases hother : other = thread
      · exact h.idle other (by rw [hother, hloop]; nofun)
      · exact h.idle other (by simpa [Function.update_of_ne hother] using hnot)

/-- A step of the main thread is one that it can take with the test of its loop. -/
theorem GoesOn.exists_run_main {s : StoppableRunner n} (h : s.GoesOn) {runner : ElephantRunner n}
    (hstep : ElephantRunner.MainStep env s.runner runner) :
    ∃ t, (stoppable env n).Run s t ∧ t.GoesOn ∧ t.runner = runner := by
  have hround : ∃ t, (stoppable env n).Run s t ∧ t.GoesOn ∧ t.runner = s.runner ∧ t.mainLoop = .round := by
    cases hloop : s.mainLoop with
    | terminated =>
      have hended := h.main hloop
      cases hstep <;> simp_all
    | round => exact ⟨s, .refl, h, rfl, hloop⟩
    | test =>
      refine ⟨_, .single (.mainTest s hloop), ⟨h.running, h.notInterrupted, ?_, h.executors, h.idle⟩, rfl, ?_⟩
      · simp [h.running]
      · simp [h.running]
  obtain ⟨t, hrun, ht, hsame, hloop⟩ := hround
  rw [← hsame] at hstep
  refine ⟨_, hrun.tail (.main t runner hloop hstep), ?_, rfl⟩
  refine ⟨ht.running, ht.notInterrupted, fun hended => ?_, ht.executors, fun thread hnot => ?_⟩
  · cases hat : runner.mainThread with
    | terminated => rfl
    | _ => simp [mainLoopAt, hat] at hended
  · rw [← ht.idle thread hnot]
    exact congrFun hstep.frame.1 thread

/-- A step of an executor is one that it can take with the test of its loop. -/
theorem GoesOn.exists_run_executor {s : StoppableRunner n} (h : s.GoesOn) {runner : ElephantRunner n}
    (hstep : ElephantRunner.ExecutorStep (δ := δ) s.runner runner) :
    ∃ t, (stoppable env n).Run s t ∧ t.GoesOn ∧ t.runner = runner := by
  obtain ⟨thread, hacts, hone⟩ : ∃ thread, runner.executors thread ≠ s.runner.executors thread ∧
      (s.runner.executors thread = none ∨ runner.executors thread = none) := by
    cases hstep with
    | take thread analyticJob rest hidle => exact ⟨thread, by simp [hidle], .inl hidle⟩
    | save thread analyticJob context setup result job hholds =>
      exact ⟨thread, by simp [hholds], .inr (Function.update_self ..)⟩
    | retry thread analyticJob context setup result failed retried hholds =>
      exact ⟨thread, by simp [hholds], .inr (Function.update_self ..)⟩
    | drop thread analyticJob context setup result failed dropped hholds =>
      exact ⟨thread, by simp [hholds], .inr (Function.update_self ..)⟩
  obtain ⟨t, hrun, ht, hsame, hloop⟩ : ∃ t, (stoppable env n).Run s t ∧ t.GoesOn ∧ t.runner = s.runner ∧
      t.executorLoops thread = .round := h.begin thread
  rw [← hsame] at hstep hacts hone
  have hothers : ∀ other, other ≠ thread → runner.executors other = t.runner.executors other :=
    fun _ => executors_of_ne hstep hacts
  have hmain : t.mainLoop = .terminated → runner.mainThread = .terminated :=
    fun hended => hstep.frame.1.trans (ht.main hended)
  by_cases hidle : t.runner.executors thread = none
  · refine ⟨_, hrun.tail (.take t thread runner hloop hidle hstep (hidle ▸ hacts)), ?_, rfl⟩
    refine ⟨ht.running, ht.notInterrupted, hmain, ht.executors, fun other hnot => ?_⟩
    have hother : other ≠ thread := by
      rintro rfl
      exact hnot hloop
    exact (hothers other hother).trans (ht.idle other hnot)
  · have hnone := hone.resolve_left hidle
    refine ⟨_, hrun.tail (.finish t thread runner _ hloop hidle hstep hnone (.inl rfl)), ?_, rfl⟩
    refine ⟨ht.running, ht.notInterrupted, hmain, fun other => ?_, fun other hnot => ?_⟩
    · by_cases hother : other = thread
      · simp [hother]
      · simpa [Function.update_of_ne hother] using ht.executors other
    · by_cases hother : other = thread
      · rw [hother]
        exact hnone
      · have hout : t.executorLoops other ≠ .round := by simpa [Function.update_of_ne hother] using hnot
        exact (hothers other hother).trans (ht.idle other hout)

/-- Whatever the daemon does, it can do with the tests of its loops. -/
theorem GoesOn.exists_run_of_run {s : StoppableRunner n} (h : s.GoesOn) {runner : ElephantRunner n}
    (hrun : (ElephantRunner.runs env n).Run s.runner runner) :
    ∃ t, (stoppable env n).Run s t ∧ t.GoesOn ∧ t.runner = runner := by
  induction hrun with
  | refl => exact ⟨s, .refl, h, rfl⟩
  | tail _ hstep ih =>
    obtain ⟨t, hrun, ht, rfl⟩ := ih
    obtain ⟨u, hrun', hu, hsame⟩ := hstep.elim ht.exists_run_main ht.exists_run_executor
    exact ⟨u, hrun.trans hrun', hu, hsame⟩

section killed

variable {s t : StoppableRunner n}

/-- The threads that are in a round. -/
def inRound (s : StoppableRunner n) : Finset (Fin n) :=
  Finset.univ.filter fun thread => s.executorLoops thread = .round

theorem mem_inRound {thread : Fin n} : thread ∈ s.inRound ↔ s.executorLoops thread = .round := by
  simp [inRound]

/-- A thread that leaves its round takes no other into one. -/
private theorem inRound_subset {thread : Fin n} {loop : Loop}
    (hloops : t.executorLoops = Function.update s.executorLoops thread loop) (hloop : loop ≠ .round) :
    t.inRound ⊆ s.inRound.erase thread := by
  intro other hother
  rw [mem_inRound, hloops] at hother
  have hne : other ≠ thread := by
    rintro rfl
    rw [Function.update_self] at hother
    exact hloop hother
  rw [Function.update_of_ne hne] at hother
  exact Finset.mem_erase.mpr ⟨hne, mem_inRound.mpr hother⟩

private theorem saved_le_of_executorStep {runner runner' : ElephantRunner n}
    (hstep : ElephantRunner.ExecutorStep (δ := δ) runner runner') :
    runner'.saved.length ≤ runner.saved.length + 1 := by
  cases hstep with
  | save => simp
  | _ => simp

private theorem saved_eq_of_take {runner runner' : ElephantRunner n} {thread : Fin n}
    (hstep : ElephantRunner.ExecutorStep (δ := δ) runner runner')
    (hidle : runner.executors thread = none) (hthread : runner'.executors thread ≠ none) :
    runner'.saved = runner.saved := by
  cases hstep with
  | save acting analyticJob context setup result job hholds =>
    have hne : thread ≠ acting := by
      rintro rfl
      simp [hidle] at hholds
    exact absurd hidle (by simpa [Function.update_of_ne hne] using hthread)
  | _ => rfl

/-- A thread that ends its round saves one job at most, and after the daemon was
told to stop no thread begins another. -/
theorem Step.saved_add_card (hkilled : s.running = false) (hstep : Step env s t) :
    t.runner.saved.length + t.inRound.card ≤ s.runner.saved.length + s.inRound.card := by
  have herase : ∀ {thread : Fin n}, s.executorLoops thread = .round →
      t.inRound ⊆ s.inRound.erase thread → t.inRound.card + 1 ≤ s.inRound.card := by
    intro thread hloop hsubset
    have hcard := Finset.card_erase_add_one (mem_inRound.mpr hloop)
    have hle := Finset.card_le_card hsubset
    omega
  cases hstep with
  | kill => exact le_refl _
  | interrupt => exact le_refl _
  | mainTest => exact le_refl _
  | main runner hloop hstep =>
    dsimp only
    rw [hstep.frame.2.2.2.1]
    exact le_refl _
  | executorTest thread hloop =>
    have hsubset := inRound_subset (s := s) (t := { s with
      executorLoops := Function.update s.executorLoops thread .terminated }) rfl nofun
    have hle := Finset.card_le_card (hsubset.trans (Finset.erase_subset _ _))
    rw [hkilled]
    exact Nat.add_le_add_left hle _
  | take thread runner hloop hidle hstep hthread =>
    dsimp only
    rw [saved_eq_of_take hstep hidle hthread]
    exact le_refl _
  | takeInterrupted thread hloop =>
    have hcard := herase hloop (inRound_subset rfl nofun)
    dsimp only
    omega
  | finish thread runner interrupted hloop hholds hstep =>
    have hcard := herase hloop (inRound_subset rfl nofun)
    have hsaved := saved_le_of_executorStep hstep
    dsimp only
    omega
  | analysisInterrupted thread hloop =>
    have hcard := herase hloop (inRound_subset rfl nofun)
    dsimp only
    omega

/-- After the daemon was told to stop, a thread out of its round stays out of it
and keeps what it has. -/
theorem Step.left {thread : Fin n} (hkilled : s.running = false)
    (hout : s.executorLoops thread ≠ .round) (hstep : Step env s t) :
    t.executorLoops thread ≠ .round ∧ t.runner.executors thread = s.runner.executors thread := by
  have hupdate : ∀ {other : Fin n} {loop : Loop}, loop ≠ .round →
      Function.update s.executorLoops other loop thread ≠ .round := by
    intro other loop hloop
    by_cases hother : thread = other
    · rwa [hother, Function.update_self]
    · rwa [Function.update_of_ne hother]
  have hothers : ∀ {other : Fin n}, s.executorLoops other = .round → thread ≠ other := by
    rintro other hloop rfl
    exact hout hloop
  cases hstep with
  | kill => exact ⟨hout, rfl⟩
  | interrupt => exact ⟨hout, rfl⟩
  | mainTest => exact ⟨hout, rfl⟩
  | main runner hloop hstep => exact ⟨hout, congrFun hstep.frame.1 thread⟩
  | executorTest other hloop => exact ⟨hupdate (by simp [hkilled]), rfl⟩
  | take other runner hloop hidle hstep hthread =>
    exact ⟨hout, executors_of_ne hstep (hidle ▸ hthread) (hothers hloop)⟩
  | takeInterrupted other hloop => exact ⟨hupdate nofun, rfl⟩
  | finish other runner interrupted hloop hholds hstep hthread =>
    exact ⟨hupdate nofun, executors_of_ne hstep (by simpa [hthread] using Ne.symm hholds) (hothers hloop)⟩
  | analysisInterrupted other hloop => exact ⟨hupdate nofun, rfl⟩

/-- A step in which a thread saves the job that it holds. -/
def Saves (thread : Fin n) (s t : StoppableRunner n) : Prop :=
  ∃ job, s.runner.executors thread = some job ∧ t.runner.executors thread = none ∧
    t.runner.saved = s.runner.saved ++ [job]

/-- What is saved is saved by a thread. -/
theorem Step.exists_saves (hstep : Step env s t) (hsaved : t.runner.saved ≠ s.runner.saved) :
    ∃ thread, Saves thread s t := by
  cases hstep with
  | main runner hloop hstep => exact absurd hstep.frame.2.2.2.1 hsaved
  | take thread runner hloop hidle hstep hthread => exact absurd (saved_eq_of_take hstep hidle hthread) hsaved
  | finish thread runner interrupted hloop hholds hstep =>
    cases hstep with
    | save acting analyticJob context setup result job hacting =>
      exact ⟨acting, analyticJob, hacting, Function.update_self .., rfl⟩
    | _ => exact absurd rfl hsaved
  | _ => exact absurd rfl hsaved

/-- The thread that saves a job ends its round. -/
theorem Step.saves {thread : Fin n} (hkilled : s.running = false) (hstep : Step env s t)
    (hsaves : Saves thread s t) : s.executorLoops thread = .round ∧ t.executorLoops thread ≠ .round := by
  obtain ⟨job, hholds, hnone, hsaved⟩ := hsaves
  have hacts : t.runner.executors thread ≠ s.runner.executors thread := by
    rw [hholds, hnone]
    exact (Option.some_ne_none job).symm
  refine ⟨?_, ?_⟩
  · by_contra hout
    exact hacts (hstep.left hkilled hout).2
  · cases hstep with
    | main runner hloop hstep => exact absurd (congrFun hstep.frame.1 thread) hacts
    | take other runner hloop hidle hstep hthread =>
      rw [saved_eq_of_take hstep hidle hthread] at hsaved
      exact absurd hsaved (by simp)
    | finish other runner interrupted hloop hother hstep hthread =>
      have hsame : thread = other := by
        by_contra hne
        exact hacts (executors_of_ne hstep (by simpa [hthread] using Ne.symm hother) hne)
      simp [hsame]
    | _ => exact absurd rfl hacts

/-- The round that a thread may still end. -/
def roundsLeft (s : StoppableRunner n) (thread : Fin n) : Nat :=
  if s.executorLoops thread = .round then 1 else 0

theorem Step.roundsLeft_le {thread : Fin n} (hkilled : s.running = false) (hstep : Step env s t) :
    t.roundsLeft thread ≤ s.roundsLeft thread := by
  rw [roundsLeft, roundsLeft]
  by_cases hround : s.executorLoops thread = .round
  · rw [if_pos hround]
    split <;> omega
  · rw [if_neg hround, if_neg (hstep.left hkilled hround).1]

/-- After the daemon was told to stop, a thread saves one job at most, and none
if it is out of its round. -/
theorem saves_le {thread : Fin n} {saves : Nat} (hkilled : s.running = false)
    (hrun : (stoppable env n).CountedRun (Saves thread) s saves t) : saves ≤ s.roundsLeft thread := by
  have huses : ∀ u v : StoppableRunner n, u.running = false → Step env u v → Saves thread u v →
      v.roundsLeft thread + 1 ≤ u.roundsLeft thread := by
    intro u v hkilled hstep hsaves
    obtain ⟨hround, hended⟩ := hstep.saves hkilled hsaves
    rw [roundsLeft, roundsLeft, if_pos hround, if_neg hended]
  have hstays : ∀ u v : StoppableRunner n, u.running = false → Step env u v →
      v.roundsLeft thread ≤ u.roundsLeft thread := fun u v hkilled hstep => hstep.roundsLeft_le hkilled
  have hle := hrun.add_le (fun u => u.roundsLeft thread) (p := fun u => u.running = false)
    (fun _ _ h hstep => running_eq_false h hstep) huses hstays hkilled
  omega

/-- The main thread is in a round and has not read both lists of applications yet. -/
def Fetching (s : StoppableRunner n) : Prop :=
  s.mainLoop = .round ∧
    (s.runner.mainThread = .loopHead ∨ s.runner.mainThread = .checkLogin ∨
      s.runner.mainThread = .readSucceeded ∨ ∃ apps, s.runner.mainThread = .readFailed apps)

/-- A fetch adds its jobs once, and after the daemon was told to stop there is
no other fetch. -/
theorem Step.fetching (hkilled : s.running = false) (hstep : Step env s t) :
    t.runner.returned = s.runner.returned ∧ (t.Fetching → s.Fetching) ∨ s.Fetching ∧ ¬ t.Fetching := by
  cases hstep with
  | mainTest hloop => exact .inl ⟨rfl, by simp [Fetching, hkilled]⟩
  | main runner hloop hstep =>
    rcases hstep.makes with ⟨hreturned, -, -⟩ | hmakes
    · by_cases hfetching : s.Fetching
      · exact .inl ⟨hreturned, fun _ => hfetching⟩
      · refine .inl ⟨hreturned, fun hafter => absurd ?_ hfetching⟩
        obtain ⟨hround, hat⟩ := hafter
        refine ⟨hloop, ?_⟩
        cases hstep with
        | updateAddresses readState now newToken result generator hmain => exact .inl hmain
        | beginFetch now newToken result generator hmain => exact .inr (.inl hmain)
        | readSucceeded rootNode byId apps hmain => exact .inr (.inr (.inl hmain))
        | checkLoginFails hmain => exact .inr (.inl hmain)
        | readSucceededThrows hmain => exact .inr (.inr (.inl hmain))
        | readFailedThrows apps hmain => exact .inr (.inr (.inr ⟨apps, hmain⟩))
        | enqueued => exact absurd rfl (mainLoopAt_eq_round hround).1
        | _ => simp at hat
    · obtain ⟨succeededApps, failedApps, rootNode, byId, hmain, -, -, -, rfl⟩ := hmakes
      exact .inr ⟨⟨hloop, .inr (.inr (.inr ⟨_, hmain⟩))⟩, by simp [Fetching]⟩
  | take thread runner hloop hidle hstep =>
    obtain ⟨hmain, -, -, hreturned, -⟩ := hstep.frame
    exact .inl ⟨hreturned, by simp [Fetching, hmain]⟩
  | finish thread runner interrupted hloop hholds hstep =>
    obtain ⟨hmain, -, -, hreturned, -⟩ := hstep.frame
    exact .inl ⟨hreturned, by simp [Fetching, hmain]⟩
  | _ => exact .inl ⟨rfl, id⟩

theorem killed_of_run (hkilled : s.running = false) (hrun : (stoppable env n).Run s t) : t.running = false :=
  hrun.preserves (p := fun u => u.running = false) (fun _ _ h hstep => running_eq_false h hstep) hkilled

/-- What a run may still do after the daemon was told to stop. -/
theorem after_kill (hkilled : s.running = false) (hrun : (stoppable env n).Run s t) :
    t.runner.saved.length + t.inRound.card ≤ s.runner.saved.length + s.inRound.card ∧
      (t.runner.returned = s.runner.returned ∧ (t.Fetching → s.Fetching) ∨ s.Fetching ∧ ¬ t.Fetching) ∧
      ∀ thread, s.executorLoops thread ≠ .round →
        t.executorLoops thread ≠ .round ∧ t.runner.executors thread = s.runner.executors thread := by
  induction hrun with
  | refl => exact ⟨le_refl _, .inl ⟨rfl, id⟩, fun thread hout => ⟨hout, rfl⟩⟩
  | tail hrun hstep ih =>
    obtain ⟨hsaved, hreturned, hout⟩ := ih
    have hkilled' := killed_of_run hkilled hrun
    refine ⟨(hstep.saved_add_card hkilled').trans hsaved, ?_, fun thread hthread => ?_⟩
    · rcases hreturned with ⟨hsame, hbefore⟩ | ⟨hfetching, hended⟩
      · rcases hstep.fetching hkilled' with ⟨hsame', hbefore'⟩ | ⟨hfetching, hended⟩
        · exact .inl ⟨hsame'.trans hsame, fun h => hbefore (hbefore' h)⟩
        · exact .inr ⟨hbefore hfetching, hended⟩
      · rcases hstep.fetching hkilled' with ⟨-, hbefore⟩ | ⟨hfetching', -⟩
        · exact .inr ⟨hfetching, fun h => hended (hbefore h)⟩
        · exact absurd hfetching' hended
    · obtain ⟨hstays, hkeeps⟩ := hout thread hthread
      obtain ⟨hstays', hkeeps'⟩ := hstep.left hkilled' hstays
      exact ⟨hstays', hkeeps'.trans hkeeps⟩

/-- A daemon that is told to stop does nothing that a running one may not do.
After that, a thread that is in a round saves one job at most and the others
none, and no one else saves any; new jobs come only from the fetch under way,
at once. A job that a thread leaves behind is left by a daemon told to stop, and
stays in no other place than this thread. -/
theorem kill_ends_work (hs : (stoppable env n).Reachable s) :
    (ElephantRunner.runs env n).Reachable s.runner ∧
    (s.running = false → ∀ t, (stoppable env n).Run s t →
      t.runner.saved.length ≤ s.runner.saved.length + s.inRound.card ∧
      (t.runner.returned = s.runner.returned ∨ s.Fetching ∧ ¬ t.Fetching)) ∧
    (s.running = false → ∀ thread saves t, (stoppable env n).CountedRun (Saves thread) s saves t →
      saves ≤ if s.executorLoops thread = .round then 1 else 0) ∧
    (∀ t, (stoppable env n).step s t → t.runner.saved ≠ s.runner.saved → ∃ thread, Saves thread s t) ∧
    ∀ thread job, s.executorLoops thread ≠ .round → s.runner.executors thread = some job →
      s.running = false ∧ ∀ t, (stoppable env n).Run s t → t.runner.executors thread = some job ∧
        ∀ place, place ≠ .executor thread → job ∉ t.runner.contents place := by
  refine ⟨runner_reachable hs, fun hkilled t hrun => ?_, fun hkilled _ _ _ => saves_le hkilled,
    fun _ => Step.exists_saves, fun thread job hout hholds => ?_⟩
  · obtain ⟨hsaved, hreturned, -⟩ := after_kill hkilled hrun
    exact ⟨by omega, hreturned.imp And.left id⟩
  · have hkilled : s.running = false := by
      cases hrunning : s.running with
      | false => rfl
      | true => simp [(consistent hs).idle hrunning thread hout] at hholds
    refine ⟨hkilled, fun t hrun => ?_⟩
    obtain ⟨-, -, hout'⟩ := after_kill hkilled hrun
    have hstill : t.runner.executors thread = some job := (hout' thread hout).2.trans hholds
    have hconserved := (ElephantRunner.conserved_counted_invariant.of_reachable
      ((runner_reachable hs).run (runner_run hrun))).1
    refine ⟨hstill, fun place hplace hmem => hplace ?_⟩
    exact hconserved.unique hmem
      (show job ∈ t.runner.contents (.executor thread) by simp [ElephantRunner.contents, hstill])

end killed

section terminates

variable {s t : StoppableRunner n}

/-- How far an executor thread is from the end of its loop; an interrupt still
to come counts as well. -/
def executorDistance (s : StoppableRunner n) (thread : Fin n) : Nat :=
  (match s.executorLoops thread, s.runner.executors thread with
    | .terminated, _ => 0
    | .test, _ => 2
    | .round, some _ => 4
    | .round, none => 6) + bif s.interrupted thread then 0 else 1

/-- How far the main thread is from the end of its loop: the part of the round
it is in, and what is left to do in this part. -/
def mainDistance (s : StoppableRunner n) : Nat ×ₗ Nat :=
  match s.mainLoop with
  | .terminated => toLex (0, 0)
  | .test => toLex (1, 0)
  | .round =>
    match s.runner.mainThread with
    | .terminated => toLex (2, 0)
    | .enqueue todos => toLex (2, todos.length)
    | .pollRetries _ => toLex (3, 2 * s.runner.analyticJobGenerator.retryQueue.length)
    | .testRetries _ => toLex (3, 2 * s.runner.analyticJobGenerator.retryQueue.length + 1)
    | .readFailed _ => toLex (4, 0)
    | .readSucceeded => toLex (5, 0)
    | .checkLogin => toLex (6, 0)
    | .loopHead => toLex (7, 0)

/-- The executors come first: what they do may put jobs into the retry queue
that the main thread drains. -/
def distance (s : StoppableRunner n) : Nat ×ₗ (Nat ×ₗ Nat) :=
  toLex (∑ thread, s.executorDistance thread, s.mainDistance)

/-- A step of an executor brings it closer to the end, the others as close. -/
private theorem distance_lt_of_executor (thread : Fin n)
    (hthread : t.executorDistance thread < s.executorDistance thread)
    (hothers : ∀ other, other ≠ thread → t.executorDistance other = s.executorDistance other) :
    t.distance < s.distance := by
  refine Prod.Lex.toLex_lt_toLex.mpr (.inl ?_)
  refine Finset.sum_lt_sum (fun other _ => ?_) ⟨thread, Finset.mem_univ _, hthread⟩
  by_cases hother : other = thread
  · rw [hother]
    exact hthread.le
  · exact (hothers other hother).le

private theorem distance_lt_of_main (hexecutors : ∀ thread, t.executorDistance thread = s.executorDistance thread)
    (hmain : t.mainDistance < s.mainDistance) : t.distance < s.distance := by
  refine Prod.Lex.toLex_lt_toLex.mpr (.inr ⟨?_, hmain⟩)
  change ∑ thread, t.executorDistance thread = ∑ thread, s.executorDistance thread
  exact Finset.sum_congr rfl fun thread _ => hexecutors thread

omit [HadoopApplicationData δ] in
/-- A round of the main thread comes to its end: the retry queue gets shorter
while it is drained, and the list while it is enqueued. -/
theorem mainDistance_lt (hdrains : s.runner.Drains) (hloop : s.mainLoop = .round) {runner : ElephantRunner n}
    (hstep : ElephantRunner.MainStep env s.runner runner) :
    ({ s with runner, mainLoop := mainLoopAt runner.mainThread } : StoppableRunner n).mainDistance <
      s.mainDistance := by
  have hless : ∀ {a b : Nat ×ₗ Nat}, (ofLex a).1 < (ofLex b).1 → a < b := fun h =>
    Prod.Lex.toLex_lt_toLex.mpr (.inl h)
  cases hstep with
  | updateAddresses readState now newToken result generator hmain hupdate =>
    cases result <;> exact hless (by simp [mainDistance, mainLoopAt, hloop, hmain])
  | beginFetch now newToken result generator hmain hclock hbegin =>
    cases result <;> exact hless (by simp [mainDistance, mainLoopAt, hloop, hmain])
  | pollRetries appList promise rest hmain hpoll =>
    obtain ⟨job, -, hqueue⟩ :=
      AnalyticJobGeneratorHadoop2.eq_cons_of_poll (hdrains.polled appList hmain) hpoll
    simp only [mainDistance, mainLoopAt, hloop, hmain, hqueue, List.length_cons]
    exact Prod.Lex.toLex_lt_toLex.mpr (.inr ⟨rfl, by omega⟩)
  | retriesNotEmpty appList hmain hretries =>
    simp only [mainDistance, mainLoopAt, hloop, hmain]
    exact Prod.Lex.toLex_lt_toLex.mpr (.inr ⟨rfl, by omega⟩)
  | enqueue job todos hmain =>
    simp only [mainDistance, mainLoopAt, hloop, hmain, List.length_cons]
    exact Prod.Lex.toLex_lt_toLex.mpr (.inr ⟨rfl, by omega⟩)
  | checkLoginFails hmain => exact hless (by simp [mainDistance, mainLoopAt, hloop, hmain])
  | readSucceeded rootNode byId apps hmain => exact hless (by simp [mainDistance, mainLoopAt, hloop, hmain])
  | readSucceededThrows hmain => exact hless (by simp [mainDistance, mainLoopAt, hloop, hmain])
  | readFailed apps rootNode byId failedApps appList heap hmain =>
    exact hless (by simp [mainDistance, mainLoopAt, hloop, hmain])
  | readFailedThrows apps hmain => exact hless (by simp [mainDistance, mainLoopAt, hloop, hmain])
  | retriesEmpty appList hmain => exact hless (by simp [mainDistance, mainLoopAt, hloop, hmain])
  | enqueueNull todos hmain => exact hless (by simp [mainDistance, mainLoopAt, hloop, hmain])
  | enqueued hmain => exact hless (by simp [mainDistance, mainLoopAt, hloop, hmain])

/-- Each step after the daemon was told to stop brings it closer to its end. -/
theorem Step.distance_lt (hkilled : s.running = false) (hdrains : s.runner.Drains) (hstep : Step env s t) :
    t.distance < s.distance := by
  cases hstep with
  | kill hrunning => simp [hkilled] at hrunning
  | interrupt thread hkilled' hnot =>
    refine distance_lt_of_executor thread ?_ fun other hother => ?_
    · simp [executorDistance, hnot]
    · simp [executorDistance, Function.update_of_ne hother]
  | mainTest hloop =>
    refine distance_lt_of_main (fun _ => rfl) ?_
    simp only [mainDistance, hloop, hkilled, cond_false]
    exact Prod.Lex.toLex_lt_toLex.mpr (.inl (by omega))
  | main runner hloop hstep =>
    refine distance_lt_of_main (fun thread => ?_) (mainDistance_lt hdrains hloop hstep)
    simp only [executorDistance, hstep.frame.1]
  | executorTest thread hloop =>
    refine distance_lt_of_executor thread ?_ fun other hother => ?_
    · simp [executorDistance, hkilled, hloop]
    · simp [executorDistance, Function.update_of_ne hother]
  | take thread runner hloop hidle hstep hthread =>
    refine distance_lt_of_executor thread ?_ fun other hother => ?_
    · obtain ⟨job, hjob⟩ := Option.ne_none_iff_exists'.mp hthread
      simp [executorDistance, hloop, hidle, hjob]
    · simp only [executorDistance, executors_of_ne hstep (hidle ▸ hthread) hother]
  | takeInterrupted thread hloop hidle hflag =>
    refine distance_lt_of_executor thread ?_ fun other hother => ?_
    · simp [executorDistance, hloop, hidle]
    · simp [executorDistance, Function.update_of_ne hother]
  | finish thread runner interrupted hloop hholds hstep hthread hflags =>
    have hacts : runner.executors thread ≠ s.runner.executors thread := by
      simpa [hthread] using Ne.symm hholds
    refine distance_lt_of_executor thread ?_ fun other hother => ?_
    · obtain ⟨job, hjob⟩ := Option.ne_none_iff_exists'.mp hholds
      simp only [executorDistance, hloop, hjob, Function.update_self]
      cases s.interrupted thread <;> cases interrupted thread <;> simp
    · have hflag : interrupted other = s.interrupted other := by
        rcases hflags with rfl | rfl
        · rfl
        · exact Function.update_of_ne hother ..
      simp only [executorDistance, hflag, executors_of_ne hstep hacts hother, Function.update_of_ne hother]
  | analysisInterrupted thread hloop hholds hflag =>
    refine distance_lt_of_executor thread ?_ fun other hother => ?_
    · obtain ⟨job, hjob⟩ := Option.ne_none_iff_exists'.mp hholds
      simp [executorDistance, hloop, hjob]
    · simp [executorDistance, Function.update_of_ne hother]

omit [HadoopApplicationData δ] in
/-- A main thread that has not terminated can take a step. -/
theorem exists_mainStep (env : Environment δ) {runner : ElephantRunner n}
    (hmain : runner.mainThread ≠ .terminated) : ∃ next, ElephantRunner.MainStep env runner next := by
  cases hat : runner.mainThread with
  | loopHead => exact ⟨_, .updateAddresses runner (fun _ => .error .nullPointer) 0 (.ok ()) _ _ hat rfl⟩
  | checkLogin => exact ⟨_, .checkLoginFails runner hat⟩
  | readSucceeded => exact ⟨_, .readSucceededThrows runner hat⟩
  | readFailed apps => exact ⟨_, .readFailedThrows runner apps hat⟩
  | testRetries appList =>
    by_cases hretries : runner.analyticJobGenerator.retryQueue = []
    · exact ⟨_, .retriesEmpty runner appList hat hretries⟩
    · exact ⟨_, .retriesNotEmpty runner appList hat hretries⟩
  | pollRetries appList => exact ⟨_, .pollRetries runner appList _ _ hat rfl⟩
  | enqueue todos =>
    cases todos with
    | nil => exact ⟨_, .enqueued runner hat⟩
    | cons job todos =>
      cases job with
      | none => exact ⟨_, .enqueueNull runner todos hat⟩
      | some job => exact ⟨_, .enqueue runner job todos hat⟩
  | terminated => exact absurd hat hmain

/-- Where a daemon that was told to stop can take no step, all its loops are over. -/
theorem Consistent.terminated (h : s.Consistent) (hkilled : s.running = false)
    (hstuck : ∀ t, ¬ Step env s t) :
    s.mainLoop = .terminated ∧ ∀ thread, s.executorLoops thread = .terminated := by
  constructor
  · cases hloop : s.mainLoop with
    | terminated => rfl
    | test => exact absurd (.mainTest s hloop) (hstuck _)
    | round =>
      obtain ⟨runner, hstep⟩ := exists_mainStep env (h.mainRound hloop)
      exact absurd (.main s runner hloop hstep) (hstuck _)
  · intro thread
    cases hloop : s.executorLoops thread with
    | terminated => rfl
    | test => exact absurd (.executorTest s thread hloop) (hstuck _)
    | round =>
      cases hflag : s.interrupted thread with
      | false => exact absurd (.interrupt s thread hkilled hflag) (hstuck _)
      | true =>
        by_cases hidle : s.runner.executors thread = none
        · exact absurd (.takeInterrupted s thread hloop hidle hflag) (hstuck _)
        · exact absurd (.analysisInterrupted s thread hloop hidle hflag) (hstuck _)

/-- A daemon that was told to stop comes to an end, whatever its threads are
doing then and however long the list is that a fetch still returns: no run goes
on for ever, and one that cannot go on has all threads out of their loops. -/
theorem shutdown_completes (hs : (stoppable env n).Reachable s) (hkilled : s.running = false) :
    (stoppable env n).Terminates s ∧
      ∀ t, (stoppable env n).Run s t → (∀ u, ¬ (stoppable env n).step t u) →
        t.mainLoop = .terminated ∧ ∀ thread, t.executorLoops thread = .terminated := by
  constructor
  · refine System.terminates_of_measure distance
      (p := fun t => (stoppable env n).Reachable t ∧ t.running = false) ?_ ?_ ⟨hs, hkilled⟩
    · rintro t u ⟨ht, hkilled'⟩ hstep
      exact ⟨ht.step hstep, running_eq_false hkilled' hstep⟩
    · rintro t u ⟨ht, hkilled'⟩ hstep
      have hconserved :=
        (ElephantRunner.conserved_counted_invariant.of_reachable (runner_reachable ht)).1
      exact hstep.distance_lt hkilled' hconserved.drains
  · intro t hrun hstuck
    exact (consistent (hs.run hrun)).terminated (killed_of_run hkilled hrun) hstuck

end terminates

end

/-- A daemon told to stop while its main thread and one of its executors are in
a round, for examples. -/
def wordCountKilled : StoppableRunner 2 where
  runner := ElephantRunner.wordCountDaemon
  running := false
  interrupted _ := false
  mainLoop := .round
  executorLoops := Function.update (fun _ => .test) 0 .round

theorem reachable_wordCountKilled :
    (stoppable ElephantRunner.wordCountEnvironment 2).Reachable wordCountKilled := by
  let launched : StoppableRunner 2 :=
    { wordCountKilled with running := true, mainLoop := .test, executorLoops := fun _ => .test }
  have hlaunched : (stoppable ElephantRunner.wordCountEnvironment 2).Reachable launched :=
    ⟨launched, ⟨ElephantRunner.launched_wordCountDaemon, rfl, fun _ => rfl, rfl, fun _ => rfl⟩, .refl⟩
  have hexecutor := hlaunched.step (.executorTest launched 0 rfl)
  have hmain := hexecutor.step (.mainTest _ rfl)
  exact hmain.step (.kill _ rfl)

/-- A daemon whose first executor was interrupted in its analysis and is out of
its round, with the job. -/
theorem exists_reachable_left : ∃ s : StoppableRunner 2,
    (stoppable ElephantRunner.wordCountEnvironment 2).Reachable s ∧ s.running = false ∧
      s.runner.executors 0 = some 0 ∧ s.executorLoops 0 ≠ .round := by
  obtain ⟨runner, _, _, htaken, hholds, -⟩ := ElephantRunner.exists_run_saved
  let launched : StoppableRunner 2 :=
    { wordCountKilled with running := true, mainLoop := .test, executorLoops := fun _ => .test }
  have hlaunched : (stoppable ElephantRunner.wordCountEnvironment 2).Reachable launched :=
    ⟨launched, ⟨ElephantRunner.launched_wordCountDaemon, rfl, fun _ => rfl, rfl, fun _ => rfl⟩, .refl⟩
  have hgoes : launched.GoesOn := ⟨rfl, fun _ => rfl, nofun, fun _ => nofun, fun _ _ => rfl⟩
  obtain ⟨s, hrun, hs, rfl⟩ := hgoes.exists_run_of_run htaken
  have hround : s.executorLoops 0 = .round := by
    by_contra hout
    rw [hs.idle 0 hout] at hholds
    cases hholds
  have hkilled := (hlaunched.run hrun).step (.kill s hs.running)
  have hinterrupted := hkilled.step (.interrupt _ 0 rfl (hs.notInterrupted 0))
  have hleft := hinterrupted.step (.analysisInterrupted _ 0 hround (by simp [hholds]) (by simp))
  exact ⟨_, hleft, rfl, hholds, by simp⟩

theorem kill_ends_work_wordCount :
    (wordCountKilled.Fetching ∧ ∀ t, (stoppable ElephantRunner.wordCountEnvironment 2).Run wordCountKilled t →
      t.runner.saved.length ≤ 1 ∧ (t.runner.returned = [] ∨ ¬ t.Fetching)) ∧
    (∀ saves t, (stoppable ElephantRunner.wordCountEnvironment 2).CountedRun (Saves 1) wordCountKilled saves t →
      saves = 0) ∧
    ∃ s : StoppableRunner 2, (stoppable ElephantRunner.wordCountEnvironment 2).Reachable s ∧
      s.executorLoops 0 ≠ .round ∧ ∀ t, (stoppable ElephantRunner.wordCountEnvironment 2).Run s t →
        t.runner.executors 0 = some 0 ∧ 0 ∉ t.runner.saved := by
  obtain ⟨-, hbounds, hthreads, -, -⟩ := kill_ends_work reachable_wordCountKilled
  obtain ⟨s, hs, -, hholds, hout⟩ := exists_reachable_left
  obtain ⟨-, -, -, -, hleft⟩ := kill_ends_work hs
  refine ⟨⟨⟨rfl, .inl rfl⟩, fun t hrun => ?_⟩, fun saves t hrun => ?_, s, hs, hout, fun t hrun => ?_⟩
  · obtain ⟨hsaved, hreturned⟩ := hbounds rfl t hrun
    exact ⟨hsaved, hreturned.imp id And.right⟩
  · exact Nat.le_zero.mp (hthreads rfl 1 saves t hrun)
  · obtain ⟨hkept, hnowhere⟩ := (hleft 0 0 hout hholds).2 t hrun
    exact ⟨hkept, hnowhere .saved nofun⟩

theorem shutdown_completes_wordCount :
    (stoppable ElephantRunner.wordCountEnvironment 2).Terminates wordCountKilled ∧
      ∀ t, (stoppable ElephantRunner.wordCountEnvironment 2).Run wordCountKilled t →
        (∀ u, ¬ (stoppable ElephantRunner.wordCountEnvironment 2).step t u) →
          t.mainLoop = .terminated ∧ ∀ thread, t.executorLoops thread = .terminated :=
  shutdown_completes reachable_wordCountKilled rfl

end StoppableRunner

end drelephant
