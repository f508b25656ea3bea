import DrElephant.Analysis.ResourceManagerProbe
import DrElephant.Runner.Fetch
import DrElephant.Runner.JobConservation

open jackson java.lang memory models transition
open drelephant.util drelephant.analysis
open drelephant.analysis.AnalyticJobGeneratorHadoop2

namespace drelephant.ElephantRunner

variable {δ : Type} {n : Nat} {env : Environment δ}

/-- A daemon that has been configured and has found its resource manager then. -/
structure Configured (env : Environment δ) (s : ElephantRunner n) : Prop where
  launched : s.Launched
  configured : ∃ generator readState now newToken,
    updateResourceManagerAddresses env.configuration readState now newToken generator =
      (.ok (), s.analyticJobGenerator)

/-- The main thread after it has looked for the active resource manager. -/
def afterRound (env : Environment δ) (readState : String → Except JavaException JsonNode) (now : Int)
    (s : ElephantRunner n) : ElephantRunner n :=
  let round := s.analyticJobGenerator.updateResourceManagerAddresses env.configuration readState now
    (.ok ())
  { s with
    analyticJobGenerator := round.2
    mainThread := match round.1 with
      | .ok () => .checkLogin
      | .error _ => .terminated }

theorem mainStep_afterRound {s : ElephantRunner n} (env : Environment δ)
    (readState : String → Except JavaException JsonNode) (now : Int)
    (hmain : s.mainThread = .loopHead) : MainStep env s (s.afterRound env readState now) := by
  rw [afterRound]
  generalize hround : s.analyticJobGenerator.updateResourceManagerAddresses env.configuration
    readState now (.ok ()) = round
  obtain ⟨result, generator⟩ := round
  cases result <;> exact .updateAddresses s readState now (.ok ()) _ _ hmain hround

section addressed

/-- While the main thread runs it has an address to fetch from, and it enqueues
no null. -/
structure Addressed (s : ElephantRunner n) : Prop where
  address : s.mainThread ≠ .terminated → s.analyticJobGenerator.resourceManagerAddress ≠ none
  drains : s.Drains

theorem updateResourceManagerAddresses_address {configuration : String → Option String}
    {readState : String → Except JavaException JsonNode} {now : Int} {newToken : Except JavaException Unit}
    {generator updated : AnalyticJobGeneratorHadoop2}
    (h : generator.updateResourceManagerAddresses configuration readState now newToken = (.ok (), updated)) :
    updated.resourceManagerAddress ≠ none := by
  have hrequire : ∀ other : AnalyticJobGeneratorHadoop2,
      (other.requireAddress, other) = (Except.ok (), updated) → updated.resourceManagerAddress ≠ none := by
    intro other hother
    obtain ⟨hreturns, rfl⟩ := Prod.mk.inj hother
    exact requireAddress_eq_ok_iff.mp hreturns
  rw [updateResourceManagerAddresses] at h
  split at h
  · split at h
    · exact hrequire _ h
    · split at h
      · cases h
      · split at h
        · cases h
        · exact hrequire _ h
        · exact hrequire _ h
  · exact hrequire _ h

/-- Away from the head of the loop the main thread keeps its address and does
not terminate. -/
theorem MainStep.addressed {s t : ElephantRunner n} (h : s.Addressed) (hmain : s.mainThread ≠ .loopHead)
    (hstep : MainStep env s t) : t.Addressed ∧ t.mainThread ≠ .terminated := by
  have hdrains := hstep.drains h.drains
  have haddress := h.address
  cases hstep with
  | updateAddresses readState now newToken result generator hhead => exact absurd hhead hmain
  | beginFetch now newToken result generator hcheck hclock hbegin =>
    have hkept := beginFetch_resourceManagerAddress newToken s.analyticJobGenerator now
    simp only [hbegin] at hkept
    have hsome : generator.resourceManagerAddress ≠ none := hkept ▸ haddress (by simp [hcheck])
    cases result <;> exact ⟨⟨fun _ => hsome, hdrains⟩, by simp⟩
  | enqueueNull todos henqueue =>
    have hnull := h.drains.notNull
    rw [henqueue] at hnull
    exact absurd List.mem_cons_self hnull
  | checkLoginFails hcheck =>
    exact ⟨⟨fun _ => haddress (by simp [hcheck]), hdrains⟩, by simp⟩
  | readSucceeded rootNode byId apps hread =>
    exact ⟨⟨fun _ => haddress (by simp [hread]), hdrains⟩, by simp⟩
  | readSucceededThrows hread =>
    exact ⟨⟨fun _ => haddress (by simp [hread]), hdrains⟩, by simp⟩
  | readFailed apps rootNode byId failedApps appList heap hread =>
    exact ⟨⟨fun _ => haddress (by simp [hread]), hdrains⟩, by simp⟩
  | readFailedThrows apps hread =>
    exact ⟨⟨fun _ => haddress (by simp [hread]), hdrains⟩, by simp⟩
  | retriesNotEmpty appList htest =>
    exact ⟨⟨fun _ => haddress (by simp [htest]), hdrains⟩, by simp⟩
  | pollRetries appList promise rest hpoll =>
    exact ⟨⟨fun _ => haddress (by simp [hpoll]), hdrains⟩, by simp⟩
  | retriesEmpty appList htest =>
    exact ⟨⟨fun _ => haddress (by simp [htest]), hdrains⟩, by simp⟩
  | enqueue job todos henqueue =>
    exact ⟨⟨fun _ => haddress (by simp [henqueue]), hdrains⟩, by simp⟩
  | enqueued henqueue =>
    exact ⟨⟨fun _ => haddress (by simp [henqueue]), hdrains⟩, by simp⟩

/-- A configured daemon has an address. -/
theorem Configured.addressed {s : ElephantRunner n} (h : Configured env s) : s.Addressed := by
  obtain ⟨hlaunched, generator, readState, now, newToken, hround⟩ := h
  exact ⟨fun _ => updateResourceManagerAddresses_address hround, hlaunched.conserved.drains⟩

/-- A round that returns leaves an address, one that throws ends the main thread. -/
theorem afterRound_addressed {s : ElephantRunner n} (h : s.Addressed) (hmain : s.mainThread = .loopHead)
    (readState : String → Except JavaException JsonNode) (now : Int) :
    (s.afterRound env readState now).Addressed := by
  have hdrains := (mainStep_afterRound env readState now hmain).drains h.drains
  refine ⟨fun hrunning => ?_, hdrains⟩
  rw [afterRound] at hrunning ⊢
  generalize hround : s.analyticJobGenerator.updateResourceManagerAddresses env.configuration
    readState now (.ok ()) = round at hrunning ⊢
  obtain ⟨_ | _, generator⟩ := round
  · exact absurd rfl hrunning
  · exact updateResourceManagerAddresses_address hround

end addressed

section loop

variable [HadoopApplicationData δ]

/-- The steps of a daemon whose resource managers give answers of a kind in
every round, and whose tokens can be renewed. -/
inductive LoopStep (env : Environment δ) (meets : (String → Except JavaException JsonNode) → Prop) :
    ElephantRunner n → ElephantRunner n → Prop
  | round (s : ElephantRunner n) (readState : String → Except JavaException JsonNode) (now : Int)
      (hmain : s.mainThread = .loopHead) (hmeets : meets readState) :
      LoopStep env meets s (s.afterRound env readState now)
  | main (s t : ElephantRunner n) (hmain : s.mainThread ≠ .loopHead) (hstep : MainStep env s t) :
      LoopStep env meets s t
  | executor (s t : ElephantRunner n) (hstep : ExecutorStep (δ := δ) s t) : LoopStep env meets s t

def fetchLoop (env : Environment δ) (n : Nat) (meets : (String → Except JavaException JsonNode) → Prop) :
    System (ElephantRunner n) where
  init := Configured env
  step := LoopStep env meets

/-- The runs are those of the daemon. -/
theorem LoopStep.step {meets : (String → Except JavaException JsonNode) → Prop} {s t : ElephantRunner n}
    (h : LoopStep env meets s t) : (runs env n).step s t := by
  cases h with
  | round readState now hmain hmeets => exact .inl (mainStep_afterRound env readState now hmain)
  | main _ hmain hstep => exact .inl hstep
  | executor _ hstep => exact .inr hstep

theorem ExecutorStep.addressed {s t : ElephantRunner n} (h : s.Addressed)
    (hstep : ExecutorStep (δ := δ) s t) : t.Addressed := by
  refine ⟨?_, hstep.drains h.drains⟩
  have haddress := h.address
  cases hstep with
  | take => exact haddress
  | save => exact haddress
  | retry => exact haddress
  | drop => exact haddress

theorem LoopStep.addressed {meets : (String → Except JavaException JsonNode) → Prop}
    {s t : ElephantRunner n} (h : s.Addressed) (hstep : LoopStep env meets s t) : t.Addressed := by
  cases hstep with
  | round readState now hmain hmeets => exact afterRound_addressed h hmain readState now
  | main _ hmain hstep => exact (hstep.addressed h hmain).1
  | executor _ hstep => exact hstep.addressed h

theorem fetchLoop_addressed (meets : (String → Except JavaException JsonNode) → Prop) :
    (fetchLoop env n meets).Invariant Addressed :=
  ⟨fun _ => Configured.addressed, fun _ _ h hstep => LoopStep.addressed h hstep⟩

section highAvailability

variable {resourceManagers : String}
  (hha : booleanValueOf (env.configuration IS_RM_HA_ENABLED) = true)
  (hids : env.configuration RESOURCE_MANAGER_IDS = some resourceManagers)

include hha hids

/-- A step whose round is survived does not terminate the main thread. -/
theorem LoopStep.running {s t : ElephantRunner n} (h : s.Addressed) (hrunning : s.mainThread ≠ .terminated)
    (hstep : LoopStep env (fun readState =>
      Answering env.configuration readState (split ',' resourceManagers) ∧
      Probed env.configuration readState (split ',' resourceManagers)) s t) :
    t.mainThread ≠ .terminated := by
  cases hstep with
  | round readState now hmain hmeets =>
    have hsurvives := (survives_iff now hha hids hmeets.1 (h.address hrunning)).mpr hmeets.2
    simp only [afterRound, hsurvives.returns, ne_eq, reduceCtorEq, not_false_eq_true]
  | main _ hmain hstep => exact (hstep.addressed h hmain).2
  | executor _ hstep => exact hstep.frame.1 ▸ hrunning

/-- In HA mode a daemon that was configured keeps fetching for ever when in each
round every resource manager that is asked says its state and the active one
has an address. In whatever run, a round finds the active resource manager, or
stays with the previous one, exactly under these conditions. -/
theorem fetchLoop_survives :
    (∀ s : ElephantRunner n, (fetchLoop env n fun readState =>
        Answering env.configuration readState (split ',' resourceManagers) ∧
        Probed env.configuration readState (split ',' resourceManagers)).Reachable s →
      s.mainThread ≠ .terminated) ∧
    ∀ s : ElephantRunner n, (fetchLoop env n fun readState =>
        Answering env.configuration readState (split ',' resourceManagers)).Reachable s →
      s.mainThread = .loopHead → ∀ readState now,
        Answering env.configuration readState (split ',' resourceManagers) →
        (Survives env.configuration readState (split ',' resourceManagers) s.analyticJobGenerator
            (s.analyticJobGenerator.updateResourceManagerAddresses env.configuration readState now
              (.ok ())) ↔
          Probed env.configuration readState (split ',' resourceManagers)) := by
  constructor
  · intro s hs
    have hinvariant : (fetchLoop env n fun readState =>
        Answering env.configuration readState (split ',' resourceManagers) ∧
        Probed env.configuration readState (split ',' resourceManagers)).Invariant
        fun s => s.Addressed ∧ s.mainThread ≠ .terminated := by
      refine (fetchLoop_addressed _).and ?_ ?_
      · intro s hconfigured
        simp [Configured.launched hconfigured |>.mainThread]
      · intro s t haddressed hrunning hstep
        exact LoopStep.running hha hids haddressed hrunning hstep
    exact (hinvariant.of_reachable hs).2
  · intro s hs hmain readState now hanswers
    have haddressed := (fetchLoop_addressed _).of_reachable hs
    exact survives_iff now hha hids hanswers (haddressed.address (by simp [hmain]))

end highAvailability

end loop

section examples

/-- Two resource managers in HA mode. -/
def haConfiguration (key : String) : Option String :=
  if key = IS_RM_HA_ENABLED then some "true"
  else if key = RESOURCE_MANAGER_IDS then some "rm1,rm2"
  else if key = RESOURCE_MANAGER_ADDRESS ++ ".rm1" then some "one:8088"
  else if key = RESOURCE_MANAGER_ADDRESS ++ ".rm2" then some "two:8088"
  else none

def haEnvironment : Environment Unit := { wordCountEnvironment with configuration := haConfiguration }

/-- The document of a resource manager in a state. -/
def stateDocument (state : String) : JsonNode :=
  .object [("clusterInfo", .object [("haState", .text state)])]

/-- The second resource manager has taken over from the first. -/
def failedOver (url : String) : Except JavaException JsonNode :=
  if url = "http://two:8088/ws/v1/cluster/info" then .ok (stateDocument "ACTIVE")
  else .error (.io "Connection refused")

/-- Documents of a cluster that does not say its state. -/
def stateless (_ : String) : Except JavaException JsonNode := .ok (.object [("clusterInfo", .object [])])

/-- A daemon that was configured when the first resource manager was active. -/
def haDaemon : ElephantRunner 2 where
  __ := wordCountDaemon
  analyticJobGenerator := (updateResourceManagerAddresses haConfiguration
    (fun _ => .ok (stateDocument "ACTIVE")) 0 (.ok ()) wordCountDaemon.analyticJobGenerator).2

theorem configured_haDaemon : Configured haEnvironment haDaemon where
  launched := ⟨rfl, rfl, rfl, rfl, fun _ => rfl, rfl, rfl, rfl, rfl, fun _ => rfl⟩
  configured := ⟨wordCountDaemon.analyticJobGenerator, fun _ => .ok (stateDocument "ACTIVE"), 0, .ok (), rfl⟩

theorem fetchLoop_survives_failedOver :
    (haDaemon.afterRound haEnvironment failedOver 0).mainThread ≠ .terminated ∧
    Survives haConfiguration failedOver (split ',' "rm1,rm2") haDaemon.analyticJobGenerator
      (haDaemon.analyticJobGenerator.updateResourceManagerAddresses haConfiguration failedOver 0
        (.ok ())) := by
  have hanswers : Answering haConfiguration failedOver (split ',' "rm1,rm2") := by
    intro id _ e he
    rw [failedOver] at he
    split at he
    · cases he
    · cases he
      exact .inl ⟨_, rfl⟩
  have hprobed : Probed haConfiguration failedOver (split ',' "rm1,rm2") := by
    have hactive : firstActive haConfiguration failedOver (split ',' "rm1,rm2") = some "rm2" := by decide
    refine ⟨by decide, ?_⟩
    rw [hactive]
    rintro _ ⟨⟩
    decide
  have hreachable : ∀ meets, (fetchLoop haEnvironment 2 meets).Reachable haDaemon :=
    fun _ => ⟨haDaemon, configured_haDaemon, .refl⟩
  have hround : (fetchLoop haEnvironment 2 fun readState =>
      Answering haConfiguration readState (split ',' "rm1,rm2") ∧
      Probed haConfiguration readState (split ',' "rm1,rm2")).Reachable
        (haDaemon.afterRound haEnvironment failedOver 0) :=
    (hreachable _).step (.round haDaemon failedOver 0 rfl ⟨hanswers, hprobed⟩)
  obtain ⟨hrunning, hsurvives⟩ := @fetchLoop_survives Unit 2 haEnvironment _ "rm1,rm2" (by decide) rfl
  exact ⟨hrunning _ hround,
    (hsurvives haDaemon (hreachable _) rfl failedOver 0 hanswers).mpr hprobed⟩

/-- A document without a state ends the main thread. -/
theorem not_survives_stateless :
    ¬ Survives haConfiguration stateless (split ',' "rm1,rm2") haDaemon.analyticJobGenerator
      (haDaemon.analyticJobGenerator.updateResourceManagerAddresses haConfiguration stateless 0
        (.ok ())) ∧
    ∃ t, (fetchLoop haEnvironment 2 fun readState =>
        Answering haConfiguration readState (split ',' "rm1,rm2")).Reachable t ∧
      t.mainThread = .terminated := by
  have hanswers : Answering haConfiguration stateless (split ',' "rm1,rm2") := by
    intro id _ e he
    cases he
  have hthrows : (haDaemon.analyticJobGenerator.updateResourceManagerAddresses haConfiguration stateless 0
      (.ok ())).1 = .error .nullPointer := by decide
  constructor
  · intro hsurvives
    rw [hsurvives.returns] at hthrows
    cases hthrows
  · refine ⟨haDaemon.afterRound haEnvironment stateless 0,
      ⟨haDaemon, configured_haDaemon, .single (.round haDaemon stateless 0 rfl hanswers)⟩, ?_⟩
    simp only [afterRound]
    rw [show (haDaemon.analyticJobGenerator.updateResourceManagerAddresses haEnvironment.configuration
      stateless 0 (.ok ())).1 = .error .nullPointer from hthrows]

end examples

end drelephant.ElephantRunner
