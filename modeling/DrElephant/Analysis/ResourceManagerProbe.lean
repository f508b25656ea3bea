import DrElephant.Analysis.AnalyticJobGeneratorHadoop2

open jackson java.lang

namespace drelephant.analysis.AnalyticJobGeneratorHadoop2

section probe

variable (configuration : String → Option String) (readState : String → Except JavaException JsonNode)

/-- The address that a resource manager is configured with. -/
def addressOf (id : String) : Option String := configuration (RESOURCE_MANAGER_ADDRESS ++ "." ++ id)

def stateUrl (id : String) : String :=
  "http://" ++ textOrNull (addressOf configuration id) ++ "/ws/v1/cluster/info"

def isActive (id : String) : Bool :=
  match readState (stateUrl configuration id) with
  | .ok rootNode => haState rootNode == some "ACTIVE"
  | .error _ => false

/-- A resource manager that answers with a document in which there is no state. -/
def isStateless (id : String) : Bool :=
  match readState (stateUrl configuration id) with
  | .ok rootNode => (haState rootNode).isNone
  | .error _ => false

/-- Each of the resource managers answers with a document, or the connection to
it fails with one of the exceptions declared for that. -/
def Answering (ids : List String) : Prop :=
  ∀ id ∈ ids, ∀ e, readState (stateUrl configuration id) = .error e →
    (∃ message, e = .io message) ∨ ∃ message, e = .authentication message

/-- The resource managers that are asked before the first active one, or all
if there is none. -/
def askedBefore (ids : List String) : List String :=
  ids.takeWhile fun id => !isActive configuration readState id

def firstActive (ids : List String) : Option String := ids.find? (isActive configuration readState)

variable {configuration readState} {id : String} {ids : List String}

theorem askedBefore_cons : askedBefore configuration readState (id :: ids) =
    if isActive configuration readState id then [] else id :: askedBefore configuration readState ids := by
  rw [askedBefore, List.takeWhile_cons]
  cases isActive configuration readState id <;> rfl

theorem firstActive_cons : firstActive configuration readState (id :: ids) =
    if isActive configuration readState id then some id else firstActive configuration readState ids := by
  rw [firstActive, List.find?_cons]
  cases isActive configuration readState id <;> rfl

private theorem findActive_cons : findActive configuration readState (id :: ids) =
    match readState (stateUrl configuration id) with
    | .error (.authentication _) => findActive configuration readState ids
    | .error (.io _) => findActive configuration readState ids
    | .error e => .error e
    | .ok rootNode =>
      match haState rootNode with
      | none => .error .nullPointer
      | some status =>
        if status = "ACTIVE" then .ok (some (addressOf configuration id))
        else findActive configuration readState ids := rfl

theorem findActive_active (hactive : isActive configuration readState id = true) :
    findActive configuration readState (id :: ids) = .ok (some (addressOf configuration id)) := by
  rw [isActive] at hactive
  cases hread : readState (stateUrl configuration id) with
  | error e => simp [hread] at hactive
  | ok rootNode =>
    have hstate : haState rootNode = some "ACTIVE" := by simpa [hread] using hactive
    simp only [findActive_cons, hread, hstate, if_true]

theorem findActive_stateless (hstateless : isStateless configuration readState id = true) :
    findActive configuration readState (id :: ids) = .error .nullPointer := by
  rw [isStateless] at hstateless
  cases hread : readState (stateUrl configuration id) with
  | error e => simp [hread] at hstateless
  | ok rootNode =>
    have hstate : haState rootNode = none := by simpa [hread] using hstateless
    simp only [findActive_cons, hread, hstate]

/-- A resource manager that is not active, or that cannot be read, is passed over. -/
theorem findActive_next (hanswer : ∀ e, readState (stateUrl configuration id) = .error e →
      (∃ message, e = .io message) ∨ ∃ message, e = .authentication message)
    (hactive : isActive configuration readState id = false)
    (hstateless : isStateless configuration readState id = false) :
    findActive configuration readState (id :: ids) = findActive configuration readState ids := by
  rw [isActive] at hactive
  rw [isStateless] at hstateless
  cases hread : readState (stateUrl configuration id) with
  | error e =>
    rcases hanswer e hread with ⟨message, rfl⟩ | ⟨message, rfl⟩ <;> simp only [findActive_cons, hread]
  | ok rootNode =>
    cases hstate : haState rootNode with
    | none => simp [hread, hstate] at hstateless
    | some status =>
      have hne : status ≠ "ACTIVE" := by simpa [hread, hstate] using hactive
      simp only [findActive_cons, hread, hstate, if_neg hne]

/-- The search asks until it finds an active resource manager or meets one that
does not say its state. -/
theorem findActive_eq (hanswers : Answering configuration readState ids) :
    findActive configuration readState ids =
      if (askedBefore configuration readState ids).any (isStateless configuration readState) then
        .error .nullPointer
      else .ok ((firstActive configuration readState ids).map (addressOf configuration)) := by
  induction ids with
  | nil => rfl
  | cons id ids ih =>
    obtain ⟨hanswer, hrest⟩ := List.forall_mem_cons.mp hanswers
    cases hactive : isActive configuration readState id with
    | true =>
      simp [findActive_active hactive, askedBefore_cons, firstActive_cons, hactive]
    | false =>
      cases hstateless : isStateless configuration readState id with
      | true => simp [findActive_stateless hstateless, askedBefore_cons, hactive, hstateless]
      | false =>
        rw [findActive_next hanswer hactive hstateless, ih hrest]
        simp [askedBefore_cons, firstActive_cons, hactive, hstateless]

variable (configuration readState) in
/-- The answers of a round that the search gets through: every resource manager
asked says its state, and the active one has an address. -/
structure Probed (ids : List String) : Prop where
  states : ∀ id ∈ askedBefore configuration readState ids, isStateless configuration readState id = false
  address : ∀ id ∈ firstActive configuration readState ids, addressOf configuration id ≠ none

variable (configuration readState) in
/-- A round that returns with the address of the first active resource manager,
or with the previous one, and leaves alone what is to be fetched. -/
structure Survives (ids : List String) (generator : AnalyticJobGeneratorHadoop2)
    (round : Except JavaException Unit × AnalyticJobGeneratorHadoop2) : Prop where
  returns : round.1 = .ok ()
  address : round.2.resourceManagerAddress =
    ((firstActive configuration readState ids).map (addressOf configuration)).getD
      generator.resourceManagerAddress
  lastTime : round.2.lastTime = generator.lastTime
  retryQueue : round.2.retryQueue = generator.retryQueue

theorem requireAddress_eq_ok_iff {generator : AnalyticJobGeneratorHadoop2} :
    generator.requireAddress = .ok () ↔ generator.resourceManagerAddress ≠ none := by
  rw [requireAddress]
  cases generator.resourceManagerAddress <;> simp

theorem updateAuthToken_ok (generator : AnalyticJobGeneratorHadoop2) :
    (generator.updateAuthToken (.ok ())).1 = .ok () := by
  rw [updateAuthToken]
  split <;> rfl

section round

variable {generator : AnalyticJobGeneratorHadoop2} {resourceManagers : String} (now : Int)
  (hha : booleanValueOf (configuration IS_RM_HA_ENABLED) = true)
  (hids : configuration RESOURCE_MANAGER_IDS = some resourceManagers)

include hha hids

/-- A round in HA mode, once it has its token. -/
theorem updateResourceManagerAddresses_eq :
    generator.updateResourceManagerAddresses configuration readState now (.ok ()) =
      let updated := (updateAuthToken (.ok ()) { generator with currentTime := now }).2
      match findActive configuration readState (split ',' resourceManagers) with
      | .error e => (.error e, updated)
      | .ok none => (updated.requireAddress, updated)
      | .ok (some address) =>
        (requireAddress { updated with resourceManagerAddress := address },
          { updated with resourceManagerAddress := address }) := by
  have htoken := updateAuthToken_ok { generator with currentTime := now }
  rw [updateResourceManagerAddresses, if_pos hha, hids]
  generalize updateAuthToken (.ok ()) { generator with currentTime := now } = updated at htoken ⊢
  obtain ⟨result, updated⟩ := updated
  obtain rfl : result = .ok () := htoken
  rfl

/-- A round in HA mode survives the answers that the search gets through, and no others. -/
theorem survives_iff (hanswers : Answering configuration readState (split ',' resourceManagers))
    (haddress : generator.resourceManagerAddress ≠ none) :
    Survives configuration readState (split ',' resourceManagers) generator
        (generator.updateResourceManagerAddresses configuration readState now (.ok ())) ↔
      Probed configuration readState (split ',' resourceManagers) := by
  obtain ⟨hlast, hretries⟩ := updateResourceManagerAddresses_frame configuration readState now
    (.ok ()) generator
  have hround : generator.updateResourceManagerAddresses configuration readState now (.ok ()) = _ :=
    updateResourceManagerAddresses_eq now hha hids
  have hupdated : (updateAuthToken (.ok ()) { generator with currentTime := now }).2.resourceManagerAddress =
      generator.resourceManagerAddress := by simp
  rw [findActive_eq hanswers] at hround
  generalize (updateAuthToken (.ok ()) { generator with currentTime := now }).2 = updated
    at hround hupdated
  cases hstateless : (askedBefore configuration readState (split ',' resourceManagers)).any
      (isStateless configuration readState) with
  | true =>
    simp only [hstateless, if_true] at hround
    obtain ⟨id, hid, hidStateless⟩ := List.any_eq_true.mp hstateless
    constructor
    · intro hsurvives
      have hreturns := hsurvives.returns
      rw [hround] at hreturns
      cases hreturns
    · intro hprobed
      rw [hprobed.states id hid] at hidStateless
      cases hidStateless
  | false =>
    have hstates : ∀ id ∈ askedBefore configuration readState (split ',' resourceManagers),
        isStateless configuration readState id = false := by
      simpa using hstateless
    simp only [hstateless, Bool.false_eq_true, if_false] at hround
    cases hactive : firstActive configuration readState (split ',' resourceManagers) with
    | none =>
      rw [hactive, Option.map_none] at hround
      refine iff_of_true ⟨?_, ?_, hlast, hretries⟩ ⟨hstates, by simp [hactive]⟩
      · rw [hround]
        exact requireAddress_eq_ok_iff.mpr (hupdated ▸ haddress)
      · rw [hround, hactive]
        exact hupdated
    | some id =>
      rw [hactive, Option.map_some] at hround
      have hreturns : (generator.updateResourceManagerAddresses configuration readState now (.ok ())).1 =
          .ok () ↔ addressOf configuration id ≠ none := by
        rw [hround]
        exact requireAddress_eq_ok_iff
      constructor
      · intro hsurvives
        exact ⟨hstates, by simpa [hactive] using hreturns.mp hsurvives.returns⟩
      · intro hprobed
        refine ⟨hreturns.mpr (hprobed.address id hactive), ?_, hlast, hretries⟩
        rw [hround, hactive]
        rfl

end round

end probe

end drelephant.analysis.AnalyticJobGeneratorHadoop2
