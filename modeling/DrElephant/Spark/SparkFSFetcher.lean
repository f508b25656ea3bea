import DrElephant.Analysis.ElephantContext
import DrElephant.Java.JsonNode
import DrElephant.Java.Text

open drelephant.analysis jackson java.lang

namespace drelephant.spark.SparkFSFetcher

def NAMENODE_ADDRESSES : String := "namenode_addresses"
def NAME_SERVICES : String := "dfs.nameservices"
def DFS_HA_NAMENODES : String := "dfs.ha.namenodes"
def DFS_NAMENODE_HTTP_ADDRESS : String := "dfs.namenode.http-address"

/-- `node.get(0)`: only an array has a first element. -/
def first : Option JsonNode → Option JsonNode
  | some (.array (element :: _)) => some element
  | _ => none

section

variable (readJsonNode : String → Except JavaException JsonNode)

/-- Checks if the namenode specified is active or not. -/
def checkActivation (httpValue : String) : Except JavaException Bool := do
  let rootNode ← readJsonNode
    ("http://" ++ httpValue ++ "/jmx?qry=Hadoop:service=NameNode,name=NameNodeStatus")
  let bean ← dereference (first (JsonNode.path (some rootNode) "beans"))
  let status ← dereference ((JsonNode.path (some bean) "State").map JsonNode.getValueAsText)
  pure (status == "active")

/-- Asks the namenodes in order. An exception of one of them ends the search. -/
def findActive : List String → Except JavaException (Option String)
  | [] => .ok none
  | nameNode :: nameNodes => do
    if ← checkActivation readJsonNode nameNode then pure (some nameNode) else findActive nameNodes

variable (paramMap conf : Properties)

/-- The http addresses of the namenodes of a name service. Identifiers without
one are passed over. -/
def httpValues (nameService : String) : List String :=
  match conf (DFS_HA_NAMENODES ++ "." ++ nameService) with
  | none => []
  | some nameNodeIdentifier =>
    (split ',' nameNodeIdentifier).filterMap fun nameNodeIdentifierValue =>
      conf (DFS_NAMENODE_HTTP_ADDRESS ++ "." ++ nameService ++ "." ++ nameNodeIdentifierValue)

/-- The namenode address by the hadoop configuration. -/
def getNamenodeAddressFromHadoopConf : Except JavaException (Option String) :=
  match conf NAME_SERVICES with
  | none => .ok (conf DFS_NAMENODE_HTTP_ADDRESS)
  | some nameService =>
    -- HDFS federation is not supported right now.
    if (split ',' nameService).length > 1 then .ok none
    else do
      let active ← findActive readJsonNode (httpValues conf nameService)
      pure (active.or (conf DFS_NAMENODE_HTTP_ADDRESS))

/-- Returns the namenode address of the active nameNode. -/
def getNamenodeAddress : Except JavaException (Option String) :=
  match paramMap NAMENODE_ADDRESSES with
  | none => getNamenodeAddressFromHadoopConf readJsonNode conf
  | some nameNodes => do
    match ← findActive readJsonNode (split ',' nameNodes) with
    | some nameNode => pure (some nameNode)
    -- if we couldn't find the namenode address in fetcherconf, try to find it in hadoop configuration.
    | none => getNamenodeAddressFromHadoopConf readJsonNode conf

/-- The namenodes that are listed: those of the fetcher configuration or, when
none are configured there, those of a single name service. -/
def listedNamenodes : List String :=
  match paramMap NAMENODE_ADDRESSES with
  | some nameNodes => split ',' nameNodes
  | none =>
    match conf NAME_SERVICES with
    | none => []
    | some nameService => if (split ',' nameService).length > 1 then [] else httpValues conf nameService

end

section probe

variable (readJsonNode : String → Except JavaException JsonNode)

def isActive (nameNode : String) : Bool :=
  match checkActivation readJsonNode nameNode with
  | .ok active => active
  | .error _ => false

/-- A namenode that cannot be read. -/
def isUnreachable (nameNode : String) : Bool :=
  match checkActivation readJsonNode nameNode with
  | .ok _ => false
  | .error _ => true

/-- The namenodes that are asked before the first active one. -/
def askedBefore (nameNodes : List String) : List String :=
  nameNodes.takeWhile fun nameNode => !isActive readJsonNode nameNode

variable {readJsonNode} {nameNodes : List String}

theorem askedBefore_cons {nameNode : String} (h : isActive readJsonNode nameNode = false) :
    askedBefore readJsonNode (nameNode :: nameNodes) = nameNode :: askedBefore readJsonNode nameNodes := by
  rw [askedBefore, List.takeWhile_cons, h]
  rfl

/-- The search returns an active namenode, or none, exactly when it gets there
without asking one that is unreachable. -/
theorem findActive_eq_ok_iff {found : Option String} :
    findActive readJsonNode nameNodes = .ok found ↔
      (∀ nameNode ∈ askedBefore readJsonNode nameNodes, isUnreachable readJsonNode nameNode = false) ∧
        found = nameNodes.find? (isActive readJsonNode) := by
  induction nameNodes with
  | nil =>
    simp only [findActive, askedBefore, List.takeWhile_nil, List.find?_nil, List.not_mem_nil, false_imp_iff,
      implies_true, true_and, Except.ok.injEq]
    exact eq_comm
  | cons nameNode nameNodes ih =>
    rw [findActive, List.find?_cons]
    cases hcheck : checkActivation readJsonNode nameNode with
    | error e =>
      have hactive : isActive readJsonNode nameNode = false := by rw [isActive, hcheck]
      have hunreachable : isUnreachable readJsonNode nameNode = true := by rw [isUnreachable, hcheck]
      simp [askedBefore_cons hactive, hunreachable, bind, Except.bind]
    | ok active =>
      have hactive : isActive readJsonNode nameNode = active := by rw [isActive, hcheck]
      have hreachable : isUnreachable readJsonNode nameNode = false := by rw [isUnreachable, hcheck]
      cases active with
      | true =>
        simp only [askedBefore, List.takeWhile_cons, hactive, bind, Except.bind, Bool.not_true,
          Bool.false_eq_true, if_true, if_false, List.not_mem_nil, false_imp_iff, implies_true, true_and,
          pure_eq_ok_iff]
        exact eq_comm
      | false => simpa [askedBefore_cons hactive, hactive, hreachable, bind, Except.bind] using ih

variable {paramMap conf : Properties}

variable (readJsonNode) in
/-- Whatever lists the namenodes, they are searched first. -/
theorem exists_fallback (hlisted : listedNamenodes paramMap conf ≠ []) :
    ∃ fallback, getNamenodeAddress readJsonNode paramMap conf =
      findActive readJsonNode (listedNamenodes paramMap conf) >>= fun active =>
        active.elim fallback fun nameNode => pure (some nameNode) := by
  cases hparam : paramMap NAMENODE_ADDRESSES with
  | some nameNodes =>
    refine ⟨getNamenodeAddressFromHadoopConf readJsonNode conf, ?_⟩
    simp only [getNamenodeAddress, listedNamenodes, hparam]
    refine congrArg _ (funext fun active => ?_)
    cases active <;> rfl
  | none =>
    cases hservice : conf NAME_SERVICES with
    | none => simp [listedNamenodes, hparam, hservice] at hlisted
    | some nameService =>
      have hsingle : ¬ (split ',' nameService).length > 1 := by
        intro hmultiple
        simp [listedNamenodes, hparam, hservice, hmultiple] at hlisted
      refine ⟨pure (conf DFS_NAMENODE_HTTP_ADDRESS), ?_⟩
      simp only [getNamenodeAddress, getNamenodeAddressFromHadoopConf, listedNamenodes, hparam, hservice,
        if_neg hsingle]
      refine congrArg _ (funext fun active => ?_)
      cases active <;> rfl

/-- With an active namenode among those listed, its address is returned exactly
when no namenode before it in the list is unreachable. -/
theorem getNamenodeAddress_eq_firstActive_iff
    (hactive : ∃ nameNode ∈ listedNamenodes paramMap conf, isActive readJsonNode nameNode = true) :
    getNamenodeAddress readJsonNode paramMap conf =
        .ok ((listedNamenodes paramMap conf).find? (isActive readJsonNode)) ↔
      ∀ nameNode ∈ askedBefore readJsonNode (listedNamenodes paramMap conf),
        isUnreachable readJsonNode nameNode = false := by
  have hlisted : listedNamenodes paramMap conf ≠ [] := by
    obtain ⟨nameNode, hmem, -⟩ := hactive
    exact List.ne_nil_of_mem hmem
  obtain ⟨nameNode, hfirst⟩ : ∃ nameNode, (listedNamenodes paramMap conf).find? (isActive readJsonNode) =
      some nameNode := Option.isSome_iff_exists.mp (List.find?_isSome.mpr hactive)
  obtain ⟨fallback, haddress⟩ := exists_fallback readJsonNode hlisted
  rw [haddress, bind_eq_ok_iff]
  constructor
  · rintro ⟨found, hfound, -⟩
    exact (findActive_eq_ok_iff.mp hfound).1
  · intro hasked
    exact ⟨_, findActive_eq_ok_iff.mpr ⟨hasked, rfl⟩, by rw [hfirst]; rfl⟩

/-- What a namenode says of itself. -/
def stateDocument (state : String) : JsonNode :=
  .object [("beans", .array [.object [("State", .text state)]])]

/-- The first namenode is down, the second one active. -/
def failedOver (url : String) : Except JavaException JsonNode :=
  if url = "http://a:50070/jmx?qry=Hadoop:service=NameNode,name=NameNodeStatus" then
    .error (.io "Connection refused")
  else .ok (stateDocument "active")

/-- The first namenode is on standby, the second one active. -/
def switchedOver (url : String) : Except JavaException JsonNode :=
  if url = "http://a:50070/jmx?qry=Hadoop:service=NameNode,name=NameNodeStatus" then
    .ok (stateDocument "standby")
  else .ok (stateDocument "active")

def twoNamenodes (key : String) : Option String :=
  if key = NAMENODE_ADDRESSES then some "a:50070,b:50070" else none

/-- An active namenode that is not found behind one that is down. -/
theorem getNamenodeAddress_failedOver :
    isActive failedOver "b:50070" = true ∧
      listedNamenodes twoNamenodes (fun _ => none) = ["a:50070", "b:50070"] ∧
      getNamenodeAddress failedOver twoNamenodes (fun _ => none) = .error (.io "Connection refused") :=
  ⟨by decide, by decide, rfl⟩

theorem getNamenodeAddress_eq_firstActive_iff_switchedOver :
    getNamenodeAddress switchedOver twoNamenodes (fun _ => none) = .ok (some "b:50070") := by
  have hactive : ∃ nameNode ∈ listedNamenodes twoNamenodes fun _ => none,
      isActive switchedOver nameNode = true := ⟨"b:50070", by decide, by decide⟩
  have hfirst : (listedNamenodes twoNamenodes fun _ => none).find? (isActive switchedOver) =
      some "b:50070" := by decide
  rw [← hfirst]
  exact (getNamenodeAddress_eq_firstActive_iff hactive).mpr (by decide)

end probe

end drelephant.spark.SparkFSFetcher
