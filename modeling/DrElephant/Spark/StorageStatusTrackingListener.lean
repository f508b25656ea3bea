import DrElephant.Library.OrderedMap
import DrElephant.Library.StepSystem

open collections transition

namespace org.apache.spark.storage

structure BlockManagerId where
  executorId : String
  hostPort : String
  deriving DecidableEq, Repr

/-- Spark's StorageStatus and what it is made of, and the order in which its
hash maps are walked. -/
structure Storage where
  StorageStatus : Type
  BlockId : Type
  BlockStatus : Type
  newStorageStatus : BlockManagerId → Int → StorageStatus
  hasNoStorageLevel : BlockStatus → Bool
  removeBlock : StorageStatus → BlockId → StorageStatus
  updateBlock : StorageStatus → BlockId → BlockStatus → StorageStatus
  rddBlocksById : StorageStatus → Int → List BlockId
  memUsed : StorageStatus → Int
  order : HashOrder String StorageStatus

variable {storage : Storage}

/-- What a task says about its blocks when it ends. The metrics may not hold any. -/
structure TaskMetrics (storage : Storage) where
  updatedBlocks : Option (List (storage.BlockId × storage.BlockStatus))

/-- The events that the listener overrides, null info and metrics included. -/
inductive SparkListenerEvent (storage : Storage)
  | taskEnd (executorId : Option String) (taskMetrics : Option (TaskMetrics storage))
  | unpersistRDD (rddId : Int)
  | blockManagerAdded (blockManagerId : BlockManagerId) (maxMem : Int)
  | blockManagerRemoved (blockManagerId : BlockManagerId)

/-- A modified version of StorageStatusListener that tracks the peak memory
usage during the entire application runtime. -/
structure StorageStatusTrackingListener (storage : Storage) where
  executorIdToStorageStatus : OrderedMap String storage.StorageStatus := .empty
  executorIdToMaxUsedMem : OrderedMap String Int := .empty

namespace StorageStatusTrackingListener

/-- Raises the maximum of one executor to what it uses now. -/
def refresh (maxUsedMem : OrderedMap String Int) (entry : String × storage.StorageStatus) :
    OrderedMap String Int :=
  let currentMemUsed := storage.memUsed entry.2
  if currentMemUsed > (maxUsedMem.get? entry.1).getD 0 then maxUsedMem.put entry.1 currentMemUsed
  else maxUsedMem

def updateUsedMem (listener : StorageStatusTrackingListener storage) :
    StorageStatusTrackingListener storage :=
  { listener with
    executorIdToMaxUsedMem :=
      (storage.order.iterate listener.executorIdToStorageStatus.entries).foldl refresh
        listener.executorIdToMaxUsedMem }

def updateBlocks (status : storage.StorageStatus)
    (updatedBlocks : List (storage.BlockId × storage.BlockStatus)) : storage.StorageStatus :=
  updatedBlocks.foldl
    (fun status block =>
      if storage.hasNoStorageLevel block.2 then storage.removeBlock status block.1
      else storage.updateBlock status block.1 block.2)
    status

/-- Update storage status list to reflect updated block statuses -/
def updateStorageStatus (listener : StorageStatusTrackingListener storage) (execId : String)
    (updatedBlocks : List (storage.BlockId × storage.BlockStatus)) :
    StorageStatusTrackingListener storage :=
  let statuses :=
    match listener.executorIdToStorageStatus.get? execId with
    | some status => listener.executorIdToStorageStatus.put execId (updateBlocks status updatedBlocks)
    | none => listener.executorIdToStorageStatus
  updateUsedMem { listener with executorIdToStorageStatus := statuses }

/-- Update storage status list to reflect the removal of an RDD from the cache -/
def updateStorageStatusOfRDD (listener : StorageStatusTrackingListener storage)
    (unpersistedRDDId : Int) : StorageStatusTrackingListener storage :=
  let removeBlocks (status : storage.StorageStatus) :=
    (storage.rddBlocksById status unpersistedRDDId).foldl storage.removeBlock status
  updateUsedMem { listener with
    executorIdToStorageStatus := listener.executorIdToStorageStatus.mapValues removeBlocks }

def onTaskEnd (listener : StorageStatusTrackingListener storage) (executorId : Option String)
    (taskMetrics : Option (TaskMetrics storage)) : StorageStatusTrackingListener storage :=
  match executorId, taskMetrics with
  | some executorId, some metrics =>
    let updatedBlocks := metrics.updatedBlocks.getD []
    if updatedBlocks.length > 0 then listener.updateStorageStatus executorId updatedBlocks
    else listener
  | _, _ => listener

/-- A block manager that is added again takes the place of the one before. -/
def onBlockManagerAdded (listener : StorageStatusTrackingListener storage)
    (blockManagerId : BlockManagerId) (maxMem : Int) : StorageStatusTrackingListener storage :=
  { listener with
    executorIdToStorageStatus := listener.executorIdToStorageStatus.put blockManagerId.executorId
      (storage.newStorageStatus blockManagerId maxMem) }

def onBlockManagerRemoved (listener : StorageStatusTrackingListener storage)
    (blockManagerId : BlockManagerId) : StorageStatusTrackingListener storage :=
  { listener with
    executorIdToStorageStatus := listener.executorIdToStorageStatus.remove blockManagerId.executorId }

def handle (listener : StorageStatusTrackingListener storage) :
    SparkListenerEvent storage → StorageStatusTrackingListener storage
  | .taskEnd executorId taskMetrics => listener.onTaskEnd executorId taskMetrics
  | .unpersistRDD rddId => listener.updateStorageStatusOfRDD rddId
  | .blockManagerAdded blockManagerId maxMem => listener.onBlockManagerAdded blockManagerId maxMem
  | .blockManagerRemoved blockManagerId => listener.onBlockManagerRemoved blockManagerId

/-- A fresh listener that the events are replayed into. -/
def replay (events : List (SparkListenerEvent storage)) : StorageStatusTrackingListener storage :=
  events.foldl handle {}

/-- What the executor uses by the status that is registered for it, 0 without one. -/
def usedMem (execId : String) (listener : StorageStatusTrackingListener storage) : Int :=
  (listener.executorIdToStorageStatus.get? execId).elim 0 storage.memUsed

def maxUsedMem (execId : String) (listener : StorageStatusTrackingListener storage) : Int :=
  (listener.executorIdToMaxUsedMem.get? execId).getD 0

section peak

variable {execId : String}

/-- Only the entry of an executor raises its maximum. -/
theorem getD_refresh (maxUsed : OrderedMap String Int) (entry : String × storage.StorageStatus) :
    ((refresh maxUsed entry).get? execId).getD 0 =
      if entry.1 == execId then max ((maxUsed.get? execId).getD 0) (storage.memUsed entry.2)
      else (maxUsed.get? execId).getD 0 := by
  rw [refresh]
  by_cases hkey : entry.1 = execId
  · subst hkey
    by_cases hmore : storage.memUsed entry.2 > (maxUsed.get? entry.1).getD 0
    · rw [if_pos hmore, OrderedMap.get?_put, if_pos (beq_self_eq_true _), if_pos (beq_self_eq_true _),
        max_eq_right hmore.le]
      rfl
    · rw [if_neg hmore, if_pos (beq_self_eq_true _), max_eq_left (not_lt.mp hmore)]
  · have hne : (entry.1 == execId) = false := beq_eq_false_iff_ne.mpr hkey
    by_cases hmore : storage.memUsed entry.2 > (maxUsed.get? entry.1).getD 0
    · simp [hmore, OrderedMap.get?_put, hne]
    · simp [hmore, hne]

private theorem getD_foldl_refresh (entries : List (String × storage.StorageStatus))
    (maxUsed : OrderedMap String Int) :
    ((entries.foldl refresh maxUsed).get? execId).getD 0 =
      ((entries.filter fun entry => entry.1 == execId).map Prod.snd).foldl
        (fun mem status => max mem (storage.memUsed status)) ((maxUsed.get? execId).getD 0) := by
  induction entries generalizing maxUsed with
  | nil => rfl
  | cons entry entries ih =>
    rw [List.foldl_cons, ih, getD_refresh, List.filter_cons]
    cases entry.1 == execId <;> rfl

/-- A refresh raises the maximum of every executor to what it uses by its new
status, whatever the order. -/
theorem maxUsedMem_updateUsedMem {listener : StorageStatusTrackingListener storage}
    (h : 0 ≤ maxUsedMem execId listener) (statuses : OrderedMap String storage.StorageStatus) :
    maxUsedMem execId (updateUsedMem { listener with executorIdToStorageStatus := statuses }) =
      max (maxUsedMem execId listener)
        (usedMem execId (updateUsedMem { listener with executorIdToStorageStatus := statuses })) := by
  rw [maxUsedMem, updateUsedMem, getD_foldl_refresh, HashOrder.filter_key, usedMem]
  cases statuses.get? execId with
  | none => exact (max_eq_left h).symm
  | some status => rfl

/-- The step lemma: whatever changes the usage of an executor, its maximum
follows. An added block manager is not looked at, but it is empty. -/
theorem maxUsedMem_handle
    (hnew : ∀ blockManagerId maxMem, storage.memUsed (storage.newStorageStatus blockManagerId maxMem) = 0)
    (listener : StorageStatusTrackingListener storage) (event : SparkListenerEvent storage)
    (hused : usedMem execId listener ≤ maxUsedMem execId listener)
    (hmax : 0 ≤ maxUsedMem execId listener) :
    maxUsedMem execId (listener.handle event) =
      max (maxUsedMem execId listener) (usedMem execId (listener.handle event)) := by
  cases event with
  | taskEnd executorId taskMetrics =>
    have hsame : maxUsedMem execId listener =
        max (maxUsedMem execId listener) (usedMem execId listener) := (max_eq_left hused).symm
    cases executorId with
    | none => exact hsame
    | some executorId =>
      cases taskMetrics with
      | none => exact hsame
      | some metrics =>
        by_cases hblocks : (metrics.updatedBlocks.getD []).length > 0
        · simp only [handle, onTaskEnd, if_pos hblocks]
          exact maxUsedMem_updateUsedMem hmax _
        · simp only [handle, onTaskEnd, if_neg hblocks]
          exact hsame
  | unpersistRDD rddId =>
    exact maxUsedMem_updateUsedMem hmax _
  | blockManagerAdded blockManagerId maxMem =>
    have hadded : usedMem execId (listener.onBlockManagerAdded blockManagerId maxMem) ≤
        maxUsedMem execId listener := by
      rw [usedMem, onBlockManagerAdded, OrderedMap.get?_put]
      split
      · exact (hnew _ _).trans_le hmax
      · exact hused
    exact (max_eq_left hadded).symm
  | blockManagerRemoved blockManagerId =>
    have hremoved : usedMem execId (listener.onBlockManagerRemoved blockManagerId) ≤
        maxUsedMem execId listener := by
      rw [usedMem, onBlockManagerRemoved, OrderedMap.get?_remove]
      split
      · exact hmax
      · exact hused
    exact (max_eq_left hremoved).symm

/-- The peak is the greatest usage of all states that the replay has passed. It
never decreases, and the removal of a block manager leaves it alone. -/
theorem maxUsedMem_isGreatest
    (hnew : ∀ blockManagerId maxMem, storage.memUsed (storage.newStorageStatus blockManagerId maxMem) = 0)
    (events : List (SparkListenerEvent storage)) (execId : String) :
    IsGreatest (usedMem execId '' passed handle {} events) (maxUsedMem execId (replay events)) ∧
      (∀ seen, seen <+: events → maxUsedMem execId (replay seen) ≤ maxUsedMem execId (replay events)) ∧
      ∀ blockManagerId, maxUsedMem execId (replay (events ++ [.blockManagerRemoved blockManagerId])) =
        maxUsedMem execId (replay events) := by
  have hpeak : Peak handle (usedMem execId) (maxUsedMem execId)
      ({} : StorageStatusTrackingListener storage) := ⟨rfl, maxUsedMem_handle hnew⟩
  refine ⟨hpeak.isGreatest events, fun seen hseen => hpeak.mono hseen, fun blockManagerId => ?_⟩
  rw [replay, List.foldl_concat]
  rfl

/-- Statuses that hold the sizes of the blocks of each RDD in memory. -/
def blockSizes : Storage where
  StorageStatus := OrderedMap (Int × Int) Int
  BlockId := Int × Int
  BlockStatus := Option Int
  newStorageStatus _ _ := .empty
  hasNoStorageLevel status := status.isNone
  removeBlock status blockId := status.remove blockId
  updateBlock status blockId updatedStatus := status.put blockId (updatedStatus.getD 0)
  rddBlocksById status rddId := status.keys.filter fun blockId => blockId.1 == rddId
  memUsed status := status.entries.foldl (fun memUsed entry => memUsed + entry.2) 0
  order := .insertion

/-- Two blocks are cached, the manager is removed, added again, and caches less. -/
def readded : List (SparkListenerEvent blockSizes) :=
  [.blockManagerAdded ⟨"1", "host:1"⟩ 500, .taskEnd (some "1") (some ⟨some [((1, 0), some 40), ((2, 0), some 60)]⟩),
    .unpersistRDD 1, .blockManagerRemoved ⟨"1", "host:1"⟩, .blockManagerAdded ⟨"1", "host:2"⟩ 500,
    .taskEnd (some "1") (some ⟨some [((3, 0), some 70)]⟩), .taskEnd none none]

theorem maxUsedMem_isGreatest_readded :
    IsGreatest (usedMem "1" '' passed handle {} readded) (maxUsedMem "1" (replay readded)) ∧
      (∀ seen, seen <+: readded → maxUsedMem "1" (replay seen) ≤ maxUsedMem "1" (replay readded)) ∧
      ∀ blockManagerId, maxUsedMem "1" (replay (readded ++ [.blockManagerRemoved blockManagerId])) =
        maxUsedMem "1" (replay readded) :=
  maxUsedMem_isGreatest (fun _ _ => rfl) readded "1"

end peak

end StorageStatusTrackingListener

end org.apache.spark.storage
