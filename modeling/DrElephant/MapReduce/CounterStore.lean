import DrElephant.Java.HashMap
import DrElephant.MapReduce.MapReduceData

open collections java.util

namespace drelephant.mapreduce.MapReduceCounterData

def getGroupNames (data : MapReduceCounterData) : List String :=
  (data.order.iterate data.pubCounters.entries).map Prod.fst

/-- The value of a counter in a group. -/
def getInGroup (data : MapReduceCounterData) (groupName counterName : String) : Option Int :=
  (data.pubCounters.get? groupName).bind (·.get? counterName)

/-- A call of one of the two methods that set a counter. -/
inductive Write
  | ofCounter (counterName : CounterName) (value : Int)
  | ofNames (groupName counterName : String) (value : Int)

namespace Write

def groupName : Write → String
  | ofCounter counterName _ => counterName.getGroupName
  | ofNames groupName _ _ => groupName

def counterName : Write → String
  | ofCounter counterName _ => counterName.getName
  | ofNames _ counterName _ => counterName

def value : Write → Int
  | ofCounter _ value => value
  | ofNames _ _ value => value

end Write

/-- `set(CounterName, long)` calls the other method with the names of the counter. -/
def write (data : MapReduceCounterData) : Write → MapReduceCounterData
  | .ofCounter counterName value => data.set counterName.getGroupName counterName.getName value
  | .ofNames groupName counterName value => data.set groupName counterName value

/-- A fresh store after a sequence of writes. -/
def written (order : HashOrder String (OrderedMap String Int)) (writes : List Write) : MapReduceCounterData :=
  writes.foldl write { order := order }

/-- The value most recently set for a group and a name. -/
def latest (writes : List Write) (groupName counterName : String) : Option Int :=
  (writes.reverse.find? fun w => w.groupName == groupName && w.counterName == counterName).map Write.value

section store

variable {order : HashOrder String (OrderedMap String Int)} {data : MapReduceCounterData}
  {writes : List Write} {counterName : CounterName}

theorem write_eq (data : MapReduceCounterData) (w : Write) :
    data.write w = data.set w.groupName w.counterName w.value := by
  cases w <;> rfl

theorem getInGroup_set (data : MapReduceCounterData) (groupName counterName groupName' counterName' : String)
    (value : Int) : (data.set groupName counterName value).getInGroup groupName' counterName' =
      if groupName == groupName' && counterName == counterName' then some value
      else data.getInGroup groupName' counterName' := by
  simp only [getInGroup, set, OrderedMap.get?_put]
  by_cases hgroup : groupName = groupName'
  · subst hgroup
    cases data.pubCounters.get? groupName <;> simp [OrderedMap.get?_put]
  · simp [hgroup]

theorem written_append (writes : List Write) (w : Write) :
    written order (writes ++ [w]) = (written order writes).set w.groupName w.counterName w.value := by
  rw [written, List.foldl_append, List.foldl_cons, List.foldl_nil, write_eq]
  rfl

theorem latest_append (writes : List Write) (w : Write) (groupName name : String) :
    latest (writes ++ [w]) groupName name =
      if w.groupName == groupName && w.counterName == name then some w.value
      else latest writes groupName name := by
  rw [latest, List.reverse_append, List.reverse_singleton, List.singleton_append, List.find?_cons]
  split <;> simp_all [latest]

/-- The two levels of maps are one map by group and name. -/
theorem getInGroup_written (order : HashOrder String (OrderedMap String Int)) (writes : List Write)
    (groupName name : String) :
    (written order writes).getInGroup groupName name = latest writes groupName name := by
  induction writes using List.reverseRecOn with
  | nil => rfl
  | append_singleton writes w ih => rw [written_append, getInGroup_set, latest_append, ih]

theorem order_written (order : HashOrder String (OrderedMap String Int)) (writes : List Write) :
    (written order writes).order = order := by
  induction writes using List.reverseRecOn with
  | nil => rfl
  | append_singleton writes w ih =>
    rw [written_append]
    exact ih

/-- The first group of the iteration that has the name decides. -/
theorem get_eq_findSome? (data : MapReduceCounterData) (counterName : CounterName) :
    data.get counterName =
      (data.getGroupNames.findSome? (data.getInGroup · counterName.getName)).getD 0 := by
  have hgroups : ∀ e ∈ data.order.iterate data.pubCounters.entries,
      data.getInGroup e.1 counterName.getName = e.2.get? counterName.getName := by
    intro e he
    rw [getInGroup, OrderedMap.get?_eq_some_of_mem ((data.order.perm _).mem_iff.mp he)]
    rfl
  rw [get, getGroupNames]
  generalize data.order.iterate data.pubCounters.entries = groups at hgroups
  induction groups with
  | nil => rfl
  | cons e groups ih =>
    have hrest := ih fun e' he' => hgroups e' (List.mem_cons_of_mem _ he')
    rw [List.map_cons, List.findSome?_cons, hgroups e List.mem_cons_self, List.find?_cons,
      ← OrderedMap.isSome_get?]
    cases hvalue : e.2.get? counterName.getName with
    | some value => simp [hvalue]
    | none => simpa [hvalue] using hrest

theorem getGroupNames_perm (data : MapReduceCounterData) :
    data.getGroupNames.Perm data.pubCounters.keys :=
  (data.order.perm _).map Prod.fst

theorem nodup_getGroupNames (data : MapReduceCounterData) : data.getGroupNames.Nodup :=
  data.getGroupNames_perm.nodup_iff.mpr <| data.pubCounters.distinct.imp fun hne => by simpa using hne

theorem mem_getGroupNames_set (data : MapReduceCounterData) (groupName name : String) (value : Int)
    (groupName' : String) : groupName' ∈ (data.set groupName name value).getGroupNames ↔
      groupName' ∈ data.getGroupNames ∨ groupName' = groupName := by
  simp only [(getGroupNames_perm _).mem_iff, set, OrderedMap.keys_put]
  split
  · rename_i hcontains
    obtain ⟨key, hkey, heq⟩ := OrderedMap.containsKey_iff.mp hcontains
    obtain rfl := eq_of_beq heq
    exact ⟨.inl, fun h => h.elim id fun heq => heq ▸ hkey⟩
  · rw [List.mem_append, List.mem_singleton]

theorem mem_getGroupNames_written {groupName : String} :
    groupName ∈ (written order writes).getGroupNames ↔ ∃ w ∈ writes, w.groupName = groupName := by
  induction writes using List.reverseRecOn with
  | nil => simp [(getGroupNames_perm _).mem_iff, written, OrderedMap.keys, OrderedMap.empty]
  | append_singleton writes w ih =>
    rw [written_append, mem_getGroupNames_set, ih]
    simp [or_and_right, exists_or, eq_comm]

/-- A group that is there already does not move when a counter of it is set. -/
theorem getGroupNames_set (horder : data.order.OfKeys) {groupName : String}
    (hgroup : groupName ∈ data.getGroupNames) (name : String) (value : Int) :
    (data.set groupName name value).getGroupNames = data.getGroupNames := by
  refine horder _ _ ?_
  change (data.pubCounters.put groupName _).keys = data.pubCounters.keys
  rw [OrderedMap.keys_put, if_pos]
  exact OrderedMap.containsKey_iff.mpr
    ⟨groupName, (getGroupNames_perm _).mem_iff.mp hgroup, beq_self_eq_true _⟩

/-- A name that is only set in one group. -/
def OnlyIn (writes : List Write) (groupName name : String) : Prop :=
  ∀ w ∈ writes, w.counterName = name → w.groupName = groupName

instance (writes : List Write) (groupName name : String) : Decidable (OnlyIn writes groupName name) :=
  inferInstanceAs (Decidable (∀ w ∈ writes, w.counterName = name → w.groupName = groupName))

theorem latest_eq_none_iff {groupName name : String} :
    latest writes groupName name = none ↔ ∀ w ∈ writes, w.groupName = groupName → w.counterName ≠ name := by
  simp [latest, List.find?_eq_none]

/-- The only element that has a value is the first one that has it. -/
theorem findSome?_eq_of_forall_ne {α β : Type*} {f : α → Option β} {l : List α} {a : α}
    (hother : ∀ b, b ≠ a → f b = none) (hmem : f a ≠ none → a ∈ l) : l.findSome? f = f a := by
  cases hfound : l.findSome? f with
  | none =>
    by_contra hcontra
    exact hcontra (List.findSome?_eq_none_iff.mp hfound a (hmem (Ne.symm hcontra))).symm
  | some value =>
    obtain ⟨b, -, hb⟩ := List.exists_of_findSome?_eq_some hfound
    by_cases heq : b = a
    · rw [← hb, heq]
    · rw [hother b heq] at hb
      cases hb

/-- A name that is set in one group only has the value most recently set there. -/
theorem get_written_of_onlyIn {groupName : String} (order : HashOrder String (OrderedMap String Int))
    (honly : OnlyIn writes groupName counterName.getName) :
    (written order writes).get counterName = (latest writes groupName counterName.getName).getD 0 := by
  simp only [get_eq_findSome?, getInGroup_written]
  rw [findSome?_eq_of_forall_ne (a := groupName)]
  · intro groupName' hne
    exact latest_eq_none_iff.mpr fun w hw hgroup hname => hne (hgroup ▸ honly w hw hname)
  · intro hvalue
    rw [Ne, latest_eq_none_iff] at hvalue
    push Not at hvalue
    obtain ⟨w, hw, hgroup, -⟩ := hvalue
    exact mem_getGroupNames_written.mpr ⟨w, hw, hgroup⟩

/-- Another name has no part in a lookup but through the order of the groups. -/
theorem get_written_append {w : Write} (hname : w.counterName ≠ counterName.getName)
    (hgroups : (written order (writes ++ [w])).getGroupNames = (written order writes).getGroupNames) :
    (written order (writes ++ [w])).get counterName = (written order writes).get counterName := by
  have hlatest : ∀ groupName, latest (writes ++ [w]) groupName counterName.getName =
      latest writes groupName counterName.getName := by
    intro groupName
    rw [latest_append, beq_eq_false_iff_ne.mpr hname, Bool.and_false, if_neg Bool.false_ne_true]
  simp only [get_eq_findSome?, getInGroup_written, hgroups, hlatest]

/-- A lookup finds the value most recently set for the name in the first group
that has it. So the groups form one map by names where no two of them share a
name, and other names do not change what is found unless a new group changes
the order of two that share it. -/
theorem get_written_spec (order : HashOrder String (OrderedMap String Int)) (writes : List Write)
    (counterName : CounterName) :
    let data := written order writes
    data.getGroupNames.Nodup ∧
      (∀ groupName, groupName ∈ data.getGroupNames ↔ ∃ w ∈ writes, w.groupName = groupName) ∧
      data.get counterName =
        (data.getGroupNames.findSome? (latest writes · counterName.getName)).getD 0 ∧
      (∀ groupName, OnlyIn writes groupName counterName.getName →
        data.get counterName = (latest writes groupName counterName.getName).getD 0) ∧
      ∀ w : Write, w.counterName ≠ counterName.getName →
        (∃ groupName, OnlyIn writes groupName counterName.getName) ∨
          (order.OfKeys ∧ w.groupName ∈ data.getGroupNames) →
        (written order (writes ++ [w])).get counterName = data.get counterName := by
  intro data
  refine ⟨nodup_getGroupNames _, fun _ => mem_getGroupNames_written, ?_,
    fun _ honly => get_written_of_onlyIn order honly, ?_⟩
  · simp only [data, get_eq_findSome?, getInGroup_written]
  · rintro w hname (⟨groupName, honly⟩ | ⟨hkeys, hgroup⟩)
    · have honly' : OnlyIn (writes ++ [w]) groupName counterName.getName := by
        intro w' hw' hname'
        rcases List.mem_append.mp hw' with hbefore | hlast
        · exact honly w' hbefore hname'
        · exact absurd (List.mem_singleton.mp hlast ▸ hname') hname
      rw [get_written_of_onlyIn order honly, get_written_of_onlyIn order honly', latest_append,
        beq_eq_false_iff_ne.mpr hname, Bool.and_false, if_neg Bool.false_ne_true]
    · refine get_written_append hname ?_
      rw [written_append]
      exact getGroupNames_set (by rwa [order_written]) hgroup _ _

/-- The iteration of the groups, whose map has an initial capacity of eight. -/
def groupOrder : HashOrder String (OrderedMap String Int) := HashMap.bucketOrderFrom 8 java.lang.hashCode

theorem groupOrder_ofKeys : groupOrder.OfKeys := by
  rw [groupOrder, HashMap.bucketOrderFrom]
  exact HashOrder.byBucket_ofKeys _

/-- A group of the job has a counter by the name of one of the built-in ones. -/
def sharedName : List Write :=
  [.ofCounter .FILE_BYTES_READ 1, .ofNames "Quality" "FILE_BYTES_READ" 2, .ofCounter .MAP_INPUT_RECORDS 3,
    .ofCounter .BYTES_READ 4, .ofCounter .BYTES_WRITTEN 5, .ofNames "Counters" "LINES" 6]

theorem get_written_spec_sharedName :
    (written groupOrder sharedName).get .MAP_INPUT_RECORDS = 3 ∧
      (written groupOrder (sharedName ++ [.ofNames "Counters" "LINES" 7])).get .FILE_BYTES_READ =
        (written groupOrder sharedName).get .FILE_BYTES_READ := by
  obtain ⟨-, -, -, honly, -⟩ := get_written_spec groupOrder sharedName .MAP_INPUT_RECORDS
  obtain ⟨-, -, -, -, hothers⟩ := get_written_spec groupOrder sharedName .FILE_BYTES_READ
  exact ⟨honly "MapReduce" (by decide),
    hothers _ (by decide) (.inr ⟨groupOrder_ofKeys, by decide⟩)⟩

/-- A lookup finds the value most recently set for the counter's own group and name. -/
def GetsOwn (order : HashOrder String (OrderedMap String Int)) : Prop :=
  ∀ writes (counterName : CounterName) value,
    latest writes counterName.getGroupName counterName.getName = some value →
    (written order writes).get counterName = value

/-- Setting a counter leaves the counters of other names as they are. -/
def KeepsOthers (order : HashOrder String (OrderedMap String Int)) : Prop :=
  ∀ writes (w : Write) (counterName : CounterName), w.counterName ≠ counterName.getName →
    (written order (writes ++ [w])).get counterName = (written order writes).get counterName

/-- The seventh group doubles the table, and the group of the job comes first. -/
theorem not_getsOwn_keepsOthers : ¬ GetsOwn groupOrder ∧ ¬ KeepsOthers groupOrder := by
  have hbefore : (written groupOrder sharedName).get .FILE_BYTES_READ = 1 := by decide
  have hafter : (written groupOrder (sharedName ++ [.ofNames "Records" "LINES" 7])).get
      .FILE_BYTES_READ = 2 := by decide
  constructor
  · intro hown
    have hvalue := hown (sharedName ++ [.ofNames "Records" "LINES" 7]) .FILE_BYTES_READ 1 (by decide)
    rw [hafter] at hvalue
    cases hvalue
  · intro hothers
    have hvalue := hothers sharedName (.ofNames "Records" "LINES" 7) .FILE_BYTES_READ (by decide)
    rw [hafter, hbefore] at hvalue
    cases hvalue

end store

end drelephant.mapreduce.MapReduceCounterData
