import Mathlib.Data.List.Basic
import Mathlib.Data.List.Pairwise
import Mathlib.Data.List.Sort

namespace collections

/-- An insertion-ordered map. Iteration follows the order in which the keys
were first put, and no two entries carry equal keys; equality of keys is the
key type's own, which need not be identity. -/
structure OrderedMap (κ ν : Type*) [BEq κ] where
  entries : List (κ × ν)
  distinct : (entries.map Prod.fst).Pairwise (fun a b => (a == b) = false)

namespace OrderedMap

variable {κ ν : Type*} [BEq κ]

/-- The map with no entry. -/
def empty : OrderedMap κ ν := ⟨[], by simp⟩

def keys (m : OrderedMap κ ν) : List κ := m.entries.map Prod.fst

def size (m : OrderedMap κ ν) : Nat := m.entries.length

/-- The value bound to a key, if there is one. -/
def get? (m : OrderedMap κ ν) (k : κ) : Option ν :=
  (m.entries.find? fun e => e.1 == k).map Prod.snd

def containsKey (m : OrderedMap κ ν) (k : κ) : Bool := m.entries.any fun e => e.1 == k

/-- Rebinding keeps the key already present and its place; a new key goes last. -/
def putEntry (k : κ) (v : ν) : List (κ × ν) → List (κ × ν)
  | [] => [(k, v)]
  | e :: es => if e.1 == k then (e.1, v) :: es else e :: putEntry k v es

private theorem putEntry_keys (k : κ) (v : ν) (es : List (κ × ν)) :
    (putEntry k v es).map Prod.fst =
      if es.any (fun e => e.1 == k) then es.map Prod.fst else es.map Prod.fst ++ [k] := by
  induction es with
  | nil => simp [putEntry]
  | cons e es ih =>
    by_cases he : e.1 == k
    · simp [putEntry, he]
    · simp only [putEntry, he, Bool.false_eq_true, if_false, List.map_cons, ih, List.any_cons,
        Bool.false_or]
      split <;> simp

private theorem putEntry_distinct (k : κ) (v : ν) {es : List (κ × ν)}
    (hes : (es.map Prod.fst).Pairwise (fun a b => (a == b) = false)) :
    ((putEntry k v es).map Prod.fst).Pairwise (fun a b => (a == b) = false) := by
  rw [putEntry_keys]
  split
  · exact hes
  · rename_i hnew
    refine List.pairwise_append.mpr ⟨hes, List.pairwise_singleton _ _, ?_⟩
    intro a ha b hb
    obtain ⟨e, he, rfl⟩ := List.mem_map.mp ha
    obtain rfl := List.mem_singleton.mp hb
    by_contra hcontra
    exact hnew (List.any_eq_true.mpr ⟨e, he, by simpa using hcontra⟩)

/-- Binds a key to a value, replacing the value of an equal key. -/
def put (m : OrderedMap κ ν) (k : κ) (v : ν) : OrderedMap κ ν :=
  ⟨putEntry k v m.entries, putEntry_distinct k v m.distinct⟩

theorem keys_put (m : OrderedMap κ ν) (k : κ) (v : ν) :
    (m.put k v).keys = if m.containsKey k then m.keys else m.keys ++ [k] :=
  putEntry_keys k v m.entries

@[simp] theorem entries_empty : (empty : OrderedMap κ ν).entries = [] := rfl

@[simp] theorem get?_empty (k : κ) : (empty : OrderedMap κ ν).get? k = none := rfl

theorem containsKey_iff {m : OrderedMap κ ν} {k : κ} :
    m.containsKey k = true ↔ ∃ k' ∈ m.keys, (k' == k) = true := by
  simp only [containsKey, keys, List.any_eq_true, List.mem_map]
  constructor
  · rintro ⟨e, he, hk⟩
    exact ⟨e.1, ⟨e, he, rfl⟩, hk⟩
  · rintro ⟨_, ⟨e, he, rfl⟩, hk⟩
    exact ⟨e, he, hk⟩

theorem isSome_get? (m : OrderedMap κ ν) (k : κ) : (m.get? k).isSome = m.containsKey k := by
  rw [get?, Option.isSome_map, List.isSome_find?, containsKey]

/-- A key that is not there yet goes behind all others. -/
theorem entries_put_of_not_containsKey {m : OrderedMap κ ν} {k : κ} (v : ν)
    (h : m.containsKey k = false) : (m.put k v).entries = m.entries ++ [(k, v)] := by
  simp only [containsKey] at h
  simp only [put]
  generalize m.entries = es at h
  induction es with
  | nil => rfl
  | cons e es ih =>
    simp only [List.any_cons, Bool.or_eq_false_iff] at h
    simp [putEntry, h.1, ih h.2]

/-- Puts the entries of a list, in order. -/
def putAll (m : OrderedMap κ ν) (es : List (κ × ν)) : OrderedMap κ ν :=
  es.foldl (fun m e => m.put e.1 e.2) m

theorem foldl_put (m : OrderedMap κ ν) (ks : List κ) (f : κ → ν) :
    ks.foldl (fun m k => m.put k (f k)) m = m.putAll (ks.map fun k => (k, f k)) := by
  rw [putAll, List.foldl_map]

/-- Entries with new and different keys are appended. -/
theorem entries_putAll {m : OrderedMap κ ν} {es : List (κ × ν)}
    (h : ((m.entries ++ es).map Prod.fst).Pairwise fun a b => (a == b) = false) :
    (m.putAll es).entries = m.entries ++ es := by
  induction es generalizing m with
  | nil => simp [putAll]
  | cons e es ih =>
    have hnew : m.containsKey e.1 = false := by
      rw [List.map_append, List.pairwise_append] at h
      refine Bool.eq_false_iff.mpr fun hcontains => ?_
      obtain ⟨k, hk, hke⟩ := containsKey_iff.mp hcontains
      rw [h.2.2 k hk e.1 (by simp)] at hke
      cases hke
    have hput := entries_put_of_not_containsKey e.2 hnew
    have hrest : (((m.put e.1 e.2).entries ++ es).map Prod.fst).Pairwise
        fun a b => (a == b) = false := by
      simpa [hput] using h
    simpa [putAll, hput] using ih hrest

section lawful

variable [EquivBEq κ]

/-- A key that is there is bound anew in its place. -/
theorem entries_put_of_containsKey {m : OrderedMap κ ν} {k : κ} (v : ν)
    (h : m.containsKey k = true) :
    (m.put k v).entries = m.entries.map fun e => if e.1 == k then (e.1, v) else e := by
  obtain ⟨es, hes⟩ := m
  simp only [containsKey] at h
  simp only [put]
  induction es with
  | nil => cases h
  | cons e es ih =>
    simp only [List.map_cons, List.pairwise_cons] at hes
    by_cases he : e.1 == k
    · have hrest : es.map (fun e => if e.1 == k then (e.1, v) else e) = es := by
        refine (List.map_congr_left (g := id) fun e' he' => ?_).trans (List.map_id es)
        have hne : (e'.1 == k) = false := by
          by_contra hcontra
          have hsame : (e.1 == e'.1) = true :=
            BEq.trans he (BEq.symm (by simpa using hcontra))
          rw [hes.1 e'.1 (List.mem_map_of_mem he')] at hsame
          cases hsame
        simp [hne]
      simp [putEntry, he, hrest]
    · simp only [List.any_cons, he, Bool.false_or] at h
      simp [putEntry, he, ih hes.2 h]

private theorem find?_putEntry (k k' : κ) (v : ν) (es : List (κ × ν)) :
    ((putEntry k v es).find? fun e => e.1 == k').map Prod.snd =
      if k == k' then some v else (es.find? fun e => e.1 == k').map Prod.snd := by
  induction es with
  | nil => by_cases h : k == k' <;> simp [putEntry, h]
  | cons e es ih =>
    by_cases he : e.1 == k
    · have hsame : (e.1 == k') = (k == k') := BEq.congr_left he
      by_cases h : k == k' <;> simp [putEntry, he, hsame, h]
    · by_cases he' : e.1 == k'
      · have hne : ¬ (k == k') := fun h => he (BEq.trans he' (BEq.symm h))
        simp [putEntry, he, he', hne]
      · simpa [putEntry, he, he'] using ih

/-- The map law of `put`: the key put is bound to its value, every other key
keeps its own. -/
theorem get?_put (m : OrderedMap κ ν) (k k' : κ) (v : ν) :
    (m.put k v).get? k' = if k == k' then some v else m.get? k' :=
  find?_putEntry k k' v m.entries

theorem get?_congr (m : OrderedMap κ ν) {k k' : κ} (h : (k == k') = true) : m.get? k = m.get? k' := by
  have hkey : ∀ a : κ, (a == k) = (a == k') := fun a => BEq.congr_right h
  simp only [get?, hkey]

theorem get?_eq_some_of_mem {m : OrderedMap κ ν} {e : κ × ν} (he : e ∈ m.entries) :
    m.get? e.1 = some e.2 := by
  obtain ⟨es, hes⟩ := m
  simp only [get?]
  induction es with
  | nil => cases he
  | cons e' es ih =>
    simp only [List.map_cons, List.pairwise_cons] at hes
    rcases List.mem_cons.mp he with rfl | hmem
    · simp
    · have hne : (e'.1 == e.1) = false := hes.1 e.1 (List.mem_map_of_mem hmem)
      simpa [hne] using ih hes.2 hmem

/-- Of several entries with one key the last counts. -/
theorem get?_putAll (m : OrderedMap κ ν) (es : List (κ × ν)) (k : κ) :
    (m.putAll es).get? k = ((es.reverse.find? fun e => e.1 == k).map Prod.snd).or (m.get? k) := by
  induction es generalizing m with
  | nil => rfl
  | cons e es ih =>
    rw [putAll, List.foldl_cons, ← putAll, ih, get?_put, List.reverse_cons, List.find?_append,
      List.find?_singleton]
    cases es.reverse.find? fun e => e.1 == k with
    | some e' => rfl
    | none => cases e.1 == k <;> rfl

theorem containsKey_putAll (m : OrderedMap κ ν) (es : List (κ × ν)) (k : κ) :
    (m.putAll es).containsKey k = ((es.any fun e => e.1 == k) || m.containsKey k) := by
  rw [← isSome_get?, get?_putAll, ← isSome_get?, Option.isSome_or, Option.isSome_map, List.isSome_find?,
    List.any_reverse]

end lawful

/-- The entries whose keys a predicate accepts. -/
def filterKeys (m : OrderedMap κ ν) (p : κ → Bool) : OrderedMap κ ν where
  entries := m.entries.filter fun e => p e.1
  distinct := m.distinct.sublist (List.filter_sublist.map Prod.fst)

def remove (m : OrderedMap κ ν) (k : κ) : OrderedMap κ ν := m.filterKeys fun k' => !(k' == k)

theorem filterKeys_congr {m : OrderedMap κ ν} {p q : κ → Bool} (h : ∀ k ∈ m.keys, p k = q k) :
    m.filterKeys p = m.filterKeys q := by
  have hentries : m.entries.filter (fun e => p e.1) = m.entries.filter fun e => q e.1 :=
    List.filter_congr fun e he => h e.1 (List.mem_map_of_mem he)
  simp only [filterKeys, hentries]

theorem filterKeys_filterKeys (m : OrderedMap κ ν) (p q : κ → Bool) :
    (m.filterKeys p).filterKeys q = m.filterKeys fun k => p k && q k := by
  simp only [filterKeys, List.filter_filter]
  congr 2
  funext e
  exact Bool.and_comm _ _

theorem filterKeys_true (m : OrderedMap κ ν) : (m.filterKeys fun _ => true) = m := by
  simp [filterKeys]

section remove

variable [LawfulBEq κ]

theorem get?_filterKeys (m : OrderedMap κ ν) (p : κ → Bool) (k : κ) :
    (m.filterKeys p).get? k = if p k then m.get? k else none := by
  simp only [get?, filterKeys, List.find?_filter]
  cases hp : p k with
  | true =>
    have hsame : (fun e : κ × ν => decide (p e.1 = true ∧ (e.1 == k) = true)) = fun e => e.1 == k := by
      funext e
      by_cases he : e.1 = k <;> simp [he, hp]
    rw [hsame, if_pos rfl]
  | false =>
    have hnone : m.entries.find? (fun e => decide (p e.1 = true ∧ (e.1 == k) = true)) = none := by
      refine List.find?_eq_none.mpr fun e _ he => ?_
      obtain ⟨haccepted, hkey⟩ := of_decide_eq_true he
      rw [eq_of_beq hkey, hp] at haccepted
      cases haccepted
    rw [hnone]
    rfl

theorem containsKey_filterKeys (m : OrderedMap κ ν) (p : κ → Bool) (k : κ) :
    (m.filterKeys p).containsKey k = (m.containsKey k && p k) := by
  rw [← isSome_get?, ← isSome_get?, get?_filterKeys]
  cases p k <;> simp

@[simp] theorem get?_remove (m : OrderedMap κ ν) (k k' : κ) :
    (m.remove k).get? k' = if k' == k then none else m.get? k' := by
  rw [remove, get?_filterKeys]
  cases k' == k <;> rfl

theorem containsKey_remove_of_ne (m : OrderedMap κ ν) {k k' : κ} (h : k' ≠ k) :
    (m.remove k).containsKey k' = m.containsKey k' := by
  rw [remove, containsKey_filterKeys]
  simp [h]

theorem get?_eq_some_iff {m : OrderedMap κ ν} {k : κ} {v : ν} :
    m.get? k = some v ↔ (k, v) ∈ m.entries := by
  constructor
  · intro h
    obtain ⟨e, he, rfl⟩ := Option.map_eq_some_iff.mp h
    have hkey : (e.1 == k) = true := by
      have hfound := List.find?_some he
      exact hfound
    rw [← eq_of_beq hkey]
    exact List.mem_of_find?_eq_some he
  · intro h
    exact get?_eq_some_of_mem h

theorem mem_keys_iff {m : OrderedMap κ ν} {k : κ} : k ∈ m.keys ↔ m.containsKey k = true := by
  rw [containsKey_iff]
  constructor
  · intro hk
    exact ⟨k, hk, beq_self_eq_true k⟩
  · rintro ⟨k', hk', heq⟩
    exact eq_of_beq heq ▸ hk'

/-- The order of the entries has no part in what is read. -/
theorem get?_eq_of_perm {m m' : OrderedMap κ ν} (h : m.entries.Perm m'.entries) : m.get? = m'.get? := by
  funext k
  ext v
  rw [get?_eq_some_iff, get?_eq_some_iff, h.mem_iff]

end remove

/-- The same keys, each with a new value. -/
def mapValues {ν' : Type*} (m : OrderedMap κ ν) (f : ν → ν') : OrderedMap κ ν' where
  entries := m.entries.map fun e => (e.1, f e.2)
  distinct := by
    rw [List.map_map]
    exact m.distinct

/-- The same keys, each with a new value that it has a part in. -/
def mapWithKey {ν' : Type*} (m : OrderedMap κ ν) (f : κ → ν → ν') : OrderedMap κ ν' where
  entries := m.entries.map fun e => (e.1, f e.1 e.2)
  distinct := by
    rw [List.map_map]
    exact m.distinct

theorem get?_mapWithKey [LawfulBEq κ] {ν' : Type*} (m : OrderedMap κ ν) (f : κ → ν → ν') (k : κ) :
    (m.mapWithKey f).get? k = (m.get? k).map (f k) := by
  have hkeys : ((fun e : κ × ν' => e.1 == k) ∘ fun e : κ × ν => (e.1, f e.1 e.2)) = fun e => e.1 == k := rfl
  simp only [get?, mapWithKey, List.find?_map, hkeys, Option.map_map]
  cases hfind : m.entries.find? fun e => e.1 == k with
  | none => rfl
  | some e =>
    have hkey := List.find?_some hfind
    rw [← eq_of_beq hkey]
    rfl

@[simp] theorem entries_mapValues {ν' : Type*} (m : OrderedMap κ ν) (f : ν → ν') :
    (m.mapValues f).entries = m.entries.map fun e => (e.1, f e.2) := rfl

@[simp] theorem get?_mapValues {ν' : Type*} (m : OrderedMap κ ν) (f : ν → ν') (k : κ) :
    (m.mapValues f).get? k = (m.get? k).map f := by
  simp only [get?, mapValues, List.find?_map, Option.map_map]
  rfl

end OrderedMap

/-- The order in which a hash map is iterated, any permutation of its entries. -/
structure HashOrder (κ ν : Type*) where
  iterate : List (κ × ν) → List (κ × ν)
  perm : ∀ entries, (iterate entries).Perm entries

/-- Of elements that exclude each other at most one is kept. -/
theorem filter_eq_find? {α : Type*} {p : α → Bool} {l : List α}
    (h : l.Pairwise fun a b => p a = true → p b = false) : l.filter p = (l.find? p).toList := by
  induction l with
  | nil => rfl
  | cons a l ih =>
    obtain ⟨hhead, hrest⟩ := List.pairwise_cons.mp h
    cases ha : p a with
    | true =>
      have hnone : l.filter p = [] := by
        simpa [List.filter_eq_nil_iff] using fun b hb => hhead b hb ha
      simp [ha, hnone]
    | false => simpa [ha] using ih hrest

/-- Whatever the order, a key comes up once or, if it is not there, never. -/
theorem HashOrder.filter_key {κ ν : Type*} [BEq κ] [EquivBEq κ] (order : HashOrder κ ν)
    (m : OrderedMap κ ν) (k : κ) :
    ((order.iterate m.entries).filter fun e => e.1 == k).map Prod.snd = (m.get? k).toList := by
  have hdistinct : m.entries.Pairwise fun a b => (a.1 == k) = true → (b.1 == k) = false := by
    refine (List.pairwise_map.mp m.distinct).imp fun {a b} hab ha => ?_
    by_contra hb
    have heq : (a.1 == b.1) = true := BEq.trans ha (BEq.symm (by simpa using hb))
    rw [hab] at heq
    cases heq
  have hperm := ((order.perm m.entries).filter fun e => e.1 == k).map Prod.snd
  rw [filter_eq_find? hdistinct] at hperm
  rw [OrderedMap.get?]
  cases hfind : m.entries.find? fun e => e.1 == k with
  | none =>
    rw [hfind] at hperm
    exact hperm.eq_nil
  | some e =>
    rw [hfind] at hperm
    exact List.perm_singleton.mp hperm

/-- Entries as they were put. -/
def HashOrder.insertion {κ ν : Type*} : HashOrder κ ν := ⟨id, fun _ => .refl _⟩

/-- Entries by the buckets of their keys, which depend on the number of
entries, and within a bucket as they were put. -/
def HashOrder.byBucket {κ ν : Type*} (bucket : Nat → κ → Nat) : HashOrder κ ν where
  iterate entries := entries.insertionSort fun a b =>
    bucket entries.length a.1 ≤ bucket entries.length b.1
  perm _ := List.perm_insertionSort _ _

/-- The keys come in an order in which their values have no part. -/
def HashOrder.OfKeys {κ ν : Type*} (order : HashOrder κ ν) : Prop :=
  ∀ entries entries' : List (κ × ν), entries.map Prod.fst = entries'.map Prod.fst →
    (order.iterate entries).map Prod.fst = (order.iterate entries').map Prod.fst

theorem HashOrder.byBucket_ofKeys {κ ν : Type*} (bucket : Nat → κ → Nat) :
    (byBucket bucket : HashOrder κ ν).OfKeys := by
  intro entries entries' hkeys
  have hsort : ∀ es : List (κ × ν), ((byBucket bucket).iterate es).map Prod.fst =
      (es.map Prod.fst).insertionSort fun a b => bucket (es.map Prod.fst).length a ≤
        bucket (es.map Prod.fst).length b := by
    intro es
    rw [List.length_map]
    exact List.map_insertionSort _ _ _ _ fun _ _ _ _ => Iff.rfl
  rw [hsort, hsort, hkeys]

theorem HashOrder.byBucket_eq_self_iff {κ ν : Type*} {bucket : Nat → κ → Nat}
    {entries : List (κ × ν)} : (byBucket bucket).iterate entries = entries ↔
      entries.Pairwise fun a b => bucket entries.length a.1 ≤ bucket entries.length b.1 := by
  let r : κ × ν → κ × ν → Prop := fun a b => bucket entries.length a.1 ≤ bucket entries.length b.1
  have : IsTrans (κ × ν) r := ⟨fun _ _ _ => Nat.le_trans⟩
  have : Std.Total r := ⟨fun _ _ => Nat.le_total _ _⟩
  constructor
  · intro heq
    have hsorted := List.pairwise_insertionSort r entries
    rwa [show entries.insertionSort r = entries from heq] at hsorted
  · exact List.Pairwise.insertionSort_eq (r := r)

end collections
