import DrElephant.Library.OrderedMap

namespace collections

/-- A map that is a part of a state. -/
structure MapField (σ κ ν : Type*) [BEq κ] where
  get : σ → OrderedMap κ ν
  set : σ → OrderedMap κ ν → σ
  get_set : ∀ s m, get (set s m) = m
  set_get : ∀ s, set s (get s) = s
  set_set : ∀ s m m', set (set s m) m' = set s m'

namespace MapField

variable {σ κ ν : Type*} [BEq κ]

/-- Walks the keys of a map and removes those that a view does not contain. The
view reads the state as it is by then. -/
def retainAll (field : MapField σ κ ν) (view : σ → κ → Bool) (s : σ) (keys : List κ) : σ :=
  keys.foldl (fun s k => if view s k then s else field.set s ((field.get s).remove k)) s

/-- A view that reads of the map only whether the key it is asked for is there. -/
def Reads (field : MapField σ κ ν) (view : σ → κ → Bool) : Prop :=
  ∀ s m k, m.containsKey k = (field.get s).containsKey k → view (field.set s m) k = view s k

/-- A view that contains no key but those of the map. -/
def Within (field : MapField σ κ ν) (view : σ → κ → Bool) : Prop :=
  ∀ s k, view s k = true → (field.get s).containsKey k = true

variable [LawfulBEq κ]

private theorem retainAll_keys {field : MapField σ κ ν} {view : σ → κ → Bool} (h : field.Reads view)
    (s : σ) (keys : List κ) : field.retainAll view s keys =
      field.set s ((field.get s).filterKeys fun k => view s k || !keys.contains k) := by
  induction keys generalizing s with
  | nil => simp [retainAll, OrderedMap.filterKeys_true, field.set_get]
  | cons k keys ih =>
    rw [retainAll, List.foldl_cons, ← retainAll, ih]
    cases hview : view s k with
    | true =>
      rw [if_pos rfl]
      congr 2
      funext k'
      by_cases hk : k' = k <;> simp [hk, hview]
    | false =>
      rw [if_neg Bool.false_ne_true, field.set_set, field.get_set, OrderedMap.remove,
        OrderedMap.filterKeys_filterKeys]
      congr 2
      funext k'
      by_cases hk : k' = k
      · simp [hk, hview]
      · have hsame : view (field.set s ((field.get s).remove k)) k' = view s k' :=
          h s _ k' (OrderedMap.containsKey_remove_of_ne _ hk)
        rw [OrderedMap.remove] at hsame
        simp [hk, hsame]

/-- What is retained is what the view contained at the beginning, in whatever
order the keys are walked. -/
theorem retainAll_eq {field : MapField σ κ ν} {view : σ → κ → Bool} (h : field.Reads view) {s : σ}
    {keys : List κ} (hkeys : ∀ k ∈ (field.get s).keys, k ∈ keys) :
    field.retainAll view s keys = field.set s ((field.get s).filterKeys (view s)) := by
  rw [retainAll_keys h, OrderedMap.filterKeys_congr fun k hk => ?_]
  simp [hkeys k hk]

/-- The view does not change when the keys that it does not contain are removed. -/
theorem view_filterKeys {field : MapField σ κ ν} {view : σ → κ → Bool} (h : field.Reads view)
    (hwithin : field.Within view) (s : σ) :
    view (field.set s ((field.get s).filterKeys (view s))) = view s := by
  funext k
  have hcontains := OrderedMap.containsKey_filterKeys (field.get s) (view s) k
  cases hview : view s k with
  | true =>
    rw [hview, Bool.and_true] at hcontains
    rw [h s _ k hcontains, hview]
  | false =>
    rw [hview, Bool.and_false] at hcontains
    by_contra hnew
    have hkey := hwithin _ k (by simpa using hnew)
    rw [field.get_set, hcontains] at hkey
    cases hkey

end MapField

end collections
