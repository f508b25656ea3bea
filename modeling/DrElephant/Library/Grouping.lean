import Mathlib.Data.List.Induction
import Mathlib.Data.List.Nodup
import DrElephant.Library.OrderedMap

namespace collections

variable {α κ : Type*} [DecidableEq κ]

/-- The keys of a list in the order of their first occurrence, each with the
elements carrying it in their original order. -/
def group (key : α → κ) (l : List α) : List (κ × List α) :=
  (l.map key).eraseDups.map fun k => (k, l.filter fun a => key a == k)

@[simp] theorem group_nil (key : α → κ) : group key [] = [] := rfl

@[simp] theorem map_fst_group (key : α → κ) (l : List α) :
    (group key l).map Prod.fst = (l.map key).eraseDups := by
  simp [group, Function.comp_def]

/-- The elements that do not share the head's key are grouped on their own. -/
theorem group_cons (key : α → κ) (a : α) (l : List α) :
    group key (a :: l) =
      (key a, a :: l.filter fun b => key b == key a) ::
        group key (l.filter fun b => !(key b == key a)) := by
  have hkeys : (l.map key).filter (fun k => !k == key a) =
      (l.filter fun b => !(key b == key a)).map key := by
    rw [List.filter_map]
    rfl
  simp only [group, List.map_cons, List.eraseDups_cons, hkeys, List.filter_cons, BEq.rfl, if_true]
  congr 1
  apply List.map_congr_left
  intro k hk
  -- Another key's elements are found among those that do not carry the head's key.
  have hne : k ≠ key a := by
    obtain ⟨b, hb, rfl⟩ := List.mem_map.mp (List.mem_eraseDups.mp hk)
    simpa using (List.mem_filter.mp hb).2
  have hhead : (key a == k) = false := by simpa using hne.symm
  rw [hhead, if_neg Bool.false_ne_true, List.filter_filter]
  congr 1
  apply List.filter_congr
  intro b _
  by_cases hb : key b = k
  · simp [hb, hne]
  · simp [hb]

/-- Grouping is an induction over lists: a property of the empty list that
passes from the elements not sharing the head's key to the whole list. -/
theorem group_induction (key : α → κ) {motive : List α → Prop} (nil : motive [])
    (cons : ∀ a l, motive (l.filter fun b => !(key b == key a)) → motive (a :: l)) :
    ∀ l, motive l
  | [] => nil
  | a :: l => cons a l (group_induction key nil cons _)
termination_by l => l.length
decreasing_by
  exact Nat.lt_succ_of_le (List.length_filter_le _ _)

theorem nodup_eraseDups (l : List κ) : l.eraseDups.Nodup := by
  induction l using group_induction (id : κ → κ) with
  | nil => simp
  | cons a l ih =>
    rw [List.eraseDups_cons, List.nodup_cons]
    refine ⟨?_, ih⟩
    simp [List.mem_eraseDups]

theorem mem_keys_group {key : α → κ} {l : List α} {k : κ} :
    k ∈ (group key l).map Prod.fst ↔ k ∈ l.map key := by
  rw [map_fst_group, List.mem_eraseDups]

theorem nodup_group (key : α → κ) (l : List α) : ((group key l).map Prod.fst).Nodup := by
  rw [map_fst_group]
  exact nodup_eraseDups _

theorem mem_group_iff {key : α → κ} {l : List α} {g : κ × List α} :
    g ∈ group key l ↔ g.1 ∈ l.map key ∧ g.2 = l.filter fun a => key a == g.1 := by
  obtain ⟨k, as⟩ := g
  simp only [group, List.mem_map, List.mem_eraseDups, Prod.mk.injEq]
  constructor
  · rintro ⟨k', hk', rfl, rfl⟩
    exact ⟨hk', rfl⟩
  · rintro ⟨hk, rfl⟩
    exact ⟨k, hk, rfl, rfl⟩

theorem group_ne_nil {key : α → κ} {l : List α} {g : κ × List α} (hg : g ∈ group key l) :
    g.2 ≠ [] := by
  obtain ⟨hkey, hrows⟩ := mem_group_iff.mp hg
  obtain ⟨a, ha, hak⟩ := List.mem_map.mp hkey
  rw [hrows]
  exact List.ne_nil_of_mem (List.mem_filter.mpr ⟨ha, by simp [hak]⟩)

theorem eraseDups_concat (l : List κ) (k : κ) :
    (l ++ [k]).eraseDups = if k ∈ l then l.eraseDups else l.eraseDups ++ [k] := by
  rw [List.eraseDups_append]
  by_cases hk : k ∈ l <;> simp [hk, List.removeAll, List.eraseDups_cons]

/-- One more element joins the group of its key, or opens the last group. -/
theorem group_concat (key : α → κ) (l : List α) (a : α) :
    group key (l ++ [a]) =
      if key a ∈ l.map key then
        (group key l).map fun g => if g.1 == key a then (g.1, g.2 ++ [a]) else g
      else group key l ++ [(key a, [a])] := by
  simp only [group, List.map_append, List.map_cons, List.map_nil, eraseDups_concat]
  split
  · rw [List.map_map]
    apply List.map_congr_left
    intro k _
    by_cases hk : key a = k
    · subst hk
      simp [List.filter_append]
    · have hk' : k ≠ key a := fun h => hk h.symm
      simp [List.filter_append, hk, hk']
  · rename_i hnew
    have hempty : l.filter (fun b => key b == key a) = [] := by
      simp only [List.filter_eq_nil_iff, beq_iff_eq]
      exact fun b hb h => hnew (h ▸ List.mem_map_of_mem hb)
    rw [List.map_append]
    congr 1
    · apply List.map_congr_left
      intro k hk
      have hne : key a ≠ k := fun h => hnew (h ▸ List.mem_eraseDups.mp hk)
      simp [List.filter_append, hne]
    · simp [List.filter_append, hempty]

/-- All groups together are the list. -/
theorem flatMap_group_perm (key : α → κ) (l : List α) : ((group key l).flatMap Prod.snd).Perm l := by
  induction l using group_induction key with
  | nil => exact .refl _
  | cons a l ih =>
    rw [group_cons, List.flatMap_cons, List.cons_append]
    exact ((ih.append_left _).trans (List.filter_append_perm (fun b => key b == key a) l)).cons a

/-- A group is its only group. -/
theorem group_of_mem {key : α → κ} {l : List α} {g : κ × List α} (hg : g ∈ group key l) :
    group key g.2 = [g] := by
  have hkeys : ∀ a ∈ g.2, key a = g.1 := by
    intro a ha
    rw [(mem_group_iff.mp hg).2] at ha
    exact eq_of_beq (List.mem_filter.mp ha).2
  have hne := group_ne_nil hg
  obtain ⟨k, as⟩ := g
  obtain ⟨a, rest, rfl⟩ := List.exists_cons_of_ne_nil hne
  obtain ⟨rfl, hrest⟩ := List.forall_mem_cons.mp hkeys
  have hsame : rest.filter (fun b => key b == key a) = rest :=
    List.filter_eq_self.mpr fun b hb => beq_iff_eq.mpr (hrest b hb)
  have hother : rest.filter (fun b => !(key b == key a)) = [] :=
    List.filter_eq_nil_iff.mpr fun b hb => by simp [hrest b hb]
  rw [group_cons, hsame, hother, group_nil]

/-- In a sorted list the first element of a group is related to every element
of the groups behind it. -/
theorem pairwise_group (key : α → κ) {r : α → α → Prop} {l : List α} (hl : l.Pairwise r) :
    (group key l).Pairwise fun g g' => ∀ a ∈ g.2.head?, ∀ b ∈ g'.2, r a b := by
  induction l using group_induction key with
  | nil => simp
  | cons a l ih =>
    rw [List.pairwise_cons] at hl
    rw [group_cons, List.pairwise_cons]
    refine ⟨?_, ih (hl.2.sublist List.filter_sublist)⟩
    intro g hg b hb c hc
    obtain rfl : a = b := by simpa using hb
    rw [(mem_group_iff.mp hg).2] at hc
    exact hl.1 c (List.mem_of_mem_filter (List.mem_of_mem_filter hc))

section eraseDups

theorem eraseDups_filter (p : κ → Bool) (l : List κ) :
    (l.filter p).eraseDups = l.eraseDups.filter p := by
  induction l using group_induction (id : κ → κ) with
  | nil => rfl
  | cons a l ih =>
    simp only [id_eq] at ih
    have hswap : ∀ q : κ → Bool, (l.filter p).filter q = (l.filter q).filter p := by
      intro q
      simp only [List.filter_filter, Bool.and_comm]
    rw [List.eraseDups_cons]
    cases ha : p a with
    | true =>
      rw [List.filter_cons_of_pos ha, List.filter_cons_of_pos ha, List.eraseDups_cons, hswap, ih]
    | false =>
      have hdropped : (l.filter fun b => !b == a).filter p = l.filter p := by
        rw [List.filter_filter]
        apply List.filter_congr
        intro b _
        by_cases hb : b = a <;> simp [hb, ha]
      rw [List.filter_cons_of_neg (by simp [ha]), List.filter_cons_of_neg (by simp [ha]), ← ih, hdropped]

theorem eraseDups_eraseDups (l : List κ) : l.eraseDups.eraseDups = l.eraseDups := by
  induction l using group_induction (id : κ → κ) with
  | nil => rfl
  | cons a l ih =>
    simp only [id_eq] at ih
    rw [List.eraseDups_cons, List.eraseDups_cons, eraseDups_filter, ih, ← eraseDups_filter,
      List.filter_filter]
    simp

end eraseDups

section firstOccurrences

/-- The elements of a list in the order of their first occurrence. -/
def firstOccurrences (l : List κ) : List κ := l.eraseDups

theorem mem_firstOccurrences {l : List κ} {k : κ} : k ∈ firstOccurrences l ↔ k ∈ l :=
  List.mem_eraseDups

theorem nodup_firstOccurrences (l : List κ) : (firstOccurrences l).Nodup := nodup_eraseDups l

/-- What occurs first comes first. -/
theorem firstOccurrences_pairwise [BEq κ] [LawfulBEq κ] (l : List κ) :
    (firstOccurrences l).Pairwise fun k k' => l.idxOf k < l.idxOf k' := by
  induction l using List.reverseRecOn with
  | nil => exact List.Pairwise.nil
  | append_singleton l k ih =>
    have hkept : (firstOccurrences l).Pairwise fun a b => (l ++ [k]).idxOf a < (l ++ [k]).idxOf b := by
      refine ih.imp_of_mem fun {a b} ha hb hab => ?_
      rwa [List.idxOf_append_of_mem (mem_firstOccurrences.mp ha),
        List.idxOf_append_of_mem (mem_firstOccurrences.mp hb)]
    rw [firstOccurrences, eraseDups_concat]
    split
    · exact hkept
    · rename_i hnew
      refine List.pairwise_append.mpr ⟨hkept, List.pairwise_singleton _ _, fun a ha b hb => ?_⟩
      obtain rfl := List.mem_singleton.mp hb
      have hmem := mem_firstOccurrences.mp ha
      rw [List.idxOf_append_of_mem hmem, List.idxOf_append_of_notMem hnew]
      exact (List.idxOf_lt_length_of_mem hmem).trans_le (Nat.le_add_right _ _)

theorem keys_group (key : α → κ) (l : List α) :
    (group key l).map Prod.fst = firstOccurrences (l.map key) :=
  map_fst_group key l

/-- Duplicates within the parts of a list can be dropped first. -/
theorem firstOccurrences_flatMap (f : α → List κ) (l : List α) :
    firstOccurrences (l.flatMap fun a => firstOccurrences (f a)) = firstOccurrences (l.flatMap f) := by
  simp only [firstOccurrences]
  induction l with
  | nil => rfl
  | cons a l ih =>
    simp only [List.flatMap_cons, List.eraseDups_append, eraseDups_eraseDups, List.removeAll,
      eraseDups_filter, ih, List.elem_eq_mem, List.mem_eraseDups]

/-- A map that tells the elements apart keeps their first occurrences. -/
theorem firstOccurrences_map {f : α → κ} [DecidableEq α] {l : List α}
    (hf : ∀ a ∈ l, ∀ b ∈ l, f a = f b → a = b) :
    firstOccurrences (l.map f) = (firstOccurrences l).map f := by
  simp only [firstOccurrences]
  induction l using group_induction (id : α → α) with
  | nil => rfl
  | cons a l ih =>
    simp only [id_eq] at ih
    have hrest : (l.map f).filter (fun k => !k == f a) = (l.filter fun b => !b == a).map f := by
      rw [List.filter_map]
      congr 1
      apply List.filter_congr
      intro b hb
      by_cases hba : b = a
      · simp [hba]
      · have hne : f b ≠ f a := fun h => hba (hf b (.tail _ hb) a (.head _) h)
        simp [hba, hne]
    rw [List.map_cons, List.eraseDups_cons, List.eraseDups_cons, hrest, List.map_cons, ih]
    intro b hb c hc
    exact hf b (.tail _ (List.mem_of_mem_filter hb)) c (.tail _ (List.mem_of_mem_filter hc))

/-- Where no two keys share a value, the values that occur are those that a
function gives to the keys exactly if each key occurs with its own value only. -/
theorem map_firstOccurrences_eq_iff [DecidableEq α] {pairs : List (α × κ)} {f : α → κ}
    (hinj : ∀ p ∈ pairs, ∀ q ∈ pairs, p.2 = q.2 → p.1 = q.1) (hf : ∀ p ∈ pairs, (p.1, f p.1) ∈ pairs) :
    (firstOccurrences (pairs.map Prod.fst)).map f = firstOccurrences (pairs.map Prod.snd) ↔
      ∀ p ∈ pairs, p.2 = f p.1 := by
  constructor
  · intro heq p hp
    have hvalue : p.2 ∈ (firstOccurrences (pairs.map Prod.fst)).map f := by
      rw [heq, mem_firstOccurrences]
      exact List.mem_map_of_mem hp
    obtain ⟨key, hkey, hgiven⟩ := List.mem_map.mp hvalue
    obtain ⟨q, hq, rfl⟩ := List.mem_map.mp (mem_firstOccurrences.mp hkey)
    have hsame : q.1 = p.1 := hinj _ (hf q hq) p hp hgiven
    rw [← hgiven, hsame]
  · intro hown
    have hvalues : pairs.map Prod.snd = (pairs.map Prod.fst).map f := by
      rw [List.map_map]
      exact List.map_congr_left hown
    have hkeys : ∀ a ∈ pairs.map Prod.fst, ∀ b ∈ pairs.map Prod.fst, f a = f b → a = b := by
      intro a ha b hb heq
      obtain ⟨p, hp, rfl⟩ := List.mem_map.mp ha
      obtain ⟨q, hq, rfl⟩ := List.mem_map.mp hb
      exact hinj p hp q hq ((hown p hp).trans (heq.trans (hown q hq).symm))
    rw [hvalues, firstOccurrences_map hkeys]

/-- A loop that appends what it has not seen yet keeps first occurrences. -/
theorem foldl_append_new {push : List κ → κ → List κ} (hold : ∀ seen, ∀ k ∈ seen, push seen k = seen)
    (hnew : ∀ seen, ∀ k ∉ seen, push seen k = seen ++ [k]) (l : List κ) :
    l.foldl push [] = firstOccurrences l := by
  simp only [firstOccurrences]
  induction l using List.reverseRecOn with
  | nil => rfl
  | append_singleton l k ih =>
    rw [List.foldl_append, ih, List.foldl_cons, List.foldl_nil, eraseDups_concat]
    split
    · rename_i hk
      exact hold _ k (List.mem_eraseDups.mpr hk)
    · rename_i hk
      exact hnew _ k fun hmem => hk (List.mem_eraseDups.mp hmem)

end firstOccurrences

/-- A list is known by what tells its elements apart. -/
theorem eq_of_map_eq {β : Type*} {f : α → β} {l l' : List α} (hnodup : (l'.map f).Nodup)
    (hsub : ∀ a ∈ l, a ∈ l') (h : l.map f = l'.map f) : l = l' := by
  have hlength : l.length = l'.length := by simpa using congrArg List.length h
  refine List.ext_getElem hlength fun i hi hi' => ?_
  have hmap : f l[i] = f l'[i] := by
    have hget := List.getElem_of_eq h (by simpa using hi : i < (l.map f).length)
    simpa using hget
  exact List.inj_on_of_nodup_map hnodup (hsub _ (List.getElem_mem hi)) (List.getElem_mem hi') hmap

end collections
