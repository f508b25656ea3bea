import Mathlib.Data.List.Sort
import Mathlib.Data.List.Nodup
import Mathlib.Order.Defs.LinearOrder

namespace paging

variable {α κ : Type*} [LinearOrder κ] {key : α → κ} {rows ordering ordering' : List α}

/-- An ordering of rows by descending keys. Rows with the same key come in any
order. -/
structure OrderedBy (key : α → κ) (rows ordering : List α) : Prop where
  perm : ordering.Perm rows
  descending : ordering.Pairwise fun a b => key b ≤ key a

/-- That many rows have the largest keys, and no other row has one of these keys. -/
def Boundary (key : α → κ) (rows : List α) (i : Nat) : Prop :=
  ∃ bound, rows.countP (fun row => bound ≤ key row) = i

theorem exists_orderedBy (key : α → κ) (rows : List α) : ∃ ordering, OrderedBy key rows ordering := by
  let r : α → α → Prop := fun a b => key b ≤ key a
  have : IsTrans α r := ⟨fun _ _ _ hab hbc => le_trans hbc hab⟩
  have : Std.Total r := ⟨fun _ _ => le_total _ _⟩
  exact ⟨rows.insertionSort r, List.perm_insertionSort r rows, List.pairwise_insertionSort r rows⟩

theorem OrderedBy.length_eq (h : OrderedBy key rows ordering) : ordering.length = rows.length :=
  h.perm.length_eq

/-- The rows with the largest keys come first. -/
theorem OrderedBy.take_countP (h : OrderedBy key rows ordering) (bound : κ) :
    ordering.take (rows.countP fun row => bound ≤ key row) = ordering.filter (bound ≤ key ·) := by
  rw [← h.perm.countP_eq]
  have hsorted := h.descending
  clear h
  induction ordering with
  | nil => rfl
  | cons row ordering ih =>
    obtain ⟨hrow, hrest⟩ := List.pairwise_cons.mp hsorted
    by_cases hbound : bound ≤ key row
    · simp [hbound, ih hrest]
    · have hnone : ∀ row' ∈ ordering, ¬ bound ≤ key row' := fun row' hrow' hle =>
        hbound (hle.trans (hrow row' hrow'))
      have hfilter : ordering.filter (bound ≤ key ·) = [] := by simpa using hnone
      rw [List.filter_cons, if_neg (by simpa using hbound), hfilter, List.countP_cons,
        List.countP_eq_length_filter, hfilter]
      simp [hbound]

/-- Up to a boundary all orderings have the same rows. -/
theorem OrderedBy.take_perm (h : OrderedBy key rows ordering) (h' : OrderedBy key rows ordering')
    {i : Nat} (hboundary : Boundary key rows i) : (ordering.take i).Perm (ordering'.take i) := by
  obtain ⟨bound, rfl⟩ := hboundary
  rw [h.take_countP, h'.take_countP]
  exact (h.perm.trans h'.perm.symm).filter _

/-- Where the key falls there is a boundary. -/
theorem boundary_of_key_lt {before after : List α} {a b : α}
    (h : OrderedBy key rows (before ++ a :: b :: after)) (hlt : key b < key a) :
    Boundary key rows (before.length + 1) := by
  obtain ⟨hperm, hsorted⟩ := h
  rw [List.pairwise_append] at hsorted
  obtain ⟨-, htail, hacross⟩ := hsorted
  obtain ⟨-, htail⟩ := List.pairwise_cons.mp htail
  obtain ⟨hafter, -⟩ := List.pairwise_cons.mp htail
  have hbefore : before.countP (fun row => key a ≤ key row) = before.length :=
    List.countP_eq_length.mpr fun row hrow => by simpa using hacross row hrow a List.mem_cons_self
  have hnone : after.countP (fun row => key a ≤ key row) = 0 :=
    List.countP_eq_zero.mpr fun row hrow => by simpa using (hafter row hrow).trans_lt hlt
  exact ⟨key a, by rw [← hperm.countP_eq]; simp [hbefore, hnone, not_le.mpr hlt]⟩

/-- Where there is no boundary two rows can change places. -/
theorem OrderedBy.swap {before after : List α} {a b : α}
    (h : OrderedBy key rows (before ++ a :: b :: after))
    (hboundary : ¬ Boundary key rows (before.length + 1)) :
    OrderedBy key rows (before ++ b :: a :: after) := by
  have hle : key b ≤ key a := by
    have hsorted := (List.pairwise_append.mp h.descending).2.1
    exact (List.pairwise_cons.mp hsorted).1 b List.mem_cons_self
  have hkey : key b = key a := le_antisymm hle (not_lt.mp fun hlt => hboundary (boundary_of_key_lt h hlt))
  refine ⟨(List.Perm.append_left before (List.Perm.swap a b after)).trans h.perm, ?_⟩
  have hsorted := h.descending
  rw [← List.pairwise_map (f := key) (R := fun x y => y ≤ x)] at hsorted ⊢
  simpa [hkey] using hsorted

/-- Slices of one size, each of an ordering of its own, are the rows of any
ordering when no two rows of one key are on both sides of a cut. -/
theorem OrderedBy.perm_flatMap_slices (h : OrderedBy key rows ordering) {orderings : Nat → List α}
    (horderings : ∀ k, OrderedBy key rows (orderings k)) {size : Nat}
    (hboundary : ∀ k, 1 ≤ k → size * k < rows.length → Boundary key rows (size * k)) (n : Nat) :
    ((List.range n).flatMap fun k => ((orderings k).drop (size * k)).take size).Perm
      (ordering.take (size * n)) := by
  have hsame : ∀ {other}, OrderedBy key rows other → ∀ k,
      (ordering.take (size * k)).Perm (other.take (size * k)) := by
    intro other hother k
    rcases Nat.eq_zero_or_pos k with rfl | hk
    · simp
    · rcases lt_or_ge (size * k) rows.length with hlt | hge
      · exact h.take_perm hother (hboundary k hk hlt)
      · rw [List.take_of_length_le (h.length_eq.trans_le hge),
          List.take_of_length_le (hother.length_eq.trans_le hge)]
        exact h.perm.trans hother.perm.symm
  induction n with
  | zero => simp
  | succ n ih =>
    rw [List.range_succ, List.flatMap_append, List.flatMap_singleton]
    have hslice : (orderings n).take (size * n) ++ ((orderings n).drop (size * n)).take size =
        (orderings n).take (size * (n + 1)) := by
      rw [Nat.mul_succ, List.take_add]
    have hnext := (hsame (horderings n) n).append_right (((orderings n).drop (size * n)).take size)
    rw [hslice] at hnext
    exact (ih.append_right _).trans (hnext.trans (hsame (horderings n) (n + 1)).symm)

/-- Slices of one size, one after the other. -/
theorem flatMap_slices (l : List α) (size n : Nat) :
    ((List.range n).flatMap fun k => (l.drop (size * k)).take size) = l.take (size * n) := by
  induction n with
  | zero => rfl
  | succ n ih =>
    rw [List.range_succ, List.flatMap_append, List.flatMap_singleton, ih, Nat.mul_succ, List.take_add]

/-- The two elements on both sides of a cut. -/
theorem exists_split {l : List α} {i : Nat} (h : i + 1 < l.length) :
    ∃ before a b after, l = before ++ a :: b :: after ∧ before.length = i := by
  refine ⟨l.take i, l[i], l[i + 1], l.drop (i + 1 + 1), ?_, ?_⟩
  · rw [← List.drop_eq_getElem_cons h, ← List.drop_eq_getElem_cons, List.take_append_drop]
  · rw [List.length_take]
    omega

theorem mem_slice {l : List α} {first size : Nat} {a : α} (offset : Nat) (hoffset : offset < size)
    (ha : l[first + offset]? = some a) : a ∈ (l.drop first).take size := by
  refine List.mem_of_getElem? (i := offset) ?_
  rw [List.getElem?_take_of_lt hoffset, List.getElem?_drop, ha]

/-- No element of a list without duplicates is on two of the pages it consists of. -/
theorem not_nodup_flatten {pages : List (List α)} {i j : Nat} (hij : i < j) (hj : j < pages.length) {a : α}
    (hi : a ∈ pages[i]) (hmem : a ∈ pages[j]) : ¬ pages.flatten.Nodup := by
  intro hnodup
  have hdisjoint := List.pairwise_iff_getElem.mp (List.nodup_flatten.mp hnodup).2
  exact hdisjoint i j (hij.trans hj) hj hij hi hmem

end paging
