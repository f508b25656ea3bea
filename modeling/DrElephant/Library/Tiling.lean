import Mathlib

namespace cursor

variable {α : Type*} [LinearOrder α]

/-- A list of sets that cut an interval into pieces: no two of them meet, and
together they are exactly the elements above `lo` and up to `hi`. -/
structure Tiles (pieces : List (Set α)) (lo hi : α) : Prop where
  disjoint : pieces.Pairwise Disjoint
  union : (⋃ piece ∈ pieces, piece) = Set.Ioc lo hi

theorem Tiles.nil (lo : α) : Tiles ([] : List (Set α)) lo lo := ⟨List.Pairwise.nil, by simp⟩

theorem Tiles.subset {pieces : List (Set α)} {lo hi : α} (h : Tiles pieces lo hi)
    {piece : Set α} (hpiece : piece ∈ pieces) : piece ⊆ Set.Ioc lo hi := by
  rw [← h.union]
  exact Set.subset_biUnion_of_mem (u := fun piece => piece) hpiece

/-- A cursor that only moves forward extends the tiling by the stretch it
moved over, which may be empty. -/
theorem Tiles.advance {pieces : List (Set α)} {lo mid hi : α} (h : Tiles pieces lo mid)
    (hlo : lo ≤ mid) (hhi : mid ≤ hi) : Tiles (pieces ++ [Set.Ioc mid hi]) lo hi := by
  constructor
  · refine List.pairwise_append.mpr ⟨h.disjoint, List.pairwise_singleton _ _, ?_⟩
    intro piece hpiece last hlast
    obtain rfl := List.mem_singleton.mp hlast
    exact (Set.Ioc_disjoint_Ioc_of_le le_rfl).mono_left (h.subset hpiece)
  · have hsnoc : (⋃ piece ∈ pieces ++ [Set.Ioc mid hi], piece) =
        (⋃ piece ∈ pieces, piece) ∪ Set.Ioc mid hi := by
      ext x
      simp only [List.mem_append, List.mem_singleton, Set.mem_iUnion, Set.mem_union]
      grind
    rw [hsnoc, h.union, Set.Ioc_union_Ioc_eq_Ioc hlo hhi]

end cursor
