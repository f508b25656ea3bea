import Mathlib.Data.List.Basic
import Mathlib.Order.Basic

namespace collections

/-- A set kept in the order of a comparator. Elements that compare equal are
one element to the set, and the one that came first stays. -/
structure TreeSet (α : Type*) (cmp : α → α → Ordering) where
  elements : List α
  sorted : elements.Pairwise fun a b => cmp a b = .lt

namespace TreeSet

variable {α : Type*} {cmp : α → α → Ordering}

def empty : TreeSet α cmp := ⟨[], List.Pairwise.nil⟩

def contains (t : TreeSet α cmp) (a : α) : Bool := t.elements.any fun b => cmp a b == .eq

/-- Walks past the smaller elements and stops at the first that is not. -/
def insertElement (cmp : α → α → Ordering) (a : α) : List α → List α
  | [] => [a]
  | b :: bs =>
    match cmp a b with
    | .lt => a :: b :: bs
    | .eq => b :: bs
    | .gt => b :: insertElement cmp a bs

theorem mem_insertElement {a x : α} {bs : List α} (h : x ∈ insertElement cmp a bs) :
    x = a ∨ x ∈ bs := by
  induction bs with
  | nil => simpa [insertElement] using h
  | cons b bs ih =>
    simp only [insertElement] at h
    split at h
    · exact List.mem_cons.mp h
    · exact Or.inr h
    · rcases List.mem_cons.mp h with rfl | h
      · exact Or.inr (List.mem_cons_self ..)
      · exact (ih h).imp_right (List.mem_cons_of_mem _)

section lawful

variable [Std.TransCmp cmp]

private theorem insertElement_sorted (a : α) {bs : List α}
    (hbs : bs.Pairwise fun a b => cmp a b = .lt) :
    (insertElement cmp a bs).Pairwise fun a b => cmp a b = .lt := by
  induction bs with
  | nil => simp [insertElement]
  | cons b bs ih =>
    obtain ⟨hhead, htail⟩ := List.pairwise_cons.mp hbs
    simp only [insertElement]
    split
    · rename_i hlt
      refine List.pairwise_cons.mpr ⟨?_, hbs⟩
      intro c hc
      rcases List.mem_cons.mp hc with rfl | hc
      · exact hlt
      · exact Std.TransCmp.lt_trans hlt (hhead c hc)
    · exact hbs
    · rename_i hgt
      refine List.pairwise_cons.mpr ⟨?_, ih htail⟩
      intro c hc
      rcases mem_insertElement hc with rfl | hc
      · exact Std.OrientedCmp.lt_of_gt hgt
      · exact hhead c hc

def insert (t : TreeSet α cmp) (a : α) : TreeSet α cmp :=
  ⟨insertElement cmp a t.elements, insertElement_sorted a t.sorted⟩

def insertAll (t : TreeSet α cmp) (as : List α) : TreeSet α cmp := as.foldl insert t

private theorem any_insertElement (a x : α) (bs : List α) :
    (insertElement cmp a bs).any (fun b => cmp x b == .eq) =
      (cmp x a == .eq || bs.any fun b => cmp x b == .eq) := by
  induction bs with
  | nil => simp [insertElement]
  | cons b bs ih =>
    simp only [insertElement]
    split
    · simp
    · rename_i heq
      have hsame : cmp x a = cmp x b := Std.TransCmp.congr_right heq
      simp [hsame]
    · rw [List.any_cons, ih, List.any_cons]
      cases cmp x a == .eq <;> cases cmp x b == .eq <;> rfl

theorem contains_insert (t : TreeSet α cmp) (a x : α) :
    (t.insert a).contains x = (cmp x a == .eq || t.contains x) :=
  any_insertElement a x t.elements

theorem contains_insertAll (t : TreeSet α cmp) (as : List α) (x : α) :
    (t.insertAll as).contains x = (t.contains x || as.any fun a => cmp x a == .eq) := by
  induction as generalizing t with
  | nil => simp [insertAll]
  | cons a as ih =>
    rw [insertAll, List.foldl_cons, ← insertAll, ih, contains_insert, List.any_cons]
    cases t.contains x <;> cases cmp x a == .eq <;> rfl

theorem mem_insertAll {t : TreeSet α cmp} {as : List α} {x : α}
    (h : x ∈ (t.insertAll as).elements) : x ∈ t.elements ∨ x ∈ as := by
  induction as generalizing t with
  | nil => exact Or.inl h
  | cons a as ih =>
    rcases ih h with h | h
    · rcases mem_insertElement h with rfl | h
      · exact Or.inr (List.mem_cons_self ..)
      · exact Or.inl h
    · exact Or.inr (List.mem_cons_of_mem _ h)

/-- A tree set built from a list contains what compares equal to an element of it. -/
theorem contains_ofList_iff {as : List α} {x : α} :
    ((empty : TreeSet α cmp).insertAll as).contains x = true ↔ ∃ a ∈ as, cmp x a = .eq := by
  rw [contains_insertAll]
  simp [contains, empty]

end lawful

end TreeSet

/-- A set seen through its iteration and its membership test, which lazy views
combine without copying and which need not agree on equality. -/
structure SetView (α : Type*) where
  elements : List α
  contains : α → Bool

namespace SetView

variable {α : Type*}

def ofTreeSet {cmp : α → α → Ordering} (t : TreeSet α cmp) : SetView α := ⟨t.elements, t.contains⟩

/-- Iterates the first set past the second one's membership test. -/
def intersection (s t : SetView α) : SetView α :=
  ⟨s.elements.filter t.contains, fun a => s.contains a && t.contains a⟩

/-- Iterates the first set, then what the second adds to it. -/
def union (s t : SetView α) : SetView α :=
  ⟨s.elements ++ t.elements.filter fun a => !s.contains a, fun a => s.contains a || t.contains a⟩

/-- The elements are different to a comparator, and the membership test finds
what compares equal to one of them. -/
structure Lawful (cmp : α → α → Ordering) (s : SetView α) : Prop where
  distinct : s.elements.Pairwise fun a b => cmp a b ≠ .eq
  contains_iff : ∀ a, s.contains a = true ↔ ∃ b ∈ s.elements, cmp a b = .eq

theorem lawful_ofTreeSet {cmp : α → α → Ordering} (t : TreeSet α cmp) : (ofTreeSet t).Lawful cmp where
  distinct := t.sorted.imp fun hlt heq => by simp [heq] at hlt
  contains_iff a := by simp [ofTreeSet, TreeSet.contains]

namespace Lawful

variable {cmp : α → α → Ordering} [Std.TransCmp cmp] {s t : SetView α}

theorem contains_congr (hs : s.Lawful cmp) {a b : α} (hab : cmp a b = .eq) :
    s.contains a = s.contains b := by
  rw [Bool.eq_iff_iff, hs.contains_iff, hs.contains_iff]
  simp only [Std.TransCmp.congr_left hab]

theorem contains_of_mem (hs : s.Lawful cmp) {a : α} (ha : a ∈ s.elements) : s.contains a = true :=
  (hs.contains_iff a).mpr ⟨a, ha, Std.ReflCmp.compare_self⟩

theorem intersection (hs : s.Lawful cmp) (ht : t.Lawful cmp) : (s.intersection t).Lawful cmp where
  distinct := hs.distinct.sublist List.filter_sublist
  contains_iff a := by
    simp only [SetView.intersection, Bool.and_eq_true, List.mem_filter]
    rw [hs.contains_iff]
    constructor
    · rintro ⟨⟨b, hb, hab⟩, hcontains⟩
      exact ⟨b, ⟨hb, ht.contains_congr hab ▸ hcontains⟩, hab⟩
    · rintro ⟨b, ⟨hb, hcontains⟩, hab⟩
      exact ⟨⟨b, hb, hab⟩, (ht.contains_congr hab).trans hcontains⟩

theorem union (hs : s.Lawful cmp) (ht : t.Lawful cmp) : (s.union t).Lawful cmp where
  distinct := by
    refine List.pairwise_append.mpr
      ⟨hs.distinct, ht.distinct.sublist List.filter_sublist, fun a ha b hb hab => ?_⟩
    have hnew := (List.mem_filter.mp hb).2
    rw [← hs.contains_congr hab, hs.contains_of_mem ha] at hnew
    cases hnew
  contains_iff a := by
    simp only [SetView.union, Bool.or_eq_true, List.mem_append, List.mem_filter, Bool.not_eq_true']
    rw [hs.contains_iff, ht.contains_iff]
    constructor
    · rintro (⟨b, hb, hab⟩ | ⟨b, hb, hab⟩)
      · exact ⟨b, .inl hb, hab⟩
      · -- What the second set adds is iterated only where the first does not contain it.
        cases hold : s.contains b with
        | false => exact ⟨b, .inr ⟨hb, hold⟩, hab⟩
        | true =>
          obtain ⟨c, hc, hbc⟩ := (hs.contains_iff b).mp hold
          exact ⟨c, .inl hc, Std.TransCmp.eq_trans hab hbc⟩
    · rintro ⟨b, hb | ⟨hb, -⟩, hab⟩
      · exact .inl ⟨b, hb, hab⟩
      · exact .inr ⟨b, hb, hab⟩

/-- Joining what is common first visits it first, then the rest of the first
set, then the rest of the second. -/
theorem elements_common_first (hs : s.Lawful cmp) (t : SetView α) :
    (((s.intersection t).union s).union t).elements =
      s.elements.filter t.contains ++ s.elements.filter (fun a => !t.contains a) ++
        t.elements.filter fun a => !s.contains a := by
  simp only [SetView.union, SetView.intersection]
  congr 1
  · congr 1
    apply List.filter_congr
    intro a ha
    rw [hs.contains_of_mem ha, Bool.true_and]
  · apply List.filter_congr
    intro a _
    have habsorb : ∀ b c : Bool, ((b && c) || b) = b := by decide
    rw [habsorb]

end Lawful

theorem mem_union {s t : SetView α} {a : α} (h : a ∈ (s.union t).elements) :
    a ∈ s.elements ∨ a ∈ t.elements :=
  (List.mem_append.mp h).imp_right fun hmem => (List.mem_filter.mp hmem).1

theorem mem_intersection {s t : SetView α} {a : α} (h : a ∈ (s.intersection t).elements) :
    a ∈ s.elements :=
  (List.mem_filter.mp h).1

end SetView

end collections
