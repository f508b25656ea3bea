import Mathlib.Data.List.Infix
import DrElephant.Java.Text

open String.Slice.Pattern String.Slice.Pattern.Model

namespace java.lang

/-- `String.contains` -/
def contains (text target : String) : Bool := text.toList.tails.any target.toList.isPrefixOf

theorem contains_iff {text target : String} : contains text target = true ↔ target.toList <:+: text.toList := by
  simp only [contains, List.any_eq_true, List.mem_tails, List.isPrefixOf_iff_prefix, List.infix_iff_prefix_suffix]
  exact exists_congr fun rest => and_comm

section replaceChars

variable {target replacement text : List Char}

/-- The characters of a match are skipped. -/
theorem replaceChars_skip (target replacement : List Char) (skip : Nat) (text : List Char) :
    replaceChars target replacement skip text = replaceChars target replacement 0 (text.drop skip) := by
  induction skip generalizing text with
  | zero => rfl
  | succ skip ih =>
    cases text with
    | nil => rfl
    | cons c text => rw [replaceChars, ih, List.drop_succ_cons]

/-- A match at the front is replaced. -/
theorem replaceChars_append (htarget : target ≠ []) (replacement rest : List Char) :
    replaceChars target replacement 0 (target ++ rest) =
      replacement ++ replaceChars target replacement 0 rest := by
  obtain ⟨first, others, rfl⟩ := List.exists_cons_of_ne_nil htarget
  have hmatch : (first :: others).isPrefixOf (first :: (others ++ rest)) = true :=
    List.isPrefixOf_iff_prefix.mpr ⟨rest, rfl⟩
  rw [List.cons_append, replaceChars, if_pos hmatch, replaceChars_skip, List.length_cons,
    Nat.add_sub_cancel, List.drop_left]

/-- A character at which there is no match stays. -/
theorem replaceChars_cons {c : Char} (hmatch : ¬ target <+: c :: text) (replacement : List Char) :
    replaceChars target replacement 0 (c :: text) = c :: replaceChars target replacement 0 text := by
  rw [replaceChars, if_neg]
  rwa [List.isPrefixOf_iff_prefix]

/-- A text without a match stays as it is. -/
theorem replaceChars_of_not_infix (hfree : ¬ target <:+: text) (replacement : List Char) :
    replaceChars target replacement 0 text = text := by
  induction text with
  | nil => rfl
  | cons c text ih =>
    have hrest : ¬ target <:+: text := fun h => hfree (h.trans (List.suffix_cons c text).isInfix)
    rw [replaceChars_cons (fun h => hfree h.isInfix), ih hrest]

/-- What a replaced text begins with, if not with something put in, the text
begins with too. -/
private theorem prefix_of_prefix_replaceChars (htarget : target ≠ []) {first : Char} {others front : List Char}
    (hfirst : first ∉ front) (hfront : front <+: replaceChars target (first :: others) 0 text) :
    front <+: text := by
  induction front generalizing text with
  | nil => exact List.nil_prefix
  | cons c front ih =>
    rw [List.mem_cons, not_or] at hfirst
    by_cases hmatch : target <+: text
    · obtain ⟨rest, rfl⟩ := hmatch
      rw [replaceChars_append htarget, List.cons_append, List.cons_prefix_cons] at hfront
      exact absurd hfront.1.symm hfirst.1
    · cases text with
      | nil => exact hfront
      | cons d text =>
        rw [replaceChars_cons hmatch, List.cons_prefix_cons] at hfront
        exact List.cons_prefix_cons.mpr ⟨hfront.1, ih hfirst.2 hfront.2⟩

/-- A replacement is undone where it cannot overlap itself and the text had none
of it: its occurrences are then the places of the matches. -/
theorem replaceChars_replaceChars (htarget : target ≠ []) {first : Char} {others : List Char}
    (hfirst : first ∉ others) (hfree : ¬ first :: others <:+: text) :
    replaceChars (first :: others) target 0 (replaceChars target (first :: others) 0 text) = text := by
  induction hlength : text.length using Nat.strong_induction_on generalizing text with
  | _ length ih =>
    by_cases hmatch : target <+: text
    · obtain ⟨rest, rfl⟩ := hmatch
      have hshort : rest.length < length := by
        have hpos := List.length_pos_iff.mpr htarget
        rw [List.length_append] at hlength
        omega
      have hrest : ¬ first :: others <:+: rest := fun h => hfree (h.trans (List.suffix_append target rest).isInfix)
      rw [replaceChars_append htarget, replaceChars_append (List.cons_ne_nil _ _), ih _ hshort hrest rfl]
    · cases text with
      | nil => rfl
      | cons c text =>
        have hrest : ¬ first :: others <:+: text := fun h => hfree (h.trans (List.suffix_cons c text).isInfix)
        have hback : ¬ first :: others <+: c :: replaceChars target (first :: others) 0 text := by
          rw [List.cons_prefix_cons]
          rintro ⟨rfl, hothers⟩
          have hprefix := prefix_of_prefix_replaceChars htarget hfirst hothers
          exact hfree (List.cons_prefix_cons.mpr ⟨rfl, hprefix⟩).isInfix
        rw [replaceChars_cons hmatch, replaceChars_cons hback, ih _ _ hrest rfl]
        rw [← hlength, List.length_cons]
        exact Nat.lt_succ_self _

/-- A replaced text has characters of the text and of the replacement. -/
theorem mem_replaceChars {c : Char} {skip : Nat} (h : c ∈ replaceChars target replacement skip text) :
    c ∈ text ∨ c ∈ replacement := by
  induction text generalizing skip with
  | nil => cases skip <;> cases h
  | cons d text ih =>
    cases skip with
    | succ skip => exact (ih h).imp (List.mem_cons_of_mem d) id
    | zero =>
      rw [replaceChars] at h
      split at h
      · rcases List.mem_append.mp h with hnew | hrest
        · exact .inr hnew
        · exact (ih hrest).imp (List.mem_cons_of_mem d) id
      · rcases List.mem_cons.mp h with rfl | hrest
        · exact .inl List.mem_cons_self
        · exact (ih hrest).imp (List.mem_cons_of_mem d) id

end replaceChars

/-- Only a text that contains the target has something replaced. -/
theorem replaceAll_of_not_contains {text target : String} (h : contains text target = false)
    (replacement : String) : replaceAll text target replacement = text := by
  have hfree : ¬ target.toList <:+: text.toList := by
    rw [← contains_iff, h]
    exact Bool.false_ne_true
  rw [replaceAll, replaceChars_of_not_infix hfree, String.ofList_toList]

/-- The same for texts: a replacement that begins with a character it has once is undone. -/
theorem replaceAll_replaceAll {text target replacement : String} (htarget : target.toList ≠ [])
    {first : Char} {others : List Char} (hreplacement : replacement.toList = first :: others)
    (hfirst : first ∉ others) (h : contains text replacement = false) :
    replaceAll (replaceAll text target replacement) replacement target = text := by
  have hfree : ¬ first :: others <:+: text.toList := by
    rw [← hreplacement, ← contains_iff, h]
    exact Bool.false_ne_true
  rw [replaceAll, replaceAll, String.toList_ofList, hreplacement, replaceChars_replaceChars htarget hfirst hfree,
    String.ofList_toList]

section searcher

variable {target replacement : List Char}

/-- A stretch of a text that no match begins in stays. -/
theorem replaceChars_stretch {stretch rest : List Char}
    (hnone : ∀ before after, stretch = before ++ after → after ≠ [] → ¬ target <+: after ++ rest) :
    replaceChars target replacement 0 (stretch ++ rest) =
      stretch ++ replaceChars target replacement 0 rest := by
  induction stretch with
  | nil => rfl
  | cons c stretch ih =>
    have hhead : ¬ target <+: c :: (stretch ++ rest) := hnone [] _ rfl (List.cons_ne_nil c stretch)
    have hrest := ih fun before after hsplit hafter =>
      hnone (c :: before) after (by rw [hsplit, List.cons_append]) hafter
    rw [List.cons_append, replaceChars_cons hhead, hrest, List.cons_append]

/-- One step of `String.replace`. -/
private def addStep (replacement : String) {text : String.Slice} (sofar : String) : SearchStep text → String
  | .matched .. => sofar ++ replacement.toSlice
  | .rejected start stop => sofar ++ text.slice! start stop

/-- What a search appends for the rest of a text. -/
private theorem foldl_addStep (replacement : String) {text : String.Slice} {target : String}
    (htarget : target ≠ "") {pos : text.Pos} {steps : List (SearchStep text)} (h : IsValidSearchFrom target pos steps)
    {before rest : String} (hsplits : pos.Splits before rest) (sofar : String) :
    (steps.foldl (addStep replacement) sofar).toList =
      sofar.toList ++ replaceChars target.toList replacement.toList 0 rest.toList := by
  have htargetList : target.toList ≠ [] := by simpa using htarget
  induction h generalizing before rest sofar with
  | endPos =>
    obtain ⟨-, rfl⟩ := String.Slice.splits_endPos_iff.mp hsplits
    simp [replaceChars]
  | matched hmatch _ ih =>
    rw [ForwardStringSearcher.isLongestMatchAt_iff_isLongestMatchAt_toSlice,
      ForwardSliceSearcher.isLongestMatchAt_iff_splits] at hmatch
    obtain ⟨before', rest', hstart, hend⟩ := hmatch
    obtain rfl := hsplits.eq_right hstart
    rw [List.foldl_cons, ih hend, String.toList_append, String.copy_toSlice,
      replaceChars_append htargetList]
    simp [addStep]
  | @mismatched _ start stop hlt hnone _ ih =>
    obtain ⟨stretch, -, hbefore, hrest⟩ := (hsplits.lt_iff_exists_eq_append stop.splits).mp hlt
    have hslice : (text.slice! start stop).copy = stretch := by
      rw [← String.Slice.slice_eq_slice! (h := Std.le_of_lt hlt)]
      obtain ⟨_, hcopy⟩ := String.Slice.copy_slice_eq_iff_splits.mpr
        ⟨before, _, hrest ▸ hsplits, hbefore ▸ stop.splits⟩
      exact hcopy
    have hstretch : ∀ front back, stretch.toList = front ++ back → back ≠ [] →
        ¬ target.toList <+: back ++ (text.sliceFrom stop).copy.toList := by
      rintro front back hsplit hback ⟨others, hothers⟩
      have hstretchEq : stretch = String.ofList front ++ String.ofList back := by
        rw [← String.ofList_append, ← hsplit, String.ofList_toList]
      have htext : text.copy =
          (before ++ String.ofList front) ++ (String.ofList back ++ (text.sliceFrom stop).copy) := by
        rw [hsplits.eq_append, hrest, hstretchEq]
        simp only [String.append_assoc]
      have hpos := String.Slice.Pos.splits_ofEqAppend htext
      refine hnone (String.Slice.Pos.ofEqAppend htext) ?_ ?_ (ForwardStringSearcher.matchesAt_iff_splits.mpr
        ⟨before ++ String.ofList front, String.ofList others, ?_⟩)
      · refine (hsplits.le_iff_exists_eq_append hpos).mpr ⟨String.ofList front, rfl, ?_⟩
        rw [hrest, hstretchEq, String.append_assoc]
      · refine (hpos.lt_iff_exists_eq_append stop.splits).mpr ⟨String.ofList back, by simpa using hback, ?_, rfl⟩
        rw [hbefore, hstretchEq, String.append_assoc]
      · have hmatch : String.ofList back ++ (text.sliceFrom stop).copy = target ++ String.ofList others := by
          apply String.toList_injective
          rw [String.toList_append, String.toList_append, String.toList_ofList, String.toList_ofList, hothers]
        rw [← hmatch]
        exact hpos
    rw [List.foldl_cons, ih stop.splits, hrest, String.toList_append, replaceChars_stretch hstretch]
    simp [addStep, hslice]

/-- `String.replace` of Lean replaces as `String.replaceAll` of plain text does. -/
theorem replace_eq_replaceAll {text target replacement : String} (htarget : target ≠ "") :
    text.replace target replacement = replaceAll text target replacement := by
  have hvalid := (ForwardStringSearcher.lawfulToForwardSearcherModel htarget).isValidSearchFrom_toList text.toSlice
  have hfold := foldl_addStep replacement htarget hvalid
    (String.Slice.splits_startPos _) ""
  apply String.toList_injective
  rw [String.replace, String.Slice.replace, ← Std.Iter.foldl_toList, replaceAll, String.toList_ofList]
  rw [String.copy_toSlice, String.toList_empty, List.nil_append] at hfold
  rw [← hfold]
  congr 2
  funext sofar step
  cases step <;> rfl

end searcher

/-- A text above the space has nothing cut off. -/
theorem trim_of_forall {text : String} (h : ∀ c ∈ text.toList, 32 < c.toNat) : trim text = text := by
  have hdrop : ∀ {cs : List Char}, (∀ c ∈ cs, 32 < c.toNat) →
      cs.dropWhile (fun c => decide (c.toNat ≤ 32)) = cs := by
    intro cs hcs
    cases cs with
    | nil => rfl
    | cons c cs =>
      have hc := hcs c List.mem_cons_self
      rw [List.dropWhile_cons, if_neg (by simpa using hc)]
  rw [trim, hdrop h, hdrop (by simpa using h), List.reverse_reverse, String.ofList_toList]

end java.lang
