import Mathlib.Data.List.Basic
import Mathlib.Data.List.TakeWhile

namespace regex

/-- Patterns with greedy quantifiers and numbered groups. Only single
characters are repeated. -/
inductive Regex
  | set (accepts : Char → Bool)
  | star (accepts : Char → Bool)
  | seq (first second : Regex)
  | optional (pattern : Regex)
  | group (number : Nat) (pattern : Regex)

/-- A way to match the beginning of a text. -/
structure Match where
  matched : List Char
  rest : List Char
  groups : List (Nat × List Char) := []

/-- The text of a group, none for a group that took no part. -/
def Match.group (m : Match) (number : Nat) : Option (List Char) :=
  (m.groups.find? fun entry => entry.1 == number).map Prod.snd

namespace Regex

/-- The beginnings that consist of accepted characters, the longest first. -/
def spans (accepts : Char → Bool) : List Char → List Match
  | [] => [⟨[], [], []⟩]
  | c :: text =>
    if accepts c then
      (spans accepts text).map (fun m => { m with matched := c :: m.matched }) ++ [⟨[], c :: text, []⟩]
    else [⟨[], c :: text, []⟩]

/-- The ways to match the beginning of a text, in the order in which a
backtracking matcher comes to them. -/
def attempts : Regex → List Char → List Match
  | set _, [] => []
  | set accepts, c :: text => if accepts c then [⟨[c], text, []⟩] else []
  | star accepts, text => spans accepts text
  | seq first second, text =>
    (first.attempts text).flatMap fun m =>
      (second.attempts m.rest).map fun m' =>
        ⟨m.matched ++ m'.matched, m'.rest, m.groups ++ m'.groups⟩
  | optional pattern, text => pattern.attempts text ++ [⟨[], text, []⟩]
  | group number pattern, text =>
    (pattern.attempts text).map fun m => { m with groups := (number, m.matched) :: m.groups }

/-- The first way that matches a text as a whole. -/
def fullMatch (pattern : Regex) (text : List Char) : Option Match :=
  (pattern.attempts text).find? fun m => m.rest.isEmpty

/-- Patterns one after the other. -/
def all : List Regex → Regex
  | [] => star fun _ => false
  | [pattern] => pattern
  | pattern :: patterns => seq pattern (all patterns)

/-- A repetition with at least one round. -/
def plus (accepts : Char → Bool) : Regex := seq (set accepts) (star accepts)

/-- The texts that a pattern stands for, however they are found. -/
def Matches : Regex → List Char → Prop
  | set accepts, text => ∃ c, accepts c = true ∧ text = [c]
  | star accepts, text => ∀ c ∈ text, accepts c = true
  | seq first second, text => ∃ left right, text = left ++ right ∧ first.Matches left ∧ second.Matches right
  | optional pattern, text => text = [] ∨ pattern.Matches text
  | group _ pattern, text => pattern.Matches text

theorem matches_plus_iff {accepts : Char → Bool} {text : List Char} :
    (plus accepts).Matches text ↔ text ≠ [] ∧ ∀ c ∈ text, accepts c = true := by
  constructor
  · rintro ⟨_, right, rfl, ⟨c, hc, rfl⟩, hright⟩
    exact ⟨by simp, List.forall_mem_cons.mpr ⟨hc, hright⟩⟩
  · rintro ⟨hne, hall⟩
    obtain ⟨c, right, rfl⟩ := List.exists_cons_of_ne_nil hne
    obtain ⟨hc, hright⟩ := List.forall_mem_cons.mp hall
    exact ⟨[c], right, rfl, ⟨c, hc, rfl⟩, hright⟩

private theorem mem_spans_iff {accepts : Char → Bool} {text matched rest : List Char} :
    (∃ m ∈ spans accepts text, m.matched = matched ∧ m.rest = rest) ↔
      text = matched ++ rest ∧ ∀ c ∈ matched, accepts c = true := by
  induction text generalizing matched with
  | nil =>
    rw [spans]
    constructor
    · rintro ⟨m, hm, rfl, rfl⟩
      rw [List.mem_singleton.mp hm]
      simp
    · rintro ⟨htext, -⟩
      obtain ⟨rfl, rfl⟩ := List.append_eq_nil_iff.mp htext.symm
      exact ⟨_, List.mem_singleton_self _, rfl, rfl⟩
  | cons c text ih =>
    have hempty : (∃ m ∈ [(⟨[], c :: text, []⟩ : Match)], m.matched = matched ∧ m.rest = rest) ↔
        matched = [] ∧ c :: text = rest := by
      simp [eq_comm]
    rw [spans]
    cases hc : accepts c with
    | false =>
      rw [if_neg Bool.false_ne_true, hempty]
      constructor
      · rintro ⟨rfl, rfl⟩
        simp
      · rintro ⟨htext, hall⟩
        cases matched with
        | nil => exact ⟨rfl, htext⟩
        | cons first matched =>
          rw [List.cons_append, List.cons.injEq] at htext
          rw [← htext.1] at hall
          rw [hall c (List.mem_cons_self ..)] at hc
          cases hc
    | true =>
      rw [if_pos rfl]
      constructor
      · rintro ⟨m, hm, hmatched, hrest⟩
        rcases List.mem_append.mp hm with hlonger | hshortest
        · obtain ⟨shorter, hshorter, rfl⟩ := List.mem_map.mp hlonger
          obtain ⟨htext, hall⟩ := ih.mp ⟨shorter, hshorter, rfl, hrest⟩
          subst hmatched
          exact ⟨by rw [htext]; rfl, List.forall_mem_cons.mpr ⟨hc, hall⟩⟩
        · obtain ⟨rfl, rfl⟩ := hempty.mp ⟨m, hshortest, hmatched, hrest⟩
          simp
      · rintro ⟨htext, hall⟩
        cases matched with
        | nil => exact ⟨⟨[], c :: text, []⟩, by simp, rfl, htext⟩
        | cons first matched =>
          rw [List.cons_append, List.cons.injEq] at htext
          obtain ⟨rfl, htext⟩ := htext
          obtain ⟨m, hm, rfl, rfl⟩ := ih.mpr ⟨htext, (List.forall_mem_cons.mp hall).2⟩
          exact ⟨_, List.mem_append_left _ (List.mem_map_of_mem hm), rfl, rfl⟩

/-- A backtracking matcher comes to exactly the beginnings that the pattern stands for. -/
theorem mem_attempts_iff {pattern : Regex} {text matched rest : List Char} :
    (∃ m ∈ pattern.attempts text, m.matched = matched ∧ m.rest = rest) ↔
      text = matched ++ rest ∧ pattern.Matches matched := by
  induction pattern generalizing text matched rest with
  | set accepts =>
    cases text with
    | nil =>
      rw [attempts]
      constructor
      · rintro ⟨m, hm, -⟩
        cases hm
      · rintro ⟨htext, c, -, rfl⟩
        cases htext
    | cons first text =>
      rw [attempts]
      constructor
      · rintro ⟨m, hm, rfl, rfl⟩
        split at hm
        · rename_i hfirst
          obtain rfl := List.mem_singleton.mp hm
          exact ⟨rfl, first, hfirst, rfl⟩
        · cases hm
      · rintro ⟨htext, c, hc, rfl⟩
        rw [List.singleton_append, List.cons.injEq] at htext
        obtain ⟨rfl, rfl⟩ := htext
        exact ⟨⟨[first], text, []⟩, by simp [hc], rfl, rfl⟩
  | star accepts => exact mem_spans_iff
  | seq first second ihfirst ihsecond =>
    rw [attempts]
    constructor
    · rintro ⟨m, hm, rfl, rfl⟩
      obtain ⟨left, hleft, hcombined⟩ := List.mem_flatMap.mp hm
      obtain ⟨right, hright, rfl⟩ := List.mem_map.mp hcombined
      obtain ⟨htext, hfirst⟩ := ihfirst.mp ⟨left, hleft, rfl, rfl⟩
      obtain ⟨hrest, hsecond⟩ := ihsecond.mp ⟨right, hright, rfl, rfl⟩
      exact ⟨by rw [htext, hrest, List.append_assoc], _, _, rfl, hfirst, hsecond⟩
    · rintro ⟨rfl, left, right, rfl, hfirst, hsecond⟩
      obtain ⟨m, hm, rfl, hrest⟩ := ihfirst.mpr ⟨List.append_assoc left right rest, hfirst⟩
      obtain ⟨m', hm', rfl, rfl⟩ := ihsecond.mpr ⟨hrest, hsecond⟩
      exact ⟨_, List.mem_flatMap.mpr ⟨m, hm, List.mem_map_of_mem hm'⟩, rfl, rfl⟩
  | optional pattern ih =>
    rw [attempts]
    constructor
    · rintro ⟨m, hm, rfl, rfl⟩
      rcases List.mem_append.mp hm with hpattern | hempty
      · obtain ⟨htext, hmatches⟩ := ih.mp ⟨m, hpattern, rfl, rfl⟩
        exact ⟨htext, .inr hmatches⟩
      · obtain rfl := List.mem_singleton.mp hempty
        exact ⟨rfl, .inl rfl⟩
    · rintro ⟨rfl, hempty | hmatches⟩
      · subst hempty
        exact ⟨_, List.mem_append_right _ (List.mem_singleton_self _), rfl, rfl⟩
      · obtain ⟨m, hm, hmatched, hrest⟩ := ih.mpr ⟨rfl, hmatches⟩
        exact ⟨m, List.mem_append_left _ hm, hmatched, hrest⟩
  | group number pattern ih =>
    rw [attempts]
    refine Iff.trans ?_ ih
    constructor
    · rintro ⟨m, hm, rfl, rfl⟩
      obtain ⟨inner, hinner, rfl⟩ := List.mem_map.mp hm
      exact ⟨inner, hinner, rfl, rfl⟩
    · rintro ⟨m, hm, rfl, rfl⟩
      exact ⟨_, List.mem_map_of_mem hm, rfl, rfl⟩

/-- A text matches as a whole if and only if it is one that the pattern stands for. -/
theorem isSome_fullMatch_iff {pattern : Regex} {text : List Char} :
    (pattern.fullMatch text).isSome = true ↔ pattern.Matches text := by
  rw [fullMatch, List.find?_isSome]
  constructor
  · rintro ⟨m, hm, hrest⟩
    obtain ⟨htext, hmatches⟩ := mem_attempts_iff.mp ⟨m, hm, rfl, rfl⟩
    rw [List.isEmpty_iff.mp hrest, List.append_nil] at htext
    exact htext ▸ hmatches
  · intro hmatches
    obtain ⟨m, hm, -, hrest⟩ := mem_attempts_iff.mpr ⟨(List.append_nil text).symm, hmatches⟩
    exact ⟨m, hm, List.isEmpty_iff.mpr hrest⟩

theorem matches_of_fullMatch {pattern : Regex} {text : List Char} {m : Match}
    (h : pattern.fullMatch text = some m) : m.matched = text ∧ pattern.Matches text := by
  have hrest := List.find?_some h
  obtain ⟨htext, hmatches⟩ := mem_attempts_iff.mp ⟨m, List.mem_of_find?_eq_some h, rfl, rfl⟩
  rw [List.isEmpty_iff.mp hrest, List.append_nil] at htext
  exact ⟨htext.symm, htext ▸ hmatches⟩

section capture

/-- A pattern without groups in it. -/
def groupFree : Regex → Bool
  | set _ => true
  | star _ => true
  | seq first second => first.groupFree && second.groupFree
  | optional pattern => pattern.groupFree
  | group _ _ => false

private theorem groups_of_mem_spans {accepts : Char → Bool} {text : List Char} {m : Match}
    (hm : m ∈ spans accepts text) : m.groups = [] := by
  induction text generalizing m with
  | nil => rw [List.mem_singleton.mp hm]
  | cons c text ih =>
    rw [spans] at hm
    split at hm
    · rcases List.mem_append.mp hm with hlonger | hshortest
      · obtain ⟨shorter, hshorter, rfl⟩ := List.mem_map.mp hlonger
        have hnone := ih hshorter
        exact hnone
      · rw [List.mem_singleton.mp hshortest]
    · rw [List.mem_singleton.mp hm]

theorem groups_eq_nil {pattern : Regex} (h : pattern.groupFree = true) {text : List Char} {m : Match}
    (hm : m ∈ pattern.attempts text) : m.groups = [] := by
  induction pattern generalizing text m with
  | set accepts =>
    cases text with
    | nil => cases hm
    | cons c text =>
      rw [attempts] at hm
      split at hm
      · rw [List.mem_singleton.mp hm]
      · cases hm
  | star accepts => exact groups_of_mem_spans hm
  | seq first second ihfirst ihsecond =>
    obtain ⟨hfirst, hsecond⟩ := Bool.and_eq_true_iff.mp h
    obtain ⟨left, hleft, hcombined⟩ := List.mem_flatMap.mp hm
    obtain ⟨right, hright, rfl⟩ := List.mem_map.mp hcombined
    rw [ihfirst hfirst hleft, ihsecond hsecond hright]
    rfl
  | optional pattern ih =>
    rcases List.mem_append.mp hm with hpattern | hempty
    · exact ih h hpattern
    · rw [List.mem_singleton.mp hempty]
  | group number pattern ih => cases h

/-- What a match of one pattern and then another consists of. -/
theorem exists_of_fullMatch_seq {first second : Regex} {text : List Char} {m : Match}
    (h : (seq first second).fullMatch text = some m) :
    ∃ left ∈ first.attempts text, ∃ right, second.fullMatch left.rest = some right ∧
      m.groups = left.groups ++ right.groups := by
  rw [fullMatch, attempts, List.find?_flatMap] at h
  obtain ⟨left, hleft, hright⟩ := List.exists_of_findSome?_eq_some h
  rw [List.find?_map] at hright
  obtain ⟨right, hfound, rfl⟩ := Option.map_eq_some_iff.mp hright
  exact ⟨left, hleft, right, hfound, rfl⟩

/-- Where the rest of a text may be empty, an optional pattern is still tried
first, so that its groups take part. -/
theorem fullMatch_optional {pattern : Regex} (h : pattern.Matches []) (text : List Char) :
    (optional pattern).fullMatch text = pattern.fullMatch text := by
  have hfind : (optional pattern).fullMatch text = (pattern.fullMatch text).or
      ([(⟨[], text, []⟩ : Match)].find? fun m => m.rest.isEmpty) := by
    rw [fullMatch, attempts, List.find?_append]
    rfl
  rw [hfind]
  cases text with
  | nil =>
    obtain ⟨m, hm⟩ := Option.isSome_iff_exists.mp (isSome_fullMatch_iff.mpr h)
    rw [hm]
    rfl
  | cons c text => exact Option.or_none

theorem exists_of_mem_attempts_group {number : Nat} {pattern : Regex} (h : pattern.groupFree = true)
    {text : List Char} {m : Match} (hm : m ∈ (group number pattern).attempts text) :
    m.groups = [(number, m.matched)] := by
  obtain ⟨inner, hinner, rfl⟩ := List.mem_map.mp hm
  rw [groups_eq_nil h hinner]

end capture

section possessive

/-- A text that stands for itself. -/
def word : List Char → Regex
  | [] => star fun _ => false
  | c :: w => seq (set (· == c)) (word w)

/-- What the groups hold after a text was matched as a whole. -/
def capture (pattern : Regex) (text : List Char) : Option (List (Nat × List Char)) :=
  (pattern.fullMatch text).map Match.groups

/-- A matcher goes on from the first way to match one pattern from which it can
match the other one. -/
theorem capture_seq (first second : Regex) (text : List Char) : (seq first second).capture text =
    (first.attempts text).findSome? fun m => (second.capture m.rest).map (m.groups ++ ·) := by
  rw [capture, fullMatch, attempts, List.find?_flatMap, List.map_findSome?]
  congr 1
  funext m
  rw [Function.comp_apply, List.find?_map, Option.map_map, capture, fullMatch, Option.map_map]
  rfl

theorem isSome_capture_iff {pattern : Regex} {text : List Char} :
    (pattern.capture text).isSome = true ↔ pattern.Matches text := by
  rw [capture, Option.isSome_map, isSome_fullMatch_iff]

theorem matches_word (w : List Char) : (word w).Matches w := by
  induction w with
  | nil => exact fun c hc => absurd hc List.not_mem_nil
  | cons c w ih => exact ⟨[c], w, rfl, ⟨c, beq_self_eq_true c, rfl⟩, ih⟩

theorem attempts_word (w text : List Char) :
    (word w).attempts text = ((text.dropPrefix? w).map fun rest => (⟨w, rest, []⟩ : Match)).toList := by
  induction w generalizing text with
  | nil =>
    cases text with
    | nil => rfl
    | cons c text => simp [word, attempts, spans]
  | cons c w ih =>
    cases text with
    | nil => rfl
    | cons first text =>
      rw [word, attempts, attempts, List.dropPrefix?]
      by_cases hfirst : (first == c) = true
      · rw [if_pos hfirst, if_pos hfirst, List.flatMap_singleton, ih, eq_of_beq hfirst]
        cases text.dropPrefix? w <;> rfl
      · rw [if_neg hfirst, if_neg hfirst]
        rfl

theorem capture_word_seq (w : List Char) (pattern : Regex) (text : List Char) :
    (seq (word w) pattern).capture text = (text.dropPrefix? w).bind pattern.capture := by
  rw [capture_seq, attempts_word]
  cases text.dropPrefix? w with
  | none => rfl
  | some rest => simp

/-- The ways to match a repetition, by the number of characters they take. -/
theorem spans_eq (accepts : Char → Bool) (text : List Char) : spans accepts text =
    (List.range ((text.takeWhile accepts).length + 1)).reverse.map fun n => ⟨text.take n, text.drop n, []⟩ := by
  induction text with
  | nil => rfl
  | cons c text ih =>
    rw [spans, List.takeWhile_cons]
    cases accepts c with
    | false => rfl
    | true =>
      simp only [if_true, ih, List.length_cons]
      rw [List.range_succ_eq_map (n := (text.takeWhile accepts).length + 1)]
      simp [List.map_map, Function.comp_def]

theorem attempts_plus (accepts : Char → Bool) (text : List Char) : (plus accepts).attempts text =
    (List.range (text.takeWhile accepts).length).reverse.map fun n =>
      ⟨text.take (n + 1), text.drop (n + 1), []⟩ := by
  rw [plus, attempts]
  cases text with
  | nil => rfl
  | cons c text =>
    rw [attempts, List.takeWhile_cons]
    cases accepts c with
    | false => rfl
    | true =>
      rw [if_pos rfl, if_pos rfl, List.flatMap_singleton, attempts, spans_eq, List.map_map]
      rfl

/-- Before what cannot begin with them a repetition takes all characters that it can. -/
theorem capture_plus_seq {accepts : Char → Bool} {pattern : Regex}
    (hpattern : ∀ c text, accepts c = true → pattern.capture (c :: text) = none) (text : List Char) :
    (seq (plus accepts) pattern).capture text =
      if text.takeWhile accepts = [] then none else pattern.capture (text.dropWhile accepts) := by
  have htext : text.takeWhile accepts ++ text.dropWhile accepts = text := List.takeWhile_append_dropWhile
  rw [capture_seq, attempts_plus, List.findSome?_map]
  cases hlength : (text.takeWhile accepts).length with
  | zero =>
    rw [if_pos (List.length_eq_zero_iff.mp hlength)]
    rfl
  | succ n =>
    have hall : text.drop (n + 1) = text.dropWhile accepts := by
      rw [← hlength, ← htext, List.drop_left' (by rw [htext]), htext]
    have hfewer : ∀ k ∈ (List.range n).reverse, pattern.capture (text.drop (k + 1)) = none := by
      intro k hk
      have hlt : k < n := List.mem_range.mp (List.mem_reverse.mp hk)
      have hne : (text.takeWhile accepts).drop (k + 1) ≠ [] := by
        rw [ne_eq, List.drop_eq_nil_iff]
        omega
      obtain ⟨c, rest, hdrop⟩ := List.exists_cons_of_ne_nil hne
      have hmem : c ∈ text.takeWhile accepts := by
        refine List.mem_of_mem_drop (i := k + 1) ?_
        rw [hdrop]
        exact List.mem_cons_self
      rw [← htext, List.drop_append_of_le_length (by omega), hdrop, List.cons_append]
      exact hpattern c _ (List.mem_takeWhile_imp hmem)
    rw [if_neg (fun hnil => by rw [hnil] at hlength; cases hlength), List.range_succ, List.reverse_append,
      List.reverse_singleton, List.singleton_append, List.findSome?_cons]
    have hnone : ((List.range n).reverse.findSome? fun k => (pattern.capture (text.drop (k + 1))).map ([] ++ ·)) =
        none := by
      rw [List.findSome?_eq_none_iff]
      intro k hk
      rw [hfewer k hk]
      rfl
    simp only [Function.comp_apply, List.nil_append, hall]
    simp only [List.nil_append] at hnone
    cases pattern.capture (text.dropWhile accepts) with
    | none => exact hnone
    | some groups => rfl

end possessive

end Regex

end regex
