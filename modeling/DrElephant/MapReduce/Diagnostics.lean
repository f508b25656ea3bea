import DrElephant.Library.Regex
import DrElephant.MapReduce.MapReduceFetcherHadoop2

open regex

namespace drelephant.mapreduce

section text

/-- White space, at least one character of it. -/
structure Spaces where
  characters : List Char
  characters_ne : characters ≠ []
  isSpace : ∀ c ∈ characters, isSpace c = true

theorem takeWhile_isSpace {spaces rest : List Char} (hspaces : ∀ c ∈ spaces, isSpace c = true)
    (hrest : ∀ c ∈ rest.head?, isSpace c = false) : (spaces ++ rest).takeWhile isSpace = spaces ∧
      (spaces ++ rest).dropWhile isSpace = rest := by
  rw [List.takeWhile_append_of_pos hspaces, List.dropWhile_append_of_pos hspaces]
  cases rest with
  | nil => exact ⟨List.append_nil spaces, rfl⟩
  | cons c rest =>
    have hc : ¬ isSpace c = true := by
      rw [hrest c rfl]
      exact Bool.false_ne_true
    rw [List.takeWhile_cons_of_neg hc, List.dropWhile_cons_of_neg hc, List.append_nil]
    exact ⟨rfl, rfl⟩

theorem skipSpaces_append (spaces : Spaces) {rest : List Char} (hrest : ∀ c ∈ rest.head?, isSpace c = false) :
    skipSpaces (spaces.characters ++ rest) = some rest := by
  obtain ⟨htake, hdrop⟩ := takeWhile_isSpace spaces.isSpace hrest
  rw [skipSpaces, htake, hdrop, if_neg spaces.characters_ne]

theorem exists_spaces_of_skipSpaces {text rest : List Char} (h : skipSpaces text = some rest) :
    ∃ spaces : Spaces, text = spaces.characters ++ rest := by
  rw [skipSpaces] at h
  split at h
  · cases h
  · rename_i hne
    obtain rfl := Option.some.inj h
    exact ⟨⟨text.takeWhile isSpace, hne, fun c hc => List.mem_takeWhile_imp hc⟩,
      List.takeWhile_append_dropWhile.symm⟩

theorem skipWord_append (word : String) (rest : List Char) : skipWord word (word.toList ++ rest) = some rest :=
  List.dropPrefix?_append_of_beq rest (beq_self_eq_true _)

theorem eq_append_of_skipWord {word : String} {text rest : List Char} (h : skipWord word text = some rest) :
    text = word.toList ++ rest := by
  obtain ⟨word', htext, hword⟩ := List.dropPrefix?_eq_some_iff.mp h
  rw [htext, eq_of_beq hword]

/-- What the diagnostics say behind the id of the task. -/
structure FailedTimes where
  beforeFailed : Spaces
  beforeDigit : Spaces
  digit : Char
  isDigit : digit.isDigit = true
  beforeTimes : Spaces
  trailing : Spaces

namespace FailedTimes

/-- The text behind the white space after the id. -/
def rest (failed : FailedTimes) : List Char :=
  "failed".toList ++ (failed.beforeDigit.characters ++ (failed.digit ::
    (failed.beforeTimes.characters ++ ("times".toList ++ failed.trailing.characters))))

def text (failed : FailedTimes) : List Char := failed.beforeFailed.characters ++ failed.rest

def times (failed : FailedTimes) : Nat := failed.digit.toNat - '0'.toNat

theorem rest_eq (failed : FailedTimes) : failed.rest = "failed".toList ++ (failed.beforeDigit.characters ++
    (failed.digit :: (failed.beforeTimes.characters ++ ("times".toList ++ failed.trailing.characters)))) := rfl

end FailedTimes

theorem isSpace_of_isDigit {c : Char} (h : c.isDigit = true) : isSpace c = false := by
  simp only [Char.isDigit, Bool.and_eq_true, decide_eq_true_eq] at h
  have hlo : 48 ≤ c.toNat := h.1
  have hhi : c.toNat ≤ 57 := h.2
  rw [isSpace, decide_eq_false_iff_not]
  omega

theorem matchFailedTimes_text (failed : FailedTimes) : matchFailedTimes failed.text = some failed.times := by
  have hfailed : ∀ c ∈ failed.rest.head?, isSpace c = false := by
    intro c hc
    obtain rfl : 'f' = c := Option.some.inj hc
    rfl
  have hdigit : ∀ c ∈ (failed.digit :: (failed.beforeTimes.characters ++ ("times".toList ++
      failed.trailing.characters))).head?, isSpace c = false := by
    intro c hc
    obtain rfl : failed.digit = c := Option.some.inj hc
    exact isSpace_of_isDigit failed.isDigit
  have htimes : ∀ c ∈ ("times".toList ++ failed.trailing.characters).head?, isSpace c = false := by
    intro c hc
    obtain rfl : 't' = c := Option.some.inj hc
    rfl
  have htrailing : skipSpaces failed.trailing.characters = some [] := by
    have h := @skipSpaces_append failed.trailing [] (by simp)
    rwa [List.append_nil] at h
  rw [matchFailedTimes, FailedTimes.text, skipSpaces_append _ hfailed]
  simp only [Option.bind_eq_bind, Option.bind_some]
  rw [FailedTimes.rest_eq, skipWord_append, Option.bind_some, skipSpaces_append _ hdigit, Option.bind_some]
  simp only [skipSpaces_append _ htimes, Option.bind_some]
  rw [skipWord_append, Option.bind_some, htrailing, Option.bind_some, if_pos ⟨failed.isDigit, rfl⟩]
  rfl

/-- A text is matched exactly if it is white space, the words and the digit. -/
theorem matchFailedTimes_eq_some_iff {text : List Char} {times : Nat} :
    matchFailedTimes text = some times ↔ ∃ failed : FailedTimes, failed.text = text ∧ failed.times = times := by
  constructor
  · intro h
    simp only [matchFailedTimes, Option.bind_eq_bind, Option.bind_eq_some_iff] at h
    obtain ⟨afterSpaces, hspaces, afterFailed, hfailed, beforeDigit, hbeforeDigit, h⟩ := h
    cases beforeDigit with
    | nil => cases h
    | cons digit afterDigit =>
      simp only [Option.bind_eq_some_iff] at h
      obtain ⟨beforeTimes, hbeforeTimes, afterTimes, htimes, rest, hrest, h⟩ := h
      split at h
      · rename_i hend
        obtain ⟨hisDigit, rfl⟩ := hend
        obtain ⟨spaces₁, htext₁⟩ := exists_spaces_of_skipSpaces hspaces
        obtain ⟨spaces₂, htext₂⟩ := exists_spaces_of_skipSpaces hbeforeDigit
        obtain ⟨spaces₃, htext₃⟩ := exists_spaces_of_skipSpaces hbeforeTimes
        obtain ⟨spaces₄, htext₄⟩ := exists_spaces_of_skipSpaces hrest
        refine ⟨⟨spaces₁, spaces₂, digit, hisDigit, spaces₃, spaces₄⟩, ?_, Option.some.inj h⟩
        rw [htext₁, eq_append_of_skipWord hfailed, htext₂, htext₃, eq_append_of_skipWord htimes, htext₄,
          List.append_nil]
        rfl
      · cases h
  · rintro ⟨failed, rfl, rfl⟩
    exact matchFailedTimes_text failed

end text

section pattern

/-- The pattern `[\s\u00A0]+([0-9])` and so on, behind its first group. -/
def failedTimes : List Regex :=
  [.plus isSpace, .word "failed".toList, .plus isSpace, .group 2 (.set Char.isDigit), .plus isSpace,
    .word "times".toList, .plus isSpace]

/-- The pattern that the diagnostics of a job are matched against. -/
def DIAGNOSTIC_PATTERN : Regex :=
  .all ([.word "Task".toList, .plus isSpace, .group 1 (.star (!isLineTerminator ·))] ++ failedTimes)

/-- `Integer.parseInt` of one digit. -/
def digitValue (digit : List Char) : Nat := (digit.headD '0').toNat - '0'.toNat

/-- The two groups of a match, the second one as a number. Both take part in every match. -/
def bothGroups (groups : List (Nat × List Char)) : String × Nat :=
  (String.ofList ((groups.lookup 1).getD []), digitValue ((groups.lookup 2).getD []))

/-- The character of a digit. -/
def digitChar (digit : Nat) : Char := Char.ofNat (digit + '0'.toNat)

theorem digitChar_of_isDigit {c : Char} (h : c.isDigit = true) : digitChar (c.toNat - '0'.toNat) = c := by
  have hlo : '0'.toNat ≤ c.toNat := by
    simp only [Char.isDigit, Bool.and_eq_true, decide_eq_true_eq] at h
    exact h.1
  rw [digitChar, Nat.sub_add_cancel hlo, Char.ofNat_toNat]

section capture

variable {pattern : Regex} {c : Char} {text : List Char}

theorem capture_word_seq_of_isSpace {w : List Char} (hw : ∃ first rest, w = first :: rest ∧ isSpace first = false)
    (hc : isSpace c = true) : (Regex.seq (.word w) pattern).capture (c :: text) = none := by
  obtain ⟨first, rest, rfl, hfirst⟩ := hw
  have hne : ¬ (c == first) = true := by
    intro heq
    rw [eq_of_beq heq, hfirst] at hc
    cases hc
  rw [Regex.capture_word_seq, List.dropPrefix?, if_neg hne]
  rfl

theorem capture_digit_seq : (Regex.seq (.group 2 (.set Char.isDigit)) pattern).capture (c :: text) =
    if c.isDigit = true then (pattern.capture text).map ((2, [c]) :: ·) else none := by
  rw [Regex.capture_seq, Regex.attempts, Regex.attempts]
  split
  · simp only [List.map_cons, List.map_nil, List.findSome?_cons, List.findSome?_nil]
    cases pattern.capture text <;> rfl
  · rfl

theorem capture_spaces (text : List Char) : (Regex.plus isSpace).capture text =
    if skipSpaces text = some [] then some [] else none := by
  have hspaces : skipSpaces text = some [] ↔ (Regex.plus isSpace).Matches text := by
    rw [Regex.matches_plus_iff, skipSpaces, ← List.dropWhile_eq_nil_iff]
    cases text with
    | nil => simp
    | cons c text =>
      cases hc : isSpace c with
      | false => simp [hc]
      | true => simp [hc]
  rw [Regex.capture]
  by_cases h : skipSpaces text = some []
  · obtain ⟨m, hm⟩ := Option.isSome_iff_exists.mp (Regex.isSome_fullMatch_iff.mpr (hspaces.mp h))
    rw [if_pos h, hm, Option.map_some, Regex.groups_eq_nil rfl (List.mem_of_find?_eq_some hm)]
  · have hnone : (Regex.plus isSpace).fullMatch text = none := by
      rw [← Option.not_isSome_iff_eq_none, Regex.isSome_fullMatch_iff, ← hspaces]
      exact h
    rw [if_neg h, hnone]
    rfl

theorem capture_spaces_seq (hpattern : ∀ c text, isSpace c = true → pattern.capture (c :: text) = none)
    (text : List Char) : (Regex.seq (.plus isSpace) pattern).capture text = (skipSpaces text).bind pattern.capture := by
  rw [Regex.capture_plus_seq hpattern, skipSpaces]
  split <;> rfl

end capture

/-- Behind the first group there is one way at most to match, which is found
without going back. -/
theorem capture_failedTimes (text : List Char) : (Regex.all failedTimes).capture text =
    (matchFailedTimes text).map fun times => [(2, [digitChar times])] := by
  have hfailed : ∀ c rest, isSpace c = true → (Regex.all (failedTimes.drop 1)).capture (c :: rest) = none :=
    fun c rest hc => capture_word_seq_of_isSpace ⟨_, _, rfl, rfl⟩ hc
  have hdigit : ∀ c rest, isSpace c = true → (Regex.all (failedTimes.drop 3)).capture (c :: rest) = none := by
    intro c rest hc
    refine capture_digit_seq.trans (if_neg ?_)
    intro hc'
    rw [isSpace_of_isDigit hc'] at hc
    cases hc
  have htimes : ∀ c rest, isSpace c = true → (Regex.all (failedTimes.drop 5)).capture (c :: rest) = none :=
    fun c rest hc => capture_word_seq_of_isSpace ⟨_, _, rfl, rfl⟩ hc
  rw [matchFailedTimes]
  refine (capture_spaces_seq hfailed text).trans ?_
  cases skipSpaces text with
  | none => rfl
  | some afterSpaces =>
    refine (Regex.capture_word_seq _ _ _).trans ?_
    simp only [Option.bind_eq_bind, Option.bind_some, skipWord]
    cases afterSpaces.dropPrefix? "failed".toList with
    | none => rfl
    | some afterFailed =>
      refine (capture_spaces_seq hdigit afterFailed).trans ?_
      simp only [Option.bind_some]
      cases skipSpaces afterFailed with
      | none => rfl
      | some beforeDigit =>
        cases beforeDigit with
        | nil => rfl
        | cons digit afterDigit =>
          have hend : (Regex.all (failedTimes.drop 4)).capture afterDigit = (skipSpaces afterDigit).bind fun text =>
              (text.dropPrefix? "times".toList).bind fun text =>
                if skipSpaces text = some [] then some [] else none := by
            refine (capture_spaces_seq htimes afterDigit).trans ?_
            congr 1
            funext beforeTimes
            refine (Regex.capture_word_seq _ _ _).trans ?_
            congr 1
            funext afterTimes
            exact capture_spaces afterTimes
          refine capture_digit_seq.trans ?_
          simp only [Option.bind_some]
          refine (congrArg (fun found : Option (List (Nat × List Char)) => if digit.isDigit = true then
            found.map ((2, [digit]) :: ·) else none) hend).trans ?_
          cases skipSpaces afterDigit with
          | none => simp
          | some beforeTimes =>
            simp only [Option.bind_some]
            cases beforeTimes.dropPrefix? "times".toList with
            | none => simp
            | some afterTimes =>
              simp only [Option.bind_some]
              cases skipSpaces afterTimes with
              | none => simp
              | some rest =>
                by_cases hisDigit : digit.isDigit = true
                · by_cases hrest : rest = []
                  · simp only [hisDigit, hrest, if_true, and_self, Option.map_some, Option.bind_some,
                      digitChar_of_isDigit hisDigit]
                  · simp [hisDigit, hrest]
                · simp [hisDigit]

theorem digitValue_digitChar : ∀ digit < 10, digitValue [digitChar digit] = digit := by decide

theorem FailedTimes.times_lt (failed : FailedTimes) : failed.times < 10 := by
  have hdigit := failed.isDigit
  simp only [Char.isDigit, Bool.and_eq_true, decide_eq_true_eq] at hdigit
  have hhi : failed.digit.toNat ≤ 57 := hdigit.2
  have hzero : '0'.toNat = 48 := rfl
  rw [FailedTimes.times]
  omega

/-- The groups are those that a backtracking matcher of the pattern finds. -/
theorem diagnosticMatcher_eq_capture (diagnosticInfo : String) : diagnosticMatcher diagnosticInfo =
    (DIAGNOSTIC_PATTERN.capture diagnosticInfo.toList).map bothGroups := by
  have hgroup : ∀ text : List Char, ((Regex.all (.group 1 (.star (!isLineTerminator ·)) :: failedTimes)).capture
      text).map bothGroups = (List.range ((text.takeWhile (!isLineTerminator ·)).length + 1)).reverse.findSome?
        fun length => (matchFailedTimes (text.drop length)).bind fun times =>
          some (String.ofList (text.take length), times) := by
    intro text
    refine (congrArg (Option.map bothGroups) (Regex.capture_seq _ _ text)).trans ?_
    rw [Regex.attempts, Regex.attempts, Regex.spans_eq, List.map_map, List.findSome?_map, List.map_findSome?]
    congr 1
    funext length
    simp only [Function.comp_apply, capture_failedTimes, Option.map_map]
    cases htimes : matchFailedTimes (text.drop length) with
    | none => rfl
    | some times =>
      obtain ⟨failed, -, rfl⟩ := matchFailedTimes_eq_some_iff.mp htimes
      have hvalue := digitValue_digitChar _ failed.times_lt
      simp only [Option.map_some, Option.bind_some, Option.some.injEq]
      exact Prod.ext rfl hvalue
  rw [diagnosticMatcher, Option.bind_eq_bind]
  refine Eq.symm ((congrArg (Option.map bothGroups) (Regex.capture_word_seq _ _ _)).trans ?_)
  rw [Option.map_bind]
  unfold skipWord
  congr 1
  funext text
  refine (congrArg (Option.map bothGroups) (Regex.capture_seq _ _ text)).trans ?_
  rw [Regex.attempts_plus, List.findSome?_map, List.map_findSome?]
  congr 1
  funext spaces
  simp only [Function.comp_apply, List.nil_append, Option.map_id']
  exact hgroup (text.drop (spaces + 1))

end pattern

section capturedTask

/-- A beginning is accepted as a whole if and only if a repetition can take it. -/
theorem le_length_takeWhile_iff {p : Char → Bool} {text : List Char} {n : Nat} (hn : n ≤ text.length) :
    n ≤ (text.takeWhile p).length ↔ ∀ c ∈ text.take n, p c = true := by
  constructor
  · intro h c hc
    have htake : text.takeWhile p = text.take (text.takeWhile p).length :=
      List.prefix_iff_eq_take.mp (List.takeWhile_prefix p)
    have hshorter : text.take n = (text.takeWhile p).take n := by
      conv_rhs => rw [htake, List.take_take, min_eq_left h]
    rw [hshorter] at hc
    exact List.mem_takeWhile_imp (List.mem_of_mem_take hc)
  · intro h
    have htext : (text.take n ++ text.drop n).takeWhile p = text.take n ++ (text.drop n).takeWhile p :=
      List.takeWhile_append_of_pos h
    rw [List.take_append_drop] at htext
    rw [htext, List.length_append, List.length_take, min_eq_left hn]
    exact Nat.le_add_right _ _

/-- Diagnostics that name the task that has failed. -/
structure DiagnosticText where
  afterTask : Spaces
  taskId : List Char
  oneLine : ∀ c ∈ taskId, isLineTerminator c = false
  failed : FailedTimes

def DiagnosticText.text (diagnostic : DiagnosticText) : String :=
  String.ofList ("Task".toList ++ (diagnostic.afterTask.characters ++ (diagnostic.taskId ++ diagnostic.failed.text)))

theorem DiagnosticText.toList_text (diagnostic : DiagnosticText) : diagnostic.text.toList =
    "Task".toList ++ (diagnostic.afterTask.characters ++ (diagnostic.taskId ++ diagnostic.failed.text)) :=
  String.toList_ofList

/-- What is found in diagnostics is in them. -/
theorem exists_diagnosticText {diagnosticInfo taskId : String} {times : Nat}
    (h : diagnosticMatcher diagnosticInfo = some (taskId, times)) : ∃ diagnostic : DiagnosticText,
      diagnostic.text = diagnosticInfo ∧ String.ofList diagnostic.taskId = taskId ∧
        diagnostic.failed.times = times := by
  rw [diagnosticMatcher, Option.bind_eq_bind, Option.bind_eq_some_iff] at h
  obtain ⟨text, hword, h⟩ := h
  obtain ⟨spaces, hspaces, h⟩ := List.exists_of_findSome?_eq_some h
  obtain ⟨length, hlength, h⟩ := List.exists_of_findSome?_eq_some h
  rw [Option.bind_eq_bind, Option.bind_eq_some_iff] at h
  obtain ⟨times', htimes, h⟩ := h
  obtain ⟨rfl, rfl⟩ := Prod.mk.inj (Option.some.inj h)
  obtain ⟨failed, hfailed, rfl⟩ := matchFailedTimes_eq_some_iff.mp htimes
  rw [List.mem_reverse, List.mem_range] at hspaces hlength
  have hlong : ∀ {p : Char → Bool} {l : List Char}, (l.takeWhile p).length ≤ l.length :=
    fun {_ _} => (List.takeWhile_sublist _).length_le
  have hafterTask : ∀ c ∈ text.take (spaces + 1), isSpace c = true :=
    (le_length_takeWhile_iff (hspaces.trans_le hlong)).mp hspaces
  have htaskId : ∀ c ∈ (text.drop (spaces + 1)).take length, (!isLineTerminator c) = true :=
    (le_length_takeWhile_iff ((Nat.le_of_lt_succ hlength).trans hlong)).mp (Nat.le_of_lt_succ hlength)
  have hne : text.take (spaces + 1) ≠ [] := by
    have hlt := hspaces.trans_le hlong
    rw [ne_eq, List.take_eq_nil_iff, not_or]
    refine ⟨by omega, ?_⟩
    rintro rfl
    exact absurd hlt (Nat.not_lt_zero _)
  refine ⟨⟨⟨text.take (spaces + 1), hne, hafterTask⟩, (text.drop (spaces + 1)).take length,
    fun c hc => by simpa using htaskId c hc, failed⟩, ?_, rfl, rfl⟩
  rw [← String.toList_inj, DiagnosticText.toList_text, hfailed, List.take_append_drop, List.take_append_drop,
    ← eq_append_of_skipWord hword]

/-- White space at the end of a text is known by what stands before it. -/
theorem eq_of_append_spaces {text text' : List Char} {spaces spaces' : Spaces}
    (htext : ∀ c ∈ text.getLast?, isSpace c = false) (htext' : ∀ c ∈ text'.getLast?, isSpace c = false)
    (h : text ++ spaces.characters = text' ++ spaces'.characters) : text = text' := by
  have hreverse : spaces.characters.reverse ++ text.reverse = spaces'.characters.reverse ++ text'.reverse := by
    rw [← List.reverse_append, ← List.reverse_append, h]
  rw [← List.head?_reverse] at htext htext'
  have hleft := (takeWhile_isSpace (fun c hc => spaces.isSpace c (List.mem_reverse.mp hc)) htext).2
  have hright := (takeWhile_isSpace (fun c hc => spaces'.isSpace c (List.mem_reverse.mp hc)) htext').2
  rw [hreverse, hright] at hleft
  exact (List.reverse_injective hleft).symm

/-- Read from the end, a text behind the id is known by what stands before it. -/
theorem eq_of_append_rest {text text' : List Char} {failed failed' : FailedTimes}
    (h : text ++ failed.rest = text' ++ failed'.rest) : text = text' := by
  have hsplit : ∀ (text : List Char) (failed : FailedTimes), text ++ failed.rest =
      (text ++ "failed".toList ++ failed.beforeDigit.characters ++ [failed.digit] ++
        failed.beforeTimes.characters ++ "times".toList) ++ failed.trailing.characters := by
    intro text failed
    simp [FailedTimes.rest_eq]
  have hlast : ∀ (text : List Char) (last : Char), isSpace last = false →
      ∀ c ∈ (text ++ [last]).getLast?, isSpace c = false := by
    intro text last hspace c hc
    rw [List.getLast?_concat] at hc
    rwa [← Option.some.inj hc]
  have hword : ∀ (text word : List Char) (last : Char), isSpace last = false →
      ∀ c ∈ (text ++ (word ++ [last])).getLast?, isSpace c = false := by
    intro text word last
    rw [← List.append_assoc]
    exact hlast _ last
  rw [hsplit, hsplit] at h
  have htimes := List.append_cancel_right (eq_of_append_spaces (hword _ "time".toList 's' rfl)
    (hword _ "time".toList 's' rfl) h)
  have hdigit := eq_of_append_spaces (hlast _ _ (isSpace_of_isDigit failed.isDigit))
    (hlast _ _ (isSpace_of_isDigit failed'.isDigit)) htimes
  have hspaces := (List.append_inj' hdigit rfl).1
  exact List.append_cancel_right (eq_of_append_spaces (hword _ "faile".toList 'd' rfl)
    (hword _ "faile".toList 'd' rfl) hspaces)

/-- The largest number that something is found at is come to first. -/
theorem findSome?_reverse_range {α : Type} {f : Nat → Option α} {a : α} {n bound : Nat} (hn : n < bound)
    (hfound : f n = some a) (hlarger : ∀ k, n < k → k < bound → f k = none) :
    (List.range bound).reverse.findSome? f = some a := by
  induction bound with
  | zero => exact absurd hn (Nat.not_lt_zero n)
  | succ bound ih =>
    rw [List.range_succ, List.reverse_append, List.reverse_singleton, List.singleton_append, List.findSome?_cons]
    rcases Nat.lt_succ_iff_lt_or_eq.mp hn with hlt | rfl
    · rw [hlarger bound hlt (Nat.lt_succ_self bound)]
      exact ih hlt fun k hk hbound => hlarger k hk (hbound.trans (Nat.lt_succ_self bound))
    · rw [hfound]

/-- What the first group takes of white space behind it: all that is on the
same line but for the last character. -/
def keptSpaces (spaces : List Char) : List Char := spaces.dropLast.takeWhile (!isLineTerminator ·)

theorem keptSpaces_spec {spaces : List Char} (hne : spaces ≠ []) :
    (keptSpaces spaces).length < spaces.length ∧
      keptSpaces spaces ++ spaces.drop (keptSpaces spaces).length = spaces := by
  have hpos := List.length_pos_iff.mpr hne
  have hlength : (keptSpaces spaces).length ≤ spaces.dropLast.length := (List.takeWhile_sublist _).length_le
  rw [List.length_dropLast] at hlength
  have htake : keptSpaces spaces = spaces.dropLast.take (keptSpaces spaces).length :=
    List.prefix_iff_eq_take.mp (List.takeWhile_prefix _)
  rw [List.dropLast_eq_take, List.take_take, min_eq_left hlength] at htake
  refine ⟨by omega, ?_⟩
  conv_lhs => rw [htake]
  rw [List.length_take, min_eq_left (by omega), List.take_append_drop]

/-- Of the ways to match with an id the one with the longest first group is found. -/
theorem findSome?_matchFailedTimes {taskId text : List Char} {failed : FailedTimes}
    (honeLine : ∀ c ∈ taskId, isLineTerminator c = false) (htext : text = taskId ++ failed.text) :
    ((List.range ((text.takeWhile (!isLineTerminator ·)).length + 1)).reverse.findSome? fun length => do
        let times ← matchFailedTimes (text.drop length)
        some (String.ofList (text.take length), times)) =
      some (String.ofList (taskId ++ keptSpaces failed.beforeFailed.characters), failed.times) := by
  obtain ⟨hkept, hspaces⟩ := keptSpaces_spec failed.beforeFailed.characters_ne
  obtain ⟨captured, hcaptured⟩ : ∃ captured, taskId ++ keptSpaces failed.beforeFailed.characters = captured := ⟨_, rfl⟩
  have hlength := congrArg List.length hcaptured
  rw [List.length_append] at hlength
  have hsplit : text = captured ++
      (failed.beforeFailed.characters.drop (keptSpaces failed.beforeFailed.characters).length ++ failed.rest) := by
    rw [htext, FailedTimes.text, ← hcaptured, List.append_assoc,
      ← List.append_assoc (keptSpaces failed.beforeFailed.characters), hspaces]
  have htextLength : captured.length ≤ text.length := by
    rw [hsplit, List.length_append]
    exact Nat.le_add_right _ _
  have htake : text.take captured.length = captured := by
    rw [hsplit]
    exact List.take_left
  have hbound : captured.length ≤ (text.takeWhile (!isLineTerminator ·)).length := by
    rw [le_length_takeWhile_iff htextLength, htake, ← hcaptured, List.forall_mem_append]
    refine ⟨fun c hc => ?_, fun c hc => ?_⟩
    · rw [honeLine c hc]
      rfl
    · exact List.mem_takeWhile_imp (p := fun c => !isLineTerminator c) hc
  rw [hcaptured]
  refine findSome?_reverse_range (n := captured.length) (Nat.lt_succ_of_le hbound) ?_ ?_
  · let shorter : FailedTimes :=
      { failed with
        beforeFailed := ⟨failed.beforeFailed.characters.drop (keptSpaces failed.beforeFailed.characters).length,
          by rw [ne_eq, List.drop_eq_nil_iff]; omega,
          fun c hc => failed.beforeFailed.isSpace c (List.mem_of_mem_drop hc)⟩ }
    have htimes : matchFailedTimes (text.drop captured.length) = some failed.times := by
      rw [hsplit, List.drop_left]
      exact matchFailedTimes_text shorter
    rw [htimes, htake]
    rfl
  · intro k hlonger hk
    cases htimes : matchFailedTimes (text.drop k) with
    | none => rfl
    | some times =>
      -- The text before the last "failed" ends with white space behind a longer first group.
      obtain ⟨failed', hfailed', -⟩ := matchFailedTimes_eq_some_iff.mp htimes
      have hkBound : k ≤ (text.takeWhile (!isLineTerminator ·)).length := Nat.le_of_lt_succ hk
      have hkLength : k ≤ text.length := hkBound.trans (List.takeWhile_sublist _).length_le
      have hparts : (taskId ++ failed.beforeFailed.characters) ++ failed.rest =
          (text.take k ++ failed'.beforeFailed.characters) ++ failed'.rest := by
        rw [List.append_assoc, List.append_assoc, ← FailedTimes.text, ← FailedTimes.text, hfailed',
          List.take_append_drop, htext]
      have hcount := congrArg List.length (eq_of_append_rest hparts)
      have hpos' := List.length_pos_iff.mpr failed'.beforeFailed.characters_ne
      rw [List.length_append, List.length_append, List.length_take, min_eq_left hkLength] at hcount
      obtain ⟨more, rfl⟩ := Nat.exists_eq_add_of_le (show taskId.length ≤ k by omega)
      have hall := (le_length_takeWhile_iff hkLength).mp hkBound
      have htakeMore : text.take (taskId.length + more) = taskId ++ failed.beforeFailed.characters.take more := by
        rw [htext, FailedTimes.text, List.take_length_add_append, List.take_append_of_le_length (by omega)]
      have hlines : ∀ c ∈ failed.beforeFailed.characters.dropLast.take more, (!isLineTerminator c) = true := by
        intro c hc
        rw [List.dropLast_eq_take, List.take_take, min_eq_left (by omega)] at hc
        exact hall c (by rw [htakeMore]; exact List.mem_append_right _ hc)
      have hfew := (le_length_takeWhile_iff (by rw [List.length_dropLast]; omega)).mpr hlines
      have hkeptLength : (keptSpaces failed.beforeFailed.characters).length =
          (failed.beforeFailed.characters.dropLast.takeWhile (!isLineTerminator ·)).length := rfl
      exact absurd hfew (by omega)

/-- The id begins where the white space before it ends. -/
def DiagnosticText.Trimmed (diagnostic : DiagnosticText) : Prop :=
  ∃ first rest, diagnostic.taskId = first :: rest ∧ isSpace first = false

/-- The id is found with the white space behind it, but for the last character. -/
theorem diagnosticMatcher_text {diagnostic : DiagnosticText} (htrimmed : diagnostic.Trimmed) :
    diagnosticMatcher diagnostic.text =
      some (String.ofList (diagnostic.taskId ++ keptSpaces diagnostic.failed.beforeFailed.characters),
        diagnostic.failed.times) := by
  have hstart : ∀ c ∈ (diagnostic.taskId ++ diagnostic.failed.text).head?, isSpace c = false := by
    intro c hc
    obtain ⟨first, rest, htaskId, hfirst⟩ := htrimmed
    rw [htaskId] at hc
    rwa [← Option.some.inj hc]
  obtain ⟨htake, -⟩ := takeWhile_isSpace diagnostic.afterTask.isSpace hstart
  have hpos := List.length_pos_iff.mpr diagnostic.afterTask.characters_ne
  rw [diagnosticMatcher, DiagnosticText.toList_text, skipWord_append]
  simp only [Option.bind_eq_bind, Option.bind_some]
  rw [htake]
  refine findSome?_reverse_range (n := diagnostic.afterTask.characters.length - 1) (by omega) ?_
    fun k hlt hbound => absurd hlt (by omega)
  have hdrop : (diagnostic.afterTask.characters ++ (diagnostic.taskId ++ diagnostic.failed.text)).drop
      (diagnostic.afterTask.characters.length - 1 + 1) = diagnostic.taskId ++ diagnostic.failed.text :=
    List.drop_left' (by omega)
  exact findSome?_matchFailedTimes diagnostic.oneLine hdrop

theorem Spaces.matches_plus (spaces : Spaces) : (Regex.plus mapreduce.isSpace).Matches spaces.characters :=
  Regex.matches_plus_iff.mpr ⟨spaces.characters_ne, spaces.isSpace⟩

theorem FailedTimes.matches_text (failed : FailedTimes) : (Regex.all failedTimes).Matches failed.text :=
  ⟨_, _, rfl, failed.beforeFailed.matches_plus, _, _, rfl, Regex.matches_word _, _, _, rfl,
    failed.beforeDigit.matches_plus, [failed.digit], _, rfl, ⟨failed.digit, failed.isDigit, rfl⟩, _, _, rfl,
    failed.beforeTimes.matches_plus, _, _, rfl, Regex.matches_word _, failed.trailing.matches_plus⟩

theorem DiagnosticText.matches_text (diagnostic : DiagnosticText) :
    DIAGNOSTIC_PATTERN.Matches diagnostic.text.toList := by
  rw [DiagnosticText.toList_text]
  have hline : (Regex.star (!isLineTerminator ·)).Matches diagnostic.taskId := by
    intro c hc
    simp only [diagnostic.oneLine c hc, Bool.not_false]
  exact ⟨_, _, rfl, Regex.matches_word _, _, _, rfl, diagnostic.afterTask.matches_plus, _, _, rfl, hline,
    diagnostic.failed.matches_text⟩

/-- The task and the number found in diagnostics are those that a backtracking
matcher of the pattern finds. They are found exactly in the texts that name a
task and how often it has failed, and the id that is found is the one that was
named, with the white space behind it that stands on the same line but for its
last character. -/
theorem diagnosticMatcher_spec (diagnosticInfo : String) :
    diagnosticMatcher diagnosticInfo = (DIAGNOSTIC_PATTERN.capture diagnosticInfo.toList).map bothGroups ∧
    ((diagnosticMatcher diagnosticInfo).isSome = true ↔
      ∃ diagnostic : DiagnosticText, diagnostic.text = diagnosticInfo) ∧
    ∀ diagnostic : DiagnosticText, diagnostic.text = diagnosticInfo → diagnostic.Trimmed →
      diagnosticMatcher diagnosticInfo =
        some (String.ofList (diagnostic.taskId ++ keptSpaces diagnostic.failed.beforeFailed.characters),
          diagnostic.failed.times) := by
  refine ⟨diagnosticMatcher_eq_capture diagnosticInfo, ⟨fun h => ?_, ?_⟩, ?_⟩
  · obtain ⟨⟨taskId, times⟩, hfound⟩ := Option.isSome_iff_exists.mp h
    obtain ⟨diagnostic, hdiagnostic, -⟩ := exists_diagnosticText hfound
    exact ⟨diagnostic, hdiagnostic⟩
  · rintro ⟨diagnostic, rfl⟩
    rw [diagnosticMatcher_eq_capture, Option.isSome_map, Regex.isSome_capture_iff]
    exact diagnostic.matches_text
  · rintro diagnostic rfl htrimmed
    exact diagnosticMatcher_text htrimmed

private def blank : Spaces := ⟨[' '], List.cons_ne_nil _ _, by simp [isSpace]⟩

/-- What the resource manager says of a job whose task has failed twice. -/
private def failedTwice : DiagnosticText where
  afterTask := blank
  taskId := "task_1_m_7".toList
  oneLine := by simp [isLineTerminator]
  failed := ⟨blank, blank, '2', rfl, blank, ⟨['\n'], List.cons_ne_nil _ _, by simp [isSpace]⟩⟩

theorem diagnosticMatcher_spec_failedTwice :
    diagnosticMatcher "Task task_1_m_7 failed 2 times\n" = some ("task_1_m_7", 2) :=
  (diagnosticMatcher_spec _).2.2 failedTwice rfl ⟨'t', "ask_1_m_7".toList, rfl, rfl⟩

end capturedTask

end drelephant.mapreduce
