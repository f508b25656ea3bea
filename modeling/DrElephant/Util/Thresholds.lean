import DrElephant.Java.Double
import DrElephant.Util.Utils

open ieee java.lang

namespace drelephant.util.Utils

/-- What comes of evaluating a part of a threshold: an exception of the script,
or a value by its text, which a null value does not have. -/
inductive Evaluation
  | scriptException
  | value (text : Option String)
  deriving DecidableEq, Repr

/-- The JavaScript engine, which is asked for one part after the other. -/
abbrev ScriptEngine := Nat → String → Evaluation

namespace Evaluation

/-- The number that a value denotes by its text. -/
def number : Evaluation → Option Binary64
  | scriptException => none
  | value text => text.bind Double.parseDouble

/-- A value that is null or whose text is no number. -/
def NoNumber (evaluation : Evaluation) : Prop :=
  evaluation ≠ scriptException ∧ evaluation.number = none

end Evaluation

/-- Stores one limit. The array is only looked at once the limit is there, and
after a script exception there is no array any more. -/
def setLimit (parsedLimits : Option (List Binary64)) (i : Nat) :
    Evaluation → Except JavaException (Option (List Binary64))
  | .scriptException => .ok none
  | .value text => do
    let text ← dereference text
    let limit ← (Double.parseDouble text).elim (.error .numberFormat) .ok
    let parsedLimits ← dereference parsedLimits
    pure (some (parsedLimits.set i limit))

/-- Stores the limits from an index on. -/
def setLimits (parsedLimits : Option (List Binary64)) (i : Nat) :
    List Evaluation → Except JavaException (Option (List Binary64))
  | [] => .ok parsedLimits
  | evaluation :: evaluations => do
    let parsedLimits ← setLimit parsedLimits i evaluation
    setLimits parsedLimits (i + 1) evaluations

/-- Returns the configured thresholds after evaluating and verifying the levels. -/
def getParam (engine : ScriptEngine) (rawLimits : Option String) (thresholdLevels : Int) :
    Except JavaException (Option (List Binary64)) :=
  match rawLimits with
  | none => .ok none
  | some rawLimits =>
    if rawLimits.isEmpty then .ok none
    else
      let thresholds := split ',' rawLimits
      if (thresholds.length : Int) ≠ thresholdLevels then .ok none
      else
        setLimits (some (List.replicate thresholds.length (.ofInt 0))) 0 (thresholds.mapIdx engine)

/-- The limits that a heuristic uses: the configured ones or else its own. -/
def loadLimits (engine : ScriptEngine) (rawLimits : Option String) (limits : List Binary64) :
    Except JavaException (List Binary64) := do
  let confLimits ← getParam engine rawLimits limits.length
  pure (confLimits.getD limits)

section spec

variable {engine : ScriptEngine} {rawLimits : Option String} {thresholdLevels : Int}

/-- The evaluations that the loop gets through: none but numbers and script
exceptions, and no number behind a script exception. -/
structure Harmless (evaluations : List Evaluation) : Prop where
  numbers : ∀ evaluation ∈ evaluations, ¬ evaluation.NoNumber
  order : evaluations.Pairwise fun evaluation later =>
    evaluation = .scriptException → later = .scriptException

theorem harmless_nil : Harmless [] := ⟨by simp, List.Pairwise.nil⟩

theorem harmless_scriptException_cons {evaluations : List Evaluation} :
    Harmless (.scriptException :: evaluations) ↔
      ∀ evaluation ∈ evaluations, evaluation = .scriptException := by
  constructor
  · intro h evaluation hevaluation
    exact (List.pairwise_cons.mp h.order).1 evaluation hevaluation rfl
  · intro h
    refine ⟨?_, List.pairwise_cons.mpr ⟨fun later hlater _ => h later hlater, ?_⟩⟩
    · rintro evaluation hevaluation ⟨hvalue, -⟩
      rcases List.mem_cons.mp hevaluation with rfl | hrest
      · exact hvalue rfl
      · exact hvalue (h evaluation hrest)
    · exact List.pairwise_of_forall_mem_list fun _ _ later hlater _ => h later hlater

theorem harmless_value_cons {text : Option String} {evaluations : List Evaluation} :
    Harmless (.value text :: evaluations) ↔
      (∃ limit, (Evaluation.value text).number = some limit) ∧ Harmless evaluations := by
  rw [← Option.ne_none_iff_exists']
  constructor
  · intro h
    obtain ⟨hhead, hrest⟩ := List.forall_mem_cons.mp h.numbers
    exact ⟨fun hnone => hhead ⟨by simp, hnone⟩, hrest, (List.pairwise_cons.mp h.order).2⟩
  · rintro ⟨hnumber, hnumbers, horder⟩
    refine ⟨List.forall_mem_cons.mpr ⟨fun hnone => hnumber hnone.2, hnumbers⟩, ?_⟩
    refine List.pairwise_cons.mpr ⟨?_, horder⟩
    intro _ _ hvalue
    cases hvalue

/-- Once the array is gone only script exceptions are survived. -/
theorem setLimits_none_eq_ok_iff {i : Nat} {evaluations : List Evaluation}
    {limits : Option (List Binary64)} : setLimits none i evaluations = .ok limits ↔
      (∀ evaluation ∈ evaluations, evaluation = .scriptException) ∧ limits = none := by
  induction evaluations generalizing i with
  | nil => simp [setLimits, eq_comm]
  | cons evaluation evaluations ih =>
    cases evaluation with
    | scriptException => simp [setLimits, setLimit, bind, Except.bind, ih]
    | value text =>
      have herror : ∀ limits, setLimit none i (.value text) ≠ .ok limits := by
        intro limits hlimits
        simp only [setLimit, bind_eq_ok_iff] at hlimits
        obtain ⟨_, -, _, -, array, harray, -⟩ := hlimits
        cases harray
      simp only [setLimits, bind_eq_ok_iff, List.forall_mem_cons]
      refine iff_of_false ?_ (by simp)
      rintro ⟨limits, hlimits, -⟩
      exact herror limits hlimits

private theorem setLimit_some_eq_ok_iff {done rest : List Binary64} {zero : Binary64}
    {text : Option String} {limits : Option (List Binary64)} :
    setLimit (some (done ++ zero :: rest)) done.length (.value text) = .ok limits ↔
      ∃ limit, (Evaluation.value text).number = some limit ∧ limits = some (done ++ [limit] ++ rest) := by
  cases text with
  | none => simp [setLimit, dereference, Evaluation.number, bind, Except.bind]
  | some text =>
    rw [Evaluation.number, Option.bind_some]
    cases hnumber : Double.parseDouble text with
    | none => simp [setLimit, hnumber, bind, Except.bind]
    | some limit => simp [setLimit, hnumber, bind, Except.bind, pure, Except.pure, eq_comm]

/-- The loop returns for harmless evaluations and no others, with all numbers or
with null. -/
theorem setLimits_eq_ok_iff {done : List Binary64} {evaluations : List Evaluation}
    {limits : Option (List Binary64)} :
    setLimits (some (done ++ List.replicate evaluations.length (.ofInt 0))) done.length evaluations =
        .ok limits ↔
      Harmless evaluations ∧ limits = (evaluations.mapM Evaluation.number).map (done ++ ·) := by
  induction evaluations generalizing done with
  | nil => simp [setLimits, harmless_nil, eq_comm]
  | cons evaluation evaluations ih =>
    cases evaluation with
    | scriptException =>
      simp only [setLimits, setLimit, bind, Except.bind]
      rw [setLimits_none_eq_ok_iff, harmless_scriptException_cons]
      rfl
    | value text =>
      simp only [setLimits, bind_eq_ok_iff, List.length_cons, List.replicate_succ,
        setLimit_some_eq_ok_iff, harmless_value_cons]
      have hlength : ∀ limit : Binary64, done.length + 1 = (done ++ [limit]).length := by simp
      constructor
      · rintro ⟨_, ⟨limit, hnumber, rfl⟩, hrest⟩
        rw [hlength limit, ih] at hrest
        obtain ⟨hharmless, rfl⟩ := hrest
        refine ⟨⟨⟨limit, hnumber⟩, hharmless⟩, ?_⟩
        rw [List.mapM_cons, hnumber]
        cases evaluations.mapM Evaluation.number <;> simp
      · rintro ⟨⟨⟨limit, hnumber⟩, hharmless⟩, rfl⟩
        refine ⟨_, ⟨limit, hnumber, rfl⟩, ?_⟩
        rw [hlength limit, ih, List.mapM_cons, hnumber]
        refine ⟨hharmless, ?_⟩
        cases evaluations.mapM Evaluation.number <;> simp

/-- The parts of a threshold. Null and the empty text have none. -/
def thresholdParts (rawLimits : Option String) : Option (List String) :=
  (rawLimits.filter (!·.isEmpty)).map (split ',')

/-- What a threshold is to mean: a number for each level, or nothing. -/
def evaluated (engine : ScriptEngine) (rawLimits : Option String) (thresholdLevels : Int) :
    Option (List Binary64) :=
  match thresholdParts rawLimits with
  | none => none
  | some parts =>
    if (parts.length : Int) = thresholdLevels then (parts.mapIdx engine).mapM Evaluation.number
    else none

/-- A threshold is loaded as it is meant, and a heuristic falls back on its own
limits if it is malformed. -/
structure Loaded (engine : ScriptEngine) (rawLimits : Option String) (thresholdLevels : Int) : Prop where
  getParam : getParam engine rawLimits thresholdLevels =
    .ok (evaluated engine rawLimits thresholdLevels)
  loadLimits : ∀ limits : List Binary64, (limits.length : Int) = thresholdLevels →
    loadLimits engine rawLimits limits =
      .ok ((evaluated engine rawLimits thresholdLevels).getD limits)

theorem getParam_eq_ok_iff {limits : Option (List Binary64)} :
    getParam engine rawLimits thresholdLevels = .ok limits ↔
      (∀ parts ∈ thresholdParts rawLimits, (parts.length : Int) = thresholdLevels →
        Harmless (parts.mapIdx engine)) ∧ limits = evaluated engine rawLimits thresholdLevels := by
  cases rawLimits with
  | none => simp [getParam, thresholdParts, evaluated, eq_comm]
  | some rawLimits =>
    cases hempty : rawLimits.isEmpty with
    | true =>
      have hparts : thresholdParts (some rawLimits) = none := by
        simp [thresholdParts, Option.filter, hempty]
      simp [getParam, evaluated, hparts, hempty, eq_comm]
    | false =>
      have hparts : thresholdParts (some rawLimits) = some (split ',' rawLimits) := by
        simp [thresholdParts, Option.filter, hempty]
      simp only [getParam, evaluated, hparts, hempty, Bool.false_eq_true, if_false, ne_eq, ite_not,
        Option.mem_some_iff, forall_eq']
      by_cases hlength : ((split ',' rawLimits).length : Int) = thresholdLevels
      · have hloop := @setLimits_eq_ok_iff [] ((split ',' rawLimits).mapIdx engine) limits
        rw [List.length_mapIdx] at hloop
        simp only [List.nil_append, List.length_nil, Option.map_id'] at hloop
        rw [if_pos hlength, if_pos hlength, hloop]
        simp [hlength]
      · rw [if_neg hlength, if_neg hlength]
        simp [hlength, eq_comm]

/-- Threshold parsing does what it is to do unless, with the right number of
parts, a part evaluates to null or to no number, or a part evaluates to a number
behind one that the script engine has refused. -/
theorem loaded_iff (engine : ScriptEngine) (rawLimits : Option String) (thresholdLevels : Int) :
    Loaded engine rawLimits thresholdLevels ↔
      ∀ parts ∈ thresholdParts rawLimits, (parts.length : Int) = thresholdLevels →
        Harmless (parts.mapIdx engine) := by
  constructor
  · intro h
    exact (getParam_eq_ok_iff.mp h.getParam).1
  · intro h
    have hparam := getParam_eq_ok_iff.mpr ⟨h, rfl⟩
    refine ⟨hparam, ?_⟩
    rintro limits rfl
    rw [loadLimits, hparam]
    rfl

/-- An engine that knows numbers only. -/
def numbersOnly : ScriptEngine := fun _ part =>
  if (Double.parseDouble part).isSome then .value (some part) else .scriptException

theorem getParam_scriptException_first :
    getParam numbersOnly (some "2&,4") 2 = .error .nullPointer ∧
      ¬ Loaded numbersOnly (some "2&,4") 2 := by
  have hthrows : getParam numbersOnly (some "2&,4") 2 = .error .nullPointer := by decide +kernel
  refine ⟨hthrows, fun hloaded => ?_⟩
  rw [hloaded.getParam] at hthrows
  cases hthrows

end spec

end drelephant.util.Utils
