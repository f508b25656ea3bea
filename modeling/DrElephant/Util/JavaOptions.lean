import DrElephant.Java.WhiteSpace
import DrElephant.Schedulers.Schedulers
import DrElephant.Spark.SparkApplicationData

open collections drelephant.analysis drelephant.schedulers drelephant.spark java.lang

namespace drelephant.util

namespace Utils

/-- Puts the option that a token of a java option string sets. -/
def addJavaOption (str : String) (options : OrderedMap String String) (token : String) :
    Except JavaException (OrderedMap String String) :=
  if token.isEmpty then .ok options
  else if !("-D".toList.isPrefixOf token.toList) then
    .error (.illegalArgument
      ("Cannot parse java option string [" ++ str ++ "]. Some options does not begin with -D prefix."))
  else
    match splitInTwo '=' (String.ofList (token.toList.drop 2)) with
    | [key, value] => .ok (options.put key value)
    | _ =>
      .error (.illegalArgument
        ("Cannot parse java option string [" ++ str ++ "]. The part [" ++ token ++ "] does not contain a =."))

/-- Parse a java option string in the format of "-Dfoo=bar -Dfoo2=bar ..." into a
{optionName -> optionValue} map. -/
def parseJavaOptions (str : String) : Except JavaException (OrderedMap String String) :=
  (splitWhiteSpace (trim str)).foldlM (addJavaOption str) .empty

/-- An option that sets a property. -/
def assignment (entry : String × String) : String := "-D" ++ entry.1 ++ "=" ++ entry.2

/-- Whether a token has the form -Dkey=value. The key ends at the first `=`. -/
def IsAssignment (token : String) : Prop :=
  ∃ entry : String × String, '=' ∉ entry.1.toList ∧ token = assignment entry

section parse

variable {str token : String} {options : OrderedMap String String}

theorem toList_assignment (entry : String × String) :
    (assignment entry).toList = '-' :: 'D' :: (entry.1 ++ String.singleton '=' ++ entry.2).toList := by
  simp [assignment]

theorem addJavaOption_assignment {entry : String × String} (hkey : '=' ∉ entry.1.toList) :
    addJavaOption str options (assignment entry) = .ok (options.put entry.1 entry.2) := by
  have hlist := toList_assignment entry
  have hne : (assignment entry).isEmpty = false := by
    rw [Bool.eq_false_iff]
    intro hempty
    rw [String.isEmpty_iff.mp hempty] at hlist
    cases hlist
  have hprefix : "-D".toList.isPrefixOf (assignment entry).toList = true := by
    rw [hlist]
    rfl
  have hrest : String.ofList ((assignment entry).toList.drop 2) =
      entry.1 ++ String.singleton '=' ++ entry.2 := by
    rw [hlist, List.drop_succ_cons, List.drop_succ_cons, List.drop_zero, String.ofList_toList]
  rw [addJavaOption, hne, hprefix, hrest, splitInTwo_append hkey]
  rfl

theorem addJavaOption_empty : addJavaOption str options "" = .ok options := rfl

variable (str options) in
/-- Any other option is refused. -/
theorem addJavaOption_other (hne : token ≠ "") (hother : ¬ IsAssignment token) :
    ∃ message, addJavaOption str options token = .error (.illegalArgument message) := by
  have hnonempty : ¬ token.isEmpty = true := fun h => hne (String.isEmpty_iff.mp h)
  rw [addJavaOption, if_neg hnonempty]
  split
  · exact ⟨_, rfl⟩
  · rename_i hprefix
    split
    · rename_i key value hparts
      obtain ⟨hkey, hrest⟩ := eq_append_of_splitInTwo hparts
      refine absurd ⟨(key, value), hkey, ?_⟩ hother
      obtain ⟨rest, htoken⟩ : "-D".toList <+: token.toList := by
        rw [← List.isPrefixOf_iff_prefix]
        simpa using hprefix
      rw [← String.toList_inj, toList_assignment, ← hrest, ← htoken]
      simp
    · exact ⟨_, rfl⟩

/-- Empty tokens are skipped. -/
theorem foldlM_addJavaOption_filter (tokens : List String) (options : OrderedMap String String) :
    tokens.foldlM (addJavaOption str) options =
      (tokens.filter fun token => !token.isEmpty).foldlM (addJavaOption str) options := by
  induction tokens generalizing options with
  | nil => rfl
  | cons token tokens ih =>
    cases hempty : token.isEmpty with
    | true =>
      rw [String.isEmpty_iff.mp hempty, List.foldlM_cons, addJavaOption_empty]
      exact ih options
    | false =>
      rw [List.filter_cons, if_pos (by rw [hempty]; rfl), List.foldlM_cons, List.foldlM_cons]
      exact congrArg _ (funext ih)

variable (str) in
theorem foldlM_assignments {entries : List (String × String)}
    (hkeys : ∀ entry ∈ entries, '=' ∉ entry.1.toList) (options : OrderedMap String String) :
    (entries.map assignment).foldlM (addJavaOption str) options = .ok (options.putAll entries) := by
  induction entries generalizing options with
  | nil => rfl
  | cons entry entries ih =>
    obtain ⟨hkey, hrest⟩ := List.forall_mem_cons.mp hkeys
    rw [List.map_cons, List.foldlM_cons, addJavaOption_assignment hkey]
    exact ih hrest _

variable (str) in
theorem foldlM_other {tokens : List String} (hne : ∀ token ∈ tokens, token ≠ "")
    (hother : ∃ token ∈ tokens, ¬ IsAssignment token) (options : OrderedMap String String) :
    ∃ message, tokens.foldlM (addJavaOption str) options = .error (.illegalArgument message) := by
  induction tokens generalizing options with
  | nil =>
    obtain ⟨token, htoken, -⟩ := hother
    cases htoken
  | cons token tokens ih =>
    obtain ⟨hhead, htail⟩ := List.forall_mem_cons.mp hne
    by_cases htoken : IsAssignment token
    · obtain ⟨entry, hkey, rfl⟩ := htoken
      have hrest : ∃ token ∈ tokens, ¬ IsAssignment token := by
        obtain ⟨token, hmem, hnot⟩ := hother
        rcases List.mem_cons.mp hmem with rfl | hmem
        · exact absurd ⟨entry, hkey, rfl⟩ hnot
        · exact ⟨token, hmem, hnot⟩
      rw [List.foldlM_cons, addJavaOption_assignment hkey]
      exact ih htail hrest _
    · obtain ⟨message, hmessage⟩ := addJavaOption_other str options hhead htoken
      rw [List.foldlM_cons, hmessage]
      exact ⟨message, rfl⟩

theorem exists_entries {tokens : List String} (h : ∀ token ∈ tokens, IsAssignment token) :
    ∃ entries : List (String × String), (∀ entry ∈ entries, '=' ∉ entry.1.toList) ∧
      tokens = entries.map assignment := by
  induction tokens with
  | nil => exact ⟨[], by simp, rfl⟩
  | cons token tokens ih =>
    obtain ⟨⟨entry, hkey, rfl⟩, htokens⟩ := List.forall_mem_cons.mp h
    obtain ⟨entries, hkeys, rfl⟩ := ih htokens
    exact ⟨entry :: entries, List.forall_mem_cons.mpr ⟨hkey, hkeys⟩, rfl⟩

variable {tokens : List (List Char)}

theorem parseJavaOptions_eq (hseparated : Separated tokens str.toList)
    (htokens : ∀ token ∈ tokens, IsToken token) :
    parseJavaOptions str = (tokens.map String.ofList).foldlM (addJavaOption str) .empty := by
  rw [parseJavaOptions, foldlM_addJavaOption_filter, filter_splitWhiteSpace_trim hseparated htokens]

end parse

end Utils

namespace InfoExtractor

def SPARK_EXTRA_JAVA_OPTIONS : String := "spark.driver.extraJavaOptions"

/-- A temporary solution that SPARK 1.2 need to escape '&' with '\\&' in its javaOptions.
This is the reverse process that recovers the escaped string. -/
def unescapeString (s : String) : String := replaceAll s "\\&" "&"

/-- Retrieve the spark properties from SPARK_EXTRA_JAVA_OPTIONS -/
def retrieveSparkProperties (appData : SparkApplicationData) : Except JavaException Properties :=
  match appData.environmentData.getSparkProperty SPARK_EXTRA_JAVA_OPTIONS with
  | none => .ok fun _ => none
  | some prop =>
    match Utils.parseJavaOptions prop with
    | .ok javaOptions => .ok (javaOptions.mapValues unescapeString).get?
    -- the exception is one for the log, and a number format exception is one of its kind
    | .error (.illegalArgument _) => .ok fun _ => none
    | .error .numberFormat => .ok fun _ => none
    | .error e => .error e

section roundTrip

/-- What is to be written in the place of a value. -/
def escapeString (s : String) : String := replaceAll s "&" "\\&"

private theorem escapeChars_cons (c : Char) (text : List Char) :
    replaceChars ['&'] ['\\', '&'] 0 (c :: text) =
      if c = '&' then '\\' :: '&' :: replaceChars ['&'] ['\\', '&'] 0 text
      else c :: replaceChars ['&'] ['\\', '&'] 0 text := by
  by_cases hc : c = '&'
  · subst hc
    rfl
  · have hplain : ¬ (['&'].isPrefixOf (c :: text) = true) := by
      simpa [List.isPrefixOf] using Ne.symm hc
    rw [replaceChars, if_neg hplain, if_neg hc]

/-- No escaped text begins with an ampersand. -/
private theorem head?_escapeChars (text : List Char) :
    ∀ rest, replaceChars ['&'] ['\\', '&'] 0 text ≠ '&' :: rest := by
  intro rest
  cases text with
  | nil => simp [replaceChars]
  | cons c text =>
    rw [escapeChars_cons]
    split
    · simp
    · rename_i hc
      simp [hc]

private theorem unescapeChars_escapeChars (text : List Char) :
    replaceChars ['\\', '&'] ['&'] 0 (replaceChars ['&'] ['\\', '&'] 0 text) = text := by
  induction text with
  | nil => rfl
  | cons c text ih =>
    rw [escapeChars_cons]
    split
    · rename_i hc
      simp [replaceChars, ih, hc]
    · -- a backslash in front of an escaped text is not part of an escape
      have hplain : ¬ (['\\', '&'].isPrefixOf (c :: replaceChars ['&'] ['\\', '&'] 0 text) = true) := by
        intro hprefix
        obtain ⟨rest, hrest⟩ := List.isPrefixOf_iff_prefix.mp hprefix
        exact head?_escapeChars text rest (List.cons.inj hrest).2.symm
      rw [replaceChars, if_neg hplain, ih]

theorem unescapeString_escapeString (s : String) : unescapeString (escapeString s) = s := by
  have hescape : "\\&".toList = ['\\', '&'] := rfl
  have hampersand : "&".toList = ['&'] := rfl
  rw [unescapeString, escapeString, replaceAll, replaceAll, hescape, hampersand, String.toList_ofList,
    unescapeChars_escapeChars, String.ofList_toList]

/-- An entry as it stands in the java options. -/
def written (entry : String × String) : String :=
  Utils.assignment (entry.1, escapeString entry.2)

/-- A text without the space and the control characters. -/
def Visible (text : String) : Prop := ∀ c ∈ text.toList, 32 < c.toNat

theorem visible_iff_all {text : String} :
    Visible text ↔ (text.toList.all fun c => decide (32 < c.toNat)) = true := by
  simp only [Visible, List.all_eq_true, decide_eq_true_eq]

private theorem high_escapeChars {text : List Char} (h : ∀ c ∈ text, 32 < c.toNat) :
    ∀ c ∈ replaceChars ['&'] ['\\', '&'] 0 text, 32 < c.toNat := by
  induction text with
  | nil => simp [replaceChars]
  | cons c text ih =>
    obtain ⟨hc, hrest⟩ := List.forall_mem_cons.mp h
    rw [escapeChars_cons]
    split
    · refine List.forall_mem_cons.mpr ⟨by decide, List.forall_mem_cons.mpr ⟨by decide, ih hrest⟩⟩
    · exact List.forall_mem_cons.mpr ⟨hc, ih hrest⟩

theorem isToken_written {entry : String × String} (hkey : Visible entry.1) (hvalue : Visible entry.2) :
    IsToken (written entry).toList := by
  have hescaped : ∀ c ∈ (escapeString entry.2).toList, 32 < c.toNat := by
    rw [escapeString, replaceAll, String.toList_ofList]
    exact high_escapeChars hvalue
  rw [written, Utils.toList_assignment, String.toList_append, String.toList_append, String.toList_singleton]
  have hequals : ∀ c ∈ ['='], 32 < c.toNat := List.forall_mem_singleton.mpr (by decide)
  refine .of_high (List.cons_ne_nil _ _) ?_
  refine List.forall_mem_cons.mpr ⟨by decide, List.forall_mem_cons.mpr ⟨by decide, ?_⟩⟩
  exact List.forall_mem_append.mpr ⟨List.forall_mem_append.mpr ⟨hkey, hequals⟩, hescaped⟩

variable {appData : SparkApplicationData} {text : String}

theorem retrieveSparkProperties_of_parse {options : OrderedMap String String}
    (hprop : appData.environmentData.getSparkProperty SPARK_EXTRA_JAVA_OPTIONS = some text)
    (hparse : Utils.parseJavaOptions text = .ok options) :
    retrieveSparkProperties appData = .ok (options.mapValues unescapeString).get? := by
  simp only [retrieveSparkProperties, hprop, hparse]

/-- Properties that are written as java options, in any order and with any white
space between and around them, are retrieved as they were. -/
theorem retrieveSparkProperties_round_trip {properties : OrderedMap String String}
    (hkeys : ∀ entry ∈ properties.entries, Visible entry.1 ∧ '=' ∉ entry.1.toList)
    (hvalues : ∀ entry ∈ properties.entries, Visible entry.2) {entries : List (String × String)}
    (hperm : entries.Perm properties.entries)
    (hwritten : Separated (entries.map fun entry => (written entry).toList) text.toList)
    (hprop : appData.environmentData.getSparkProperty SPARK_EXTRA_JAVA_OPTIONS = some text) :
    retrieveSparkProperties appData = .ok properties.get? := by
  let escaped := entries.map fun entry => (entry.1, escapeString entry.2)
  have htokens : ∀ token ∈ entries.map fun entry => (written entry).toList, IsToken token := by
    intro token htoken
    obtain ⟨entry, hentry, rfl⟩ := List.mem_map.mp htoken
    have hmem := hperm.mem_iff.mp hentry
    exact isToken_written (hkeys entry hmem).1 (hvalues entry hmem)
  have hassignments : (entries.map fun entry => (written entry).toList).map String.ofList =
      escaped.map Utils.assignment := by
    simp [escaped, written]
  have hplain : ∀ entry ∈ escaped, '=' ∉ entry.1.toList := by
    intro entry hentry
    obtain ⟨entry, hmem, rfl⟩ := List.mem_map.mp hentry
    exact (hkeys entry (hperm.mem_iff.mp hmem)).2
  have hparse : Utils.parseJavaOptions text = .ok (OrderedMap.empty.putAll escaped) := by
    rw [Utils.parseJavaOptions_eq hwritten htokens, hassignments, Utils.foldlM_assignments _ hplain]
  have hdistinct : (escaped.map Prod.fst).Pairwise fun a b => (a == b) = false := by
    have hsame : escaped.map Prod.fst = entries.map Prod.fst := by simp [escaped]
    rw [hsame]
    refine (hperm.map Prod.fst).symm.pairwise properties.distinct ?_
    intro a b hab
    rw [beq_eq_false_iff_ne] at hab ⊢
    exact hab.symm
  have hentries : ((OrderedMap.empty.putAll escaped).mapValues unescapeString).entries = entries := by
    rw [OrderedMap.entries_mapValues, OrderedMap.entries_putAll (by simpa using hdistinct)]
    simp [escaped, Function.comp_def, unescapeString_escapeString]
  rw [retrieveSparkProperties_of_parse hprop hparse]
  refine congrArg _ (OrderedMap.get?_eq_of_perm ?_)
  rw [hentries]
  exact hperm

/-- An application of which nothing but its java options is known. -/
def submitted (javaOptions : String) : SparkApplicationData where
  isThrottled := false
  applicationId := none
  environmentData := ⟨fun key => if key = SPARK_EXTRA_JAVA_OPTIONS then some javaOptions else none⟩
  executorData := { order := .insertion }
  jobProgressData := { jobOrder := .insertion, stageOrder := .insertion }

/-- A link with an escape of its own, and an empty text. -/
def links : OrderedMap String String :=
  OrderedMap.empty.putAll [("azkaban.link.job.url", "http://host?flow=a\\&job=b"), ("empty", "")]

def linkOptions : List Char :=
  ' ' :: ((written ("empty", "")).toList ++ '\t' :: '\n' ::
    ((written ("azkaban.link.job.url", "http://host?flow=a\\&job=b")).toList ++ [' ']))

theorem retrieveSparkProperties_round_trip_links :
    retrieveSparkProperties (submitted (String.ofList linkOptions)) = .ok links.get? := by
  have hlinks : links.entries =
      [("azkaban.link.job.url", "http://host?flow=a\\&job=b"), ("empty", "")] := by decide
  have hperm : [("empty", ""), ("azkaban.link.job.url", "http://host?flow=a\\&job=b")].Perm
      links.entries := by
    rw [hlinks]
    exact List.Perm.swap _ _ _
  refine retrieveSparkProperties_round_trip ?_ ?_ hperm ?_ rfl
  · rw [hlinks]
    simp only [visible_iff_all]
    decide
  · rw [hlinks]
    simp only [visible_iff_all]
    decide
  · rw [String.toList_ofList]
    exact .space rfl (.token (by simp; rfl) (.space rfl (.space rfl (.token (by simp; rfl) (.space rfl .nil)))))

end roundTrip

section otherFlags

/-- The value that the last of several options sets for a key. -/
def lastValue (entries : List (String × String)) (key : String) : Option String :=
  (entries.reverse.find? fun entry => entry.1 == key).map Prod.snd

theorem isSome_lastValue {entries : List (String × String)} {key : String}
    (hkey : key ∈ entries.map Prod.fst) : (lastValue entries key).isSome = true := by
  obtain ⟨entry, hentry, rfl⟩ := List.mem_map.mp hkey
  rw [lastValue, Option.isSome_map, List.find?_isSome]
  exact ⟨entry, List.mem_reverse.mpr hentry, beq_self_eq_true _⟩

variable {appData : SparkApplicationData} {text : String} {tokens : List String}

theorem parseJavaOptions_tokens (htokens : ∀ token ∈ tokens, IsToken token.toList)
    (hseparated : Separated (tokens.map String.toList) text.toList) :
    Utils.parseJavaOptions text = tokens.foldlM (Utils.addJavaOption text) .empty := by
  have htokens' : ∀ token ∈ tokens.map String.toList, IsToken token := by
    simpa using htokens
  rw [Utils.parseJavaOptions_eq hseparated htokens']
  simp

theorem get?_unescaped (entries : List (String × String)) (key : String) :
    ((OrderedMap.empty.putAll entries).mapValues unescapeString).get? key =
      (lastValue entries key).map unescapeString := by
  rw [OrderedMap.get?_mapValues, OrderedMap.get?_putAll, OrderedMap.get?_empty, Option.or_none]
  rfl

/-- A scheduler finds the ids that are all passed. -/
theorem isEmpty_eq_false_of_ids {entries : List (String × String)} {properties : Properties}
    (hvalues : ∀ key, properties key = (lastValue entries key).map unescapeString) {kind : SchedulerKind}
    {conf : SchedulerConfigurationData} (hids : ∀ id ∈ kind.idProperties, id ∈ entries.map Prod.fst) :
    (kind.newInstance conf properties).isEmpty = false := by
  rw [SchedulerKind.isEmpty_newInstance, List.any_eq_false]
  intro id hid
  have hsome := isSome_lastValue (hids id hid)
  rw [hvalues, Option.isNone_map, Option.isNone_iff_eq_none]
  exact Option.isSome_iff_ne_none.mp hsome

/-- When all options have the form -Dkey=value each key has its last value, and
a scheduler whose ids are all passed recognizes the application. When one has
another form there are no properties at all, and no scheduler does. -/
theorem retrieveSparkProperties_tokens (htokens : ∀ token ∈ tokens, IsToken token.toList)
    (hseparated : Separated (tokens.map String.toList) text.toList)
    (hprop : appData.environmentData.getSparkProperty SPARK_EXTRA_JAVA_OPTIONS = some text) :
    ∃ properties, retrieveSparkProperties appData = .ok properties ∧
      (∀ entries : List (String × String), (∀ entry ∈ entries, '=' ∉ entry.1.toList) →
        tokens = entries.map Utils.assignment →
        (∀ key, properties key = (lastValue entries key).map unescapeString) ∧
          ∀ kind conf, (∀ id ∈ SchedulerKind.idProperties kind, id ∈ entries.map Prod.fst) →
            (kind.newInstance conf properties).isEmpty = false) ∧
      ((∃ token ∈ tokens, ¬ Utils.IsAssignment token) →
        (∀ key, properties key = none) ∧
          ∀ kind conf, (SchedulerKind.newInstance kind conf properties).isEmpty = true) := by
  have hparse := parseJavaOptions_tokens htokens hseparated
  by_cases hforms : ∃ token ∈ tokens, ¬ Utils.IsAssignment token
  · have hne : ∀ token ∈ tokens, token ≠ "" := by
      rintro _ htoken rfl
      exact (htokens "" htoken).ne_nil rfl
    obtain ⟨message, hmessage⟩ := Utils.foldlM_other text hne hforms .empty
    refine ⟨fun _ => none, ?_, ?_, fun _ => ⟨fun _ => rfl, ?_⟩⟩
    · simp only [retrieveSparkProperties, hprop, hparse, hmessage]
    · rintro entries hkeys rfl
      obtain ⟨token, htoken, hother⟩ := hforms
      obtain ⟨entry, hentry, rfl⟩ := List.mem_map.mp htoken
      exact absurd ⟨entry, hkeys entry hentry, rfl⟩ hother
    · intro kind conf
      rw [SchedulerKind.isEmpty_newInstance]
      cases kind <;> rfl
  · have hassignments : ∀ token ∈ tokens, Utils.IsAssignment token := by
      intro token htoken
      by_contra hother
      exact hforms ⟨token, htoken, hother⟩
    obtain ⟨entries, hkeys, rfl⟩ := Utils.exists_entries hassignments
    rw [Utils.foldlM_assignments text hkeys] at hparse
    refine ⟨_, retrieveSparkProperties_of_parse hprop hparse, ?_, fun hother => absurd hother hforms⟩
    intro entries' hkeys' heq
    have hsame : OrderedMap.empty.putAll entries = OrderedMap.empty.putAll entries' := by
      have hfold := Utils.foldlM_assignments text hkeys .empty
      rw [heq, Utils.foldlM_assignments text hkeys'] at hfold
      exact (Except.ok.inj hfold).symm
    rw [hsame]
    exact ⟨get?_unescaped entries', fun kind conf hids => isEmpty_eq_false_of_ids (get?_unescaped entries') hids⟩

/-- Two options, the second of another form. -/
def flagged : List String := ["-Dkey=value", "-XX:MaxPermSize=256m"]

def flaggedOptions : String := "-Dkey=value -XX:MaxPermSize=256m"

private theorem isToken_flagged : ∀ token ∈ flagged, IsToken token.toList := by
  have hhigh : ∀ token ∈ flagged, token.toList ≠ [] ∧ (token.toList.all fun c => decide (32 < c.toNat)) = true := by
    decide
  intro token htoken
  exact .of_high (hhigh token htoken).1 (visible_iff_all.mpr (hhigh token htoken).2)

private theorem separated_flagged : Separated (flagged.map String.toList) flaggedOptions.toList := by
  have hlast : Separated ["-XX:MaxPermSize=256m".toList] ("-XX:MaxPermSize=256m".toList ++ []) :=
    .token (by simp) .nil
  have hnext : ∀ c ∈ (' ' :: ("-XX:MaxPermSize=256m".toList ++ [])).head?, isWhiteSpace c = true := by
    simp
    rfl
  exact .token hnext (.space rfl hlast)

/-- An option that is there and yet is not retrieved. -/
theorem retrieveSparkProperties_flagged :
    ¬ ∀ (tokens : List String) (text : String) (appData : SparkApplicationData) (entry : String × String),
      (∀ token ∈ tokens, IsToken token.toList) → Separated (tokens.map String.toList) text.toList →
      appData.environmentData.getSparkProperty SPARK_EXTRA_JAVA_OPTIONS = some text →
      '=' ∉ entry.1.toList → tokens.filter (fun token => ("-D" ++ entry.1 ++ "=").toList.isPrefixOf token.toList) =
        [Utils.assignment entry] →
      ∃ properties, retrieveSparkProperties appData = .ok properties ∧
        properties entry.1 = some (unescapeString entry.2) := by
  intro h
  obtain ⟨properties, hretrieved, hvalue⟩ := h flagged flaggedOptions (submitted flaggedOptions)
    ("key", "value") isToken_flagged separated_flagged rfl (by decide) (by decide)
  have hnone : retrieveSparkProperties (submitted flaggedOptions) = .ok fun _ => none := rfl
  rw [hnone] at hretrieved
  rw [← Except.ok.inj hretrieved] at hvalue
  cases hvalue

/-- The ids of an airflow task, the name of the task given twice. -/
def airflowEntries : List (String × String) :=
  [(AIRFLOW_TASK_ID, "sort"), (AIRFLOW_TASK_INSTANCE_EXECUTION_DATE, "2017-01-01"), (AIRFLOW_DAG_ID, "daily"),
    (AIRFLOW_DAG_RUN_EXECUTION_DATE, "2017-01-01"), (AIRFLOW_TASK_ID, "wordCount")]

/-- Each token behind a blank. -/
def spaced (tokens : List String) : String := .ofList (tokens.flatMap fun token => ' ' :: token.toList)

private theorem separated_spaced (tokens : List String) :
    Separated (tokens.map String.toList) (spaced tokens).toList := by
  rw [spaced, String.toList_ofList]
  induction tokens with
  | nil => exact .nil
  | cons token rest ih =>
    have hnext : ∀ c ∈ (rest.flatMap fun token => ' ' :: token.toList).head?, isWhiteSpace c = true := by
      intro c hc
      cases rest with
      | nil => cases hc
      | cons =>
        cases hc
        rfl
    exact .space rfl (.token hnext ih)

/-- The ids of a task are retrieved and recognized; next to another flag nothing is. -/
theorem retrieveSparkProperties_tokens_airflow :
    (∃ properties, retrieveSparkProperties (submitted (spaced (airflowEntries.map Utils.assignment))) =
        .ok properties ∧
      properties AIRFLOW_TASK_ID = some "wordCount" ∧ properties AIRFLOW_DAG_ID = some "daily" ∧
      ∀ conf, (SchedulerKind.airflow.newInstance conf properties).isEmpty = false) ∧
    ∃ properties, retrieveSparkProperties (submitted flaggedOptions) = .ok properties ∧
      ∀ key, properties key = none := by
  constructor
  · have htokens : ∀ token ∈ airflowEntries.map Utils.assignment, IsToken token.toList := by
      have hhigh : ∀ token ∈ airflowEntries.map Utils.assignment, token.toList ≠ [] ∧
          (token.toList.all fun c => decide (32 < c.toNat)) = true := by
        decide +kernel
      intro token htoken
      exact .of_high (hhigh token htoken).1 (visible_iff_all.mpr (hhigh token htoken).2)
    have hkeys : ∀ entry ∈ airflowEntries, '=' ∉ entry.1.toList := by decide +kernel
    have hsubmitted : (submitted (spaced (airflowEntries.map Utils.assignment))).environmentData.getSparkProperty
        SPARK_EXTRA_JAVA_OPTIONS = some (spaced (airflowEntries.map Utils.assignment)) := rfl
    obtain ⟨properties, hretrieved, hvalues, -⟩ :=
      retrieveSparkProperties_tokens htokens (separated_spaced _) hsubmitted
    obtain ⟨hvalue, hrecognized⟩ := hvalues airflowEntries hkeys rfl
    refine ⟨properties, hretrieved, ?_, ?_, fun conf => hrecognized .airflow conf (by decide)⟩
    · rw [hvalue]
      decide +kernel
    · rw [hvalue]
      decide +kernel
  · have hsubmitted : (submitted flaggedOptions).environmentData.getSparkProperty SPARK_EXTRA_JAVA_OPTIONS =
        some flaggedOptions := rfl
    obtain ⟨properties, hretrieved, -, hother⟩ :=
      retrieveSparkProperties_tokens isToken_flagged separated_flagged hsubmitted
    have hform : ¬ Utils.IsAssignment "-XX:MaxPermSize=256m" := by
      rintro ⟨entry, -, hassignment⟩
      have htext := congrArg String.toList hassignment
      simp [Utils.assignment] at htext
    exact ⟨properties, hretrieved, (hother ⟨_, List.mem_cons_of_mem _ (List.mem_singleton_self _), hform⟩).1⟩

end otherFlags

end InfoExtractor

end drelephant.util
