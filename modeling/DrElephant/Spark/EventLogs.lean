import DrElephant.Spark.SparkDataCollection
import DrElephant.Spark.SparkFSFetcher
import DrElephant.Util.Thresholds

open collections drelephant.analysis drelephant.util ieee jackson java.lang org.apache.spark.deploy.history
  org.apache.spark.storage

namespace drelephant.spark

/-- The status of a file. -/
structure FileStatus where
  isDirectory : Bool
  len : Int

/-- A file system that may fail to answer. A file that is not there has no
status; the files of a directory are listed by their names. -/
structure FileSystem where
  getFileStatus : String → Except JavaException (Option FileStatus)
  listStatus : String → Except JavaException (List String)

/-- The log that is replayed: a file of a legacy directory, with the codec that
the directory names, or a file that tells its codec itself. -/
inductive LogInput
  | legacy (dir eventLog : String) (codec : Option String)
  | eventLog (path : String)
  deriving DecidableEq, Repr

/-- What the fetcher uses of Hadoop and of Spark: the answers of the namenodes,
the two configurations, the path of a URI (an opaque one has none), the file
system of the log directory, `new Path(parent, child)`, the codecs that can be
created, and the listeners after a log was opened and replayed. -/
structure LogPlatform (storage : Storage) where
  readJsonNode : String → Except JavaException JsonNode
  hadoopConf : Properties
  sparkConf : Properties
  getPath : String → Except JavaException (Option String)
  fileSystem : String → FileSystem
  resolve : String → String → String
  isCodec : String → Bool
  replay : LogInput → Except JavaException (Listeners storage)

/-- The parameters of the fetcher as it has loaded them. -/
structure SparkFSFetcher where
  paramMap : Properties
  confEventLogSizeInMb : Binary64
  confEventLogDir : String

namespace SparkFSFetcher

def defEventLogDir : String := "/system/spark-history"
def defEventLogSizeInMb : Binary64 := .ofInt 100
def defSparkLogExt : String := "_1.snappy"
def LOG_SIZE_XML_FIELD : String := "event_log_size_limit_in_mb"
def LOG_DIR_XML_FIELD : String := "event_log_dir"
def SPARK_LOG_EXT : String := "spark_log_ext"

/-- Constants used to parse <= Spark 1.2.0 log directories. -/
def LOG_PREFIX : String := "EVENT_LOG_"
def COMPRESSION_CODEC_PREFIX : String := "COMPRESSION_CODEC_"

/-- `FileUtils.ONE_MB` -/
def ONE_MB : Int := 1024 * 1024

def new (engine : Utils.ScriptEngine) (paramMap : Properties) : Except JavaException SparkFSFetcher := do
  let logLimitSize ← Utils.loadLimits engine (paramMap LOG_SIZE_XML_FIELD) [defEventLogSizeInMb]
  pure
    { paramMap
      confEventLogSizeInMb := logLimitSize.headD defEventLogSizeInMb
      confEventLogDir := ((paramMap LOG_DIR_XML_FIELD).filter (!·.isEmpty)).getD defEventLogDir }

def startsWith (text target : String) : Bool := target.toList.isPrefixOf text.toList

section fetch

variable {storage : Storage} (fetcher : SparkFSFetcher) (platform : LogPlatform storage)

/-- The directory of the logs. Nothing is put in front of it when no namenode is known. -/
def logDir : Except JavaException String := do
  let nodeAddress ← getNamenodeAddress platform.readJsonNode fetcher.paramMap platform.hadoopConf
  let hdfsAddress := nodeAddress.elim "" fun nodeAddress => "webhdfs://" ++ nodeAddress
  let path ← platform.getPath ((platform.sparkConf "spark.eventLog.dir").getD fetcher.confEventLogDir)
  pure (hdfsAddress ++ path.getD "null")

/-- Checks if the log path stores the legacy event log. -/
def isLegacyLogDirectory (fs : FileSystem) (entry : String) : Except JavaException Bool := do
  let status ← fs.getFileStatus entry
  pure (status.any FileStatus.isDirectory)

/-- Checks if the log parser should be throttled when the file is too large. -/
def shouldThrottle (fs : FileSystem) (eventLogPath : String) : Except JavaException Bool := do
  match ← fs.getFileStatus eventLogPath with
  | none => .error (.other "FileNotFoundException")
  | some status => pure ((fetcher.confEventLogSizeInMb.mul (.ofInt ONE_MB)).lt (.ofInt status.len))

/-- What the loop over a legacy directory finds. -/
structure LegacyFiles where
  eventLogPath : Option String := none
  codecName : Option String := none

def LegacyFiles.add (files : LegacyFiles) (name : String) : LegacyFiles :=
  if startsWith name LOG_PREFIX then { files with eventLogPath := some name }
  else if startsWith name COMPRESSION_CODEC_PREFIX then
    { files with codecName := some (String.ofList (name.toList.drop COMPRESSION_CODEC_PREFIX.length)) }
  else files

/-- Opens a legacy log path. -/
def openLegacyEventLog (fs : FileSystem) (dir : String) : Except JavaException LogInput := do
  let children ← fs.listStatus dir
  let files := children.foldl LegacyFiles.add {}
  match files.eventLogPath with
  | none => .error (.illegalArgument (dir ++ " is not a Spark application log directory."))
  | some eventLog =>
    match files.codecName with
    | none => pure (.legacy dir eventLog none)
    | some codec =>
      if platform.isCodec codec then pure (.legacy dir eventLog (some codec))
      else .error (.illegalArgument ("Unknown compression codec Some(" ++ codec ++ ")."))

/-- The log of an application, none when it is too large to be read. -/
def findLog (fs : FileSystem) (logPath : String) : Except JavaException (Option LogInput) := do
  if ← isLegacyLogDirectory fs logPath then
    if ← fetcher.shouldThrottle fs logPath then pure none
    else do
      let logInput ← openLegacyEventLog platform fs logPath
      pure (some logInput)
  else
    let logFilePath := logPath ++ (fetcher.paramMap SPARK_LOG_EXT).getD defSparkLogExt
    if ← fetcher.shouldThrottle fs logFilePath then pure none else pure (some (.eventLog logFilePath))

/-- The data collection over listeners that have not heard of anything yet.
Since the data set is empty, the application id is set, so that this is
detected as a Spark job type. -/
def throttledData (orders : DataOrders) (appId : String) : SparkApplicationData where
  isThrottled := true
  applicationId := some appId
  environmentData := ⟨Function.update (fun _ => none) "spark.app.id" (some appId)⟩
  executorData := { order := orders.executors }
  jobProgressData := { jobOrder := orders.jobs, stageOrder := orders.stages }

def fetchData (orders : DataOrders) (appId : String) : Except JavaException SparkApplicationData := do
  let logDir ← fetcher.logDir platform
  let logInput ← fetcher.findLog platform (platform.fileSystem logDir) (platform.resolve logDir appId)
  match logInput with
  | none => pure (throttledData orders appId)
  | some logInput => do
    let listeners ← platform.replay logInput
    pure (SparkDataCollection.applicationData listeners orders)

end fetch

section legacy

/-- The name of an event log in a legacy directory. -/
def isEventLog (name : String) : Bool := startsWith name LOG_PREFIX

/-- The name of a file that names the codec of a legacy directory. -/
def isCodecFile (name : String) : Bool :=
  !isEventLog name && startsWith name COMPRESSION_CODEC_PREFIX

/-- The codec that a file names. -/
def codecOf (name : String) : String := String.ofList (name.toList.drop COMPRESSION_CODEC_PREFIX.length)

/-- Of the event logs the last one counts, and of the codecs. -/
theorem foldl_add (children : List String) (files : LegacyFiles) : children.foldl LegacyFiles.add files =
    { eventLogPath := (children.filter isEventLog).getLast?.or files.eventLogPath
      codecName := ((children.filter isCodecFile).getLast?.map codecOf).or files.codecName } := by
  induction children generalizing files with
  | nil => rfl
  | cons name children ih =>
    rw [List.foldl_cons, ih, LegacyFiles.add]
    cases hlog : isEventLog name with
    | true =>
      have hcodec : isCodecFile name = false := by rw [isCodecFile, hlog]; rfl
      rw [if_pos (show startsWith name LOG_PREFIX = true from hlog), List.filter_cons_of_pos hlog,
        List.filter_cons_of_neg (by simp [hcodec]), List.getLast?_cons]
      cases (children.filter isEventLog).getLast? <;> rfl
    | false =>
      have hother : ¬ startsWith name LOG_PREFIX = true := by simpa [isEventLog] using hlog
      rw [if_neg hother, List.filter_cons_of_neg (by simp [hlog])]
      cases hcodec : startsWith name COMPRESSION_CODEC_PREFIX with
      | true =>
        have hkind : isCodecFile name = true := by simp [isCodecFile, hlog, hcodec]
        rw [if_pos rfl, List.filter_cons_of_pos hkind, List.getLast?_cons]
        cases (children.filter isCodecFile).getLast? <;> rfl
      | false =>
        have hkind : ¬ isCodecFile name = true := by simp [isCodecFile, hcodec]
        rw [if_neg (by simp), List.filter_cons_of_neg hkind]

variable {storage : Storage} {platform : LogPlatform storage} {fs : FileSystem} {dir eventLog : String}
  {children : List String} {codec : Option String}

/-- The codec that the files of a legacy directory name. -/
def namedCodec (children : List String) : Option String :=
  (children.filter isCodecFile).getLast?.map codecOf

theorem openLegacyEventLog_eq_ok_iff (hchildren : fs.listStatus dir = .ok children) {logInput : LogInput} :
    openLegacyEventLog platform fs dir = .ok logInput ↔
      (∀ codec ∈ namedCodec children, platform.isCodec codec = true) ∧
        ∃ eventLog, (children.filter isEventLog).getLast? = some eventLog ∧
          logInput = .legacy dir eventLog (namedCodec children) := by
  have hfiles : children.foldl LegacyFiles.add {} =
      ⟨(children.filter isEventLog).getLast?, namedCodec children⟩ := by
    simp only [foldl_add, Option.or_none]
    rfl
  simp only [openLegacyEventLog, hchildren, hfiles, bind, Except.bind]
  cases (children.filter isEventLog).getLast? with
  | none => simp
  | some eventLog =>
    have hinput : ∀ codec, Except.ok (LogInput.legacy dir eventLog codec) = (.ok logInput : Except JavaException _) ↔
        logInput = .legacy dir eventLog codec := by
      intro codec
      rw [Except.ok.injEq]
      exact eq_comm
    cases namedCodec children with
    | none => simpa [pure, Except.pure] using hinput none
    | some codec =>
      cases hcodec : platform.isCodec codec with
      | true => simpa [pure, Except.pure, hcodec] using hinput (some codec)
      | false => simp [hcodec]

/-- A log that is not too large to be read. -/
def Readable (fetcher : SparkFSFetcher) (len : Int) : Prop :=
  (fetcher.confEventLogSizeInMb.mul (.ofInt ONE_MB)).lt (.ofInt len) = false

theorem findLog_legacy {fetcher : SparkFSFetcher} {len : Int}
    (hstatus : fs.getFileStatus dir = .ok (some ⟨true, len⟩)) (hlen : fetcher.Readable len) :
    fetcher.findLog platform fs dir = (openLegacyEventLog platform fs dir).map some := by
  simp only [findLog, isLegacyLogDirectory, shouldThrottle, hstatus, bind, Except.bind, pure, Except.pure,
    Option.any_some, if_true]
  rw [Readable] at hlen
  rw [hlen]
  cases openLegacyEventLog platform fs dir <;> rfl

/-- There is one way to list at most one element. -/
private theorem eq_of_perm {α : Type} {l l' : List α} (h : l.Perm l') (hone : l'.length ≤ 1) : l = l' := by
  rcases l' with _ | ⟨a, _ | ⟨b, rest⟩⟩
  · exact h.eq_nil
  · exact h.eq_singleton
  · simp at hone

end legacy

section tooLarge

variable {storage : Storage} {platform : LogPlatform storage} {fs : FileSystem} {fetcher : SparkFSFetcher}
  {logPath : String}

/-- The file whose length is compared with the limit: a legacy directory itself,
or else the log with its extension. -/
inductive Compared (fetcher : SparkFSFetcher) (fs : FileSystem) (logPath : String) : String → Prop
  | directory {status : FileStatus} (hstatus : fs.getFileStatus logPath = .ok (some status))
      (hdirectory : status.isDirectory = true) : Compared fetcher fs logPath logPath
  | file {status : Option FileStatus} (hstatus : fs.getFileStatus logPath = .ok status)
      (hfile : status.any FileStatus.isDirectory = false) :
      Compared fetcher fs logPath (logPath ++ (fetcher.paramMap SPARK_LOG_EXT).getD defSparkLogExt)

def TooLarge (fetcher : SparkFSFetcher) (fs : FileSystem) (logPath : String) : Prop :=
  ∃ path status, Compared fetcher fs logPath path ∧ fs.getFileStatus path = .ok (some status) ∧
    ¬ fetcher.Readable status.len

theorem shouldThrottle_eq_ok_iff {path : String} {throttle : Bool} :
    fetcher.shouldThrottle fs path = .ok throttle ↔ ∃ status, fs.getFileStatus path = .ok (some status) ∧
      (throttle = true ↔ ¬ fetcher.Readable status.len) := by
  rw [shouldThrottle, bind_eq_ok_iff]
  constructor
  · rintro ⟨status, hstatus, h⟩
    cases status with
    | none => cases h
    | some status =>
      obtain rfl := pure_eq_ok_iff.mp h
      exact ⟨status, hstatus, by rw [Readable, Bool.not_eq_false]⟩
  · rintro ⟨status, hstatus, hthrottle⟩
    refine ⟨_, hstatus, pure_eq_ok_iff.mpr ?_⟩
    rw [Readable, Bool.not_eq_false] at hthrottle
    exact (Bool.eq_iff_iff.mpr hthrottle).symm

/-- A log is passed over exactly when it is too large. -/
theorem findLog_eq_none_iff :
    fetcher.findLog platform fs logPath = .ok none ↔ fetcher.TooLarge fs logPath := by
  constructor
  · intro h
    simp only [findLog, isLegacyLogDirectory, bind_eq_ok_iff, pure_eq_ok_iff] at h
    obtain ⟨_, ⟨status, hstatus, rfl⟩, h⟩ := h
    cases hlegacy : status.any FileStatus.isDirectory with
    | true =>
      rw [if_pos hlegacy, bind_eq_ok_iff] at h
      obtain ⟨throttle, hthrottle, h⟩ := h
      cases throttle with
      | false =>
        rw [if_neg Bool.false_ne_true, bind_eq_ok_iff] at h
        obtain ⟨logInput, -, h⟩ := h
        cases h
      | true =>
        obtain ⟨found, hfound, hlarge⟩ := shouldThrottle_eq_ok_iff.mp hthrottle
        obtain rfl : status = some found := Except.ok.inj (hstatus.symm.trans hfound)
        exact ⟨logPath, found, .directory hstatus hlegacy, hfound, hlarge.mp rfl⟩
    | false =>
      rw [if_neg (by simp [hlegacy]), bind_eq_ok_iff] at h
      obtain ⟨throttle, hthrottle, h⟩ := h
      cases throttle with
      | false => simp at h
      | true =>
        obtain ⟨found, hfound, hlarge⟩ := shouldThrottle_eq_ok_iff.mp hthrottle
        exact ⟨_, found, .file hstatus hlegacy, hfound, hlarge.mp rfl⟩
  · rintro ⟨path, found, hcompared, hfound, hlarge⟩
    have hthrottle : fetcher.shouldThrottle fs path = .ok true :=
      shouldThrottle_eq_ok_iff.mpr ⟨found, hfound, iff_of_true rfl hlarge⟩
    cases hcompared with
    | directory hstatus hdirectory =>
      simp [findLog, isLegacyLogDirectory, hstatus, hdirectory, hthrottle, bind, Except.bind, pure, Except.pure]
    | file hstatus hfile =>
      simp [findLog, isLegacyLogDirectory, hstatus, hfile, hthrottle, bind, Except.bind, pure, Except.pure]

end tooLarge

section legacyLog

variable {storage : Storage} {platform : LogPlatform storage} {fs : FileSystem} {dir : String}
  {children : List String}

/-- The event log of a legacy directory is opened with the codec that a file of
the directory names, in whatever order the files are listed. What is compared
with the limit is the length of the directory, not that of the log: nothing is
opened when that is too large. -/
theorem legacy_log_found {fetcher : SparkFSFetcher} {len : Int} {listed : List String}
    (hstatus : fs.getFileStatus dir = .ok (some ⟨true, len⟩))
    (hlisted : fs.listStatus dir = .ok listed) (horder : listed.Perm children)
    (hone : (children.filter isEventLog).length ≤ 1) (hcodec : (children.filter isCodecFile).length ≤ 1) :
    (fetcher.Readable len → ∀ logInput, fetcher.findLog platform fs dir = .ok (some logInput) ↔
      (∀ codec ∈ namedCodec children, platform.isCodec codec = true) ∧
        ∃ eventLog ∈ children, isEventLog eventLog = true ∧
          logInput = .legacy dir eventLog (namedCodec children)) ∧
    (¬ fetcher.Readable len → fetcher.findLog platform fs dir = .ok none) := by
  refine ⟨fun hlen logInput => ?_, fun hlen =>
    findLog_eq_none_iff.mpr ⟨dir, _, .directory hstatus rfl, hstatus, hlen⟩⟩
  have hlogs : listed.filter isEventLog = children.filter isEventLog :=
    eq_of_perm (horder.filter _) hone
  have hcodecs : namedCodec listed = namedCodec children := by
    rw [namedCodec, namedCodec, eq_of_perm (horder.filter _) hcodec]
  have hopen := @openLegacyEventLog_eq_ok_iff _ platform _ _ _ hlisted logInput
  rw [hlogs, hcodecs] at hopen
  have hfind : fetcher.findLog platform fs dir = .ok (some logInput) ↔
      openLegacyEventLog platform fs dir = .ok logInput := by
    rw [findLog_legacy hstatus hlen]
    cases openLegacyEventLog platform fs dir <;> simp [Except.map]
  rw [hfind, hopen]
  refine and_congr_right fun _ => exists_congr fun eventLog => ?_
  rw [← and_assoc]
  refine and_congr_left fun _ => ?_
  rw [← List.mem_filter]
  constructor
  · exact List.mem_of_getLast?
  · intro hmem
    have hsingle : children.filter isEventLog = [eventLog] := by
      obtain ⟨first, hfirst⟩ := List.length_eq_one_iff.mp (le_antisymm hone (List.length_pos_of_mem hmem))
      rw [hfirst] at hmem ⊢
      rw [List.mem_singleton.mp hmem]
    rw [hsingle]
    rfl

end legacyLog

/-- The fetcher without any parameters. -/
def withoutParams : SparkFSFetcher where
  paramMap _ := none
  confEventLogSizeInMb := defEventLogSizeInMb
  confEventLogDir := defEventLogDir

theorem readable_withoutParams_iff {len : Int} (h : |len| ≤ 2 ^ 53) :
    withoutParams.Readable len ↔ len ≤ 100 * 2 ^ 20 := by
  have hlimit : defEventLogSizeInMb.mul (.ofInt ONE_MB) = .finite (100 * 2 ^ 20) := by
    rw [defEventLogSizeInMb, ONE_MB, Binary64.ofInt_eq_finite (by decide), Binary64.ofInt_eq_finite (by decide)]
    have hproduct : Binary64.ofInt (100 * 2 ^ 20) = .finite (100 * 2 ^ 20) := by
      rw [Binary64.ofInt_eq_finite (by decide)]
      norm_num
    rw [← hproduct, Binary64.ofInt, Binary64.mul]
    norm_num
  rw [Readable, withoutParams, hlimit, Binary64.ofInt_eq_finite h]
  simp only [Binary64.lt, Binary64.le, Bool.and_eq_false_iff, Bool.not_eq_false', decide_eq_false_iff_not,
    decide_eq_true_eq, not_le]
  constructor
  · rintro (hlt | hle)
    · exact_mod_cast hlt.le
    · exact_mod_cast hle
  · intro hle
    exact .inr (by exact_mod_cast hle)

/-- A file system with one legacy directory, which lists the codec first. -/
private def oneDirectory (len : Int) : FileSystem where
  getFileStatus path := .ok (if path = "logs/application_1" then some ⟨true, len⟩ else none)
  listStatus _ := .ok ["COMPRESSION_CODEC_lzf", "APPLICATION_COMPLETE", "EVENT_LOG_1"]

private def oneCodec : LogPlatform StorageStatusTrackingListener.blockSizes where
  readJsonNode _ := .error (.io "")
  hadoopConf _ := none
  sparkConf _ := none
  getPath path := .ok (some path)
  fileSystem _ := oneDirectory 0
  resolve parent child := parent ++ "/" ++ child
  isCodec name := name == "lzf"
  replay _ := .error (.io "")

theorem legacy_log_found_lzf :
    withoutParams.findLog oneCodec (oneDirectory 0) "logs/application_1" =
      .ok (some (.legacy "logs/application_1" "EVENT_LOG_1" (some "lzf"))) ∧
    withoutParams.findLog oneCodec (oneDirectory (2 ^ 30)) "logs/application_1" = .ok none := by
  have hfound := fun len => @legacy_log_found _ oneCodec (oneDirectory len) "logs/application_1"
    ["EVENT_LOG_1", "COMPRESSION_CODEC_lzf", "APPLICATION_COMPLETE"] withoutParams len _ rfl rfl
    (by decide) (by decide) (by decide)
  have hlen : withoutParams.Readable 0 := (readable_withoutParams_iff (by decide)).mpr (by decide)
  have hlarge : ¬ withoutParams.Readable (2 ^ 30) := fun hlen =>
    absurd ((readable_withoutParams_iff (by decide)).mp hlen) (by decide)
  exact ⟨((hfound 0).1 hlen _).mpr ⟨by decide, "EVENT_LOG_1", by decide, by decide, by decide⟩,
    (hfound (2 ^ 30)).2 hlarge⟩

end SparkFSFetcher

end drelephant.spark
