import AimeeLearning.Library.CString
import AimeeLearning.Library.Traced

/-! What the learning router handles: signals, proposals and the actions they
carry, and the collaborators it calls. Stores, memory, configuration, JSON and
floating point live outside this repository and are given as an environment. -/

set_option autoImplicit false

namespace AimeeLearning.Learning

open Library

structure LearningSignalInput where
  signalType : Bytes
  source : Bytes
  polarity : Bytes
  title : Bytes
  description : Bytes
  targetKey : Bytes
  targetMemoryId : Int
  correctionText : Bytes
  workflowProject : Bytes
  workflowSignalType : Bytes
  /-- The JSON array text, or NULL. -/
  evidenceRefsJson : Option Bytes
  highConfidence : Bool

structure LearningProposal where
  id : Int
  signalId : Int
  sink : Bytes
  state : Bytes
  targetKey : Bytes
  targetMemoryId : Int
  actionJson : Bytes
  evidenceRefs : Bytes
  corroborationCount : Int
  expiresAt : Bytes
  committedAt : Bytes
  archiveReason : Bytes
  createdAt : Bytes
  updatedAt : Bytes
  deriving DecidableEq

def statePending : Bytes := cstr "pending"
def stateCommitted : Bytes := cstr "committed"
def stateArchived : Bytes := cstr "archived"

def learningMaxProposalIds : Nat := 8

structure LearningDispatchResult where
  signalId : Int
  proposalIds : List Int
  committedIds : List Int

/-- `memset` to zero. -/
def LearningDispatchResult.zero : LearningDispatchResult := ⟨0, [], []⟩

/-- A parsed JSON value; `ν` stands for the doubles of its numbers. -/
inductive CJson (ν : Type) where
  | null
  | bool (value : Bool)
  | number (value : ν)
  | string (text : Bytes)
  | array (items : List (CJson ν))
  | object (members : List (Bytes × CJson ν))

/-- `cJSON_GetObjectItemCaseSensitive` -/
def CJson.getItem {ν : Type} (value : CJson ν) (key : String) : Option (CJson ν) :=
  match value with
  | .object members => (members.find? fun entry => entry.1 == cstr key).map Prod.snd
  | _ => none

/-- A string member that is present, and its text. -/
def CJson.getString {ν : Type} (value : CJson ν) (key : String) : Option Bytes :=
  match value.getItem key with
  | some (.string text) => some text
  | _ => none

/-- A number member that is present. -/
def CJson.getNumber {ν : Type} (value : CJson ν) (key : String) : Option ν :=
  match value.getItem key with
  | some (.number value) => some value
  | _ => none

/-- A call that makes a committed proposal take effect. -/
inductive SinkEffect (ν : Type) where
  | memoryApplyFeedback (success : Int) (ids : List Int)
  | memorySupersede (oldMemoryId : Int) (newContent : Bytes) (confidence : ν) (session : Bytes)
  | collabRulesPropose (text reason source : Bytes)
  | memoryUpsertWorkflow (project signalType rule : Bytes) (confidence : ν) (session : Bytes)
  | artifactWrite (id kind state scopeKind scopeId source : Bytes) (confidence : ν)
      (payload : Bytes)
  deriving DecidableEq

inductive IntegritySource where
  | tool
  | userStated
  deriving DecidableEq

inductive IntegrityVerdict where
  | accept
  | reject
  | other
  deriving DecidableEq

structure DogfoodMoment where
  source : Bytes
  text : Bytes
  ids : List Int
  notes : Bytes
  outcome : Bytes

/-- The world around the router, with the return codes of its calls. -/
structure RouterEnv (σ ν : Type) where
  sessionId : σ → Bytes
  time : σ → Int
  configPresent : σ → Bool
  configProposalTtlDays : σ → Int
  configMaxCommitsPerWeek : σ → Int
  configIntegrityEnabled : σ → Bool
  configIntegrityDryRun : σ → Bool
  integrityGateCheck : σ → Bytes → IntegritySource → IntegrityVerdict
  /-- The registered classifier, if any; it answers a mask or fails. -/
  signalClassifier : Option (σ → Bytes → Option UInt32 × σ)
  /-- The key of a memory. -/
  memoryGet : σ → Int → Option Bytes × σ
  perform : σ → SinkEffect ν → Int × σ
  dogfoodLogMoment : σ → DogfoodMoment → σ
  signalInsert : σ → LearningSignalInput → Bytes → Int × σ
  proposalsArchiveExpired : σ → σ
  proposalFindPending : σ → Bytes → Bytes → Int → Int × σ
  proposalInsert : σ → Int → Bytes → Bytes → Int → Bytes → Option Bytes → Bytes → Int × σ
  proposalBumpCorroboration : σ → Int → Int × σ
  proposalMarkCommitted : σ → Int → Int × σ
  proposalArchive : σ → Int → Bytes → Int × σ
  proposalGet : σ → Int → Option LearningProposal × σ
  proposalList : σ → Option Bytes → Option Bytes → Int → Int → (Int × List LearningProposal) × σ
  commitsInLast7Days : σ → Bytes → Int × σ
  cjsonParse : Bytes → Option (CJson ν)
  cjsonPrintUnformatted : CJson ν → Option Bytes
  /-- `(double)` of an integer. -/
  ofInt : Int → ν
  /-- `(int64_t)` of a double. -/
  toInt64 : ν → Int
  /-- The `valueint` cJSON keeps beside a double. -/
  valueInt : ν → Int
  half : ν
  collabRuleTextLen : Nat
  collabRuleReasonLen : Nat

/-- What a signal asks of one sink. -/
structure Route where
  sink : Bytes
  targetKey : Bytes
  targetMemoryId : Int
  actionJson : Bytes
  highConfidence : Bool
  deriving DecidableEq

/-- What the router does to the world, in order; a commit shows the return code
of the marking, which the router does not look at. -/
inductive RouterEvent (ν : Type) where
  | archivedExpired
  | signalInserted (id : Int)
  | routed (signal : Int) (route : Route)
  | bumped (id : Int)
  | inserted (id : Int)
  | applied (id : Int) (effect : SinkEffect ν) (rc : Int)
  | committed (id : Int) (rc : Int)
  | archived (id : Int) (reason : Bytes)
  deriving DecidableEq

/-- `snprintf` of a text into a buffer. -/
def snprintf (cap : Nat) (text : Bytes) : Bytes := text.take (cap - 1)

theorem snprintf_fits {cap : Nat} {text : Bytes} (short : text.length < cap) :
    snprintf cap text = text := List.take_of_length_le (by omega)

/-- The year, month and day `gmtime` gives a day since the epoch. -/
def civilOfDays (days : Int) : Int × Int × Int :=
  let shifted := days + 719468
  let era := shifted / 146097
  let dayOfEra := shifted - era * 146097
  let yearOfEra := (dayOfEra - dayOfEra / 1460 + dayOfEra / 36524 - dayOfEra / 146096) / 365
  let dayOfYear := dayOfEra - (365 * yearOfEra + yearOfEra / 4 - yearOfEra / 100)
  let position := (5 * dayOfYear + 2) / 153
  let month := if position < 10 then position + 3 else position - 9
  let year := yearOfEra + era * 400 + (if month ≤ 2 then 1 else 0)
  (year, month, dayOfYear - (153 * position + 2) / 5 + 1)

def twoDigits (value : Int) : Bytes :=
  [UInt8.ofNat (48 + (value.toNat / 10) % 10), UInt8.ofNat (48 + value.toNat % 10)]

/-- `strftime` with `%Y-%m-%d %H:%M:%S`. -/
def timestamp (time : Int) : Bytes :=
  let (year, month, day) := civilOfDays (time / 86400)
  let second := time % 86400
  cstr (toString year) ++ cstr "-" ++ twoDigits month ++ cstr "-" ++ twoDigits day ++ cstr " " ++
    twoDigits (second / 3600) ++ cstr ":" ++ twoDigits (second / 60 % 60) ++ cstr ":" ++
    twoDigits (second % 60)

end AimeeLearning.Learning
