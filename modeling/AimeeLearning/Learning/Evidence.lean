import AimeeLearning.Learning.JsonText
import AimeeLearning.Library.Attempt

/-! Candidates on their way into the charter's target surfaces: a judge commits
a corroborated one, a promotion writes it into its surface, and a review rolls
it back. The stores, JSON and floating point live outside this repository and
are given as an environment; a store call fails or answers. -/

set_option autoImplicit false

namespace AimeeLearning.Learning

open Library

/-- What the code reads of an artifact. -/
structure ArtifactRow (ν : Type) where
  id : Bytes
  kind : Bytes
  state : Bytes
  scopeKind : Bytes
  scopeId : Bytes
  confidence : ν
  payloadJson : Bytes
  deriving DecidableEq

structure AuditRow (ν : Type) where
  id : Bytes
  artifactId : Bytes
  surface : Bytes
  targetId : Bytes
  actor : Bytes
  scopeKind : Bytes
  scopeId : Bytes
  confidence : ν
  flaggedForReview : Bool
  beforeSnapshot : Bytes
  afterSnapshot : Bytes
  deriving DecidableEq

inductive TargetSurface where
  | antiPattern
  | memory
  | workflowPattern
  | rule
  | epistemicDirective
  | entity
  | guardrailExemplar
  | workingProfile
  deriving DecidableEq

namespace TargetSurface

def name : TargetSurface → Bytes
  | antiPattern => cstr "anti_pattern"
  | memory => cstr "memory"
  | workflowPattern => cstr "workflow_pattern"
  | rule => cstr "rule"
  | epistemicDirective => cstr "epistemic_directive"
  | entity => cstr "entity"
  | guardrailExemplar => cstr "guardrail_exemplar"
  | workingProfile => cstr "working_profile"

/-- The surfaces in the order they are compared with. -/
def all : List TargetSurface :=
  [antiPattern, memory, workflowPattern, rule, epistemicDirective, entity, guardrailExemplar,
    workingProfile]

def ofName (text : Bytes) : Option TargetSurface := all.find? fun surface => text == surface.name

theorem ofName_name (surface : TargetSurface) : ofName surface.name = some surface := by
  cases surface <;> decide +kernel

end TargetSurface

/-- A call that writes a row of a surface, with all its arguments. -/
inductive SurfaceWrite (ν : Type) where
  | antiPatternInsert (pattern description source artifactId : Bytes) (confidence : ν)
  | workflowPatternInsert (pattern description source artifactId : Bytes) (confidence : ν)
  | rulesInsert (polarity title description : Bytes) (weight : Int)
  | directiveInsertIgnore (question topic left right source : Bytes) (priority first second : Int)
      (third fourth fifth : Bytes)
  | entityNodeUpsert (nodeKey : Bytes) (parent : Int) (project label canonical first second
      source : Bytes) (flag : Int)
  | entityNodeAliasUpsert (mention nodeKey source project : Bytes) (flag : Int)
  | artifactRegisterExemplar (artifactId collection : Bytes)
  | workingProfileObserve (field value : Bytes) (confidence : ν) (session : Bytes) (threshold : Int)
  deriving DecidableEq

def SurfaceWrite.surface {ν : Type} : SurfaceWrite ν → TargetSurface
  | antiPatternInsert .. => .antiPattern
  | workflowPatternInsert .. => .workflowPattern
  | rulesInsert .. => .rule
  | directiveInsertIgnore .. => .epistemicDirective
  | entityNodeUpsert .. | entityNodeAliasUpsert .. => .entity
  | artifactRegisterExemplar .. => .guardrailExemplar
  | workingProfileObserve .. => .workingProfile

/-- The store and the arithmetic around evidence. A text argument that may be
NULL is an option. -/
structure EvidenceEnv (σ ν : Type) where
  artifactRead : σ → Bytes → Option (ArtifactRow ν)
  /-- The explicit target surface column, empty when there is none. -/
  artifactTargetSurface : σ → Bytes → Bytes
  artifactCitationCount : σ → Bytes → Int
  /-- The before snapshot of the latest audit row of an artifact. -/
  auditReadLatestBefore : σ → Bytes → Bytes
  artifactGenId : σ → Bytes
  artifactSetState : Bytes → Bytes → Attempt σ Unit
  artifactReviewRollback : Bytes → Bytes → Option Bytes → Option Bytes → Option Bytes →
    Attempt σ Unit
  auditEventWrite : AuditRow ν → Attempt σ Unit
  /-- Answers the id of the row, where the call has one. -/
  surfaceWrite : SurfaceWrite ν → Attempt σ Int
  /-- Whether the weak symbol `db1_working_profile_local_observe` is linked. -/
  workingProfileLinked : Bool
  /-- The response object; NULL is a failure. -/
  memoryInsertJson : (tier kind key content : Bytes) → ν → Bytes → Attempt σ (CJson ν)
  tierL1 : Bytes
  cjsonParse : Bytes → Option (CJson ν)
  less : ν → ν → Bool
  minus : ν → ν → ν
  promoteBorderline : ν
  one : ν
  /-- `(int)(confidence * 100.0)` -/
  percent : ν → Int
  toInt64 : ν → Int

def stateProposed : Bytes := cstr "proposed"

variable {σ ν : Type} (env : EvidenceEnv σ ν)

section Payload

/-- The first non-empty text among the keys, cut to its buffer. -/
def payloadFirstString (payload : CJson ν) (keys : List String) (cap : Nat) : Bytes :=
  match keys.findSome? fun key => (payload.getString key).filter (· ≠ []) with
  | some text => snprintf cap text
  | none => []

/-- A field of an artifact's payload; empty when the payload does not parse. -/
def payloadText (art : ArtifactRow ν) (keys : List String) (cap : Nat) : Bytes :=
  match env.cjsonParse art.payloadJson with
  | some payload => payloadFirstString payload keys cap
  | none => []

def textOr (cap : Nat) (text fallback : Bytes) : Bytes :=
  if text = [] then snprintf cap fallback else text

end Payload

section Audit

def auditUnderFreshId (row : Bytes → AuditRow ν) : Attempt σ Unit :=
  .reading env.artifactGenId fun id => env.auditEventWrite (row id)

def promotionAudit (art : ArtifactRow ν) (surface : TargetSurface) (targetId : Bytes)
    (flagged : Bool) (afterSnapshot id : Bytes) : AuditRow ν where
  id
  artifactId := art.id
  surface := surface.name
  targetId
  actor := cstr "kb.learning.promote"
  scopeKind := art.scopeKind
  scopeId := art.scopeId
  confidence := art.confidence
  flaggedForReview := flagged
  beforeSnapshot := cstr "\x7b\"surface\":null\x7d"
  afterSnapshot

def promoteEmitAudit (art : ArtifactRow ν) (surface : TargetSurface) (targetId : Bytes)
    (flagged : Bool) : Attempt σ Unit :=
  auditUnderFreshId env <| promotionAudit art surface targetId flagged <| snprintf 256 <|
    cstr "\x7b\"surface\":\"" ++ surface.name ++ cstr "\",\"target_id\":\"" ++ targetId ++ cstr "\"\x7d"

/-- The audit of a surface whose rows have numbers, shown under `key`. -/
def promoteNumberAudit (art : ArtifactRow ν) (surface : TargetSurface) (key : Bytes)
    (flagged : Bool) (row : Int) : Attempt σ Unit :=
  auditUnderFreshId env <| promotionAudit art surface (snprintf 32 (printNumber row)) flagged <|
    snprintf 160 <| cstr "\x7b\"surface\":\"" ++ surface.name ++ cstr "\",\"" ++ key ++ cstr "\":" ++
      printNumber row ++ cstr "\x7d"

end Audit

/-- A surface write, and the audit row that explains it. -/
structure Promotion (σ : Type) where
  row : Attempt σ Int
  audit : Int → Attempt σ Unit

/-- `1` when both calls answered, `-1` when one failed. -/
def outcomeCode {α : Type} (outcome : Option α × σ) : Int × σ :=
  (if outcome.1.isSome then 1 else -1, outcome.2)

section Promoters

def antiPatternRow (art : ArtifactRow ν) : SurfaceWrite ν :=
  .antiPatternInsert
    (textOr 512 (payloadText env art ["pattern", "tag", "title", "content"] 512) art.kind)
    (payloadText env art ["description", "content"] 1024)
    (cstr "kb.learning.promote") art.id art.confidence

def promoteAntiPattern (art : ArtifactRow ν) (flagged : Bool) : Promotion σ where
  row := env.surfaceWrite (antiPatternRow env art)
  audit := promoteNumberAudit env art .antiPattern (cstr "row_id") flagged

/-- The typed-verb store call; an answer without the status `ok` is a failure. -/
def memoryInsert (key content : Bytes) (confidence : ν) : Attempt σ Int := do
  let response ← env.memoryInsertJson env.tierL1 (cstr "preference") key content confidence []
  if response.getString "status" = some (cstr "ok") then
    pure (match response.getNumber "id" with
      | some id => env.toInt64 id
      | none => -1)
  else .refuse

def memoryKey (art : ArtifactRow ν) : Bytes :=
  textOr 256 (payloadText env art ["key", "tag", "title"] 256) art.id

def memoryContent (art : ArtifactRow ν) : Bytes :=
  textOr 1024 (payloadText env art ["content", "description", "narrative"] 1024) (memoryKey env art)

def promoteMemory (art : ArtifactRow ν) (flagged : Bool) : Promotion σ where
  row := memoryInsert env (memoryKey env art) (memoryContent env art) art.confidence
  audit := promoteNumberAudit env art .memory (cstr "memory_id") flagged

def workflowPatternRow (art : ArtifactRow ν) : SurfaceWrite ν :=
  .workflowPatternInsert
    (textOr 512 (payloadText env art ["pattern", "tag", "title", "content"] 512) art.kind)
    (payloadText env art ["description", "content"] 1024)
    (cstr "kb.learning.promote") art.id art.confidence

def promoteWorkflowPattern (art : ArtifactRow ν) (flagged : Bool) : Promotion σ where
  row := env.surfaceWrite (workflowPatternRow env art)
  audit := promoteNumberAudit env art .workflowPattern (cstr "row_id") flagged

def ruleTitle (art : ArtifactRow ν) : Bytes :=
  textOr 256 (payloadText env art ["title", "rule", "pattern", "key"] 256) art.id

def ruleRow (art : ArtifactRow ν) : SurfaceWrite ν :=
  .rulesInsert (cstr "positive") (ruleTitle env art)
    (payloadText env art ["description", "content"] 1024) (env.percent art.confidence)

def promoteRule (art : ArtifactRow ν) (flagged : Bool) : Promotion σ where
  row := env.surfaceWrite (ruleRow env art)
  audit _ := promoteEmitAudit env art .rule (ruleTitle env art) flagged

def directiveRow (art : ArtifactRow ν) : SurfaceWrite ν :=
  .directiveInsertIgnore
    (textOr 512 (payloadText env art ["question", "content", "title"] 512) art.id)
    (textOr 256 (payloadText env art ["topic", "tag"] 256) art.scopeId)
    [] [] (cstr "promoted_directive") 50 0 0 [] [] []

def promoteEpistemicDirective (art : ArtifactRow ν) (flagged : Bool) : Promotion σ where
  row := env.surfaceWrite (directiveRow env art)
  audit row := promoteEmitAudit env art .epistemicDirective (snprintf 32 (printNumber row)) flagged

def entityAlias (art : ArtifactRow ν) : Bytes :=
  textOr 256 (payloadText env art ["alias", "mention", "title", "key"] 256) art.id

def entityNodeKey (art : ArtifactRow ν) : Bytes :=
  textOr 256 (payloadText env art ["node_key", "canonical", "entity"] 256) (entityAlias env art)

/-- The canonical node, which the alias refers to. -/
def entityNodeRow (art : ArtifactRow ν) : SurfaceWrite ν :=
  .entityNodeUpsert (entityNodeKey env art) 0 art.scopeId (entityAlias env art)
    (entityNodeKey env art) [] [] (cstr "learned") 0

def entityAliasRow (art : ArtifactRow ν) : SurfaceWrite ν :=
  .entityNodeAliasUpsert (entityAlias env art) (entityNodeKey env art) (cstr "learned") art.scopeId 0

def upsertEntityNode (art : ArtifactRow ν) : Attempt σ Int := env.surfaceWrite (entityNodeRow env art)

def upsertEntityAlias (art : ArtifactRow ν) : Attempt σ Int := env.surfaceWrite (entityAliasRow env art)

def promoteEntity (art : ArtifactRow ν) (flagged : Bool) : Promotion σ where
  row := do
    let _ ← upsertEntityNode env art
    upsertEntityAlias env art
  audit _ := promoteEmitAudit env art .entity (entityNodeKey env art) flagged

def exemplarRow (art : ArtifactRow ν) : SurfaceWrite ν :=
  .artifactRegisterExemplar art.id (cstr "case_exemplars")

def promoteGuardrailExemplar (art : ArtifactRow ν) (flagged : Bool) : Promotion σ where
  row := env.surfaceWrite (exemplarRow art)
  audit _ := promoteEmitAudit env art .guardrailExemplar art.id flagged

/-- The field a working profile promotion is about. -/
def profileField (art : ArtifactRow ν) : Bytes := payloadText env art ["field", "key", "title"] 128

def workingProfileRow (art : ArtifactRow ν) : SurfaceWrite ν :=
  .workingProfileObserve (profileField env art)
    (payloadText env art ["value", "content", "description"] 512) art.confidence [] 1

/-- Without DB1 in the process, or without a field, there is nothing to write. -/
def promoteWorkingProfile (art : ArtifactRow ν) (flagged : Bool) : Except Int (Promotion σ) :=
  if ¬ env.workingProfileLinked then .error (-2)
  else if profileField env art = [] then .error (-1)
  else .ok
    { row := env.surfaceWrite (workingProfileRow env art)
      audit := fun _ => promoteEmitAudit env art .workingProfile (profileField env art) flagged }

/-- What is written for an artifact that goes to a surface. -/
def promotionTo (art : ArtifactRow ν) (flagged : Bool) : TargetSurface → Except Int (Promotion σ)
  | .antiPattern => .ok (promoteAntiPattern env art flagged)
  | .memory => .ok (promoteMemory env art flagged)
  | .workflowPattern => .ok (promoteWorkflowPattern env art flagged)
  | .rule => .ok (promoteRule env art flagged)
  | .epistemicDirective => .ok (promoteEpistemicDirective env art flagged)
  | .entity => .ok (promoteEntity env art flagged)
  | .guardrailExemplar => .ok (promoteGuardrailExemplar env art flagged)
  | .workingProfile => promoteWorkingProfile env art flagged

theorem promotionTo_error {art : ArtifactRow ν} {flagged : Bool} {surface : TargetSurface}
    {code : Int} (refused : promotionTo env art flagged surface = .error code) : code ≠ 1 := by
  cases surface
  case workingProfile =>
    simp only [promotionTo, promoteWorkingProfile] at refused
    split at refused
    · cases refused; decide
    · split at refused
      · cases refused; decide
      · cases refused
  all_goals cases refused

/-- What a promotion is made of: one surface call, or the two of an entity, and
an audit row about the artifact. -/
structure PromotionCalls (art : ArtifactRow ν) (flagged : Bool) (surface : TargetSurface)
    (promotion : Promotion σ) : Prop where
  row : (∃ write, surface ≠ .entity ∧ promotion.row = env.surfaceWrite write) ∨
    (∃ key content, surface = .memory ∧ promotion.row = memoryInsert env key content art.confidence) ∨
    surface = .entity ∧ promotion.row = (promoteEntity env art flagged).row
  audit : ∀ answer, ∃ targetId after, promotion.audit answer =
    auditUnderFreshId env (promotionAudit art surface targetId flagged after)

theorem promotionTo_calls {art : ArtifactRow ν} {flagged : Bool} {surface : TargetSurface}
    {promotion : Promotion σ} (chosen : promotionTo env art flagged surface = .ok promotion) :
    PromotionCalls env art flagged surface promotion := by
  cases surface with
  | antiPattern => cases chosen; exact ⟨.inl ⟨_, nofun, rfl⟩, fun _ => ⟨_, _, rfl⟩⟩
  | memory => cases chosen; exact ⟨.inr (.inl ⟨_, _, rfl, rfl⟩), fun _ => ⟨_, _, rfl⟩⟩
  | workflowPattern => cases chosen; exact ⟨.inl ⟨_, nofun, rfl⟩, fun _ => ⟨_, _, rfl⟩⟩
  | rule => cases chosen; exact ⟨.inl ⟨_, nofun, rfl⟩, fun _ => ⟨_, _, rfl⟩⟩
  | epistemicDirective => cases chosen; exact ⟨.inl ⟨_, nofun, rfl⟩, fun _ => ⟨_, _, rfl⟩⟩
  | entity => cases chosen; exact ⟨.inr (.inr ⟨rfl, rfl⟩), fun _ => ⟨_, _, rfl⟩⟩
  | guardrailExemplar => cases chosen; exact ⟨.inl ⟨_, nofun, rfl⟩, fun _ => ⟨_, _, rfl⟩⟩
  | workingProfile =>
      simp only [promotionTo, promoteWorkingProfile] at chosen
      split at chosen
      · cases chosen
      · split at chosen
        · cases chosen
        · cases chosen
          exact ⟨.inl ⟨_, nofun, rfl⟩, fun _ => ⟨_, _, rfl⟩⟩

end Promoters

def learningCandidateTargetSurface (candidateKind : Option Bytes) : Option TargetSurface :=
  match candidateKind with
  | none => none
  | some kind =>
      if kind = cstr "preference" then some .memory
      else if kind = cstr "workflow" then some .workflowPattern
      else if kind = cstr "anti_pattern" then some .antiPattern
      else if kind = cstr "mistake_pattern" then some .antiPattern
      else none

section Promote

/-- An artifact that may be written into a surface. -/
structure Promotable (ν : Type) where
  art : ArtifactRow ν
  flagged : Bool
  surface : TargetSurface

/-- What is checked before anything is written, with the code it returns. -/
def promotable (candidateId : Option Bytes) (threshold : ν) (state : σ) :
    Except Int (Promotable ν) :=
  match candidateId with
  | none | some [] => .error (-1)
  | some candidate =>
      match env.artifactRead state candidate with
      | none => .error (-1)
      | some art =>
          if art.state ≠ stateCommitted then .error (-1)
          else
            -- the explicit column wins over the surface of the kind
            let column := snprintf 64 (env.artifactTargetSurface state candidate)
            let surface := if column ≠ [] then some column
              else (learningCandidateTargetSurface (some art.kind)).map TargetSurface.name
            match surface with
            | none => .error (-1)
            | some surface =>
                if env.less art.confidence (env.minus threshold env.promoteBorderline) then .error 0
                else
                  match TargetSurface.ofName surface with
                  | none => .error (-2)
                  | some surface => .ok ⟨art, env.less art.confidence threshold, surface⟩

theorem promotable_ok {env : EvidenceEnv σ ν} {candidateId : Option Bytes} {threshold : ν}
    {state : σ} {target : Promotable ν}
    (passed : promotable env candidateId threshold state = .ok target) :
    ∃ candidate, candidateId = some candidate ∧
      env.artifactRead state candidate = some target.art ∧ target.art.state = stateCommitted := by
  unfold promotable at passed
  split at passed
  · cases passed
  · cases passed
  · rename_i candidate _
    split at passed
    · cases passed
    · rename_i art found
      split at passed
      · cases passed
      · rename_i committed
        dsimp only at passed
        split at passed
        · cases passed
        · split at passed
          · cases passed
          · split at passed
            · cases passed
            · cases passed
              exact ⟨candidate, rfl, found, not_not.mp committed⟩

theorem promotable_error {env : EvidenceEnv σ ν} {candidateId : Option Bytes} {threshold : ν}
    {state : σ} {code : Int}
    (refused : promotable env candidateId threshold state = .error code) : code ≠ 1 := by
  unfold promotable at refused
  split at refused
  · cases refused; decide
  · cases refused; decide
  · split at refused
    · cases refused; decide
    · split at refused
      · cases refused; decide
      · dsimp only at refused
        split at refused
        · cases refused; decide
        · split at refused
          · cases refused; decide
          · split at refused
            · cases refused; decide
            · cases refused

def learningPromote (candidateId : Option Bytes) (threshold : ν) (state : σ) : Int × σ :=
  match promotable env candidateId threshold state with
  | .error code => (code, state)
  | .ok ⟨art, flagged, surface⟩ =>
      match promotionTo env art flagged surface with
      | .error code => (code, state)
      | .ok promotion => outcomeCode ((promotion.row >>= promotion.audit).run state)

end Promote

section Judge

/-- A candidate that is corroborated enough. -/
structure Judgeable where
  candidate : Bytes
  surface : TargetSurface
  corroboration : Int

def requiredCorroboration (minCorroboration : Int) : Int :=
  if minCorroboration > 0 then minCorroboration else 1

def judgeable (candidateId candidateKind : Option Bytes) (minCorroboration : Int) (state : σ) :
    Except Int Judgeable :=
  match candidateId with
  | none | some [] => .error (-1)
  | some candidate =>
      match learningCandidateTargetSurface candidateKind with
      | none => .error (-1)
      | some surface =>
          let corroboration := env.artifactCitationCount state candidate
          if corroboration < 0 then .error (-1)
          else if corroboration < requiredCorroboration minCorroboration then .error 0
          else .ok ⟨candidate, surface, corroboration⟩

/-- The before snapshot is written on trust; the state is not read. -/
def judgeAudit (verdict : Judgeable) (id : Bytes) : AuditRow ν where
  id
  artifactId := verdict.candidate
  surface := verdict.surface.name
  targetId := []
  actor := cstr "kb.learning.judge"
  scopeKind := []
  scopeId := []
  confidence := env.one
  flaggedForReview := false
  beforeSnapshot := cstr "\x7b\"state\":\"proposed\"\x7d"
  afterSnapshot := snprintf 160 <| cstr "\x7b\"state\":\"committed\",\"corroboration\":" ++
    printNumber verdict.corroboration ++ cstr "\x7d"

def learningJudgeCommit (candidateId candidateKind : Option Bytes) (minCorroboration : Int)
    (state : σ) : Int × σ :=
  match judgeable env candidateId candidateKind minCorroboration state with
  | .error code => (code, state)
  | .ok verdict => outcomeCode <| Attempt.run (do
      env.artifactSetState verdict.candidate stateCommitted
      auditUnderFreshId env (judgeAudit env verdict)) state

theorem requiredCorroboration_eq (minCorroboration : Int) :
    requiredCorroboration minCorroboration = max 1 minCorroboration := by
  unfold requiredCorroboration
  split <;> omega

theorem judgeable_ok {env : EvidenceEnv σ ν} {candidateId candidateKind : Option Bytes} {minCorroboration : Int} {state : σ}
    {verdict : Judgeable}
    (judged : judgeable env candidateId candidateKind minCorroboration state = .ok verdict) :
    candidateId = some verdict.candidate ∧ verdict.candidate ≠ [] ∧
      max 1 minCorroboration ≤ env.artifactCitationCount state verdict.candidate := by
  unfold judgeable at judged
  split at judged
  · cases judged
  · cases judged
  · rename_i candidate nonempty
    split at judged
    · cases judged
    · dsimp only at judged
      split at judged
      · cases judged
      · split at judged
        · cases judged
        · rename_i enough
          cases judged
          rw [requiredCorroboration_eq, not_lt] at enough
          exact ⟨rfl, nonempty, enough⟩

theorem judgeable_error {env : EvidenceEnv σ ν} {candidateId candidateKind : Option Bytes} {minCorroboration code : Int}
    {state : σ}
    (refused : judgeable env candidateId candidateKind minCorroboration state = .error code) :
    code ≠ 1 := by
  unfold judgeable at refused
  split at refused
  · cases refused; decide
  · cases refused; decide
  · split at refused
    · cases refused; decide
    · dsimp only at refused
      split at refused
      · cases refused; decide
      · split at refused
        · cases refused; decide
        · cases refused

end Judge

section Rollback

/-- `strstr`: the text from the first place where the needle stands. -/
def strstr (needle : Bytes) : Bytes → Option Bytes
  | [] => if needle = [] then some [] else none
  | byte :: rest =>
      if needle.isPrefixOf (byte :: rest) then some (byte :: rest) else strstr needle rest

/-- `strchr`: the text from the first place where the byte stands. -/
def strchr (byte : UInt8) (text : Bytes) : Option Bytes :=
  match text.dropWhile (· ≠ byte) with
  | [] => none
  | found => some found

def snapshotState (json : Option Bytes) (len : Nat) : Option Bytes := do
  let found ← strstr (cstr "\"state\"") (← json)
  let colon ← strchr 58 (found.drop 7)
  let quote ← strchr 34 colon
  let text := ((quote.drop 1).takeWhile (· ≠ 34)).take (len - 1)
  if text = [] then none else some text

/-- The state a rollback goes back to. -/
def restoreState (candidate : Bytes) (state : σ) : Bytes :=
  let beforeJson := snprintf 128 (env.auditReadLatestBefore state candidate)
  match snapshotState (some beforeJson) 32 with
  | some restored => restored
  | none => stateProposed

def learningReviewRollback (candidateId verdictTag verdictScope counterExample : Option Bytes)
    (state : σ) : Int × σ :=
  match candidateId with
  | none | some [] => (-1, state)
  | some candidate =>
      match (env.artifactReviewRollback candidate (restoreState env candidate state) verdictTag
          verdictScope counterExample).run state with
      | (some (), next) => (0, next)
      | (none, next) => (-1, next)

end Rollback

inductive EvidenceCall (ν : Type) where
  | judgeCommit (candidateId candidateKind : Option Bytes) (minCorroboration : Int)
  | promote (candidateId : Option Bytes) (threshold : ν)
  | reviewRollback (candidateId verdictTag verdictScope counterExample : Option Bytes)
  deriving DecidableEq

def EvidenceCall.candidateId : EvidenceCall ν → Option Bytes
  | judgeCommit candidateId _ _ | promote candidateId _ | reviewRollback candidateId _ _ _ =>
      candidateId

def runEvidenceCall : EvidenceCall ν → σ → Int × σ
  | .judgeCommit candidateId candidateKind minCorroboration =>
      learningJudgeCommit env candidateId candidateKind minCorroboration
  | .promote candidateId threshold => learningPromote env candidateId threshold
  | .reviewRollback candidateId verdictTag verdictScope counterExample =>
      learningReviewRollback env candidateId verdictTag verdictScope counterExample

end AimeeLearning.Learning
