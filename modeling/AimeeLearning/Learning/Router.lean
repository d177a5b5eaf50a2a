import AimeeLearning.Learning.Proposal
import AimeeLearning.Observe.Observation

/-! The learning router: a signal is classified, stored and routed to sinks as
proposals, which corroborating signals or reviewers commit. -/

set_option autoImplicit false

namespace AimeeLearning.Learning

open Library Observe Traced

variable {σ ν : Type} (env : RouterEnv σ ν)

/-- A program of the router. -/
abbrev RouterM (σ ν α : Type) := Traced σ (RouterEvent ν) α

def learningDefaultTtlDays : Int := 7
def learningDefaultMaxCommitsPerWeek : Int := 25

def learningProposalTtlDays (state : σ) : Int :=
  if !env.configPresent state then learningDefaultTtlDays
  else if env.configProposalTtlDays state > 0 then env.configProposalTtlDays state
  else learningDefaultTtlDays

def learningMaxCommitsPerWeek (state : σ) : Int :=
  if !env.configPresent state then learningDefaultMaxCommitsPerWeek
  else if env.configMaxCommitsPerWeek state > 0 then env.configMaxCommitsPerWeek state
  else learningDefaultMaxCommitsPerWeek

def learningExpiryAfterDays (days : Int) (state : σ) : Bytes :=
  snprintf 32 (timestamp (env.time state + days * 86400))

def learningClassifySignal (signal : Bytes) : RouterM σ ν (Option UInt32) :=
  match env.signalClassifier with
  | none => pure none
  | some classifier => call (classifier · signal)

/-- `db2_learning_proposals_archive_expired` -/
def archiveExpired : RouterM σ ν Unit := do
  call fun state => ((), env.proposalsArchiveExpired state)
  emit .archivedExpired

def learningLogDogfood (input : LearningSignalInput) : RouterM σ ν Unit :=
  let moment (outcome : String) : DogfoodMoment :=
    { source := cstr "learning_router"
      text := if input.title ≠ [] then input.title else input.description
      ids := if input.targetMemoryId > 0 then [input.targetMemoryId] else []
      notes := snprintf 96 (cstr "learning_router:" ++ input.signalType)
      outcome := cstr outcome }
  let log (outcome : String) : RouterM σ ν Unit :=
    call fun state => ((), env.dogfoodLogMoment state (moment outcome))
  if input.signalType = cstr "thumb_up" then log "hit"
  else if input.signalType = cstr "thumb_down" then log "partial"
  else if input.signalType = cstr "correction" then log "miss"
  else pure ()

section Sinks

/-- What a parsed action asks of its sink: to fail, nothing, or an effect. -/
inductive SinkPlan (ν : Type) where
  | malformed
  | nothing
  | effect (effect : SinkEffect ν)

def rerankerPlan (proposal : LearningProposal) (action : CJson ν) : SinkPlan ν :=
  let success : Int :=
    match action.getItem "success" with
    | some (.bool value) => if value then 1 else 0
    | some (.number value) => env.valueInt value
    | _ => 0
  let cited : List Int :=
    match action.getItem "citation_ids" with
    | some (.array items) => (items.filterMap fun
        | .number value => some (env.toInt64 value)
        | _ => none).take 32
    | _ => []
  let ids := if cited = [] ∧ proposal.targetMemoryId > 0 then [proposal.targetMemoryId] else cited
  if ids = [] then .nothing else .effect (.memoryApplyFeedback success ids)

def supersedePlan (session : Bytes) (action : CJson ν) : SinkPlan ν :=
  match action.getNumber "old_memory_id", action.getString "new_content" with
  | some old, some content =>
      if content = [] then .malformed
      else .effect (.memorySupersede (env.toInt64 old) content (env.ofInt 1) session)
  | _, _ => .malformed

def rulePlan (action : CJson ν) : SinkPlan ν :=
  match action.getString "text" with
  | some text =>
      if text = [] then .malformed
      else .effect (.collabRulesPropose text ((action.getString "reason").getD [])
        (cstr "learning_router"))
  | none => .malformed

def workflowPlan (session : Bytes) (action : CJson ν) : SinkPlan ν :=
  match action.getString "project", action.getString "signal_type", action.getString "rule" with
  | some project, some signal, some rule =>
      if project = [] ∨ signal = [] ∨ rule = [] then .malformed
      else .effect (.memoryUpsertWorkflow project signal rule (env.ofInt 1) session)
  | _, _, _ => .malformed

def artifactPlan (action : CJson ν) : SinkPlan ν :=
  match action.getString "artifact_id", action.getString "artifact_kind",
    action.getString "payload_json" with
  | some id, some kind, some payload =>
      if id = [] ∨ kind = [] ∨ payload = [] then .malformed
      else .effect (.artifactWrite id kind (cstr "proposed")
        ((action.getString "scope_kind").getD (cstr "workspace")) [] (cstr "kb-mining-learning")
        ((action.getNumber "confidence").getD env.half) payload)
  | _, _, _ => .malformed

def sinkPlan (session : Bytes) (proposal : LearningProposal) (action : CJson ν) : SinkPlan ν :=
  if proposal.sink = cstr "reranker" then rerankerPlan env proposal action
  else if proposal.sink = cstr "supersede" then supersedePlan env session action
  else if proposal.sink = cstr "rule" then rulePlan action
  else if proposal.sink = cstr "workflow" then workflowPlan env session action
  else if proposal.sink = cstr "artifact" then artifactPlan env action
  else .nothing

/-- The return code the sink makes of what the service returned. -/
def SinkEffect.settle (effect : SinkEffect ν) (rc : Int) : Int :=
  match effect with
  | .collabRulesPropose _ _ _ => if rc ≥ 0 then 0 else -1
  | .memoryUpsertWorkflow _ _ _ _ _ => if rc > 0 then 0 else -1
  | _ => rc

def learningApplySink (proposal : LearningProposal) : RouterM σ ν Int :=
  match env.cjsonParse proposal.actionJson with
  | none => pure (-1)
  | some action => do
      let session ← read env.sessionId
      match sinkPlan env session proposal action with
      | .malformed => pure (-1)
      | .nothing => pure 0
      | .effect effect => do
          let rc ← call (env.perform · effect)
          emit (.applied proposal.id effect (effect.settle rc))
          pure (effect.settle rc)

end Sinks

/-- The proposal, when the call returns 0. -/
def learningGetProposal (id : Int) : RouterM σ ν (Option LearningProposal) := do
  archiveExpired env
  call (env.proposalGet · id)

/-- `db2_learning_proposal_archive`; its return code is not looked at. -/
def archiveProposal (id : Int) (reason : String) : RouterM σ ν Unit := do
  let _ ← call (env.proposalArchive · id (cstr reason))
  emit (.archived id (cstr reason))

/-- The branch that archives a proposal and returns it as it is then. -/
def archiveAndGet (id : Int) (reason : String) : RouterM σ ν (Option LearningProposal) := do
  archiveProposal env id reason
  learningGetProposal env id

/-- The branch that applies a pending proposal and marks it. -/
def applyAndMark (id : Int) (proposal : LearningProposal) :
    RouterM σ ν (Option LearningProposal) := do
  let rc ← learningApplySink env proposal
  if rc ≠ 0 then pure none
  else do
    let rc ← call (env.proposalMarkCommitted · id)
    emit (.committed id rc)
    learningGetProposal env id

def learningCommitProposal (id : Int) : RouterM σ ν (Option LearningProposal) := do
  match ← learningGetProposal env id with
  | none => pure none
  | some proposal =>
      if proposal.state = stateCommitted then pure (some proposal)
      else if proposal.state ≠ statePending then pure (some proposal)
      else do
        let commits ← call (env.commitsInLast7Days · proposal.sink)
        let limit ← read (learningMaxCommitsPerWeek env)
        if commits ≥ limit then archiveAndGet env id "weekly_cap"
        else applyAndMark env id proposal

section Queue

def LearningDispatchResult.addProposal (id : Int) (out : LearningDispatchResult) :
    LearningDispatchResult :=
  if out.proposalIds.length < learningMaxProposalIds then
    { out with proposalIds := out.proposalIds ++ [id] }
  else out

def LearningDispatchResult.addCommitted (id : Int) (out : LearningDispatchResult) :
    LearningDispatchResult :=
  if out.committedIds.length < learningMaxProposalIds then
    { out with committedIds := out.committedIds ++ [id] }
  else out

def commitQueued (id : Int) (out : Option LearningDispatchResult) :
    RouterM σ ν (Option LearningDispatchResult) := do
  match ← learningCommitProposal env id with
  | none => pure out
  | some proposal =>
      if proposal.state = stateCommitted then pure (out.map (·.addCommitted id)) else pure out

/-- The end of both branches: the proposal is committed where that is called for. -/
def commitIf (commits : Bool) (id : Int) (out : Option LearningDispatchResult) :
    RouterM σ ν (Int × Option LearningDispatchResult) :=
  if commits then do
    let out ← commitQueued env id out
    pure (id, out)
  else pure (id, out)

/-- The branch that found a pending proposal raises it and looks at it again. -/
def joinPending (found : Int) (out : Option LearningDispatchResult) :
    RouterM σ ν (Int × Option LearningDispatchResult) := do
  let _ ← call (env.proposalBumpCorroboration · found)
  emit (.bumped found)
  let out := out.map (·.addProposal found)
  match ← learningGetProposal env found with
  | none => pure (found, out)
  | some proposal => commitIf env (proposal.corroborationCount ≥ 2) found out

/-- The branch that found nothing to join inserts a proposal. -/
def insertProposal (signalId : Int) (route : Route) (evidenceRefs : Option Bytes)
    (out : Option LearningDispatchResult) :
    RouterM σ ν (Int × Option LearningDispatchResult) := do
  let days ← read (learningProposalTtlDays env)
  let expiresAt ← read (learningExpiryAfterDays env days)
  let id ← call (env.proposalInsert · signalId route.sink route.targetKey route.targetMemoryId
    route.actionJson evidenceRefs expiresAt)
  if id ≤ 0 then pure (-1, out)
  else do
    emit (.inserted id)
    commitIf env route.highConfidence id (out.map (·.addProposal id))

def learningQueueSink (signalId : Int) (route : Route) (evidenceRefs : Option Bytes)
    (out : Option LearningDispatchResult) :
    RouterM σ ν (Int × Option LearningDispatchResult) := do
  emit (.routed signalId route)
  let found ← call (env.proposalFindPending · route.sink route.targetKey route.targetMemoryId)
  if found > 0 then joinPending env found out
  else insertProposal env signalId route evidenceRefs out

end Queue

section Actions

/-- Print an action into a buffer. -/
def renderAction (cap : Nat) (action : CJson ν) : Option Bytes :=
  (env.cjsonPrintUnformatted action).map (snprintf cap)

def learningMakeRerankerAction (success : Bool) (targetMemoryId : Int)
    (evidenceRefsJson : Option Bytes) (cap : Nat) : Option Bytes :=
  let ids : List (CJson ν) :=
    if targetMemoryId > 0 then [.number (env.ofInt targetMemoryId)]
    else
      match evidenceRefsJson.bind env.cjsonParse with
      | some (.array items) => items.filter fun
          | .number _ => true
          | _ => false
      | _ => []
  renderAction env cap (.object [(cstr "success", .bool success),
    (cstr "citation_ids", .array ids)])

def learningMakeSupersedeAction (targetMemoryId : Int) (correctionText : Bytes) (cap : Nat) :
    Option Bytes :=
  renderAction env cap (.object [(cstr "old_memory_id", .number (env.ofInt targetMemoryId)),
    (cstr "new_content", .string correctionText)])

def learningMakeRuleAction (text reason : Bytes) (cap : Nat) : Option Bytes :=
  renderAction env cap (.object [(cstr "text", .string text), (cstr "reason", .string reason)])

def learningMakeWorkflowAction (project signalType rule : Bytes) (cap : Nat) : Option Bytes :=
  renderAction env cap (.object [(cstr "project", .string project),
    (cstr "signal_type", .string signalType), (cstr "rule", .string rule)])

end Actions

section Routes

variable (input : LearningSignalInput)

def rerankerRoute : Option Route :=
  let hasTarget := input.targetMemoryId > 0 ∨ input.evidenceRefsJson.getD [] ≠ []
  if input.signalType ≠ cstr "correction" ∨ hasTarget then
    (learningMakeRerankerAction env (input.signalType == cstr "thumb_up") input.targetMemoryId
      input.evidenceRefsJson 512).map fun action =>
        ⟨cstr "reranker", input.targetKey, input.targetMemoryId, action, false⟩
  else none

def supersedeRoute : Option Route :=
  if input.targetMemoryId > 0 ∧ input.correctionText ≠ [] then
    (learningMakeSupersedeAction env input.targetMemoryId input.correctionText 2048).map
      fun action => ⟨cstr "supersede", input.targetKey, input.targetMemoryId, action, false⟩
  else none

def correctionRuleText : Bytes :=
  snprintf (env.collabRuleTextLen + 1) <|
    if input.targetKey ≠ [] ∧ input.correctionText ≠ [] then
      cstr "For " ++ input.targetKey ++ cstr ", use " ++ input.correctionText
    else if input.title ≠ [] ∧ input.correctionText ≠ [] then
      cstr "For " ++ input.title ++ cstr ", use " ++ input.correctionText
    else if input.correctionText ≠ [] then input.correctionText
    else input.description

def ruleRoute : Option Route :=
  let reason (text : String) : Bytes := snprintf (env.collabRuleReasonLen + 1) (cstr text)
  if input.signalType = cstr "correction" ∧
      (input.correctionText ≠ [] ∨ input.title ≠ [] ∨ input.description ≠ []) then
    (learningMakeRuleAction env (correctionRuleText env input)
      (reason "Repeated correction captured by learning router") 2048).map fun action =>
        ⟨cstr "rule", input.targetKey, input.targetMemoryId, action, false⟩
  else if input.signalType = cstr "preference_statement" ∨
      input.signalType = cstr "mark_rule" then
    let text := snprintf (env.collabRuleTextLen + 1)
      (if input.description ≠ [] then input.description else input.title)
    let marked := input.signalType == cstr "mark_rule"
    (learningMakeRuleAction env text
      (reason (if marked then "Explicit rule capture" else "Explicit user preference")) 2048).map
        fun action => ⟨cstr "rule", input.targetKey, input.targetMemoryId, action,
          input.highConfidence || marked⟩
  else none

def workflowRoute : Option Route :=
  if input.workflowProject ≠ [] ∧ input.workflowSignalType ≠ [] ∧ input.description ≠ [] then
    (learningMakeWorkflowAction env input.workflowProject input.workflowSignalType
      input.description 1024).map fun action =>
        ⟨cstr "workflow", input.workflowProject, 0, action, false⟩
  else none

/-- A branch taken when the mask has its sink. -/
def ifMasked (mask sink : UInt32) (route : Option Route) : Option Route :=
  if mask &&& sink ≠ 0 then route else none

/-- What a signal asks of the sinks in its mask, in the order they are queued. -/
def routes (mask : UInt32) : List Route :=
  (ifMasked mask sinkReranker (rerankerRoute env input)).toList ++
    (ifMasked mask sinkSupersede (supersedeRoute env input)).toList ++
    (ifMasked mask sinkRule (ruleRoute env input)).toList ++
    (ifMasked mask sinkWorkflow (workflowRoute env input)).toList

end Routes

def learningFillTargetKey (input : LearningSignalInput) : RouterM σ ν LearningSignalInput :=
  if input.targetKey ≠ [] ∨ input.targetMemoryId ≤ 0 then pure input
  else do
    match ← call (env.memoryGet · input.targetMemoryId) with
    | none => pure input
    | some key => pure { input with targetKey := snprintf 256 key }

/-- A signal with the key of its target as the store has it. -/
def filledSignal (input : LearningSignalInput) (state : σ) : LearningSignalInput :=
  let filling : RouterM σ ν LearningSignalInput := learningFillTargetKey env input
  (filling.run state).1

def integrityText (input : LearningSignalInput) : Bytes :=
  if input.description ≠ [] then input.description
  else if input.correctionText ≠ [] then input.correctionText
  else input.title

def integritySource (input : LearningSignalInput) : IntegritySource :=
  if input.signalType = cstr "thumb_up" ∨ input.signalType = cstr "thumb_down" ∨
      input.signalType = cstr "correction" ∨ input.signalType = cstr "preference_statement" ∨
      input.signalType = cstr "mark_rule" then .userStated
  else .tool

/-- Whether the integrity gate stops a signal. -/
def integrityRefuses (input : LearningSignalInput) (state : σ) : Bool :=
  env.configPresent state && env.configIntegrityEnabled state && integrityText input != [] &&
    !env.configIntegrityDryRun state && integritySource input != .userStated &&
    env.integrityGateCheck state (integrityText input) (integritySource input) == .reject

/-- Queue the routes of a signal one after the other. -/
def queueRoutes (signalId : Int) (evidenceRefs : Option Bytes) :
    List Route → Option LearningDispatchResult → RouterM σ ν (Option LearningDispatchResult)
  | [], out => pure out
  | route :: rest, out => do
      let (_, out) ← learningQueueSink env signalId route evidenceRefs out
      queueRoutes signalId evidenceRefs rest out

/-- Store a classified signal and queue what it asks for. -/
def dispatchSignal (raw : LearningSignalInput) (mask : UInt32)
    (out : Option LearningDispatchResult) :
    RouterM σ ν (Int × Option LearningDispatchResult) := do
  let input ← learningFillTargetKey env raw
  archiveExpired env
  let session ← read env.sessionId
  let signalId ← call (env.signalInsert · input session)
  if signalId ≤ 0 then pure (-1, out)
  else do
    emit (.signalInserted signalId)
    learningLogDogfood env input
    let out ← queueRoutes env signalId input.evidenceRefsJson (routes env input mask)
      (out.map fun result => { result with signalId })
    pure (signalId, out)

/-- The return code and `*out` afterwards; a NULL pointer is `none`. -/
def learningRouterRecordSignal (rawInput : Option LearningSignalInput)
    (out : Option LearningDispatchResult) :
    RouterM σ ν (Int × Option LearningDispatchResult) :=
  match rawInput with
  | none => pure (-1, out)
  | some raw =>
      if raw.signalType = [] then pure (-1, out)
      else do
        let cleared := out.map fun _ => LearningDispatchResult.zero
        let refused ← read (integrityRefuses env raw)
        if refused then pure (-1, cleared)
        else do
          match ← learningClassifySignal env raw.signalType with
          | none => pure (-1, cleared)
          | some mask => dispatchSignal env raw mask cleared

def learningListProposals (state sink : Option Bytes) (limit max : Int) :
    RouterM σ ν (Int × List LearningProposal) := do
  archiveExpired env
  call (env.proposalList · state sink limit max)

def learningAcceptProposal (id : Int) : RouterM σ ν (Option LearningProposal) :=
  if id ≤ 0 then pure none
  else do
    archiveExpired env
    learningCommitProposal env id

def learningRejectProposal (id : Int) : RouterM σ ν (Option LearningProposal) :=
  if id ≤ 0 then pure none
  else do
    match ← learningGetProposal env id with
    | none => pure none
    | some proposal =>
        if proposal.state ≠ stateCommitted ∧ proposal.state ≠ stateArchived then
          archiveAndGet env id "rejected"
        else learningGetProposal env id

/-- One call of the router's API. -/
inductive RouterOp where
  | recordSignal (rawInput : Option LearningSignalInput) (out : Option LearningDispatchResult)
  | acceptProposal (id : Int)
  | rejectProposal (id : Int)
  | getProposal (id : Int)
  | listProposals (state sink : Option Bytes) (limit max : Int)

/-- A call, its result dropped. -/
def runRouterOp : RouterOp → RouterM σ ν Unit
  | .recordSignal rawInput out => do let _ ← learningRouterRecordSignal env rawInput out
  | .acceptProposal id => do let _ ← learningAcceptProposal env id
  | .rejectProposal id => do let _ ← learningRejectProposal env id
  | .getProposal id => do let _ ← learningGetProposal env id
  | .listProposals state sink limit max => do
      let _ ← learningListProposals env state sink limit max

def routerMachine : Machine σ RouterOp (RouterEvent ν) where
  step state op := some ((runRouterOp env op).run state).2

end AimeeLearning.Learning
