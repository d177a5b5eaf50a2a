import AimeeLearning.Bus.ClientRelay
import AimeeLearning.Bus.ModuleRuntimeInvariants
import AimeeLearning.Bus.RequestAtomicity

/-! The module runtime against its peers: no event makes the loop slice a
payload out of range or give up, and every fragment it replies with is a frame
and an envelope the peer accepts. Stages stay nonzero because the configuration
was validated, correlations because request frames were. -/

set_option autoImplicit false

namespace AimeeLearning.Bus

open Library

section Stages

def StageTable.Nonzero (stages : StageTable) : Prop :=
  ∀ kind stage, stages.lookup kind = some stage → stage ≠ 0

theorem addStage_nonzero {stages next : StageTable} {stage : ModuleStage}
    (added : addStage stages stage = .ok next) (nonzero : stages.Nonzero) : next.Nonzero := by
  unfold addStage at added
  split at added
  · cases added
  · rename_i named
    split at added
    · cases added
    · obtain rfl := Except.ok.inj added
      simp only [Bool.or_eq_true, beq_iff_eq, not_or] at named
      intro kind found located
      by_cases same : kind = stage.eventKind
      · subst same
        obtain rfl := Option.some.inj ((AList.lookup_insert _).symm.trans located)
        exact named.2
      · exact nonzero kind found ((AList.lookup_insert_ne same).symm.trans located)

theorem addStages_nonzero {added : List ModuleStage} {stages final : StageTable}
    (folded : added.foldlM addStage stages = .ok final) (nonzero : stages.Nonzero) :
    final.Nonzero := by
  induction added generalizing stages with
  | nil =>
      obtain rfl := Except.ok.inj folded
      exact nonzero
  | cons stage rest ih =>
      rw [List.foldlM_cons] at folded
      cases first : addStage stages stage with
      | error failure => simp [first, bind, Except.bind] at folded
      | ok next =>
          simp only [first, bind, Except.bind] at folded
          exact ih folded (addStage_nonzero first nonzero)

theorem validateModuleConfig_nonzero {process : ModuleProcessConfig} {stages : StageTable}
    (valid : validateModuleConfig process = .ok stages) : stages.Nonzero := by
  unfold validateModuleConfig at valid
  split at valid
  · cases valid
  · exact addStages_nonzero valid (by simp [StageTable.Nonzero])

def StageTable.replyStage (stages : StageTable) (kind : UInt32) : UInt32 :=
  (stages.lookup kind).getD 1

theorem StageTable.Nonzero.replyStage_ne {stages : StageTable} (nonzero : stages.Nonzero)
    (kind : UInt32) : stages.replyStage kind ≠ 0 := by
  unfold StageTable.replyStage
  cases found : stages.lookup kind with
  | none => decide
  | some stage => exact nonzero kind stage found

theorem StageTable.replyStage_served {stages : StageTable} {kind : UInt32}
    (served : stages.stageOf kind ≠ 0) : stages.stageOf kind = stages.replyStage kind := by
  unfold StageTable.stageOf StageTable.replyStage at *
  cases found : AList.lookup kind stages with
  | none => simp [found] at served
  | some stage => rfl

theorem StageTable.Nonzero.replyStage_refused {stages : StageTable} (nonzero : stages.Nonzero)
    (kind : UInt32) :
    (if stages.stageOf kind == 0 then 1 else stages.stageOf kind) = stages.replyStage kind := by
  unfold StageTable.stageOf StageTable.replyStage
  cases found : AList.lookup kind stages with
  | none => rfl
  | some stage => simp [nonzero kind stage found]

end Stages

theorem Frame.request_named {frame : Frame} (valid : frame.validate = .ok)
    (request : frame.has fRequest = true) : frame.correlationId ≠ 0 := by
  obtain ⟨-, -, unique, -, -, -, named⟩ := Frame.validate_ok_iff.mp valid
  have exclusive : ∀ pattern : Fin 61, exactlyOne (UInt16.ofNat pattern) = true →
      UInt16.ofNat pattern &&& fRequest ≠ 0 → UInt16.ofNat pattern &&& fNotification = 0 := by
    decide
  have bounded : (frame.hdrFlags &&& fPatternMask).toNat < 61 := by
    have masked : (frame.hdrFlags &&& fPatternMask).toNat ≤ fPatternMask.toNat := by
      rw [UInt16.toNat_and]
      exact Nat.and_le_right
    exact Nat.lt_of_le_of_lt masked (by decide)
  have plain := exclusive ⟨_, bounded⟩
  have asks : fPatternMask &&& fRequest = fRequest := by decide
  have notes : fPatternMask &&& fNotification = fNotification := by decide
  simp only [UInt16.ofNat_toNat, UInt16.and_assoc, asks, notes] at plain
  have quiet : frame.has fNotification = false := by
    simpa [Frame.has] using plain unique (by simpa [Frame.has] using request)
  intro zero
  simp [Frame.validateCorrelation, quiet, zero] at named

section Failures

/-- The attempts of the bus calls an action makes. -/
def RuntimeAction.attempts : RuntimeAction → List Attempt
  | .receive attempts => attempts
  | .poll _ attempts => attempts
  | _ => []

/-- How a ReplyFragment call makes the loop give up. -/
inductive AttemptFailure (attempt : Attempt) : RuntimeError → Prop
  | context (blocked : attempt.result = .error .errWouldBlock) (ended : attempt.ctxDone = true) :
      AttemptFailure attempt .context
  | epoch (blocked : attempt.result = .error .errWouldBlock)
      (changed : attempt.epochChanged = true) : AttemptFailure attempt (.bus .errEpoch)
  | refused {failure : BusError} (called : attempt.result = .error failure)
      (other : failure ≠ .errWouldBlock) : AttemptFailure attempt (.bus failure)

/-- The reasons an action may end the loop with an error. -/
inductive ReturnCause : RuntimeAction → RuntimeError → Prop
  | pollFailed {failure : BusError} {attempts : List Attempt} (other : failure ≠ .errEpoch) :
      ReturnCause (.poll (.failed failure) attempts) (.bus failure)
  | replyFailed {action : RuntimeAction} {failure : RuntimeError} (attempt : Attempt)
      (made : attempt ∈ action.attempts) (failed : AttemptFailure attempt failure) :
      ReturnCause action failure

theorem sendFragment_cases {attempts : List Attempt} {outcome : Except RuntimeError (List Attempt)}
    (tried : sendFragment attempts = some outcome) :
    (∃ remaining, outcome = .ok remaining ∧ remaining ⊆ attempts) ∨
      ∃ failure, outcome = .error failure ∧ ∃ attempt ∈ attempts, AttemptFailure attempt failure := by
  induction attempts with
  | nil => cases tried
  | cons attempt rest ih =>
      simp only [sendFragment] at tried
      split at tried
      · obtain rfl := Option.some.inj tried
        exact .inl ⟨rest, rfl, List.subset_cons_self _ _⟩
      · rename_i blocked
        split at tried
        · rename_i ended
          obtain rfl := Option.some.inj tried
          exact .inr ⟨_, rfl, attempt, List.mem_cons_self, .context blocked ended⟩
        · split at tried
          · rename_i changed
            obtain rfl := Option.some.inj tried
            exact .inr ⟨_, rfl, attempt, List.mem_cons_self, .epoch blocked changed⟩
          · rcases ih tried with ⟨remaining, rfl, within⟩ | ⟨failure, rfl, other, made, failed⟩
            · exact .inl ⟨remaining, rfl, fun _ member => List.mem_cons_of_mem _ (within member)⟩
            · exact .inr ⟨failure, rfl, other, List.mem_cons_of_mem _ made, failed⟩
      · rename_i failure other called
        obtain rfl := Option.some.inj tried
        exact .inr ⟨_, rfl, attempt, List.mem_cons_self, .refused called other⟩

theorem replyPieces_failed {reply : ModuleReply} {parts : List (Bytes × Bool)}
    {attempts : List Attempt} {sent : List SentFragment} {failure : RuntimeError}
    (replied : replyPieces reply parts attempts = some (sent, .error failure))
    (staged : reply.stageID ≠ 0)
    (small : ∀ piece ∈ parts, piece.1.length ≤ moduleMessageMaxBody.toNat) :
    ∃ attempt ∈ attempts, AttemptFailure attempt failure := by
  induction parts generalizing attempts sent with
  | nil => simp [replyPieces] at replied
  | cons piece rest ih =>
      obtain ⟨part, more⟩ := piece
      have valid := reply.message_valid staged (small (part, more) List.mem_cons_self)
      simp only [replyPieces, ModuleMessage.encode, valid] at replied
      simp only [List.length_replicate, Bool.not_true, Bool.or_false, decide_eq_true_eq] at replied
      rw [if_neg (by omega)] at replied
      cases tried : sendFragment attempts with
      | none => simp [tried] at replied
      | some outcome =>
          rcases sendFragment_cases tried with ⟨remaining, rfl, within⟩ | ⟨cause, rfl, failed⟩
          · simp only [tried, Option.map_eq_some_iff, Prod.mk.injEq] at replied
            obtain ⟨⟨final, last⟩, again, -, rfl⟩ := replied
            obtain ⟨attempt, made, failed⟩ :=
              ih again fun other member => small other (List.mem_cons_of_mem _ member)
            exact ⟨attempt, within made, failed⟩
          · simp only [tried, Option.some.injEq, Prod.mk.injEq, Except.error.injEq] at replied
            obtain ⟨-, rfl⟩ := replied
            exact failed

theorem replyModuleResult_failed {inlineBudget : UInt32} {reply : ModuleReply}
    {attempts : List Attempt} {sent : List SentFragment} {failure : RuntimeError}
    (replied : replyModuleResult inlineBudget reply attempts = some (sent, .error failure))
    (staged : reply.stageID ≠ 0) (room : moduleMessageHeaderLen < inlineBudget.toNat) :
    ∃ attempt ∈ attempts, AttemptFailure attempt failure := by
  rw [replyModuleResult, if_neg (by omega)] at replied
  refine replyPieces_failed replied staged fun piece member => ?_
  have bound := (settleResult_sound reply.status reply.body).2
  exact (pieces_length _ (by omega) piece member).2.1.trans bound

end Failures

section Replying

variable {config : RuntimeConfig} {state next : RuntimeState} {action : RuntimeAction}
  {emitted : List RuntimeOutput} {reply : ModuleReply}

/-- The reply an action makes in a state. -/
inductive Replying (config : RuntimeConfig) (state : RuntimeState) :
    RuntimeAction → ModuleReply → Prop
  | result {attempts : List Attempt} {result : ModuleResult} {rest : List ModuleResult}
      (buffered : state.done = result :: rest) :
      Replying config state (.receive attempts) result.reply
  | event {now : UInt64} {event : Event} {attempts : List Attempt} {middle : RuntimeState}
      {reply : ModuleReply} (handled : consumeEvent config state now event = (middle, .reply reply)) :
      Replying config state (.poll (.received event) attempts) reply

/-- The fragments among the outputs of a step. -/
def sentFragments (outputs : List RuntimeOutput) : List SentFragment :=
  outputs.filterMap fun
    | .replied fragment => some fragment
    | _ => none

theorem mem_sentFragments {outputs : List RuntimeOutput} {fragment : SentFragment} :
    fragment ∈ sentFragments outputs ↔ .replied fragment ∈ outputs := by
  constructor
  · intro member
    obtain ⟨output, present, same⟩ := List.mem_filterMap.mp member
    cases output with
    | replied other =>
        obtain rfl := Option.some.inj same
        exact present
    | _ => cases same
  · exact fun present => List.mem_filterMap.mpr ⟨_, present, rfl⟩

@[simp] theorem sentFragments_replied (sent : List SentFragment) :
    sentFragments (sent.map .replied) = sent := by
  simp [sentFragments, List.filterMap_map]

theorem HandlerMove.unsent {flags : List Bool} {work : ModuleWork} {phase after : HandlerPhase}
    (move : HandlerMove flags work phase after emitted) : sentFragments emitted = [] := by
  cases move <;> rfl

theorem RuntimeEffect.sends (effect : RuntimeEffect config state action next emitted) :
    sentFragments emitted = [] ∨
      ∃ reply, Replying config state action reply ∧
        sentFragments emitted <+: reply.plan config.inlineBudget := by
  cases effect with
  | quiet pc => exact .inl rfl
  | interrupted epochChanged now => exact .inl rfl
  | moved located same move => exact .inl move.unsent
  | delivered located room => exact .inl rfl
  | finished pc buffered answered =>
      rw [sentFragments_replied]
      exact .inr ⟨_, .result buffered, answered.front⟩
  | collected stopping buffered => exact .inl rfl
  | consumed pc handled answered silent =>
      rename_i now event attempts middle disposition sent
      have same : sentFragments (.consumed event :: sent.map .replied) = sent :=
        sentFragments_replied sent
      rw [same]
      by_cases replies : ∃ reply, disposition = .reply reply
      · obtain ⟨reply, rfl⟩ := replies
        exact .inr ⟨reply, .event handled, (answered reply rfl).front⟩
      · exact .inl (silent fun reply same => replies ⟨reply, same⟩)

/-- Where a step leaves the loop's counter. -/
inductive LoopMove (config : RuntimeConfig) (state : RuntimeState) :
    RuntimeAction → LoopPc → Prop
  | kept {action : RuntimeAction} : LoopMove config state action state.pc
  | continued {action : RuntimeAction} {pc : LoopPc} (sound : pc ≠ .panicked)
      (live : ∀ failure, pc ≠ .returned (.error failure)) : LoopMove config state action pc
  | panicked {attempts : List Attempt} : LoopMove config state (.poll .panicked attempts) .panicked
  | pollFailed {failure : BusError} {attempts : List Attempt} (other : failure ≠ .errEpoch) :
      LoopMove config state (.poll (.failed failure) attempts) (.returned (.error (.bus failure)))
  | replyFailed {action : RuntimeAction} {reply : ModuleReply} {sent : List SentFragment}
      {failure : RuntimeError} (replying : Replying config state action reply)
      (replied : replyModuleResult config.inlineBudget reply action.attempts =
        some (sent, .error failure)) :
      LoopMove config state action (.returned (.error failure))

theorem answer_moves {middle : RuntimeState} {attempts : List Attempt}
    (made : action.attempts = attempts)
    (answered : answer config middle reply attempts = some (next, emitted))
    (replying : Replying config state action reply) : LoopMove config state action next.pc := by
  obtain ⟨⟨sent, result⟩, replied, same⟩ := Option.map_eq_some_iff.mp answered
  obtain ⟨rfl, -⟩ := Prod.mk.inj same
  cases result with
  | ok fine => exact .continued nofun nofun
  | error cause => exact .replyFailed replying (made ▸ replied)

theorem pollStep_moves {now : UInt64} {outcome : Client.PollOutcome} {attempts : List Attempt}
    (taken : pollStep config state now attempts outcome = some (next, emitted)) :
    LoopMove config state (.poll outcome attempts) next.pc := by
  cases outcome with
  | panicked =>
      obtain ⟨rfl, -⟩ := Prod.mk.inj (Option.some.inj taken)
      exact .panicked
  | failed failure =>
      by_cases restarted : failure = .errEpoch
      · subst restarted
        obtain ⟨rfl, -⟩ := Prod.mk.inj (Option.some.inj taken)
        exact .continued nofun nofun
      · have failed : next.pc = .returned (.error (.bus failure)) := by
          cases failure <;> first
            | exact absurd rfl restarted
            | (obtain ⟨rfl, -⟩ := Prod.mk.inj (Option.some.inj taken); rfl)
        rw [failed]
        exact .pollFailed restarted
  | empty =>
      obtain ⟨rfl, -⟩ := Prod.mk.inj (Option.some.inj taken)
      exact .continued nofun nofun
  | received event =>
      simp only [pollStep] at taken
      split at taken
      · rename_i middle reply handled
        obtain ⟨⟨final, sent⟩, answered, same⟩ := Option.map_eq_some_iff.mp taken
        obtain ⟨rfl, -⟩ := Prod.mk.inj same
        exact answer_moves rfl answered (.event handled)
      · obtain ⟨rfl, -⟩ := Prod.mk.inj (Option.some.inj taken)
        exact .continued nofun nofun

theorem runtimeStep_moves (taken : runtimeStep config state action = some (next, emitted)) :
    LoopMove config state action next.pc := by
  have advanced : ∀ position, state.advance position (handlerStep state.flags · action) =
      some (next, emitted) → LoopMove config state action next.pc := by
    intro position advanced
    unfold RuntimeState.advance at advanced
    split at advanced
    · cases advanced
    · obtain ⟨_, -, same⟩ := Option.map_eq_some_iff.mp advanced
      obtain ⟨rfl, -⟩ := Prod.mk.inj same
      exact .kept
  unfold runtimeStep at taken
  split at taken
  · split at taken
    · cases taken
    · rename_i result rest buffered
      exact answer_moves rfl taken (.result buffered)
  · split at taken
    · cases taken
    · split at taken
      · obtain ⟨rfl, -⟩ := Prod.mk.inj (Option.some.inj taken)
        exact .continued nofun nofun
      · split at taken <;>
          (obtain ⟨rfl, -⟩ := Prod.mk.inj (Option.some.inj taken)
           exact .continued nofun nofun)
  · exact pollStep_moves taken
  · exact advanced _ taken
  · exact advanced _ taken
  · exact advanced _ taken
  · unfold deliverStep at taken
    split at taken
    · cases taken
    · split at taken
      · split at taken
        · obtain ⟨rfl, -⟩ := Prod.mk.inj (Option.some.inj taken)
          exact .kept
        · cases taken
      · cases taken
  · split at taken
    · cases taken
    · split at taken
      · obtain ⟨rfl, -⟩ := Prod.mk.inj (Option.some.inj taken)
        exact .kept
      · cases taken
  · split at taken
    · cases taken
    · obtain ⟨rfl, -⟩ := Prod.mk.inj (Option.some.inj taken)
      exact .continued nofun nofun
  · cases taken

end Replying

section Acceptance

variable {config : RuntimeConfig} {stages : StageTable} {client : Client} {state next : RuntimeState}
  {action : RuntimeAction} {emitted : List RuntimeOutput} {reply : ModuleReply}

/-- A reply that names the stage of its kind and a correlation. -/
structure ModuleReply.Addressed (stages : StageTable) (reply : ModuleReply) : Prop where
  staged : reply.stageID = stages.replyStage reply.kind
  named : reply.correlation ≠ 0

/-- A job whose result will be addressed. -/
def ModuleWork.Addressed (stages : StageTable) (work : ModuleWork) : Prop :=
  work.invocation.stageID = stages.replyStage work.eventKind ∧ work.correlationID ≠ 0

/-- A fragment a peer accepts, among the fragments of its reply that were sent. -/
structure AcceptedReply (client : Client) (stages : StageTable) (sent : List SentFragment)
    (fragment : SentFragment) : Prop where
  framed : (fragment.event client fReply).frame.validate = .ok
  pattern : (fragment.event client fReply).frame.hdrFlags &&& fPatternMask = fReply
  envelope : ∃ message, decodeModuleMessage fragment.payload = .ok message ∧
    message.operation = moduleOpResult ∧ message.stageID = stages.replyStage fragment.kind ∧
    (message.status ≠ moduleStatusOK →
      sent = [fragment] ∧ fragment.more = false ∧ message.body fragment.payload = [])

theorem Client.frame_flags {flags : UInt16} {kind : UInt32} {corr : UInt64} {payload : Bytes}
    (present : 0 < payload.length) :
    (client.frame flags kind corr payload).hdrFlags = flags ||| fInline := by
  rw [Client.frame, if_pos present]

theorem settleResult_empty {status : ModuleStatus} {body : Bytes}
    (bad : (settleResult status body).1 ≠ moduleStatusOK) : (settleResult status body).2 = [] := by
  unfold settleResult at *
  split
  · rfl
  · split
    · rfl
    · rename_i tooLong fine
      rw [if_neg tooLong, if_neg fine] at bad
      simp only [bne_iff_ne, ne_eq, not_not] at fine
      exact absurd fine bad

theorem ModuleReply.Addressed.accepted (addressed : reply.Addressed stages)
    (nonzero : stages.Nonzero) (roomy : client.Roomy) {sent : List SentFragment}
    (front : sent <+: reply.plan client.inlineBudget) :
    ∀ fragment ∈ sent, AcceptedReply client stages sent fragment := by
  intro fragment member
  have envelopeRoom := roomy.envelope
  obtain ⟨⟨part, more⟩, cut, same⟩ := List.mem_map.mp (front.subset member)
  have limit : moduleMessageMaxBody.toNat < 2 ^ 32 := moduleMessageMaxBody.toNat_lt
  have positive : 0 < client.inlineBudget.toNat - moduleMessageHeaderLen := by
    unfold moduleMessageHeaderLen
    omega
  obtain ⟨chunked, within, -⟩ := pieces_length _ positive _ cut
  have chunked : part.length ≤ client.inlineBudget.toNat - moduleMessageHeaderLen := chunked
  have small : part.length ≤ moduleMessageMaxBody.toNat :=
    within.trans (settleResult_sound reply.status reply.body).2
  subst same
  have staged : reply.stageID ≠ 0 := by
    rw [addressed.staged]
    exact nonzero.replyStage_ne reply.kind
  have length : ((reply.message part.length).header ++ part).length =
      moduleMessageHeaderLen + part.length := by simp
  have publishable : Client.Publishable client fReply reply.correlation
      ((reply.message part.length).header ++ part) := by
    refine ⟨.inr rfl, addressed.named, ?_, ?_⟩ <;> rw [length] <;>
      unfold moduleMessageHeaderLen at * <;> omega
  have exactly : (reply.message part.length).bodyLen.toNat = part.length := by
    simp only [ModuleReply.message, UInt32.toNat_ofNat']
    exact Nat.mod_eq_of_lt (by omega)
  refine ⟨Client.frame_valid roomy publishable, ?_, reply.message part.length,
    ModuleMessage.decode_header (reply.message_valid staged small) exactly.le, rfl,
    addressed.staged, fun bad => ?_⟩
  · refine (congrArg (· &&& fPatternMask) (Client.frame_flags publishable.present)).trans ?_
    simp only [ModuleReply.fragment]
    cases more <;> decide
  · have bare := settleResult_empty bad
    rw [ModuleReply.plan, bare, pieces_nil, List.map_singleton] at front
    rw [bare, pieces_nil, List.mem_singleton, Prod.mk.injEq] at cut
    obtain ⟨rfl, rfl⟩ := cut
    refine ⟨?_, rfl, ModuleMessage.body_header exactly⟩
    obtain ⟨later, whole⟩ := front
    cases sent with
    | nil => cases member
    | cons first rest =>
        simp only [List.cons_append, List.cons.injEq, List.append_eq_nil_iff] at whole
        obtain ⟨rfl, rfl, -⟩ := whole
        rfl

theorem refuse_addressed {event : Event} {message : ModuleMessage} {status : ModuleStatus}
    (refused : Disposition.reply reply = refuse config event message status)
    (admitted : admitRequest config state event = some message)
    (named : event.frame.correlationId ≠ 0) : reply.Addressed config.stages := by
  obtain rfl := Disposition.reply.inj refused
  exact ⟨StageTable.replyStage_served (admitRequest_some admitted).2.1, named⟩

theorem Consumption.addressed {now : UInt64} {event : Event} {middle : RuntimeState}
    (handled : Consumption config state now event middle (.reply reply))
    (nonzero : config.stages.Nonzero) (valid : event.frame.validate = .ok) :
    reply.Addressed config.stages := by
  generalize same : Disposition.reply reply = disposition at handled
  cases handled with
  | invalid kept asked inadmissible =>
      obtain rfl := Disposition.reply.inj same
      exact ⟨nonzero.replyStage_refused event.frame.eventKind, Frame.request_named valid asked⟩
  | full kept asked message admitted fresh crowded =>
      exact refuse_addressed same admitted (Frame.request_named valid asked)
  | oversized kept asked message assembly admitted opened tooLong =>
      exact refuse_addressed same admitted (Frame.request_named valid asked)
  | refused kept asked message assembly status admitted opened last reason =>
      exact refuse_addressed same admitted (Frame.request_named valid asked)
  | _ => cases same

/-- The events the loop was given. -/
def polledEvents (actions : List RuntimeAction) : List Event :=
  actions.filterMap fun
    | .poll (.received event) _ => some event
    | _ => none

theorem mem_polledEvents {actions : List RuntimeAction} {event : Event} {attempts : List Attempt}
    (polled : .poll (.received event) attempts ∈ actions) : event ∈ polledEvents actions :=
  List.mem_filterMap.mpr ⟨_, polled, rfl⟩

def RuntimeState.Addressed (stages : StageTable) (state : RuntimeState) : Prop :=
  ∀ ticket ∈ state.tickets, ticket.work.Addressed stages

theorem RuntimeState.Addressed.step (addressed : state.Addressed config.stages)
    (effect : RuntimeEffect config state action next emitted)
    (framed : ∀ event ∈ polledEvents [action], event.frame.validate = .ok) :
    next.Addressed config.stages := by
  refine effect.works addressed fun event attempts message polled request admitted => ?_
  subst polled
  have valid := framed event (mem_polledEvents (List.mem_singleton_self _))
  exact ⟨StageTable.replyStage_served (admitRequest_some admitted).2.1,
    Frame.request_named valid request⟩

theorem Replying.addressed (replying : Replying config state action reply)
    (nonzero : config.stages.Nonzero) (addressed : state.Addressed config.stages)
    (framed : ∀ event ∈ polledEvents [action], event.frame.validate = .ok) :
    reply.Addressed config.stages := by
  cases replying with
  | result buffered =>
      rename_i attempts result rest
      obtain ⟨staged, named⟩ := addressed result.ticket (by simp [RuntimeState.tickets, buffered])
      exact ⟨staged, named⟩
  | event handled =>
      exact (consumeEvent_cases handled).addressed nonzero
        (framed _ (mem_polledEvents (List.mem_singleton_self _)))

end Acceptance

section Survival

def ModuleProcessConfig.runtime (process : ModuleProcessConfig) (stages : StageTable)
    (client : Client) : RuntimeConfig :=
  ⟨stages, process.handler, client.inlineBudget⟩

/-- What a run may have led to, and what its next step does. -/
structure Survives (client : Client) (config : RuntimeConfig) (actions : List RuntimeAction)
    (state : RuntimeState) (action : RuntimeAction) (next : RuntimeState)
    (emitted : List RuntimeOutput) : Prop where
  sliced : ∀ event attempts message, action = .poll (.received event) attempts →
    admitRequest config state event = some message →
    moduleMessageHeaderLen + message.bodyLen.toNat ≤ event.payload.length
  intact : next.pc = .panicked → ∃ attempts, .poll .panicked attempts ∈ actions ++ [action]
  caused : ∀ failure, next.pc = .returned (.error failure) →
    ∃ cause ∈ actions ++ [action], ReturnCause cause failure
  accepted : ∀ fragment, .replied fragment ∈ emitted →
    AcceptedReply client config.stages (sentFragments emitted) fragment

variable {process : ModuleProcessConfig} {stages : StageTable} {client : Client}
  {actions : List RuntimeAction} {state next : RuntimeState} {outputs emitted : List RuntimeOutput}
  {action : RuntimeAction}

/-- Where a run stands: its jobs are addressed and its end has a cause. -/
structure LoopSound (config : RuntimeConfig) (actions : List RuntimeAction)
    (state : RuntimeState) : Prop where
  addressed : state.Addressed config.stages
  intact : state.pc = .panicked → ∃ attempts, .poll .panicked attempts ∈ actions
  caused : ∀ failure, state.pc = .returned (.error failure) →
    ∃ cause ∈ actions, ReturnCause cause failure

theorem LoopSound.step {config : RuntimeConfig} (sound : LoopSound config actions state)
    (nonzero : config.stages.Nonzero) (room : moduleMessageHeaderLen < config.inlineBudget.toNat)
    (framed : ∀ event ∈ polledEvents [action], event.frame.validate = .ok)
    (taken : runtimeStep config state action = some (next, emitted)) :
    LoopSound config (actions ++ [action]) next := by
  have addressed := sound.addressed.step (runtimeStep_effect taken) framed
  have last : action ∈ actions ++ [action] := by simp
  have earlier : ∀ other ∈ actions, other ∈ actions ++ [action] := fun _ => List.mem_append_left _
  generalize landing : next.pc = pc
  have moves := runtimeStep_moves taken
  rw [landing] at moves
  cases moves with
  | kept =>
      refine ⟨addressed, fun panicked => ?_, fun failure failed => ?_⟩
      · obtain ⟨attempts, polled⟩ := sound.intact (landing.symm.trans panicked)
        exact ⟨attempts, earlier _ polled⟩
      · obtain ⟨cause, member, caused⟩ := sound.caused failure (landing.symm.trans failed)
        exact ⟨cause, earlier _ member, caused⟩
  | continued intact live =>
      exact ⟨addressed, fun panicked => absurd (landing.symm.trans panicked) intact,
        fun failure failed => absurd (landing.symm.trans failed) (live failure)⟩
  | panicked =>
      exact ⟨addressed, fun _ => ⟨_, last⟩, fun failure failed => absurd (landing.symm.trans failed) nofun⟩
  | pollFailed other =>
      refine ⟨addressed, fun panicked => absurd (landing.symm.trans panicked) nofun,
        fun failure failed => ?_⟩
      cases landing.symm.trans failed
      exact ⟨_, last, .pollFailed other⟩
  | replyFailed replying replied =>
      rename_i reply sent cause
      refine ⟨addressed, fun panicked => absurd (landing.symm.trans panicked) nofun,
        fun failure failed => ?_⟩
      cases landing.symm.trans failed
      have named := replying.addressed nonzero sound.addressed framed
      have staged : reply.stageID ≠ 0 := by
        rw [named.staged]
        exact nonzero.replyStage_ne _
      obtain ⟨attempt, made, failed⟩ := replyModuleResult_failed replied staged room
      exact ⟨_, last, .replyFailed attempt made failed⟩

theorem polledEvents_append (first second : List RuntimeAction) :
    polledEvents (first ++ second) = polledEvents first ++ polledEvents second :=
  List.filterMap_append

theorem LoopSound.run {config : RuntimeConfig} (nonzero : config.stages.Nonzero)
    (room : moduleMessageHeaderLen < config.inlineBudget.toNat)
    (run : (runtimeMachine config).Run .initial actions state outputs)
    (framed : ∀ event ∈ polledEvents actions, event.frame.validate = .ok) :
    LoopSound config actions state := by
  induction run with
  | nil => exact ⟨by simp [RuntimeState.Addressed, RuntimeState.tickets, RuntimeState.initial],
      nofun, nofun⟩
  | snoc before taken ih =>
      rw [polledEvents_append] at framed
      exact (ih fun event member => framed event (List.mem_append_left _ member)).step nonzero room
        (fun event member => framed event (List.mem_append_right _ member)) taken

/-- No inbound event takes the module down, and everything it emits is accepted. -/
theorem module_survives (valid : validateModuleConfig process = .ok stages)
    (roomy : client.Roomy)
    (run : (runtimeMachine (process.runtime stages client)).Run .initial actions state outputs)
    (taken : runtimeStep (process.runtime stages client) state action = some (next, emitted))
    (framed : ∀ event ∈ polledEvents (actions ++ [action]), event.frame.validate = .ok) :
    Survives client (process.runtime stages client) actions state action next emitted := by
  have nonzero := validateModuleConfig_nonzero valid
  rw [polledEvents_append] at framed
  have here : ∀ event ∈ polledEvents [action], event.frame.validate = .ok :=
    fun event member => framed event (List.mem_append_right _ member)
  have room : moduleMessageHeaderLen < (process.runtime stages client).inlineBudget.toNat :=
    roomy.envelope
  have reached := LoopSound.run nonzero room run
    fun event member => framed event (List.mem_append_left _ member)
  have landed := reached.step nonzero room here taken
  refine ⟨fun event attempts message _ admitted => ?_, landed.intact, landed.caused,
    fun fragment replied => ?_⟩
  · exact (ModuleMessage.decode_ok (admitRequest_some admitted).1).2
  · have member := mem_sentFragments.mpr replied
    rcases (runtimeStep_effect taken).sends with silent | ⟨reply, replying, front⟩
    · rw [silent] at member
      cases member
    · exact (replying.addressed nonzero reached.addressed here).accepted nonzero roomy front
        fragment member

def servingProcess : ModuleProcessConfig :=
  ⟨"/run/bus.sock", "learning", 1, 1, [⟨kindModuleBase, 1⟩], true⟩

def servingClient : Client where
  handle := 3
  slotSize := 128
  inlineBudget := servingConfig.inlineBudget
  arenaSize := 0
  attachedEpoch := 0
  control := true
  inbound := ⟨128, 2, 1, 192⟩
  outbound := ⟨128, 2, 1, 192⟩
  pendingRead := false

/-- A request of a kind nobody serves. -/
def strayEvent : Event :=
  let event := invokeEvent 5 [7] false
  { event with frame := { event.frame with eventKind := 300 } }

theorem module_survives_stray :
    ∃ state next fragment, (runtimeMachine servingConfig).Run .initial
        [.drained false false 0] state [] ∧
      runtimeStep servingConfig state (.poll (.received strayEvent)
        [{ result := .error .errWouldBlock }, { result := .ok () }]) =
          some (next, [.consumed strayEvent, .replied fragment]) ∧
      fragment.kind = 300 ∧ next.pc = .draining ∧
      Survives servingClient servingConfig [.drained false false 0] state
        (.poll (.received strayEvent)
          [{ result := .error .errWouldBlock }, { result := .ok () }]) next
        [.consumed strayEvent, .replied fragment] := by
  have configured : validateModuleConfig servingProcess = .ok servingConfig.stages := rfl
  have roomy : servingClient.Roomy := ⟨by decide, by decide, by decide⟩
  have run : (runtimeMachine servingConfig).Run .initial [.drained false false 0]
      { RuntimeState.initial with pc := .polling 0 } [] := Machine.Run.single rfl
  let fragment := ModuleReply.fragment (invalidModuleRequest strayEvent 0 0) ([], false)
  have taken : runtimeStep servingConfig { RuntimeState.initial with pc := .polling 0 }
      (.poll (.received strayEvent)
        [{ result := .error .errWouldBlock }, { result := .ok () }]) =
      some (.initial, [.consumed strayEvent, .replied fragment]) := rfl
  refine ⟨_, _, fragment, run, taken, rfl, rfl, ?_⟩
  exact module_survives configured roomy run taken (by decide)

end Survival

end AimeeLearning.Bus
