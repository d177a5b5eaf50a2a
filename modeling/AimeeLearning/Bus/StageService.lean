import AimeeLearning.Bus.ModuleRuntimeInvariants
import AimeeLearning.Bus.RequestAtomicity

/-! Serving one request among others. While the bus does not fail and the tables
keep room, a request whose fragments arrive is handed to the handler and its
answer goes out as one whole reply. -/

set_option autoImplicit false

namespace AimeeLearning.Bus

open Library

/-- What the handler answered for a correlation. -/
def answersOf (correlation : UInt64) (outputs : List RuntimeOutput) : List (Bytes × ModuleStatus) :=
  outputs.filterMap fun
    | .answered work response status =>
        if work.correlationID == correlation then some (response, status) else none
    | _ => none

section Answers

variable {correlation : UInt64} {first second : List RuntimeOutput}

@[simp] theorem answersOf_append :
    answersOf correlation (first ++ second) =
      answersOf correlation first ++ answersOf correlation second :=
  List.filterMap_append

@[simp] theorem answersOf_nil : answersOf correlation [] = [] := rfl

@[simp] theorem answersOf_replied (sent : List SentFragment) :
    answersOf correlation (sent.map .replied) = [] := by
  simp [answersOf]

@[simp] theorem answersOf_consumed (event : Event) (rest : List RuntimeOutput) :
    answersOf correlation (.consumed event :: rest) = answersOf correlation rest :=
  rfl

@[simp] theorem answersOf_invoked (work : ModuleWork) (body : Bytes)
    (rest : List RuntimeOutput) :
    answersOf correlation (.invoked work body :: rest) = answersOf correlation rest :=
  rfl

theorem answersOf_answered (work : ModuleWork) (response : Bytes) (status : ModuleStatus) :
    answersOf correlation [.answered work response status] =
      if work.correlationID = correlation then [(response, status)] else [] := by
  by_cases owned : work.correlationID = correlation <;> simp [answersOf, owned]

theorem HandlerMove.answers {flags : List Bool} {work : ModuleWork} {phase next : HandlerPhase}
    {emitted : List RuntimeOutput} (move : HandlerMove flags work phase next emitted)
    (foreign : work.correlationID ≠ correlation) : answersOf correlation emitted = [] := by
  cases move with
  | invoke body => rfl
  | handlerReturns response status => rw [answersOf_answered, if_neg foreign]
  | checkCancelled now body status => rfl

end Answers

/-- One request of a stage: who it is for and the fragments it arrives as. -/
structure StageRequest where
  kind : UInt32
  stageID : UInt32
  correlation : UInt64
  traceID : UInt64
  fragments : List Event

/-- The fragments are those of a call without deadline that is not too long. -/
structure StageRequest.Formed (request : StageRequest) : Prop where
  kept : ∀ event ∈ request.fragments, event.frame.has fCancel = false
  addressed : ∀ event ∈ request.fragments,
    event.frame.has fRequest = true ∧ event.frame.correlationId = request.correlation
  uniform : ∀ event ∈ request.fragments, event.frame.eventKind = request.kind ∧
    ∃ message, decodeModuleMessage event.payload = .ok message ∧
      message.operation = moduleOpInvoke ∧ message.stageID = request.stageID ∧
        message.deadlineNS = 0 ∧ message.traceID = request.traceID
  closed : ClosedBy (request.fragments.map fun event => (event.payload, event.frame.has fMore))
  small : (requestBody request.fragments).length ≤ moduleMessageMaxBody.toNat

theorem StageRequest.Formed.nonempty {request : StageRequest} (formed : request.Formed) :
    request.fragments ≠ [] := by
  intro empty
  have closed := formed.closed
  rw [empty] at closed
  exact closed

theorem StageRequest.Formed.wellFormed {request : StageRequest} (formed : request.Formed) :
    WellFormedRequest request.correlation request.fragments :=
  ⟨formed.addressed, ⟨request.kind, request.stageID, 0, request.traceID, formed.uniform⟩,
    fun _ => formed.closed⟩

def StageRequest.reply (request : StageRequest) (response : Bytes) (status : ModuleStatus) :
    ModuleReply :=
  ⟨request.kind, request.correlation, request.stageID, request.traceID, status, response⟩

/-- A module that can serve the request. -/
structure Serves (config : RuntimeConfig) (request : StageRequest) : Prop where
  stage : config.stages.stageOf request.kind = request.stageID
  named : request.stageID ≠ 0
  handler : config.handler = true
  room : moduleMessageHeaderLen < config.inlineBudget.toNat

/-- The context lives, the epoch stays, Poll and the replies do not fail, and
the others leave room when a fragment of the request arrives. -/
def calm (correlation : UInt64) (state : RuntimeState) : RuntimeAction → Bool
  | .receive attempts => patient attempts
  | .drained ctxDone epochChanged _ => !ctxDone && !epochChanged
  | .poll outcome attempts =>
      patient attempts && match outcome with
        | .received event =>
            !(event.frame.correlationId == correlation) ||
              (state.assemblies.erase correlation).keys.length < moduleMaxInFlight &&
                state.jobs.keys.length < moduleMaxInFlight
        | .empty => true
        | _ => false
  | _ => true

def LoopPc.Alive : LoopPc → Prop
  | .draining => True
  | .polling _ => True
  | _ => False

section Settled

theorem settleResult_idempotent (status : ModuleStatus) (body : Bytes) :
    settleResult (settleResult status body).1 (settleResult status body).2 =
      settleResult status body := by
  by_cases invalid : (!validModuleStatus status || body.length > moduleMessageMaxBody.toNat) = true
  · rw [show settleResult status body = (moduleStatusInternal, []) by
      rw [settleResult, if_pos invalid]]
    decide
  · by_cases plain : status = moduleStatusOK
    · have same : settleResult status body = (status, body) := by
        rw [settleResult, if_neg invalid, if_neg (by simp [plain])]
      rw [same, same]
    · have bare : settleResult status body = (status, []) := by
        rw [settleResult, if_neg invalid, if_pos (by simp [plain])]
      have valid : validModuleStatus status = true := by
        by_contra bad
        exact invalid (by simp [bad])
      rw [bare, settleResult, if_neg (by simp [valid]), if_pos (by simp [plain])]

theorem StageRequest.plan_settled (request : StageRequest) (inlineBudget : UInt32)
    (response : Bytes) (status : ModuleStatus) :
    (request.reply (settleResult status response).2 (settleResult status response).1).plan
        inlineBudget = (request.reply response status).plan inlineBudget := by
  have same := settleResult_idempotent status response
  simp only [ModuleReply.plan, StageRequest.reply, same]
  refine List.map_congr_left fun piece _ => ?_
  simp only [ModuleReply.fragment, ModuleReply.message, same]

end Settled

/-- The job of the request, started and not collected. -/
structure Flies (request : StageRequest) (state : RuntimeState) (outputs : List RuntimeOutput)
    (ticket : HandlerRun) : Prop where
  kind : ticket.work.eventKind = request.kind
  stage : ticket.work.invocation.stageID = request.stageID
  deadline : ticket.work.invocation.deadlineNS = 0
  trace : ticket.work.invocation.traceID = request.traceID
  owned : state.jobs.lookup request.correlation = some ticket.work
  clear : flagOf state.flags ticket.work = false
  silent : repliedOf request.correlation outputs = []
  unasked : (∃ body, ticket.phase = .ready body) ∨ ticket.phase = .calling →
    answersOf request.correlation outputs = []
  answered : ∀ body status, ticket.phase = .answered body status ∨
    ticket.phase = .checked body status →
      ∃ response given, answersOf request.correlation outputs = [(response, given)] ∧
        (status, body) = settleResult given response

/-- Nothing is said before the request is whole, and nothing is left unsaid
once its job has landed. -/
structure Served (config : RuntimeConfig) (request : StageRequest) (state : RuntimeState)
    (outputs : List RuntimeOutput) : Prop where
  waiting : receivedOf request.correlation outputs ≠ request.fragments →
    answersOf request.correlation outputs = [] ∧ repliedOf request.correlation outputs = []
  flying : ∀ ticket ∈ state.ticketsOf request.correlation, Flies request state outputs ticket
  landed : receivedOf request.correlation outputs = request.fragments →
    state.ticketsOf request.correlation = [] →
      invokedOf request.correlation outputs = [requestBody request.fragments] ∧
      ∃ response status, answersOf request.correlation outputs = [(response, status)] ∧
        repliedOf request.correlation outputs =
          (request.reply response status).plan config.inlineBudget

section Served

variable {config : RuntimeConfig} {request : StageRequest} {state next : RuntimeState}
  {outputs emitted : List RuntimeOutput}

theorem Served.transport (served : Served config request state outputs)
    (tickets : (next.ticketsOf request.correlation).Perm (state.ticketsOf request.correlation))
    (jobs : next.jobs.lookup request.correlation = state.jobs.lookup request.correlation)
    (flags : ∀ work, state.jobs.lookup request.correlation = some work →
      flagOf next.flags work = flagOf state.flags work)
    (received : receivedOf request.correlation emitted = [])
    (invoked : invokedOf request.correlation emitted = [])
    (answers : answersOf request.correlation emitted = [])
    (replied : repliedOf request.correlation emitted = []) :
    Served config request next (outputs ++ emitted) := by
  constructor
  · simpa [received, answers, replied] using served.waiting
  · intro ticket member
    have flies := served.flying ticket (tickets.subset member)
    exact { flies with
      owned := jobs.trans flies.owned
      clear := (flags ticket.work flies.owned).trans flies.clear
      silent := by simpa [replied] using flies.silent
      unasked := by simpa [answers] using flies.unasked
      answered := by simpa [answers] using flies.answered }
  · intro whole landed
    rw [landed] at tickets
    simpa [invoked, answers, replied] using
      served.landed (by simpa [received] using whole) tickets.nil_eq.symm

theorem Served.moved (served : Served config request state outputs)
    (phase : RequestPhase request.fragments request.correlation state outputs)
    {front back : List HandlerRun} {run after : HandlerRun}
    (located : state.running = front ++ run :: back) (same : after.work = run.work)
    (move : HandlerMove state.flags run.work run.phase after.phase emitted) :
    Served config request { state with running := front ++ after :: back }
      (outputs ++ emitted) := by
  obtain ⟨received, replied, uninvoked⟩ := move.histories request.correlation
  obtain ⟨before, rest, now, later⟩ := ticketsOf_moved request.correlation located same
  by_cases owned : run.work.correlationID = request.correlation
  · rw [if_pos owned] at now later
    have flies := served.flying run (by rw [now]; simp)
    obtain ⟨flown, whole⟩ := phase.flown (show run ∈ state.ticketsOf _ by rw [now]; simp)
    rw [flown] at now
    obtain ⟨rfl, rfl⟩ : before = [] ∧ rest = [] := by
      cases before with
      | nil => simpa using now
      | cons head tail => simp at now
    refine ⟨fun partly => absurd (by simpa [received] using whole) partly, ?_, ?_⟩
    · intro ticket member
      rw [later] at member
      obtain rfl : ticket = after := by simpa using member
      refine ⟨same ▸ flies.kind, same ▸ flies.stage, same ▸ flies.deadline, same ▸ flies.trace,
        same ▸ flies.owned, same ▸ flies.clear, by simpa [replied] using flies.silent, ?_, ?_⟩
      · intro unasked
        generalize start : run.phase = phase at move
        generalize stop : ticket.phase = final at move unasked
        cases move with
        | invoke body => simpa using flies.unasked (.inl ⟨body, start⟩)
        | handlerReturns response status => simp at unasked
        | checkCancelled now body status => simp at unasked
      · intro body status finished
        generalize start : run.phase = phase at move
        generalize stop : ticket.phase = final at move finished
        cases move with
        | invoke body => simp at finished
        | handlerReturns response given =>
            obtain ⟨rfl, rfl⟩ : (settleResult given response).2 = body ∧
              (settleResult given response).1 = status := by simpa using finished
            refine ⟨response, given, ?_, rfl⟩
            simp [answersOf_answered, owned, flies.unasked (.inr start)]
        | checkCancelled now old given =>
            have kept : overrideResult run.work (flagOf state.flags run.work) now given old =
                (given, old) := by
              simp [overrideResult, flies.clear, flies.deadline]
            rw [kept] at finished
            obtain ⟨rfl, rfl⟩ : old = body ∧ given = status := by simpa using finished
            simpa [answersOf] using flies.answered _ _ (.inl start)
    · intro _ landed
      rw [later] at landed
      simp at landed
  · rw [if_neg owned] at now later
    exact served.transport (by rw [now, later]) rfl (fun _ _ => rfl) received
      (uninvoked owned) (move.answers owned) replied

theorem Served.finished (served : Served config request state outputs)
    {attempts : List Attempt} {result : ModuleResult} {rest : List ModuleResult}
    {sent : List SentFragment} (buffered : state.done = result :: rest)
    (phase : RequestPhase request.fragments request.correlation state outputs)
    (answered : ReplySent config result.reply attempts .draining sent) :
    Served config request { state with
      pc := .draining, done := rest, jobs := state.jobs.erase result.work.correlationID }
      (outputs ++ sent.map .replied) := by
  have replied : repliedOf request.correlation (sent.map .replied) =
      if result.work.correlationID = request.correlation then sent else [] :=
    repliedOf_replied request.correlation
      fun fragment member => (ModuleReply.mem_plan (answered.front.subset member)).2
  have landing := ticketsOf_finished request.correlation buffered
    (state.jobs.erase result.work.correlationID) .draining
  by_cases owned : result.work.correlationID = request.correlation
  · rw [if_pos owned] at landing replied
    have present : result.ticket ∈ state.ticketsOf request.correlation :=
      landing.symm.subset (by simp)
    have flies := served.flying result.ticket present
    obtain ⟨flown, whole⟩ := phase.flown present
    rw [flown] at landing
    obtain ⟨-, empty⟩ := List.cons_eq_cons.mp landing.singleton_eq
    simp only [List.append_eq, List.nil_append] at empty
    refine ⟨fun partly => absurd (by simpa using whole) partly, ?_, fun _ _ => ⟨?_, ?_⟩⟩
    · intro ticket member
      rw [← empty] at member
      cases member
    · simpa using phase.called present (by simp [ModuleResult.ticket])
    · obtain ⟨response, given, answers, settled⟩ :=
        flies.answered result.body result.status (.inr rfl)
      refine ⟨response, given, by simpa using answers, ?_⟩
      have same : result.reply =
          request.reply (settleResult given response).2 (settleResult given response).1 := by
        rw [← settled, StageRequest.reply, ← flies.kind, ← flies.stage, ← flies.trace, ← owned]
        rfl
      rw [repliedOf_append, flies.silent, List.nil_append, replied, answered.whole rfl, same,
        request.plan_settled]
  · rw [if_neg owned] at landing replied
    exact served.transport landing.symm (AList.lookup_erase_ne (Ne.symm owned)) (fun _ _ => rfl)
      (by simp) (by simp) (by simp) replied

theorem Served.passed (served : Served config request state outputs) (flags : FlagsOwned state)
    {now : UInt64} {event : Event} {middle : RuntimeState} {disposition : Disposition}
    {pc : LoopPc} {sent : List SentFragment}
    (handled : Consumption config state now event middle disposition)
    (foreign : event.frame.correlationId ≠ request.correlation)
    (replied : repliedOf request.correlation (sent.map .replied) = []) :
    Served config request { middle with pc } (outputs ++ .consumed event :: sent.map .replied) := by
  have received : receivedOf request.correlation (.consumed event :: sent.map .replied) = [] := by
    rw [receivedOf_consumed, if_neg (fun mine => foreign mine.2), receivedOf_replied,
      List.append_nil]
  obtain ⟨-, jobs, tickets⟩ := handled.untouched foreign pc
  refine served.transport tickets jobs ?_ received (by simp) (by simp) (by rwa [repliedOf_consumed])
  intro work owned
  cases handled with
  | cancelled changed cancel flagged =>
      rw [flagged]
      cases other : state.jobs.lookup event.frame.correlationId with
      | none => rfl
      | some job =>
          have apart : job.cancelled ≠ work.cancelled := fun same =>
            foreign (flags.apart _ _ job work other owned same)
          simp [flagOf, setFlag, List.getElem?_set_ne apart]
  | started kept requested message assembly admitted opened holds last room =>
      have bound := (flags.owner _ work owned).2
      simp [flagOf, List.getElem?_append_left bound]
  | _ => rfl

theorem Partial.accepts (part : Partial request.correlation state outputs)
    (serves : Serves config request) (formed : request.Formed) {event : Event}
    (within : receivedOf request.correlation outputs ++ [event] <+: request.fragments)
    (room : (state.assemblies.erase request.correlation).keys.length < moduleMaxInFlight) :
    fragmentAccepted config state event = true := by
  have member : event ∈ request.fragments := within.subset (by simp)
  obtain ⟨kind, message, decoded, invoke, stage, deadline, trace⟩ := formed.uniform event member
  obtain ⟨requested, addressed⟩ := formed.addressed event member
  refine fragmentAccepted_iff.mpr ⟨message, decoded, ?_, ?_, ?_⟩
  · rw [kind, serves.stage, stage]
  · intro assembly opened
    rw [addressed] at opened
    obtain ⟨rest, whole⟩ := within
    have body := (part.gathers assembly opened).body
    have bound := formed.small
    have piece : fragmentBody event = message.body event.payload := by
      simp [fragmentBody, decoded]
    have length := ModuleMessage.length_body decoded
    rw [← whole, requestBody_append, requestBody_append, List.length_append, List.length_append,
      ← body] at bound
    have own : (requestBody [event]).length = message.bodyLen.toNat := by
      simp [requestBody, piece, length]
    omega
  · intro fresh
    have absent : request.correlation ∉ state.assemblies := by
      rw [addressed] at fresh
      exact AList.lookup_eq_none.mp fresh
    rwa [AList.keys_erase, List.erase_of_not_mem absent] at room

theorem Partial.takes (part : Partial request.correlation state outputs)
    (serves : Serves config request) (formed : request.Formed)
    (idle : state.Idle request.correlation) {now : UInt64} {event : Event}
    {middle : RuntimeState} {disposition : Disposition}
    (handled : Consumption config state now event middle disposition)
    (within : receivedOf request.correlation outputs ++ [event] <+: request.fragments)
    (uncancelled : event.frame.has fCancel = false)
    (tables : (state.assemblies.erase request.correlation).keys.length < moduleMaxInFlight)
    (jobs : state.jobs.keys.length < moduleMaxInFlight) :
    ∃ (message : ModuleMessage) (assembly : ModuleAssembly),
      decodeModuleMessage event.payload = .ok message ∧
      (event.frame.has fMore = true ∧ disposition = .proceed ∧
        middle = { state with
          assemblies := state.assemblies.insert event.frame.correlationId
            { assembly with body := assembly.body ++ message.body event.payload } } ∨
      event.frame.has fMore = false ∧
        disposition = .start (startedWork config state event message)
          (assembly.body ++ message.body event.payload) ∧
        middle = { state with
          assemblies := state.assemblies.erase event.frame.correlationId
          flags := state.flags ++ [false]
          jobs := state.jobs.insert event.frame.correlationId
            (startedWork config state event message)
          running := state.running ++ [⟨startedWork config state event message,
            .ready (assembly.body ++ message.body event.payload)⟩] }) := by
  have accepted := part.accepts serves formed within tables
  obtain ⟨message, admits⟩ :=
    part.admits formed.wellFormed within (idle part.landed) accepted
  have member : event ∈ request.fragments := within.subset (by simp)
  obtain ⟨-, decodedMessage, decoded, -, -, deadline, -⟩ := formed.uniform event member
  obtain rfl := Except.ok.inj (decoded.symm.trans (admitRequest_some admits).1)
  obtain ⟨requested, -⟩ := formed.addressed event member
  obtain ⟨other, again, -, fits, room⟩ := fragmentAccepted_iff.mp accepted
  obtain rfl := Except.ok.inj (decoded.symm.trans again)
  cases handled with
  | cancelled flags cancel flagged => simp [uncancelled] at cancel
  | ignored kept other => simp [requested] at other
  | invalid kept asked inadmissible => simp [inadmissible] at admits
  | full kept asked message admitted fresh crowded =>
      exact absurd (room fresh) (not_lt.mpr crowded)
  | oversized kept asked message assembly admitted opened tooLong =>
      obtain rfl := Option.some.inj (admits.symm.trans admitted)
      rw [ModuleMessage.length_body decoded] at tooLong
      rcases opened with found | ⟨fresh, -, rfl⟩
      · exact absurd tooLong (not_lt.mpr (fits assembly found))
      · obtain ⟨-, -, -, -, -, bound⟩ :=
          ModuleMessage.valid_iff.mp (ModuleMessage.decode_ok decoded).1
        have bound := UInt32.le_iff_toNat_le.mp bound
        simp at tooLong
        omega
  | refused kept asked message assembly status admitted opened last reason =>
      obtain rfl := Option.some.inj (admits.symm.trans admitted)
      rcases reason with expired | handlerless | crowded
      · simp [ModuleMessage.deadlineExpired, deadline] at expired
      · simp [serves.handler] at handlerless
      · exact absurd jobs (not_lt.mpr crowded)
  | extended kept asked message assembly admitted opened holds more =>
      obtain rfl := Option.some.inj (admits.symm.trans admitted)
      exact ⟨_, assembly, decoded, .inl ⟨more, rfl, rfl⟩⟩
  | started kept asked message assembly admitted opened holds last jobsRoom =>
      obtain rfl := Option.some.inj (admits.symm.trans admitted)
      exact ⟨_, assembly, decoded, .inr ⟨last, rfl, rfl⟩⟩

theorem Served.consumed (served : Served config request state outputs)
    (phase : RequestPhase request.fragments request.correlation state outputs)
    (serves : Serves config request) (formed : request.Formed)
    (idle : state.Idle request.correlation) {now : UInt64} {event : Event}
    {middle : RuntimeState} {disposition : Disposition} {pc : LoopPc} {sent : List SentFragment}
    (handled : Consumption config state now event middle disposition)
    (within : receivedOf request.correlation outputs ++ [event] <+: request.fragments)
    (uncancelled : event.frame.has fCancel = false)
    (tables : (state.assemblies.erase request.correlation).keys.length < moduleMaxInFlight)
    (jobs : state.jobs.keys.length < moduleMaxInFlight)
    (silent : (∀ reply, disposition ≠ .reply reply) → sent = []) :
    Served config request { middle with pc } (outputs ++ .consumed event :: sent.map .replied) := by
  have part := phase.partly within
  have member : event ∈ request.fragments := within.subset (by simp)
  obtain ⟨kind, decodedMessage, decoded, invoke, stage, deadline, trace⟩ :=
    formed.uniform event member
  obtain ⟨requested, addressed⟩ := formed.addressed event member
  have partly : receivedOf request.correlation outputs ≠ request.fragments := by
    intro whole
    rw [whole] at within
    exact absurd within.length_le (by simp)
  obtain ⟨unanswered, unsaid⟩ := served.waiting partly
  have last_iff := formed.wellFormed.last_iff within
  obtain ⟨message, assembly, again, ⟨more, rfl, rfl⟩ | ⟨last, rfl, rfl⟩⟩ :=
    part.takes serves formed idle handled within uncancelled tables jobs
  all_goals
    obtain rfl := silent (by simp)
    obtain rfl := Except.ok.inj (decoded.symm.trans again)
    have seen : receivedOf request.correlation
        (outputs ++ .consumed event :: [].map .replied) =
          receivedOf request.correlation outputs ++ [event] := by
      rw [receivedOf_append, receivedOf_consumed, if_pos ⟨requested, addressed⟩,
        receivedOf_replied, List.append_nil]
  · have open_ : receivedOf request.correlation outputs ++ [event] ≠ request.fragments := by
      intro whole
      simp [last_iff.mpr whole] at more
    refine ⟨fun _ => by simp [unanswered, unsaid], ?_, ?_⟩
    · intro ticket flying
      exact absurd flying (part.landed ▸ List.not_mem_nil)
    · intro whole
      exact absurd (seen.symm.trans whole) open_
  · have whole := last_iff.mp last
    have flies := ticketsOf_started state request.correlation
      ⟨startedWork config state event decodedMessage,
        .ready (assembly.body ++ decodedMessage.body event.payload)⟩
      (state.assemblies.erase event.frame.correlationId)
      (state.jobs.insert event.frame.correlationId
        (startedWork config state event decodedMessage)) (state.flags ++ [false]) pc
    rw [if_pos (by exact addressed), part.landed, List.append_nil] at flies
    refine ⟨fun partly => absurd (seen.trans whole) partly, ?_, ?_⟩
    · intro ticket member
      obtain rfl := List.mem_singleton.mp (flies.eq_singleton ▸ member)
      constructor
      · exact kind
      · exact (congrArg config.stages.stageOf kind).trans serves.stage
      · exact deadline
      · exact trace
      · exact addressed ▸ AList.lookup_insert _
      · simp [flagOf, startedWork]
      · simpa using unsaid
      · simpa using unanswered
      · simp
    · intro _ landed
      exact absurd (landed ▸ flies).nil_eq (by simp)

end Served

section Alive

variable {config : RuntimeConfig} {state next : RuntimeState} {emitted : List RuntimeOutput}

theorem advance_pc {position : Nat} {move : HandlerRun → Option (HandlerRun × List RuntimeOutput)}
    (taken : state.advance position move = some (next, emitted)) : next.pc = state.pc := by
  unfold RuntimeState.advance at taken
  split at taken
  · cases taken
  · obtain ⟨moved, _, same⟩ := Option.map_eq_some_iff.mp taken
    exact (congrArg (·.1.pc) same).symm

theorem deliverStep_pc {position : Nat}
    (taken : deliverStep state position = some (next, emitted)) : next.pc = state.pc := by
  unfold deliverStep at taken
  split at taken
  · cases taken
  · split at taken
    · split at taken
      · exact (congrArg (·.1.pc) (Option.some.inj taken)).symm
      · cases taken
    · cases taken

theorem calm_alive {correlation : UInt64} {action : RuntimeAction} (alive : state.pc.Alive)
    (staged : state.Staged) (room : moduleMessageHeaderLen < config.inlineBudget.toNat)
    (allowed : calm correlation state action = true)
    (taken : runtimeStep config state action = some (next, emitted)) : next.pc.Alive := by
  unfold runtimeStep at taken
  split at taken
  · split at taken
    · cases taken
    · rename_i result rest buffered
      obtain ⟨pc, sent, rfl, -, answered⟩ := answer_sent taken
      have named : result.reply.stageID ≠ 0 :=
        staged result.ticket (by simp [RuntimeState.tickets, buffered])
      rw [show pc = .draining from answered.prompt allowed named room]
      trivial
  · rename_i ctxDone epochChanged now at_
    simp only [calm, Bool.and_eq_true, Bool.not_eq_true'] at allowed
    obtain ⟨rfl, rfl⟩ := allowed
    split at taken
    · cases taken
    · simp only [Bool.false_eq_true, if_false, Option.some.injEq, Prod.mk.injEq] at taken
      obtain ⟨rfl, -⟩ := taken
      trivial
  · rename_i outcome attempts now at_
    simp only [calm, Bool.and_eq_true] at allowed
    obtain ⟨waits, calm⟩ := allowed
    cases outcome with
    | panicked => simp at calm
    | failed failure => simp at calm
    | empty =>
        simp only [pollStep, Option.some.injEq, Prod.mk.injEq] at taken
        obtain ⟨rfl, -⟩ := taken
        trivial
    | received event =>
        simp only [pollStep] at taken
        split at taken
        · rename_i middle reply handled
          obtain ⟨⟨final, sent⟩, answered, same⟩ := Option.map_eq_some_iff.mp taken
          simp only [Prod.mk.injEq] at same
          obtain ⟨rfl, -⟩ := same
          obtain ⟨pc, fragments, rfl, -, whole⟩ := answer_sent answered
          rw [show pc = .draining from
            whole.prompt waits (consumeEvent_cases handled).reply_staged room]
          trivial
        · simp only [Option.some.injEq, Prod.mk.injEq] at taken
          obtain ⟨rfl, -⟩ := taken
          trivial
  · rwa [advance_pc taken]
  · rwa [advance_pc taken]
  · rwa [advance_pc taken]
  · rwa [deliverStep_pc taken]
  · rename_i at_
    simp [at_, LoopPc.Alive] at alive
  · rename_i at_
    simp [at_, LoopPc.Alive] at alive
  · cases taken

end Alive

/-- What holds of the request in every state of a calm run. -/
structure Serving (config : RuntimeConfig) (request : StageRequest) (state : RuntimeState)
    (outputs : List RuntimeOutput) : Prop where
  alive : state.pc.Alive
  idle : state.Idle request.correlation
  owned : FlagsOwned state
  staged : state.Staged
  phase : RequestPhase request.fragments request.correlation state outputs
  served : Served config request state outputs

section Serving

variable {config : RuntimeConfig} {request : StageRequest} {state next : RuntimeState}
  {outputs emitted : List RuntimeOutput}

theorem Serving.initial (nonempty : request.fragments ≠ []) :
    Serving config request .initial [] := by
  refine ⟨trivial, fun _ => rfl, ⟨nofun, nofun⟩, nofun, .fresh rfl rfl rfl rfl rfl, ?_, nofun, ?_⟩
  · exact fun _ => ⟨rfl, rfl⟩
  · exact fun whole => absurd whole.symm nonempty

theorem Serving.step {action : RuntimeAction} (serving : Serving config request state outputs)
    (serves : Serves config request) (formed : request.Formed)
    (allowed : calm request.correlation state action = true)
    (taken : runtimeStep config state action = some (next, emitted))
    (within : receivedOf request.correlation (outputs ++ emitted) <+: request.fragments)
    (uncancelled : ∀ event, .consumed event ∈ emitted →
      event.frame.correlationId = request.correlation → event.frame.has fCancel = false) :
    Serving config request next (outputs ++ emitted) := by
  have effect := runtimeStep_effect taken
  have polled : ∀ event, .consumed event ∈ emitted → event.frame.has fRequest = true →
      event.frame.correlationId = request.correlation →
        receivedOf request.correlation outputs ++ [event] <+: request.fragments ∧
          (state.assemblies.erase request.correlation).keys.length < moduleMaxInFlight ∧
          state.jobs.keys.length < moduleMaxInFlight := by
    intro event consumed asked owned
    obtain ⟨attempts, sent, rfl, rfl⟩ := effect.polled consumed
    rw [receivedOf_append, receivedOf_consumed, if_pos ⟨asked, owned⟩, receivedOf_replied,
      List.append_nil] at within
    simp only [calm, owned, Bool.and_eq_true, Bool.or_eq_true, beq_self_eq_true, Bool.not_true,
      Bool.false_eq_true, false_or, decide_eq_true_eq] at allowed
    exact ⟨within, allowed.2⟩
  refine ⟨calm_alive serving.alive serving.staged serves.room allowed taken,
    effect.idle serving.idle, serving.owned.step effect, serving.staged.step effect, ?_, ?_⟩
  · refine serving.phase.step formed.wellFormed serving.idle ?_ taken within uncancelled
    intro event consumed asked owned _
    obtain ⟨within, tables, -⟩ := polled event consumed asked owned
    exact (serving.phase.partly within).accepts serves formed within tables
  · cases effect with
    | quiet pc =>
        exact serving.served.transport (.refl _) rfl (fun _ _ => rfl) rfl rfl rfl rfl
    | interrupted epochChanged now => simp [calm] at allowed
    | moved located same move => exact serving.served.moved serving.phase located same move
    | delivered located space =>
        exact serving.served.transport (ticketsOf_delivered _ located) rfl (fun _ _ => rfl)
          rfl rfl rfl rfl
    | finished pc buffered answered =>
        rename_i attempts result rest sent
        have named : result.reply.stageID ≠ 0 :=
          serving.staged result.ticket (by simp [RuntimeState.tickets, buffered])
        obtain rfl := answered.prompt allowed named serves.room
        exact serving.served.finished buffered serving.phase answered
    | collected stopping buffered =>
        exact absurd serving.alive (by simp [stopping, LoopPc.Alive])
    | consumed pc handled answered silent =>
        rename_i now event attempts middle disposition sent
        have cases := consumeEvent_cases handled
        by_cases owned : event.frame.correlationId = request.correlation
        · have kept := uncancelled event (by simp) owned
          by_cases asked : event.frame.has fRequest = true
          · obtain ⟨within, tables, jobs⟩ := polled event (by simp) asked owned
            exact serving.served.consumed serving.phase serves formed serving.idle cases within
              kept tables jobs silent
          · obtain ⟨rfl, rfl⟩ := cases.unrequested (by simpa using asked) kept
            obtain rfl := silent (by simp)
            refine serving.served.transport (.refl _) rfl (fun _ _ => rfl) ?_ rfl rfl rfl
            rw [receivedOf_consumed, if_neg fun mine => asked mine.1]
            rfl
        · exact serving.served.passed serving.owned cases owned
            (cases.unreplied owned answered silent)

theorem Serving.run (serving : Serving config request state outputs)
    (serves : Serves config request) (formed : request.Formed) {actions : List RuntimeAction}
    (run : ((runtimeMachine config).restrict (calm request.correlation)).Run state actions
      next emitted)
    (within : receivedOf request.correlation (outputs ++ emitted) <+: request.fragments)
    (uncancelled : ∀ event, .consumed event ∈ emitted →
      event.frame.correlationId = request.correlation → event.frame.has fCancel = false) :
    Serving config request next (outputs ++ emitted) := by
  refine run.invariant (fun _ state emitted =>
    receivedOf request.correlation (outputs ++ emitted) <+: request.fragments →
      (∀ event, .consumed event ∈ emitted →
        event.frame.correlationId = request.correlation → event.frame.has fCancel = false) →
        Serving config request state (outputs ++ emitted)) (fun _ _ => by simpa using serving) ?_
    within uncancelled
  rintro actions state earlier action next emitted - serving step within uncancelled
  obtain ⟨allowed, taken⟩ := Machine.restrict_step.mp step
  rw [← List.append_assoc] at within ⊢
  have before : receivedOf request.correlation (outputs ++ earlier) <+: request.fragments :=
    (receivedOf_append ▸ List.prefix_append _ _).trans within
  exact (serving before fun event member => uncancelled event (List.mem_append_left _ member)).step
    serves formed allowed taken within
    fun event member => uncancelled event (List.mem_append_right _ member)

theorem serving_run (serves : Serves config request) (formed : request.Formed)
    {actions : List RuntimeAction}
    (run : ((runtimeMachine config).restrict (calm request.correlation)).Run .initial actions
      state outputs)
    (within : receivedOf request.correlation outputs <+: request.fragments)
    (uncancelled : ∀ event, .consumed event ∈ outputs →
      event.frame.correlationId = request.correlation → event.frame.has fCancel = false) :
    Serving config request state outputs :=
  (Serving.initial formed.nonempty).run serves formed run within uncancelled

theorem Serving.landed_of_replied (serving : Serving config request state outputs)
    (said : repliedOf request.correlation outputs ≠ []) :
    receivedOf request.correlation outputs = request.fragments ∧
      state.ticketsOf request.correlation = [] := by
  have whole : receivedOf request.correlation outputs = request.fragments := by
    by_contra partly
    exact said (serving.served.waiting partly).2
  refine ⟨whole, ?_⟩
  cases flying : state.ticketsOf request.correlation with
  | nil => rfl
  | cons ticket others =>
      exact absurd (serving.served.flying ticket (by simp [flying])).silent said

end Serving

end AimeeLearning.Bus
