import AimeeLearning.Bus.ModuleRuntimeSteps

/-! Request atomicity of the module runtime: what the handler sees of a request
that arrives as several fragments. The loop forgets a request it refuses, so
the property needs every fragment that announces more to be accepted. -/

set_option autoImplicit false

namespace AimeeLearning.Bus

open Library

section Histories

/-- The request fragments of a correlation that the loop consumed. -/
def receivedOf (correlation : UInt64) (outputs : List RuntimeOutput) : List Event :=
  outputs.filterMap fun
    | .consumed event =>
        if event.frame.has fRequest && event.frame.correlationId == correlation then some event
        else none
    | _ => none

/-- The bodies the handler was invoked with for a correlation. -/
def invokedOf (correlation : UInt64) (outputs : List RuntimeOutput) : List Bytes :=
  outputs.filterMap fun
    | .invoked work body => if work.correlationID == correlation then some body else none
    | _ => none

/-- The reply fragments sent for a correlation. -/
def repliedOf (correlation : UInt64) (outputs : List RuntimeOutput) : List SentFragment :=
  outputs.filterMap fun
    | .replied fragment => if fragment.correlation == correlation then some fragment else none
    | _ => none

/-- How often a correlation was answered for good. -/
def finalsOf (correlation : UInt64) (outputs : List RuntimeOutput) : Nat :=
  (repliedOf correlation outputs).countP fun fragment => !fragment.more

variable {correlation : UInt64} {first second : List RuntimeOutput}

@[simp] theorem receivedOf_append :
    receivedOf correlation (first ++ second) =
      receivedOf correlation first ++ receivedOf correlation second :=
  List.filterMap_append

@[simp] theorem invokedOf_append :
    invokedOf correlation (first ++ second) =
      invokedOf correlation first ++ invokedOf correlation second :=
  List.filterMap_append

@[simp] theorem repliedOf_append :
    repliedOf correlation (first ++ second) =
      repliedOf correlation first ++ repliedOf correlation second :=
  List.filterMap_append

@[simp] theorem finalsOf_append :
    finalsOf correlation (first ++ second) =
      finalsOf correlation first + finalsOf correlation second := by
  simp [finalsOf]

@[simp] theorem histories_nil :
    receivedOf correlation [] = [] ∧ invokedOf correlation [] = [] ∧
      repliedOf correlation [] = [] ∧ finalsOf correlation [] = 0 :=
  ⟨rfl, rfl, rfl, rfl⟩

@[simp] theorem receivedOf_replied (sent : List SentFragment) :
    receivedOf correlation (sent.map .replied) = [] := by
  simp [receivedOf]

@[simp] theorem invokedOf_replied (sent : List SentFragment) :
    invokedOf correlation (sent.map .replied) = [] := by
  simp [invokedOf]

theorem repliedOf_replied (correlation : UInt64) {sent : List SentFragment} {owner : UInt64}
    (owned : ∀ fragment ∈ sent, fragment.correlation = owner) :
    repliedOf correlation (sent.map .replied) = if owner = correlation then sent else [] := by
  have kept : repliedOf correlation (sent.map .replied) =
      sent.filter fun fragment => fragment.correlation == correlation := by
    simp only [repliedOf, List.filterMap_map]
    rw [← List.filterMap_eq_filter]
    rfl
  rw [kept]
  by_cases same : owner = correlation
  · rw [if_pos same, List.filter_eq_self]
    exact fun fragment member => by simp [owned fragment member, same]
  · rw [if_neg same, List.filter_eq_nil_iff]
    exact fun fragment member => by simp [owned fragment member, same]

theorem receivedOf_consumed (event : Event) (rest : List RuntimeOutput) :
    receivedOf correlation (.consumed event :: rest) =
      (if event.frame.has fRequest = true ∧ event.frame.correlationId = correlation then [event]
        else []) ++ receivedOf correlation rest := by
  by_cases request : event.frame.has fRequest = true <;>
    by_cases owned : event.frame.correlationId = correlation <;>
    simp [receivedOf, request, owned]

@[simp] theorem invokedOf_consumed (event : Event) (rest : List RuntimeOutput) :
    invokedOf correlation (.consumed event :: rest) = invokedOf correlation rest :=
  rfl

@[simp] theorem repliedOf_consumed (event : Event) (rest : List RuntimeOutput) :
    repliedOf correlation (.consumed event :: rest) = repliedOf correlation rest :=
  rfl

@[simp] theorem finalsOf_consumed (event : Event) (rest : List RuntimeOutput) :
    finalsOf correlation (.consumed event :: rest) = finalsOf correlation rest :=
  rfl

theorem invokedOf_invoked (work : ModuleWork) (body : Bytes) (rest : List RuntimeOutput) :
    invokedOf correlation (.invoked work body :: rest) =
      (if work.correlationID = correlation then [body] else []) ++
        invokedOf correlation rest := by
  by_cases owned : work.correlationID = correlation <;> simp [invokedOf, owned]

@[simp] theorem invokedOf_answered (work : ModuleWork) (response : Bytes) (status : ModuleStatus)
    (rest : List RuntimeOutput) :
    invokedOf correlation (.answered work response status :: rest) = invokedOf correlation rest :=
  rfl

theorem HandlerMove.histories {flags : List Bool} {work : ModuleWork}
    {phase next : HandlerPhase} {emitted : List RuntimeOutput}
    (move : HandlerMove flags work phase next emitted) (correlation : UInt64) :
    receivedOf correlation emitted = [] ∧ repliedOf correlation emitted = [] ∧
      (work.correlationID ≠ correlation → invokedOf correlation emitted = []) := by
  cases move with
  | invoke body =>
      refine ⟨rfl, rfl, fun foreign => ?_⟩
      simp [invokedOf, foreign]
  | handlerReturns response status => exact ⟨rfl, rfl, fun _ => rfl⟩
  | checkCancelled now body status => exact ⟨rfl, rfl, fun _ => rfl⟩

theorem Consumption.unreplied {config : RuntimeConfig} {state middle : RuntimeState} {now : UInt64}
    {event : Event} {disposition : Disposition} {attempts : List Attempt} {pc : LoopPc}
    {sent : List SentFragment} (handled : Consumption config state now event middle disposition)
    (foreign : event.frame.correlationId ≠ correlation)
    (answered : ∀ reply, disposition = .reply reply → ReplySent config reply attempts pc sent)
    (silent : (∀ reply, disposition ≠ .reply reply) → sent = []) :
    repliedOf correlation (sent.map .replied) = [] := by
  by_cases replies : ∃ reply, disposition = .reply reply
  · obtain ⟨reply, rfl⟩ := replies
    rw [repliedOf_replied _ fun fragment member =>
      (ModuleReply.mem_plan ((answered reply rfl).front.subset member)).2,
      handled.reply_correlation, if_neg foreign]
  · rw [silent fun reply same => replies ⟨reply, same⟩]
    rfl

end Histories

section Requests

def fragmentBody (event : Event) : Bytes :=
  match decodeModuleMessage event.payload with
  | .ok message => message.body event.payload
  | .error _ => []

/-- The request body a list of fragments stands for. -/
def requestBody (fragments : List Event) : Bytes := (fragments.map fragmentBody).flatten

@[simp] theorem requestBody_append (first second : List Event) :
    requestBody (first ++ second) = requestBody first ++ requestBody second := by
  simp [requestBody]

/-- The fragments of one request, or none for an unused correlation. -/
structure WellFormedRequest (correlation : UInt64) (fragments : List Event) : Prop where
  addressed : ∀ event ∈ fragments,
    event.frame.has fRequest = true ∧ event.frame.correlationId = correlation
  uniform : ∃ kind stageID deadlineNS traceID, ∀ event ∈ fragments,
    event.frame.eventKind = kind ∧ ∃ message, decodeModuleMessage event.payload = .ok message ∧
      message.operation = moduleOpInvoke ∧ message.stageID = stageID ∧
        message.deadlineNS = deadlineNS ∧ message.traceID = traceID
  closed : fragments ≠ [] →
    ClosedBy (fragments.map fun event => (event.payload, event.frame.has fMore))

/-- A consumed fragment is the last one exactly when it announces no more. -/
theorem WellFormedRequest.last_iff {correlation : UInt64} {fragments earlier : List Event}
    {event : Event} (formed : WellFormedRequest correlation fragments)
    (within : earlier ++ [event] <+: fragments) :
    event.frame.has fMore = false ↔ earlier ++ [event] = fragments := by
  have nonempty : fragments ≠ [] := by
    rintro rfl
    simpa using List.prefix_nil.mp within
  have marks := within.map fun event => (event.payload, event.frame.has fMore)
  rw [List.map_append, List.map_cons, List.map_nil] at marks
  rw [(formed.closed nonempty).prefix_last marks]
  constructor
  · intro same
    refine within.eq_of_length ?_
    simpa using congrArg List.length same
  · rintro rfl
    simp

/-- A request property holds of one correlation in one history. -/
structure RequestAtomic (fragments : List Event) (correlation : UInt64)
    (outputs : List RuntimeOutput) : Prop where
  invokedOnce : (invokedOf correlation outputs).length ≤ 1
  complete : ∀ body ∈ invokedOf correlation outputs,
    receivedOf correlation outputs = fragments ∧ body = requestBody fragments
  answeredOnce : finalsOf correlation outputs ≤ 1

/-- What a fragment that announces more needs in order to be accepted: its kind
is served under the stage it names, its assembly is open or there is room for
one, and the body so far stays admissible. -/
def fragmentAccepted (config : RuntimeConfig) (state : RuntimeState) (event : Event) : Bool :=
  match decodeModuleMessage event.payload with
  | .error _ => false
  | .ok message =>
      config.stages.stageOf event.frame.eventKind == message.stageID &&
        match state.assemblies.lookup event.frame.correlationId with
        | some assembly =>
            assembly.body.length + message.bodyLen.toNat ≤ moduleMessageMaxBody.toNat
        | none => state.assemblies.keys.length < moduleMaxInFlight

/-- Every fragment that announces more is accepted. -/
def fragmentsAccepted (config : RuntimeConfig) (state : RuntimeState) : RuntimeAction → Bool
  | .poll (.received event) _ =>
      !(event.frame.has fRequest && event.frame.has fMore) || fragmentAccepted config state event
  | _ => true

theorem fragmentAccepted_iff {config : RuntimeConfig} {state : RuntimeState} {event : Event} :
    fragmentAccepted config state event = true ↔
      ∃ message, decodeModuleMessage event.payload = .ok message ∧
        config.stages.stageOf event.frame.eventKind = message.stageID ∧
        (∀ assembly, state.assemblies.lookup event.frame.correlationId = some assembly →
          assembly.body.length + message.bodyLen.toNat ≤ moduleMessageMaxBody.toNat) ∧
        (state.assemblies.lookup event.frame.correlationId = none →
          state.assemblies.keys.length < moduleMaxInFlight) := by
  unfold fragmentAccepted
  cases decodeModuleMessage event.payload with
  | error failure => simp
  | ok message =>
      cases state.assemblies.lookup event.frame.correlationId <;> simp

/-- What the assembly of a partly consumed request holds. -/
structure Gathers (assembly : ModuleAssembly) (events : List Event) : Prop where
  opened : ∃ first ∈ events, assembly.eventKind = first.frame.eventKind ∧
    decodeModuleMessage first.payload = .ok assembly.message
  body : assembly.body = requestBody events

/-- How far a request has come, in the tables and in the history. -/
inductive RequestPhase (fragments : List Event) (correlation : UInt64) (state : RuntimeState)
    (outputs : List RuntimeOutput) : Prop
  | fresh (closed : state.assemblies.lookup correlation = none)
      (landed : state.ticketsOf correlation = []) (seen : receivedOf correlation outputs = [])
      (silent : invokedOf correlation outputs = [])
      (unanswered : finalsOf correlation outputs = 0)
  | collecting (assembly : ModuleAssembly)
      (opened : state.assemblies.lookup correlation = some assembly)
      (landed : state.ticketsOf correlation = [])
      (more : ∀ event ∈ receivedOf correlation outputs, event.frame.has fMore = true)
      (gathers : Gathers assembly (receivedOf correlation outputs))
      (silent : invokedOf correlation outputs = [])
      (unanswered : finalsOf correlation outputs = 0)
  | flying (ticket : HandlerRun) (closed : state.assemblies.lookup correlation = none)
      (flies : state.ticketsOf correlation = [ticket])
      (seen : receivedOf correlation outputs = fragments)
      (waiting : ∀ body, ticket.phase = .ready body →
        invokedOf correlation outputs = [] ∧ body = requestBody fragments)
      (called : (∀ body, ticket.phase ≠ .ready body) →
        invokedOf correlation outputs = [requestBody fragments])
      (unanswered : finalsOf correlation outputs = 0)
  | settled (closed : state.assemblies.lookup correlation = none)
      (landed : state.ticketsOf correlation = [])
      (seen : receivedOf correlation outputs = fragments)
      (called : invokedOf correlation outputs = [] ∨
        invokedOf correlation outputs = [requestBody fragments])
      (answered : finalsOf correlation outputs ≤ 1)

variable {fragments : List Event} {correlation : UInt64} {state next : RuntimeState}
  {outputs emitted : List RuntimeOutput}

theorem RequestPhase.atomic (phase : RequestPhase fragments correlation state outputs) :
    RequestAtomic fragments correlation outputs := by
  cases phase with
  | fresh closed landed seen silent unanswered =>
      exact ⟨by simp [silent], by simp [silent], by omega⟩
  | collecting assembly opened landed more gathers silent unanswered =>
      exact ⟨by simp [silent], by simp [silent], by omega⟩
  | flying ticket closed flies seen waiting called unanswered =>
      by_cases ready : ∃ body, ticket.phase = .ready body
      · obtain ⟨body, ready⟩ := ready
        have silent := (waiting body ready).1
        exact ⟨by simp [silent], by simp [silent], by omega⟩
      · have once := called fun body same => ready ⟨body, same⟩
        exact ⟨by simp [once], by simp [once, seen], by omega⟩
  | settled closed landed seen called answered =>
      rcases called with silent | once
      · exact ⟨by simp [silent], by simp [silent], answered⟩
      · exact ⟨by simp [once], by simp [once, seen], answered⟩

theorem RequestPhase.flown (phase : RequestPhase fragments correlation state outputs)
    {ticket : HandlerRun} (member : ticket ∈ state.ticketsOf correlation) :
    state.ticketsOf correlation = [ticket] ∧ receivedOf correlation outputs = fragments := by
  cases phase with
  | fresh closed landed => simp [landed] at member
  | collecting assembly opened landed => simp [landed] at member
  | settled closed landed => simp [landed] at member
  | flying other closed flies seen =>
      obtain rfl : ticket = other := by simpa [flies] using member
      exact ⟨flies, seen⟩

theorem RequestPhase.called (phase : RequestPhase fragments correlation state outputs)
    {ticket : HandlerRun} (member : ticket ∈ state.ticketsOf correlation)
    (started : ∀ body, ticket.phase ≠ .ready body) :
    invokedOf correlation outputs = [requestBody fragments] := by
  cases phase with
  | fresh closed landed => simp [landed] at member
  | collecting assembly opened landed => simp [landed] at member
  | settled closed landed => simp [landed] at member
  | flying other closed flies seen waiting called =>
      obtain rfl : ticket = other := by simpa [flies] using member
      exact called started

theorem RequestPhase.transport (phase : RequestPhase fragments correlation state outputs)
    (assembly : next.assemblies.lookup correlation = state.assemblies.lookup correlation)
    (tickets : (next.ticketsOf correlation).Perm (state.ticketsOf correlation))
    (consumed : receivedOf correlation emitted = [])
    (invoked : invokedOf correlation emitted = [])
    (replied : repliedOf correlation emitted = []) :
    RequestPhase fragments correlation next (outputs ++ emitted) := by
  have finals : finalsOf correlation emitted = 0 := by simp [finalsOf, replied]
  cases phase with
  | fresh closed landed seen silent unanswered =>
      refine .fresh (assembly.trans closed) ?_ ?_ ?_ ?_
      · exact (landed ▸ tickets).eq_nil
      · simp [seen, consumed]
      · simp [silent, invoked]
      · simp [unanswered, finals]
  | collecting current opened landed more gathers silent unanswered =>
      refine .collecting current (assembly.trans opened) ?_ ?_ ?_ ?_ ?_
      · exact (landed ▸ tickets).eq_nil
      · simpa [consumed] using more
      · simpa [consumed] using gathers
      · simp [silent, invoked]
      · simp [unanswered, finals]
  | flying ticket closed flies seen waiting called unanswered =>
      refine .flying ticket (assembly.trans closed) ?_ ?_ ?_ ?_ ?_
      · exact (flies ▸ tickets).eq_singleton
      · simp [seen, consumed]
      · simpa [invoked] using waiting
      · simpa [invoked] using called
      · simp [unanswered, finals]
  | settled closed landed seen called answered =>
      refine .settled (assembly.trans closed) ?_ ?_ ?_ ?_
      · exact (landed ▸ tickets).eq_nil
      · simp [seen, consumed]
      · simpa [invoked] using called
      · simpa [finals] using answered

theorem RequestPhase.moved (phase : RequestPhase fragments correlation state outputs)
    {front back : List HandlerRun} {run after : HandlerRun}
    (located : state.running = front ++ run :: back) (same : after.work = run.work)
    (move : HandlerMove state.flags run.work run.phase after.phase emitted) :
    RequestPhase fragments correlation { state with running := front ++ after :: back }
      (outputs ++ emitted) := by
  obtain ⟨consumed, replied, foreign⟩ := move.histories correlation
  obtain ⟨before, rest, now, later⟩ :=
    ticketsOf_moved correlation located same
  by_cases owned : run.work.correlationID = correlation
  · rw [if_pos owned] at now later
    have present : state.ticketsOf correlation ≠ [] := by simp [now]
    cases phase with
    | fresh closed landed => exact absurd landed present
    | collecting assembly opened landed => exact absurd landed present
    | settled closed landed => exact absurd landed present
    | flying ticket closed flies seen waiting called unanswered =>
        rw [flies] at now
        obtain ⟨rfl, rfl, rfl⟩ : before = [] ∧ ticket = run ∧ rest = [] := by
          cases before with
          | nil => simpa using now
          | cons head tail => simp at now
        have finals : finalsOf correlation emitted = 0 := by simp [finalsOf, replied]
        generalize start : ticket.phase = phase at move
        generalize stop : after.phase = final at move
        have invoked : invokedOf correlation (outputs ++ emitted) = [requestBody fragments] := by
          cases move with
          | invoke body =>
              obtain ⟨silent, rfl⟩ := waiting body start
              simp [silent, invokedOf_invoked, owned]
          | handlerReturns response status => simpa using called (by simp [start])
          | checkCancelled now body status => simpa using called (by simp [start])
        refine .flying after closed later (by simp [seen, consumed]) ?_ (fun _ => invoked)
          (by simp [unanswered, finals])
        intro body ready
        obtain rfl := stop.symm.trans ready
        cases move
  · rw [if_neg owned] at now later
    exact phase.transport rfl (by rw [now, later]) consumed (foreign owned) replied

theorem RequestPhase.finished (phase : RequestPhase fragments correlation state outputs)
    {result : ModuleResult} {rest : List ModuleResult} (pc : LoopPc) {sent : List SentFragment}
    (buffered : state.done = result :: rest) (jobs : AList fun _ : UInt64 => ModuleWork)
    (owner : ∀ fragment ∈ sent, fragment.correlation = result.work.correlationID)
    (once : sent.countP (fun fragment => !fragment.more) ≤ 1) :
    RequestPhase fragments correlation { state with pc, done := rest, jobs }
      (outputs ++ sent.map .replied) := by
  have replied := repliedOf_replied correlation owner
  have landing := ticketsOf_finished correlation buffered jobs pc
  by_cases owned : result.work.correlationID = correlation
  · rw [if_pos owned] at landing
    have final : finalsOf correlation (sent.map .replied) ≤ 1 := by
      rw [finalsOf, replied, if_pos owned]
      exact once
    have present : state.ticketsOf correlation ≠ [] := by
      intro landed
      rw [landed] at landing
      exact absurd landing.nil_eq (by simp)
    cases phase with
    | fresh closed landed => exact absurd landed present
    | collecting assembly opened landed => exact absurd landed present
    | settled closed landed => exact absurd landed present
    | flying ticket closed flies seen waiting called unanswered =>
        rw [flies] at landing
        obtain ⟨rfl, empty⟩ := List.cons_eq_cons.mp landing.singleton_eq
        exact .settled closed empty.symm (by simp [seen])
          (.inr (by simpa using called (by simp [ModuleResult.ticket])))
          (by simpa [unanswered] using final)
  · rw [if_neg owned] at landing
    refine phase.transport rfl landing.symm (by simp) (by simp) ?_
    rw [replied]
    exact if_neg owned

/-- A request whose fragments are not all consumed, as the tables show it. -/
structure Partial (correlation : UInt64) (state : RuntimeState)
    (outputs : List RuntimeOutput) : Prop where
  landed : state.ticketsOf correlation = []
  silent : invokedOf correlation outputs = []
  unanswered : finalsOf correlation outputs = 0
  more : ∀ event ∈ receivedOf correlation outputs, event.frame.has fMore = true
  closed : state.assemblies.lookup correlation = none → receivedOf correlation outputs = []
  gathers : ∀ assembly, state.assemblies.lookup correlation = some assembly →
    Gathers assembly (receivedOf correlation outputs)

theorem RequestPhase.partly {event : Event}
    (phase : RequestPhase fragments correlation state outputs)
    (within : receivedOf correlation outputs ++ [event] <+: fragments) :
    Partial correlation state outputs := by
  cases phase with
  | fresh closed landed seen silent unanswered =>
      exact ⟨landed, silent, unanswered, by simp [seen], fun _ => seen, by simp [closed]⟩
  | collecting assembly opened landed more gathers silent unanswered =>
      refine ⟨landed, silent, unanswered, more, by simp [opened], fun other same => ?_⟩
      obtain rfl := Option.some.inj (opened.symm.trans same)
      exact gathers
  | flying ticket closed flies seen waiting called unanswered =>
      rw [seen] at within
      exact absurd within.length_le (by simp)
  | settled closed landed seen called answered =>
      rw [seen] at within
      exact absurd within.length_le (by simp)

theorem Partial.admits {config : RuntimeConfig} {event : Event}
    (part : Partial correlation state outputs) (formed : WellFormedRequest correlation fragments)
    (within : receivedOf correlation outputs ++ [event] <+: fragments)
    (idle : state.jobs.lookup correlation = none)
    (accepted : fragmentAccepted config state event = true) :
    ∃ message, admitRequest config state event = some message := by
  obtain ⟨message, decoded, served, -⟩ := fragmentAccepted_iff.mp accepted
  obtain ⟨kind, stageID, deadlineNS, traceID, uniform⟩ := formed.uniform
  have member : event ∈ fragments := within.subset (by simp)
  obtain ⟨sameKind, other, again, invoke, stage, deadline, trace⟩ := uniform event member
  obtain rfl := Except.ok.inj (decoded.symm.trans again)
  obtain rfl := (formed.addressed event member).2
  have named : message.stageID ≠ 0 := by
    obtain ⟨-, -, -, staged, -⟩ := ModuleMessage.valid_iff.mp (ModuleMessage.decode_ok decoded).1
    exact staged
  refine ⟨message, ?_⟩
  simp only [admitRequest, decoded, idle, served, invoke]
  cases opened : state.assemblies.lookup event.frame.correlationId with
  | none => simp [named]
  | some assembly =>
      obtain ⟨⟨first, earlier, kindOf, messageOf⟩, -⟩ := part.gathers assembly opened
      obtain ⟨firstKind, found, foundDecoded, -, firstStage, firstDeadline, firstTrace⟩ :=
        uniform first (within.subset (List.mem_append_left _ earlier))
      obtain rfl := Except.ok.inj (messageOf.symm.trans foundDecoded)
      have continued : assembly.continuedBy event.frame.eventKind message = true := by
        simp [ModuleAssembly.continuedBy, kindOf, firstKind, sameKind, firstStage, stage,
          firstDeadline, deadline, firstTrace, trace]
      simp [named, continued]

theorem Partial.opened {config : RuntimeConfig} {event : Event} {message : ModuleMessage}
    {assembly : ModuleAssembly} (part : Partial correlation state outputs)
    (addressed : event.frame.correlationId = correlation)
    (admitted : admitRequest config state event = some message)
    (opened : OpenedFor state event message assembly) :
    Gathers { assembly with body := assembly.body ++ message.body event.payload }
      (receivedOf correlation outputs ++ [event]) := by
  subst addressed
  have decoded := (admitRequest_some admitted).1
  have piece : fragmentBody event = message.body event.payload := by
    simp [fragmentBody, decoded]
  rcases opened with found | ⟨fresh, -, rfl⟩
  · obtain ⟨⟨first, member, kindOf, messageOf⟩, body⟩ := part.gathers assembly found
    refine ⟨⟨first, List.mem_append_left _ member, kindOf, messageOf⟩, ?_⟩
    simp [body, requestBody, piece]
  · rw [part.closed fresh]
    exact ⟨⟨event, by simp, rfl, decoded⟩, by simp [requestBody, piece]⟩

theorem Partial.settles {config : RuntimeConfig} {event : Event} {reply : ModuleReply}
    {attempts : List Attempt} {pc : LoopPc} {sent : List SentFragment} (part : Partial correlation state outputs)
    (formed : WellFormedRequest correlation fragments)
    (within : receivedOf correlation outputs ++ [event] <+: fragments)
    (last : event.frame.has fMore = false) (owned : reply.correlation = correlation)
    (answered : ReplySent config reply attempts pc sent)
    (closed : next.assemblies.lookup correlation = none)
    (landed : next.ticketsOf correlation = state.ticketsOf correlation) :
    RequestPhase fragments correlation next
      (outputs ++ .consumed event :: sent.map .replied) := by
  have member : event ∈ fragments := within.subset (by simp)
  have replied := repliedOf_replied correlation
    fun fragment member => (ModuleReply.mem_plan (answered.front.subset member)).2
  rw [if_pos owned] at replied
  refine .settled closed (landed.trans part.landed) ?_ (.inl ?_) ?_
  · rw [receivedOf_append, receivedOf_consumed, if_pos (formed.addressed event member),
      receivedOf_replied, List.append_nil]
    exact (formed.last_iff within).mp last
  · simp [part.silent]
  · rw [finalsOf_append, part.unanswered, finalsOf_consumed, finalsOf, replied, Nat.zero_add]
    exact answered.once

theorem RequestPhase.consumed (phase : RequestPhase fragments correlation state outputs)
    {config : RuntimeConfig} {now : UInt64} {event : Event} {middle : RuntimeState}
    {disposition : Disposition} {attempts : List Attempt} {pc : LoopPc} {sent : List SentFragment}
    (handled : Consumption config state now event middle disposition)
    (formed : WellFormedRequest correlation fragments)
    (within : receivedOf correlation outputs ++ [event] <+: fragments)
    (uncancelled : event.frame.has fCancel = false)
    (idle : state.ticketsOf correlation = [] → state.jobs.lookup correlation = none)
    (accepted : event.frame.has fMore = true → fragmentAccepted config state event = true)
    (answered : ∀ reply, disposition = .reply reply → ReplySent config reply attempts pc sent)
    (silent : (∀ reply, disposition ≠ .reply reply) → sent = []) :
    RequestPhase fragments correlation { middle with pc }
      (outputs ++ .consumed event :: sent.map .replied) := by
  have part := phase.partly within
  have addressed := formed.addressed event (within.subset (by simp))
  have seen : receivedOf correlation (outputs ++ .consumed event :: sent.map .replied) =
      receivedOf correlation outputs ++ [event] := by
    rw [receivedOf_append, receivedOf_consumed, if_pos addressed, receivedOf_replied,
      List.append_nil]
  cases handled with
  | cancelled flags cancel flagged => simp [uncancelled] at cancel
  | ignored kept other => simp [addressed.1] at other
  | invalid kept request inadmissible =>
      have last : event.frame.has fMore = false := by
        by_contra more
        obtain ⟨message, admitted⟩ := part.admits formed within (idle part.landed)
          (accepted (by simpa using more))
        simp [inadmissible] at admitted
      exact part.settles formed within last addressed.2 (answered _ rfl)
        (by simp [addressed.2]) rfl
  | full kept request message admitted fresh crowded =>
      have last : event.frame.has fMore = false := by
        by_contra more
        obtain ⟨other, -, -, -, room⟩ := fragmentAccepted_iff.mp (accepted (by simpa using more))
        exact absurd (room fresh) (not_lt.mpr crowded)
      exact part.settles formed within last addressed.2 (answered _ rfl)
        (addressed.2 ▸ fresh) rfl
  | oversized kept request message assembly admitted opened tooLong =>
      have last : event.frame.has fMore = false := by
        by_contra more
        obtain ⟨other, decoded, -, fits, -⟩ :=
          fragmentAccepted_iff.mp (accepted (by simpa using more))
        obtain rfl := Except.ok.inj ((admitRequest_some admitted).1.symm.trans decoded)
        rw [ModuleMessage.length_body decoded] at tooLong
        rcases opened with found | ⟨fresh, -, rfl⟩
        · exact absurd tooLong (not_lt.mpr (fits assembly found))
        · obtain ⟨-, -, -, -, -, bound⟩ :=
            ModuleMessage.valid_iff.mp (ModuleMessage.decode_ok decoded).1
          have bound := UInt32.le_iff_toNat_le.mp bound
          simp at tooLong
          omega
      exact part.settles formed within last addressed.2 (answered _ rfl)
        (by simp [addressed.2]) rfl
  | refused kept request message assembly status admitted opened last reason =>
      exact part.settles formed within last addressed.2 (answered _ rfl)
        (by simp [addressed.2]) rfl
  | extended kept request message assembly admitted opened holds more =>
      obtain rfl := silent (by simp)
      refine .collecting _ (by rw [addressed.2]; exact AList.lookup_insert _) part.landed ?_ ?_ ?_ ?_
      · rw [seen]
        intro other member
        rcases List.mem_append.mp member with earlier | here
        · exact part.more other earlier
        · exact List.mem_singleton.mp here ▸ more
      · rw [seen]
        exact part.opened addressed.2 admitted opened
      · simp [part.silent]
      · simp [part.unanswered]
  | started kept request message assembly admitted opened holds last room =>
      obtain rfl := silent (by simp)
      have gathered := (part.opened addressed.2 admitted opened).body
      have whole := (formed.last_iff within).mp last
      have flies := ticketsOf_started state correlation
        ⟨startedWork config state event message, .ready (assembly.body ++ message.body event.payload)⟩
        (state.assemblies.erase event.frame.correlationId)
        (state.jobs.insert event.frame.correlationId (startedWork config state event message))
        (state.flags ++ [false]) pc
      rw [if_pos (by exact addressed.2), part.landed, List.append_nil] at flies
      refine .flying _ (by simp [addressed.2]) flies.eq_singleton (seen.trans whole) ?_ ?_ ?_
      · rintro body ready
        obtain rfl := HandlerPhase.ready.inj ready
        rw [whole] at gathered
        exact ⟨by simp [part.silent], gathered⟩
      · intro waiting
        exact absurd rfl (waiting _)
      · simp [part.unanswered]

theorem RequestPhase.step {config : RuntimeConfig} {action : RuntimeAction}
    (phase : RequestPhase fragments correlation state outputs)
    (formed : WellFormedRequest correlation fragments) (idle : state.Idle correlation)
    (accepted : ∀ event, .consumed event ∈ emitted → event.frame.has fRequest = true →
      event.frame.correlationId = correlation → event.frame.has fMore = true →
        fragmentAccepted config state event = true)
    (taken : runtimeStep config state action = some (next, emitted))
    (within : receivedOf correlation (outputs ++ emitted) <+: fragments)
    (uncancelled : ∀ event, .consumed event ∈ emitted →
      event.frame.correlationId = correlation → event.frame.has fCancel = false) :
    RequestPhase fragments correlation next (outputs ++ emitted) := by
  cases runtimeStep_effect taken with
  | quiet pc => exact phase.transport rfl (.refl _) rfl rfl rfl
  | interrupted epochChanged now => exact phase.transport rfl (.refl _) rfl rfl rfl
  | moved located same move => exact phase.moved located same move
  | delivered located room =>
      exact phase.transport rfl (ticketsOf_delivered _ located) rfl rfl rfl
  | finished pc buffered answered =>
      exact phase.finished pc buffered _
        (fun fragment member => (ModuleReply.mem_plan (answered.front.subset member)).2)
        answered.once
  | collected stopping buffered =>
      exact @RequestPhase.finished _ _ _ _ phase _ _ state.pc [] buffered _ (by simp) (by simp)
  | consumed pc handled answered silent =>
      rename_i now event attempts middle disposition sent
      have cases := consumeEvent_cases handled
      by_cases owned : event.frame.correlationId = correlation
      · have kept := uncancelled event (by simp) owned
        by_cases request : event.frame.has fRequest = true
        · rw [receivedOf_append, receivedOf_consumed, if_pos ⟨request, owned⟩, receivedOf_replied,
            List.append_nil] at within
          exact phase.consumed cases formed within kept idle
            (accepted event (by simp) request owned) answered silent
        · obtain ⟨rfl, rfl⟩ := cases.unrequested (by simpa using request) kept
          obtain rfl := silent (by simp)
          refine phase.transport rfl (.refl _) ?_ rfl rfl
          rw [receivedOf_consumed, if_neg fun mine => request mine.1]
          rfl
      · have untouched := cases.untouched owned pc
        refine phase.transport untouched.1 untouched.2.2 ?_ (by simp) ?_
        · rw [receivedOf_consumed, if_neg fun mine => owned mine.2, receivedOf_replied,
            List.append_nil]
        · rw [repliedOf_consumed]
          exact cases.unreplied owned answered silent

/-- Every request is atomic in every state of every run in which each fragment
that announces more is accepted. -/
theorem request_atomic {config : RuntimeConfig} {requests : UInt64 → List Event}
    (formed : ∀ correlation, WellFormedRequest correlation (requests correlation))
    {actions : List RuntimeAction}
    (run : ((runtimeMachine config).restrict (fragmentsAccepted config)).Run .initial actions
      state outputs)
    (sent : ∀ correlation, receivedOf correlation outputs <+: requests correlation)
    (uncancelled : ∀ event, .consumed event ∈ outputs → event.frame.has fCancel = false) :
    ∀ correlation, RequestAtomic (requests correlation) correlation outputs := by
  intro correlation
  have holds := run.invariant
    (fun _ state outputs => state.Idle correlation ∧
      (receivedOf correlation outputs <+: requests correlation →
        (∀ event, .consumed event ∈ outputs → event.frame.has fCancel = false) →
          RequestPhase (requests correlation) correlation state outputs))
    ⟨fun _ => rfl, fun _ _ => .fresh rfl rfl rfl rfl rfl⟩ ?_
  · exact (holds.2 (sent correlation) uncancelled).atomic
  · rintro actions state outputs action next emitted - ⟨idle, phase⟩ step
    obtain ⟨accepted, taken⟩ := Machine.restrict_step.mp step
    have granted : ∀ event, .consumed event ∈ emitted → event.frame.has fRequest = true →
        event.frame.correlationId = correlation → event.frame.has fMore = true →
          fragmentAccepted config state event = true := by
      intro event consumed request _ more
      obtain ⟨attempts, -, rfl, -⟩ := (runtimeStep_effect taken).polled consumed
      simpa [fragmentsAccepted, request, more] using accepted
    refine ⟨(runtimeStep_effect taken).idle idle, fun within kept => ?_⟩
    have before : receivedOf correlation outputs <+: requests correlation :=
      (receivedOf_append ▸ List.prefix_append _ _).trans within
    exact (phase before fun event member => kept event (List.mem_append_left _ member)).step
      (formed correlation) idle granted taken within
      fun event member _ => kept event (List.mem_append_right _ member)

end Requests

section Crowding

/-- A module that serves the first module kind as stage one. -/
def servingConfig : RuntimeConfig where
  stages := (∅ : StageTable).insert kindModuleBase 1
  handler := true
  inlineBudget := 64

/-- One fragment of an invocation of that stage. -/
def invokeEvent (correlation : UInt64) (body : Bytes) (more : Bool) : Event :=
  let message : ModuleMessage :=
    { operation := moduleOpInvoke, stageID := 1, bodyLen := UInt32.ofNat body.length }
  let payload := message.header ++ body
  { frame :=
      { hdrFlags := Client.fragmentFlags fRequest more ||| fInline, wireVersion := wireVersion
        eventKind := kindModuleBase, correlationId := correlation
        payloadRef := UInt64.ofNat hdrLen, payloadLen := UInt32.ofNat payload.length }
    payload }

theorem invokeEvent_flags (correlation : UInt64) (body : Bytes) (more : Bool) :
    (invokeEvent correlation body more).frame.has fRequest = true ∧
      (invokeEvent correlation body more).frame.has fMore = more ∧
      (invokeEvent correlation body more).frame.has fCancel = false := by
  simp only [invokeEvent, Frame.has]
  cases more <;> decide

/-- The first seventeen correlations carry two fragments each. -/
def crowdingRequests (correlation : UInt64) : List Event :=
  if 0 < correlation ∧ correlation < 18 then
    [invokeEvent correlation [1] true, invokeEvent correlation [2] false]
  else []

theorem crowdingRequests_formed (correlation : UInt64) :
    WellFormedRequest correlation (crowdingRequests correlation) := by
  unfold crowdingRequests
  split
  · constructor
    · intro event member
      rcases List.mem_cons.mp member with rfl | member
      · exact ⟨(invokeEvent_flags _ _ _).1, rfl⟩
      · obtain rfl := List.mem_singleton.mp member
        exact ⟨(invokeEvent_flags _ _ _).1, rfl⟩
    · refine ⟨kindModuleBase, 1, 0, 0, fun event member => ?_⟩
      rcases List.mem_cons.mp member with rfl | member
      · exact ⟨rfl, _, ModuleMessage.decode_header (by decide) (by decide), rfl, rfl, rfl, rfl⟩
      · obtain rfl := List.mem_singleton.mp member
        exact ⟨rfl, _, ModuleMessage.decode_header (by decide) (by decide), rfl, rfl, rfl, rfl⟩
    · intro _
      exact ⟨(invokeEvent_flags _ _ _).2.1, (invokeEvent_flags _ _ _).2.1⟩
  · exact ⟨nofun, ⟨0, 0, 0, 0, nofun⟩, fun nonempty => absurd rfl nonempty⟩

/-- One iteration of the loop that receives an event. -/
def iteration (event : Event) (attempts : List Attempt) : List RuntimeAction :=
  [.drained false false 0, .poll (.received event) attempts]

/-- Sixteen requests open an assembly each, the seventeenth is refused, the
first one completes, and the last fragment of the refused one arrives. -/
def crowdingActions : List RuntimeAction :=
  (List.range 16).flatMap
      (fun index => iteration (invokeEvent (UInt64.ofNat (index + 1)) [1] true) []) ++
    iteration (invokeEvent 17 [1] true) [{ result := .ok () }] ++
    iteration (invokeEvent 1 [2] false) [] ++ iteration (invokeEvent 17 [2] false) [] ++ [.invoke 1]

def crowdedOutputs : List RuntimeOutput :=
  (List.range 16).map
      (fun index => .consumed (invokeEvent (UInt64.ofNat (index + 1)) [1] true)) ++
    [.consumed (invokeEvent 17 [1] true),
      .replied (ModuleReply.fragment ⟨kindModuleBase, 17, 1, 0, moduleStatusInternal, []⟩
        ([], false)),
      .consumed (invokeEvent 1 [2] false), .consumed (invokeEvent 17 [2] false),
      .invoked ⟨kindModuleBase, 17, ⟨1, 0, 0, 1⟩, 1⟩ [2]]

/-- A request refused at its first fragment comes back as its tail: the handler
is invoked with the last body byte of a request that was already answered. -/
theorem request_not_atomic_crowded :
    (∀ correlation, WellFormedRequest correlation (crowdingRequests correlation)) ∧
      ∃ state, (runtimeMachine servingConfig).Run .initial crowdingActions state crowdedOutputs ∧
        (∀ correlation, receivedOf correlation crowdedOutputs <+: crowdingRequests correlation) ∧
        (∀ event, .consumed event ∈ crowdedOutputs → event.frame.has fCancel = false) ∧
        finalsOf 17 crowdedOutputs = 1 ∧ invokedOf 17 crowdedOutputs = [[2]] ∧
        requestBody (crowdingRequests 17) = [1, 2] ∧
        ¬ RequestAtomic (crowdingRequests 17) 17 crowdedOutputs := by
  have executed : ((runtimeMachine servingConfig).execute .initial crowdingActions).map Prod.snd =
      some crowdedOutputs := by decide +kernel
  have kept : (crowdedOutputs.all fun
      | .consumed event => !event.frame.has fCancel && event.frame.correlationId.toNat < 18
      | _ => true) = true := by decide +kernel
  have kept : ∀ event, .consumed event ∈ crowdedOutputs →
      event.frame.has fCancel = false ∧ event.frame.correlationId.toNat < 18 := by
    intro event member
    simpa using List.all_eq_true.mp kept _ member
  have listed : ∀ index < 18, receivedOf (UInt64.ofNat index) crowdedOutputs <+:
      crowdingRequests (UInt64.ofNat index) := by decide +kernel
  have tail : invokedOf 17 crowdedOutputs = [[2]] := by decide +kernel
  have whole : requestBody (crowdingRequests 17) = [1, 2] := by decide +kernel
  obtain ⟨⟨state, outputs⟩, ran, rfl⟩ := Option.map_eq_some_iff.mp executed
  refine ⟨crowdingRequests_formed, state, Machine.run_of_execute ran, fun correlation => ?_,
    fun event member => (kept event member).1, by decide +kernel, tail, whole, fun atomic => ?_⟩
  · by_cases small : correlation.toNat < 18
    · simpa using listed correlation.toNat small
    · have none_ : receivedOf correlation crowdedOutputs = [] := by
        refine List.filterMap_eq_nil_iff.mpr fun output member => ?_
        cases output with
        | consumed event =>
            have foreign : event.frame.correlationId ≠ correlation := by
              rintro rfl
              exact small (kept event member).2
            simp [foreign]
        | _ => rfl
      rw [none_]
      exact List.nil_prefix
  · have mistaken := (atomic.complete [2] (by simp [tail])).2
    rw [whole] at mistaken
    exact absurd mistaken (by decide)

/-- A request of two fragments that finds room is handed over whole. -/
theorem request_atomic_pair :
    ∃ state outputs, ((runtimeMachine servingConfig).restrict
        (fragmentsAccepted servingConfig)).Run .initial
          (iteration (invokeEvent 1 [1] true) [] ++ iteration (invokeEvent 1 [2] false) [] ++
            [.invoke 0]) state outputs ∧
      invokedOf 1 outputs = [[1, 2]] ∧
        ∀ correlation, RequestAtomic (crowdingRequests correlation) correlation outputs := by
  have executed : (((runtimeMachine servingConfig).restrict
      (fragmentsAccepted servingConfig)).execute .initial
        (iteration (invokeEvent 1 [1] true) [] ++ iteration (invokeEvent 1 [2] false) [] ++
          [.invoke 0])).map Prod.snd =
      some [.consumed (invokeEvent 1 [1] true), .consumed (invokeEvent 1 [2] false),
        .invoked ⟨kindModuleBase, 1, ⟨1, 0, 0, 0⟩, 0⟩ [1, 2]] := by decide +kernel
  obtain ⟨⟨state, outputs⟩, ran, rfl⟩ := Option.map_eq_some_iff.mp executed
  refine ⟨state, _, Machine.run_of_execute ran, by decide +kernel,
    request_atomic crowdingRequests_formed (Machine.run_of_execute ran) (fun correlation => ?_)
      (by simp [invokeEvent_flags])⟩
  by_cases mine : correlation = 1
  · subst mine
    decide +kernel
  · have none_ : receivedOf correlation [.consumed (invokeEvent 1 [1] true),
        .consumed (invokeEvent 1 [2] false),
        .invoked ⟨kindModuleBase, 1, ⟨1, 0, 0, 0⟩, 0⟩ [1, 2]] = [] := by
      have foreign : (1 : UInt64) ≠ correlation := Ne.symm mine
      simp [receivedOf, invokeEvent, foreign]
    rw [none_]
    exact List.nil_prefix

end Crowding

end AimeeLearning.Bus
