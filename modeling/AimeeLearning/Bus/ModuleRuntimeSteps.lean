import AimeeLearning.Bus.ModuleRuntime

/-! What one step of the module runtime can do. A started job is followed as a
ticket from its goroutine through the done channel, so every other argument
about the runtime is a short case analysis over these effects. -/

set_option autoImplicit false

namespace AimeeLearning.Bus

open Library

section Replies

/-- The payload of one piece of a reply. -/
def ModuleReply.fragment (reply : ModuleReply) (piece : Bytes × Bool) : SentFragment :=
  ⟨reply.kind, reply.correlation, (reply.message piece.1.length).header ++ piece.1, piece.2⟩

/-- The fragments a reply is sent as. -/
def ModuleReply.plan (inlineBudget : UInt32) (reply : ModuleReply) : List SentFragment :=
  (pieces (inlineBudget.toNat - moduleMessageHeaderLen)
    (settleResult reply.status reply.body).2).map reply.fragment

theorem replyPieces_sent {reply : ModuleReply} {parts : List (Bytes × Bool)}
    {attempts : List Attempt} {sent : List SentFragment} {result : Except RuntimeError Unit}
    (replied : replyPieces reply parts attempts = some (sent, result)) :
    sent <+: parts.map reply.fragment ∧
      (result = .ok () → sent = parts.map reply.fragment) := by
  induction parts generalizing attempts sent with
  | nil =>
      simp only [replyPieces, Option.some.injEq, Prod.mk.injEq] at replied
      obtain ⟨rfl, rfl⟩ := replied
      exact ⟨List.nil_prefix, fun _ => rfl⟩
  | cons piece rest ih =>
      obtain ⟨part, more⟩ := piece
      simp only [replyPieces] at replied
      split at replied
      · simp only [Option.some.injEq, Prod.mk.injEq] at replied
        obtain ⟨rfl, rfl⟩ := replied
        exact ⟨List.nil_prefix, by simp⟩
      · rename_i written header encoded
        have filled : header = patch (List.replicate (moduleMessageHeaderLen + part.length) 0) 0
            (reply.message part.length).header := by
          unfold ModuleMessage.encode at encoded
          split at encoded
          · cases encoded
          · exact (Prod.mk.inj (Except.ok.inj encoded)).2.symm
        have payload : patch header moduleMessageHeaderLen part =
            (reply.message part.length).header ++ part := by
          rw [filled, ← ModuleMessage.length_header (reply.message part.length), patch_patch]
          simp
        rw [payload] at replied
        split at replied
        · cases replied
        · simp only [Option.some.injEq, Prod.mk.injEq] at replied
          obtain ⟨rfl, rfl⟩ := replied
          exact ⟨List.nil_prefix, by simp⟩
        · obtain ⟨⟨later, last⟩, sentRest, same⟩ := Option.map_eq_some_iff.mp replied
          simp only [Prod.mk.injEq] at same
          obtain ⟨rfl, rfl⟩ := same
          obtain ⟨front, complete⟩ := ih sentRest
          refine ⟨List.cons_prefix_cons.mpr ⟨rfl, front⟩, fun fine => ?_⟩
          rw [complete fine]
          rfl

theorem replyModuleResult_sent {inlineBudget : UInt32} {reply : ModuleReply}
    {attempts : List Attempt} {sent : List SentFragment} {result : Except RuntimeError Unit}
    (replied : replyModuleResult inlineBudget reply attempts = some (sent, result)) :
    sent <+: reply.plan inlineBudget ∧ (result = .ok () → sent = reply.plan inlineBudget) := by
  unfold replyModuleResult at replied
  split at replied
  · simp only [Option.some.injEq, Prod.mk.injEq] at replied
    obtain ⟨rfl, rfl⟩ := replied
    exact ⟨List.nil_prefix, by simp⟩
  · exact replyPieces_sent replied

theorem replyModuleResult_budget {inlineBudget : UInt32} {reply : ModuleReply}
    {attempts : List Attempt} {sent : List SentFragment} {result : Except RuntimeError Unit}
    (replied : replyModuleResult inlineBudget reply attempts = some (sent, result)) :
    moduleMessageHeaderLen < inlineBudget.toNat ∨ sent = [] := by
  unfold replyModuleResult at replied
  split at replied
  · simp only [Option.some.injEq, Prod.mk.injEq] at replied
    exact .inr replied.1.symm
  · exact .inl (by omega)

theorem ModuleReply.mem_plan {inlineBudget : UInt32} {reply : ModuleReply}
    {fragment : SentFragment} (member : fragment ∈ reply.plan inlineBudget) :
    fragment.kind = reply.kind ∧ fragment.correlation = reply.correlation := by
  obtain ⟨piece, -, rfl⟩ := List.mem_map.mp member
  exact ⟨rfl, rfl⟩

/-- A plan ends a reply exactly once. -/
theorem ModuleReply.plan_finals {inlineBudget : UInt32} (reply : ModuleReply)
    (room : moduleMessageHeaderLen < inlineBudget.toNat) :
    (reply.plan inlineBudget).countP (fun fragment => !fragment.more) = 1 := by
  have closed := pieces_closedBy (settleResult reply.status reply.body).2
    (show 0 < inlineBudget.toNat - moduleMessageHeaderLen by omega)
  rw [ModuleReply.plan, List.countP_map]
  exact closed.countP

theorem replyModuleResult_finals {inlineBudget : UInt32} {reply : ModuleReply}
    {attempts : List Attempt} {sent : List SentFragment} {result : Except RuntimeError Unit}
    (replied : replyModuleResult inlineBudget reply attempts = some (sent, result)) :
    sent.countP (fun fragment => !fragment.more) ≤ 1 := by
  rcases replyModuleResult_budget replied with room | rfl
  · rw [← reply.plan_finals room]
    exact (replyModuleResult_sent replied).1.sublist.countP_le
  · simp

/-- Attempts that fail only because the ring is full. -/
def patient (attempts : List Attempt) : Bool :=
  attempts.all fun attempt =>
    match attempt.result with
    | .ok () => true
    | .error .errWouldBlock => !attempt.ctxDone && !attempt.epochChanged
    | .error _ => false

theorem sendFragment_patient {attempts : List Attempt} {result : Except RuntimeError (List Attempt)}
    (calm : patient attempts = true) (tried : sendFragment attempts = some result) :
    ∃ remaining, result = .ok remaining ∧ patient remaining = true := by
  induction attempts with
  | nil => cases tried
  | cons attempt rest ih =>
      simp only [patient, List.all_cons, Bool.and_eq_true] at calm
      obtain ⟨here, later⟩ := calm
      obtain ⟨outcome, ctxDone, epochChanged, now⟩ := attempt
      cases outcome with
      | ok fine =>
          obtain rfl := Option.some.inj tried
          exact ⟨rest, rfl, later⟩
      | error failure =>
          cases failure with
          | errWouldBlock =>
              simp only [Bool.and_eq_true, Bool.not_eq_true'] at here
              obtain ⟨rfl, rfl⟩ := here
              exact ih later tried
          | _ => cases here

theorem settleResult_sound (status : ModuleStatus) (body : Bytes) :
    validModuleStatus (settleResult status body).1 = true ∧
      (settleResult status body).2.length ≤ moduleMessageMaxBody.toNat := by
  unfold settleResult
  split
  · exact ⟨by decide, by simp⟩
  · rename_i sound
    simp only [Bool.or_eq_true, Bool.not_eq_true', decide_eq_true_eq, not_or,
      Bool.not_eq_false, not_lt] at sound
    split
    · exact ⟨sound.1, by simp⟩
    · exact sound

theorem ModuleReply.message_valid (reply : ModuleReply) {part : Nat} (staged : reply.stageID ≠ 0)
    (small : part ≤ moduleMessageMaxBody.toNat) : (reply.message part).valid = true := by
  have limit : moduleMessageMaxBody.toNat < 2 ^ 32 := moduleMessageMaxBody.toNat_lt
  have status := (settleResult_sound reply.status reply.body).1
  have length : UInt32.ofNat part ≤ moduleMessageMaxBody := by
    rw [UInt32.le_iff_toNat_le, UInt32.toNat_ofNat', Nat.mod_eq_of_lt (by omega)]
    exact small
  exact ModuleMessage.valid_iff.mpr
    ⟨.inr rfl, by simpa [validModuleStatus, ModuleReply.message] using status, nofun, staged, rfl,
      length⟩

theorem replyPieces_patient {reply : ModuleReply} {parts : List (Bytes × Bool)}
    {attempts : List Attempt} {sent : List SentFragment} {result : Except RuntimeError Unit}
    (replied : replyPieces reply parts attempts = some (sent, result))
    (calm : patient attempts = true) (staged : reply.stageID ≠ 0)
    (small : ∀ piece ∈ parts, piece.1.length ≤ moduleMessageMaxBody.toNat) :
    result = .ok () := by
  induction parts generalizing attempts sent with
  | nil =>
      simp only [replyPieces, Option.some.injEq, Prod.mk.injEq] at replied
      exact replied.2.symm
  | cons piece rest ih =>
      obtain ⟨part, more⟩ := piece
      have valid := reply.message_valid staged (small (part, more) List.mem_cons_self)
      simp only [replyPieces, ModuleMessage.encode, valid] at replied
      simp only [List.length_replicate, Bool.not_true, Bool.or_false, decide_eq_true_eq] at replied
      rw [if_neg (by omega)] at replied
      cases tried : sendFragment attempts with
      | none => simp [tried] at replied
      | some outcome =>
          obtain ⟨remaining, rfl, later⟩ := sendFragment_patient calm tried
          simp only [tried, Option.map_eq_some_iff, Prod.mk.injEq] at replied
          obtain ⟨⟨final, last⟩, again, -, rfl⟩ := replied
          exact ih again later fun other member => small other (List.mem_cons_of_mem _ member)

theorem replyModuleResult_patient {inlineBudget : UInt32} {reply : ModuleReply}
    {attempts : List Attempt} {sent : List SentFragment} {result : Except RuntimeError Unit}
    (replied : replyModuleResult inlineBudget reply attempts = some (sent, result))
    (calm : patient attempts = true) (staged : reply.stageID ≠ 0)
    (room : moduleMessageHeaderLen < inlineBudget.toNat) : result = .ok () := by
  rw [replyModuleResult, if_neg (by omega)] at replied
  refine replyPieces_patient replied calm staged fun piece member => ?_
  have bound := (settleResult_sound reply.status reply.body).2
  exact (pieces_length _ (by omega) piece member).2.1.trans bound

end Replies

section Tickets

def ModuleResult.ticket (result : ModuleResult) : HandlerRun :=
  ⟨result.work, .checked result.body result.status⟩

/-- The jobs that are started and not collected. -/
def RuntimeState.tickets (state : RuntimeState) : List HandlerRun :=
  state.running ++ state.done.map ModuleResult.ticket

def RuntimeState.ticketsOf (state : RuntimeState) (correlation : UInt64) : List HandlerRun :=
  state.tickets.filter fun ticket => ticket.work.correlationID == correlation

/-- What a ticket does when its goroutine takes a step. -/
inductive HandlerMove (flags : List Bool) (work : ModuleWork) :
    HandlerPhase → HandlerPhase → List RuntimeOutput → Prop
  | invoke (body : Bytes) : HandlerMove flags work (.ready body) .calling [.invoked work body]
  | handlerReturns (response : Bytes) (status : ModuleStatus) :
      HandlerMove flags work .calling
        (.answered (settleResult status response).2 (settleResult status response).1)
        [.answered work response status]
  | checkCancelled (now : UInt64) (body : Bytes) (status : ModuleStatus) :
      HandlerMove flags work (.answered body status)
        (.checked (overrideResult work (flagOf flags work) now status body).2
          (overrideResult work (flagOf flags work) now status body).1) []

theorem HandlerMove.unconsumed {flags : List Bool} {work : ModuleWork} {phase next : HandlerPhase}
    {emitted : List RuntimeOutput} (move : HandlerMove flags work phase next emitted)
    (event : Event) : .consumed event ∉ emitted := by
  cases move <;> simp

theorem handlerStep_move {flags : List Bool} {run next : HandlerRun} {action : RuntimeAction}
    {emitted : List RuntimeOutput} (moved : handlerStep flags run action = some (next, emitted)) :
    next.work = run.work ∧ HandlerMove flags run.work run.phase next.phase emitted := by
  obtain ⟨work, phase⟩ := run
  cases action with
  | invoke position =>
      cases phase <;> simp only [handlerStep, Option.some.injEq, Prod.mk.injEq, reduceCtorEq]
        at moved
      obtain ⟨rfl, rfl⟩ := moved
      exact ⟨rfl, .invoke _⟩
  | handlerReturns position response status =>
      cases phase <;> simp only [handlerStep, Option.some.injEq, Prod.mk.injEq, reduceCtorEq]
        at moved
      obtain ⟨rfl, rfl⟩ := moved
      exact ⟨rfl, .handlerReturns response status⟩
  | checkCancelled position now =>
      cases phase <;> simp only [handlerStep, Option.some.injEq, Prod.mk.injEq, reduceCtorEq]
        at moved
      obtain ⟨rfl, rfl⟩ := moved
      exact ⟨rfl, .checkCancelled now _ _⟩
  | _ => simp [handlerStep] at moved

end Tickets

/-- The part of a reply that was sent when the loop's counter became `pc`. -/
structure ReplySent (config : RuntimeConfig) (reply : ModuleReply) (attempts : List Attempt)
    (pc : LoopPc) (sent : List SentFragment) : Prop where
  front : sent <+: reply.plan config.inlineBudget
  once : sent.countP (fun fragment => !fragment.more) ≤ 1
  whole : pc = .draining → sent = reply.plan config.inlineBudget
  prompt : patient attempts = true → reply.stageID ≠ 0 →
    moduleMessageHeaderLen < config.inlineBudget.toNat → pc = .draining

/-- The effects a step can have on the tables, whatever the loop's counter. -/
inductive RuntimeEffect (config : RuntimeConfig) (state : RuntimeState) :
    RuntimeAction → RuntimeState → List RuntimeOutput → Prop
  | quiet {action : RuntimeAction} (pc : LoopPc) :
      RuntimeEffect config state action { state with pc } []
  | interrupted (epochChanged : Bool) (now : UInt64) :
      RuntimeEffect config state (.drained true epochChanged now)
        { state with pc := .stopping, flags := cancelAll state } []
  | moved {action : RuntimeAction} {front back : List HandlerRun} {run next : HandlerRun}
      {emitted : List RuntimeOutput} (located : state.running = front ++ run :: back)
      (same : next.work = run.work)
      (move : HandlerMove state.flags run.work run.phase next.phase emitted) :
      RuntimeEffect config state action { state with running := front ++ next :: back } emitted
  | delivered {action : RuntimeAction} {front back : List HandlerRun} {result : ModuleResult}
      (located : state.running = front ++ result.ticket :: back)
      (room : state.done.length < moduleMaxInFlight) :
      RuntimeEffect config state action
        { state with running := front ++ back, done := state.done ++ [result] } []
  | finished {attempts : List Attempt} {result : ModuleResult} {rest : List ModuleResult}
      {sent : List SentFragment} (pc : LoopPc) (buffered : state.done = result :: rest)
      (answered : ReplySent config result.reply attempts pc sent) :
      RuntimeEffect config state (.receive attempts)
        { state with pc, done := rest, jobs := state.jobs.erase result.work.correlationID }
        (sent.map .replied)
  | collected {result : ModuleResult} {rest : List ModuleResult} (stopping : state.pc = .stopping)
      (buffered : state.done = result :: rest) :
      RuntimeEffect config state .collect
        { state with done := rest, jobs := state.jobs.erase result.work.correlationID } []
  | consumed {now : UInt64} {event : Event} {attempts : List Attempt} {middle : RuntimeState}
      {disposition : Disposition} {sent : List SentFragment} (pc : LoopPc)
      (handled : consumeEvent config state now event = (middle, disposition))
      (answered : ∀ reply, disposition = .reply reply → ReplySent config reply attempts pc sent)
      (silent : (∀ reply, disposition ≠ .reply reply) → sent = []) :
      RuntimeEffect config state (.poll (.received event) attempts) { middle with pc }
        (.consumed event :: sent.map .replied)

theorem RuntimeEffect.polled {config : RuntimeConfig} {state next : RuntimeState}
    {action : RuntimeAction} {emitted : List RuntimeOutput} {event : Event}
    (effect : RuntimeEffect config state action next emitted)
    (consumed : .consumed event ∈ emitted) :
    ∃ (attempts : List Attempt) (sent : List SentFragment),
      action = .poll (.received event) attempts ∧
      emitted = .consumed event :: sent.map .replied := by
  cases effect with
  | quiet pc => cases consumed
  | interrupted epochChanged now => cases consumed
  | moved located same move => exact absurd consumed (move.unconsumed event)
  | delivered located room => cases consumed
  | finished pc buffered answered => simp at consumed
  | collected stopping buffered => cases consumed
  | consumed pc handled answered silent =>
      rename_i sent
      obtain rfl : event = _ := by simpa using consumed
      exact ⟨_, sent, rfl, rfl⟩

theorem answer_sent {config : RuntimeConfig} {state next : RuntimeState} {reply : ModuleReply}
    {attempts : List Attempt} {emitted : List RuntimeOutput}
    (answered : answer config state reply attempts = some (next, emitted)) :
    ∃ pc sent, next = { state with pc } ∧ emitted = sent.map .replied ∧
      ReplySent config reply attempts pc sent := by
  obtain ⟨⟨sent, result⟩, replied, same⟩ := Option.map_eq_some_iff.mp answered
  simp only [Prod.mk.injEq] at same
  obtain ⟨rfl, rfl⟩ := same
  obtain ⟨front, complete⟩ := replyModuleResult_sent replied
  refine ⟨_, sent, rfl, rfl, front, replyModuleResult_finals replied, fun continued => ?_,
    fun calm staged room => ?_⟩
  · cases result with
    | ok fine => exact complete rfl
    | error failure => cases continued
  · obtain rfl := replyModuleResult_patient replied calm staged room
    rfl

theorem pollStep_effect {config : RuntimeConfig} {state next : RuntimeState} {now : UInt64}
    {attempts : List Attempt} {outcome : Client.PollOutcome} {emitted : List RuntimeOutput}
    (taken : pollStep config state now attempts outcome = some (next, emitted)) :
    RuntimeEffect config state (.poll outcome attempts) next emitted := by
  cases outcome with
  | panicked =>
      simp only [pollStep, Option.some.injEq, Prod.mk.injEq] at taken
      obtain ⟨rfl, rfl⟩ := taken
      exact .quiet _
  | failed failure =>
      cases failure <;>
        (simp only [pollStep, Option.some.injEq, Prod.mk.injEq] at taken
         obtain ⟨rfl, rfl⟩ := taken
         exact .quiet _)
  | empty =>
      simp only [pollStep, Option.some.injEq, Prod.mk.injEq] at taken
      obtain ⟨rfl, rfl⟩ := taken
      exact .quiet _
  | received event =>
      simp only [pollStep] at taken
      split at taken
      · rename_i middle reply handled
        obtain ⟨⟨final, sent⟩, answered, same⟩ := Option.map_eq_some_iff.mp taken
        simp only [Prod.mk.injEq] at same
        obtain ⟨rfl, rfl⟩ := same
        obtain ⟨pc, fragments, rfl, rfl, whole⟩ := answer_sent answered
        refine .consumed pc handled ?_ fun silent => absurd rfl (silent reply)
        rintro other same
        obtain rfl := Disposition.reply.inj same
        exact whole
      · rename_i middle disposition silent handled
        simp only [Option.some.injEq, Prod.mk.injEq] at taken
        obtain ⟨rfl, rfl⟩ := taken
        refine @RuntimeEffect.consumed _ _ now event _ _ _ [] .draining handled ?_ fun _ => rfl
        rintro reply rfl
        exact absurd rfl (silent reply)

theorem advance_effect {config : RuntimeConfig} {state next : RuntimeState} {position : Nat}
    {action : RuntimeAction} {emitted : List RuntimeOutput}
    (taken : state.advance position (handlerStep state.flags · action) = some (next, emitted)) :
    RuntimeEffect config state action next emitted := by
  unfold RuntimeState.advance at taken
  split at taken
  · cases taken
  · rename_i run rest located
    obtain ⟨⟨after, sent⟩, moved, same⟩ := Option.map_eq_some_iff.mp taken
    simp only [Prod.mk.injEq] at same
    obtain ⟨rfl, rfl⟩ := same
    obtain ⟨kept, move⟩ := handlerStep_move moved
    refine .moved ?_ kept move
    rw [← located, List.take_append_drop]

theorem deliverStep_effect {config : RuntimeConfig} {state next : RuntimeState} {position : Nat}
    {action : RuntimeAction} {emitted : List RuntimeOutput}
    (taken : deliverStep state position = some (next, emitted)) :
    RuntimeEffect config state action next emitted := by
  unfold deliverStep at taken
  split at taken
  · cases taken
  · rename_i run rest located
    split at taken
    · rename_i body status checked
      split at taken
      · rename_i room
        simp only [Option.some.injEq, Prod.mk.injEq] at taken
        obtain ⟨rfl, rfl⟩ := taken
        have split := List.take_append_drop position state.running
        rw [located] at split
        refine .delivered ?_ room
        rw [ModuleResult.ticket, ← checked]
        exact split.symm
      · cases taken
    · cases taken

theorem runtimeStep_effect {config : RuntimeConfig} {state next : RuntimeState}
    {action : RuntimeAction} {emitted : List RuntimeOutput}
    (taken : runtimeStep config state action = some (next, emitted)) :
    RuntimeEffect config state action next emitted := by
  unfold runtimeStep at taken
  split at taken
  · split at taken
    · cases taken
    · rename_i result rest buffered
      obtain ⟨pc, sent, rfl, rfl, answered⟩ := answer_sent taken
      exact .finished pc buffered answered
  · split at taken
    · cases taken
    · split at taken
      · rename_i ctxDone epochChanged now _ _ ended
        obtain rfl : ctxDone = true := ended
        simp only [Option.some.injEq, Prod.mk.injEq] at taken
        obtain ⟨rfl, rfl⟩ := taken
        exact .interrupted epochChanged now
      · split at taken <;>
          (simp only [Option.some.injEq, Prod.mk.injEq] at taken
           obtain ⟨rfl, rfl⟩ := taken
           exact .quiet _)
  · exact pollStep_effect taken
  · exact advance_effect taken
  · exact advance_effect taken
  · exact advance_effect taken
  · exact deliverStep_effect taken
  · rename_i stopping
    split at taken
    · cases taken
    · rename_i result rest buffered
      split at taken
      · simp only [Option.some.injEq, Prod.mk.injEq] at taken
        obtain ⟨rfl, rfl⟩ := taken
        exact .collected stopping buffered
      · cases taken
  · split at taken
    · cases taken
    · simp only [Option.some.injEq, Prod.mk.injEq] at taken
      obtain ⟨rfl, rfl⟩ := taken
      exact .quiet _
  · cases taken

section TicketsOf

variable {state : RuntimeState} {correlation : UInt64}

theorem ticketsOf_perm {next : RuntimeState} (same : next.tickets.Perm state.tickets) :
    (next.ticketsOf correlation).Perm (state.ticketsOf correlation) :=
  same.filter _

theorem ticketsOf_moved (correlation : UInt64) {front back : List HandlerRun}
    {run next : HandlerRun} (located : state.running = front ++ run :: back) (same : next.work = run.work) :
    ∃ before after : List HandlerRun,
      state.ticketsOf correlation =
        before ++ (if run.work.correlationID = correlation then [run] else []) ++ after ∧
      ({ state with running := front ++ next :: back } : RuntimeState).ticketsOf correlation =
        before ++ (if run.work.correlationID = correlation then [next] else []) ++ after := by
  refine ⟨front.filter fun ticket => ticket.work.correlationID == correlation,
    (back ++ state.done.map ModuleResult.ticket).filter
      fun ticket => ticket.work.correlationID == correlation, ?_, ?_⟩
  · by_cases owned : run.work.correlationID = correlation <;>
      simp [RuntimeState.ticketsOf, RuntimeState.tickets, located, List.filter_append, owned]
  · by_cases owned : run.work.correlationID = correlation <;>
      simp [RuntimeState.ticketsOf, RuntimeState.tickets, List.filter_append, same, owned]

theorem ticketsOf_delivered (correlation : UInt64) {front back : List HandlerRun}
    {result : ModuleResult} (located : state.running = front ++ result.ticket :: back) :
    (({ state with running := front ++ back, done := state.done ++ [result] } :
      RuntimeState).ticketsOf correlation).Perm (state.ticketsOf correlation) := by
  apply ticketsOf_perm
  simp only [RuntimeState.tickets, located, List.map_append, List.map_cons, List.map_nil,
    List.append_assoc, List.cons_append]
  refine List.Perm.append_left front ?_
  rw [← List.append_assoc]
  exact List.perm_append_singleton _ _

/-- Receiving a result takes exactly its ticket. -/
theorem ticketsOf_finished (correlation : UInt64) {result : ModuleResult}
    {rest : List ModuleResult} (buffered : state.done = result :: rest)
    (jobs : AList fun _ : UInt64 => ModuleWork) (pc : LoopPc) :
    (state.ticketsOf correlation).Perm
      ((if result.work.correlationID = correlation then [result.ticket] else []) ++
        ({ state with pc, done := rest, jobs } : RuntimeState).ticketsOf correlation) := by
  have taken : state.tickets.Perm (result.ticket ::
      ({ state with pc, done := rest, jobs } : RuntimeState).tickets) := by
    simp only [RuntimeState.tickets, buffered, List.map_cons]
    exact List.perm_middle
  refine (taken.filter fun ticket => ticket.work.correlationID == correlation).trans ?_
  by_cases owned : result.work.correlationID = correlation <;>
    simp [RuntimeState.ticketsOf, ModuleResult.ticket, owned]

theorem ticketsOf_started (state : RuntimeState) (correlation : UInt64) (run : HandlerRun)
    (assemblies : AList fun _ : UInt64 => ModuleAssembly)
    (jobs : AList fun _ : UInt64 => ModuleWork) (flags : List Bool) (pc : LoopPc) :
    (({ state with pc, assemblies, jobs, flags, running := state.running ++ [run] } :
      RuntimeState).ticketsOf correlation).Perm
        ((if run.work.correlationID = correlation then [run] else []) ++
          state.ticketsOf correlation) := by
  have added : ({ state with pc, assemblies, jobs, flags, running := state.running ++ [run] } :
      RuntimeState).tickets.Perm (run :: state.tickets) := by
    simp only [RuntimeState.tickets, List.append_assoc, List.cons_append, List.nil_append]
    exact List.perm_middle
  refine (added.filter fun ticket => ticket.work.correlationID == correlation).trans ?_
  by_cases owned : run.work.correlationID = correlation <;>
    simp [RuntimeState.ticketsOf, owned]

end TicketsOf

section Consumption

variable {config : RuntimeConfig} {state : RuntimeState} {now : UInt64} {event : Event}

/-- The assembly an admitted fragment extends: the open one, or a new one while
the table has room. -/
def OpenedFor (state : RuntimeState) (event : Event) (message : ModuleMessage)
    (assembly : ModuleAssembly) : Prop :=
  state.assemblies.lookup event.frame.correlationId = some assembly ∨
    state.assemblies.lookup event.frame.correlationId = none ∧
      state.assemblies.keys.length < moduleMaxInFlight ∧
      assembly = ⟨event.frame.eventKind, message, []⟩

def startedWork (config : RuntimeConfig) (state : RuntimeState) (event : Event)
    (message : ModuleMessage) : ModuleWork :=
  ⟨event.frame.eventKind, event.frame.correlationId,
    ⟨config.stages.stageOf event.frame.eventKind, message.deadlineNS, message.traceID,
      state.flags.length⟩, state.flags.length⟩

/-- What the body of the loop does with an event. -/
inductive Consumption (config : RuntimeConfig) (state : RuntimeState) (now : UInt64)
    (event : Event) : RuntimeState → Disposition → Prop
  | cancelled (flags : List Bool) (cancel : event.frame.has fCancel = true)
      (flagged : flags = ((state.jobs.lookup event.frame.correlationId).map
        (setFlag state.flags)).getD state.flags) :
      Consumption config state now event { state with
        flags, assemblies := state.assemblies.erase event.frame.correlationId } .proceed
  | ignored (kept : event.frame.has fCancel = false) (other : event.frame.has fRequest = false) :
      Consumption config state now event state .proceed
  | invalid (kept : event.frame.has fCancel = false) (request : event.frame.has fRequest = true)
      (inadmissible : admitRequest config state event = none) :
      Consumption config state now event { state with
        assemblies := state.assemblies.erase event.frame.correlationId }
        (.reply (invalidModuleRequest event (config.stages.stageOf event.frame.eventKind) 0))
  | full (kept : event.frame.has fCancel = false) (request : event.frame.has fRequest = true)
      (message : ModuleMessage) (admitted : admitRequest config state event = some message)
      (fresh : state.assemblies.lookup event.frame.correlationId = none)
      (crowded : moduleMaxInFlight ≤ state.assemblies.keys.length) :
      Consumption config state now event state (refuse config event message moduleStatusInternal)
  | oversized (kept : event.frame.has fCancel = false) (request : event.frame.has fRequest = true)
      (message : ModuleMessage) (assembly : ModuleAssembly)
      (admitted : admitRequest config state event = some message)
      (opened : OpenedFor state event message assembly)
      (tooLong : moduleMessageMaxBody.toNat <
        assembly.body.length + (message.body event.payload).length) :
      Consumption config state now event { state with
        assemblies := state.assemblies.erase event.frame.correlationId }
        (refuse config event message moduleStatusInternal)
  | extended (kept : event.frame.has fCancel = false) (request : event.frame.has fRequest = true)
      (message : ModuleMessage) (assembly : ModuleAssembly)
      (admitted : admitRequest config state event = some message)
      (opened : OpenedFor state event message assembly)
      (holds : assembly.body.length + (message.body event.payload).length ≤
        moduleMessageMaxBody.toNat)
      (more : event.frame.has fMore = true) :
      Consumption config state now event { state with
        assemblies := state.assemblies.insert event.frame.correlationId
          { assembly with body := assembly.body ++ message.body event.payload } } .proceed
  | refused (kept : event.frame.has fCancel = false) (request : event.frame.has fRequest = true)
      (message : ModuleMessage) (assembly : ModuleAssembly) (status : ModuleStatus)
      (admitted : admitRequest config state event = some message)
      (opened : OpenedFor state event message assembly)
      (last : event.frame.has fMore = false)
      (reason : message.deadlineExpired now = true ∨ config.handler = false ∨
        moduleMaxInFlight ≤ state.jobs.keys.length) :
      Consumption config state now event { state with
        assemblies := state.assemblies.erase event.frame.correlationId }
        (refuse config event message status)
  | started (kept : event.frame.has fCancel = false) (request : event.frame.has fRequest = true)
      (message : ModuleMessage) (assembly : ModuleAssembly)
      (admitted : admitRequest config state event = some message)
      (opened : OpenedFor state event message assembly)
      (holds : assembly.body.length + (message.body event.payload).length ≤
        moduleMessageMaxBody.toNat)
      (last : event.frame.has fMore = false)
      (room : state.jobs.keys.length < moduleMaxInFlight) :
      Consumption config state now event { state with
        assemblies := state.assemblies.erase event.frame.correlationId
        flags := state.flags ++ [false]
        jobs := state.jobs.insert event.frame.correlationId
          (startedWork config state event message)
        running := state.running ++ [⟨startedWork config state event message,
          .ready (assembly.body ++ message.body event.payload)⟩] }
        (.start (startedWork config state event message)
          (assembly.body ++ message.body event.payload))

private theorem extendAssembly_cases {message : ModuleMessage} {assembly : ModuleAssembly}
    (kept : event.frame.has fCancel = false) (request : event.frame.has fRequest = true)
    (admitted : admitRequest config state event = some message)
    (opened : OpenedFor state event message assembly) {middle : RuntimeState}
    {disposition : Disposition}
    (handled : extendAssembly config state now event message assembly = (middle, disposition)) :
    Consumption config state now event middle disposition := by
  simp only [extendAssembly] at handled
  split at handled
  · rename_i tooLong
    obtain ⟨rfl, rfl⟩ := Prod.mk.inj handled
    exact .oversized kept request message assembly admitted opened tooLong
  · rename_i holds
    split at handled
    · rename_i more
      obtain ⟨rfl, rfl⟩ := Prod.mk.inj handled
      exact .extended kept request message assembly admitted opened (not_lt.mp holds) more
    · rename_i last
      have last : event.frame.has fMore = false := by simpa using last
      simp only [completeRequest] at handled
      split at handled
      · rename_i expired
        obtain ⟨rfl, rfl⟩ := Prod.mk.inj handled
        exact .refused kept request message assembly _ admitted opened last (.inl expired)
      · split at handled
        · rename_i handlerless
          obtain ⟨rfl, rfl⟩ := Prod.mk.inj handled
          refine .refused kept request message assembly _ admitted opened last (.inr (.inl ?_))
          simpa using handlerless
        · split at handled
          · rename_i crowded
            obtain ⟨rfl, rfl⟩ := Prod.mk.inj handled
            exact .refused kept request message assembly _ admitted opened last
              (.inr (.inr crowded))
          · rename_i room
            obtain ⟨rfl, rfl⟩ := Prod.mk.inj handled
            exact .started kept request message assembly admitted opened (not_lt.mp holds) last
              (not_le.mp room)

theorem consumeEvent_cases {middle : RuntimeState} {disposition : Disposition}
    (handled : consumeEvent config state now event = (middle, disposition)) :
    Consumption config state now event middle disposition := by
  simp only [consumeEvent] at handled
  split at handled
  · rename_i cancel
    obtain ⟨rfl, rfl⟩ := Prod.mk.inj handled
    exact .cancelled _ cancel rfl
  · rename_i kept
    have kept : event.frame.has fCancel = false := by simpa using kept
    split at handled
    · rename_i other
      obtain ⟨rfl, rfl⟩ := Prod.mk.inj handled
      exact .ignored kept (by simpa using other)
    · rename_i request
      have request : event.frame.has fRequest = true := by simpa using request
      split at handled
      · rename_i inadmissible
        obtain ⟨rfl, rfl⟩ := Prod.mk.inj handled
        exact .invalid kept request inadmissible
      · rename_i message admitted
        split at handled
        · rename_i assembly found
          exact extendAssembly_cases kept request admitted (.inl found) handled
        · rename_i fresh
          split at handled
          · rename_i crowded
            obtain ⟨rfl, rfl⟩ := Prod.mk.inj handled
            exact .full kept request message admitted fresh crowded
          · rename_i room
            exact extendAssembly_cases kept request admitted
              (.inr ⟨fresh, not_le.mp room, rfl⟩) handled

theorem admitRequest_some {message : ModuleMessage}
    (admitted : admitRequest config state event = some message) :
    decodeModuleMessage event.payload = .ok message ∧
      config.stages.stageOf event.frame.eventKind ≠ 0 ∧
      message.operation = moduleOpInvoke ∧
      message.stageID = config.stages.stageOf event.frame.eventKind ∧
      state.jobs.lookup event.frame.correlationId = none ∧
      ∀ assembly, state.assemblies.lookup event.frame.correlationId = some assembly →
        assembly.continuedBy event.frame.eventKind message = true := by
  simp only [admitRequest] at admitted
  split at admitted
  · cases admitted
  · rename_i decoded found
    split at admitted
    · cases admitted
    · rename_i fit
      simp only [Bool.or_eq_true, beq_iff_eq, bne_iff_ne, not_or, ne_eq, not_not,
        Option.not_isSome_iff_eq_none] at fit
      obtain ⟨⟨⟨served, invoke⟩, stage⟩, idle⟩ := fit
      split at admitted
      · rename_i fresh
        obtain rfl := Option.some.inj admitted
        exact ⟨found, served, invoke, stage, idle, by simp [fresh]⟩
      · rename_i assembly open_
        split at admitted
        · rename_i continued
          obtain rfl := Option.some.inj admitted
          refine ⟨found, served, invoke, stage, idle, fun other same => ?_⟩
          obtain rfl := Option.some.inj (open_.symm.trans same)
          exact continued
        · cases admitted

theorem Consumption.untouched {middle : RuntimeState} {disposition : Disposition}
    {correlation : UInt64} (handled : Consumption config state now event middle disposition)
    (foreign : event.frame.correlationId ≠ correlation) (pc : LoopPc) :
    ({ middle with pc } : RuntimeState).assemblies.lookup correlation =
        state.assemblies.lookup correlation ∧
      ({ middle with pc } : RuntimeState).jobs.lookup correlation =
        state.jobs.lookup correlation ∧
      (({ middle with pc } : RuntimeState).ticketsOf correlation).Perm
        (state.ticketsOf correlation) := by
  have other : correlation ≠ event.frame.correlationId := Ne.symm foreign
  cases handled with
  | cancelled flags cancel flagged => exact ⟨AList.lookup_erase_ne other, rfl, .refl _⟩
  | ignored kept request => exact ⟨rfl, rfl, .refl _⟩
  | invalid kept request inadmissible => exact ⟨AList.lookup_erase_ne other, rfl, .refl _⟩
  | full kept request message admitted fresh crowded => exact ⟨rfl, rfl, .refl _⟩
  | oversized kept request message assembly admitted opened tooLong =>
      exact ⟨AList.lookup_erase_ne other, rfl, .refl _⟩
  | extended kept request message assembly admitted opened holds more =>
      exact ⟨AList.lookup_insert_ne other, rfl, .refl _⟩
  | refused kept request message assembly status admitted opened last reason =>
      exact ⟨AList.lookup_erase_ne other, rfl, .refl _⟩
  | started kept request message assembly admitted opened holds last room =>
      refine ⟨AList.lookup_erase_ne other, AList.lookup_insert_ne other, ?_⟩
      refine (ticketsOf_started _ _ _ _ _ _ pc).trans ?_
      rw [if_neg (by exact foreign), List.nil_append]

theorem Consumption.unrequested {middle : RuntimeState} {disposition : Disposition}
    (handled : Consumption config state now event middle disposition)
    (other : event.frame.has fRequest = false) (kept : event.frame.has fCancel = false) :
    middle = state ∧ disposition = .proceed := by
  cases handled with
  | cancelled flags cancel => simp [kept] at cancel
  | ignored => exact ⟨rfl, rfl⟩
  | invalid _ asked => simp [other] at asked
  | full _ asked => simp [other] at asked
  | oversized _ asked => simp [other] at asked
  | extended _ asked => simp [other] at asked
  | refused _ asked => simp [other] at asked
  | started _ asked => simp [other] at asked

theorem Consumption.reply_staged {middle : RuntimeState} {reply : ModuleReply}
    (handled : Consumption config state now event middle (.reply reply)) :
    reply.stageID ≠ 0 := by
  generalize same : Disposition.reply reply = disposition at handled
  cases handled with
  | invalid kept asked inadmissible =>
      obtain rfl := Disposition.reply.inj same
      simp only [invalidModuleRequest]
      split
      · decide
      · rename_i named
        simpa using named
  | full kept asked message admitted fresh crowded =>
      obtain rfl := Disposition.reply.inj same
      exact (admitRequest_some admitted).2.1
  | oversized kept asked message assembly admitted opened tooLong =>
      obtain rfl := Disposition.reply.inj same
      exact (admitRequest_some admitted).2.1
  | refused kept asked message assembly status admitted opened last reason =>
      obtain rfl := Disposition.reply.inj same
      exact (admitRequest_some admitted).2.1
  | _ => cases same

theorem Consumption.reply_correlation {middle : RuntimeState} {reply : ModuleReply}
    (handled : Consumption config state now event middle (.reply reply)) :
    reply.correlation = event.frame.correlationId := by
  cases handled <;> rfl

end Consumption

/-- A correlation without a ticket has no job. -/
def RuntimeState.Idle (state : RuntimeState) (correlation : UInt64) : Prop :=
  state.ticketsOf correlation = [] → state.jobs.lookup correlation = none

private theorem idle_received {state : RuntimeState} {correlation : UInt64}
    {result : ModuleResult} {rest : List ModuleResult} (buffered : state.done = result :: rest)
    (pc : LoopPc) (idle : state.Idle correlation) :
    ({ state with pc, done := rest, jobs := state.jobs.erase result.work.correlationID } :
      RuntimeState).Idle correlation := by
  intro landed
  have landing := ticketsOf_finished correlation buffered
    (state.jobs.erase result.work.correlationID) pc
  rw [landed, List.append_nil] at landing
  by_cases owned : result.work.correlationID = correlation
  · subst owned
    exact AList.lookup_erase _ _
  · rw [if_neg owned] at landing
    exact (AList.lookup_erase_ne (Ne.symm owned)).trans (idle landing.eq_nil)

theorem RuntimeEffect.idle {config : RuntimeConfig} {state next : RuntimeState}
    {action : RuntimeAction} {emitted : List RuntimeOutput} {correlation : UInt64}
    (effect : RuntimeEffect config state action next emitted) (idle : state.Idle correlation) :
    next.Idle correlation := by
  intro landed
  cases effect with
  | quiet pc => exact idle landed
  | interrupted epochChanged now => exact idle landed
  | moved located same move =>
      obtain ⟨before, after, now, later⟩ :=
        ticketsOf_moved correlation located same
      rw [later] at landed
      apply idle
      rw [now]
      split at landed
      · simp at landed
      · rename_i foreign
        rw [if_neg foreign]
        exact landed
  | delivered located room =>
      have same := ticketsOf_delivered correlation located
      rw [landed] at same
      exact idle same.nil_eq.symm
  | finished pc buffered answered => exact idle_received buffered pc idle landed
  | collected stopping buffered => exact idle_received buffered state.pc idle landed
  | consumed pc handled answered silent =>
      rename_i now event attempts middle disposition sent
      have cases := consumeEvent_cases handled
      by_cases owned : event.frame.correlationId = correlation
      · cases cases with
        | started kept request message assembly admitted opened holds last room =>
            have flies := ticketsOf_started state correlation
              ⟨startedWork config state event message,
                .ready (assembly.body ++ message.body event.payload)⟩
              (state.assemblies.erase event.frame.correlationId)
              (state.jobs.insert event.frame.correlationId
                (startedWork config state event message)) (state.flags ++ [false]) pc
            rw [if_pos (by exact owned)] at flies
            exact absurd (landed ▸ flies).nil_eq (by simp)
        | _ => exact idle landed
      · obtain ⟨-, jobs, tickets⟩ := cases.untouched owned pc
        exact jobs.trans (idle (landed ▸ tickets).nil_eq.symm)

end AimeeLearning.Bus
