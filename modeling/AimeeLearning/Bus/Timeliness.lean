import AimeeLearning.Bus.CallSession
import AimeeLearning.Bus.CallerReply

/-! Deadlines from end to end. A call that returns a body was served in time:
the loop had not reached the deadline of the call when it started the job, nor
had the goroutine when it last looked at the clock. -/

set_option autoImplicit false

namespace AimeeLearning.Bus

open Library

/-- The clock has not reached the deadline, if there is one. -/
def InTime (deadlineNS now : UInt64) : Prop := deadlineNS = 0 ∨ now < deadlineNS

section Steps

variable {config : RuntimeConfig} {state next : RuntimeState} {action : RuntimeAction}
  {emitted : List RuntimeOutput} {event : Event} {now : UInt64}

theorem ModuleMessage.inTime {message : ModuleMessage} (live : message.deadlineExpired now = false) :
    InTime message.deadlineNS now := by
  rw [InTime, or_iff_not_imp_left]
  intro timed
  simpa [ModuleMessage.deadlineExpired, timed] using live

theorem overrideResult_inTime {work : ModuleWork} {cancelled : Bool} {status : ModuleStatus}
    {body kept : Bytes}
    (overridden : overrideResult work cancelled now status body = (moduleStatusOK, kept)) :
    cancelled = false ∧ InTime work.invocation.deadlineNS now := by
  unfold overrideResult at overridden
  split at overridden
  · exact absurd (Prod.mk.inj overridden).1 (by decide)
  · rename_i calm
    split at overridden
    · exact absurd (Prod.mk.inj overridden).1 (by decide)
    · rename_i live
      refine ⟨Bool.eq_false_of_not_eq_true calm, ?_⟩
      rw [InTime, or_iff_not_imp_left]
      intro timed
      simp only [bne_iff_ne, ne_eq, Bool.and_eq_true, decide_eq_true_eq, not_and] at live
      by_cases unread : now = 0
      · rw [unread]
        exact UInt64.pos_iff_ne_zero.mpr timed
      · exact UInt64.not_le.mp (live ⟨timed, unread⟩)

/-- What the loop knows of a job when it starts it. -/
structure Starting (config : RuntimeConfig) (event : Event) (now : UInt64) (work : ModuleWork) :
    Prop where
  request : event.frame.has fRequest = true
  kind : work.eventKind = event.frame.eventKind
  correlation : work.correlationID = event.frame.correlationId
  declared : ∃ message, decodeModuleMessage event.payload = .ok message ∧
    message.deadlineNS = work.invocation.deadlineNS
  inTime : InTime work.invocation.deadlineNS now

theorem consumeEvent_starting {middle : RuntimeState} {work : ModuleWork} {body : Bytes}
    (handled : consumeEvent config state now event = (middle, .start work body)) :
    Starting config event now work := by
  have completes : ∀ {closed : RuntimeState} {message : ModuleMessage} {whole : Bytes},
      event.frame.has fRequest = true → admitRequest config state event = some message →
      completeRequest config closed now event message whole = (middle, .start work body) →
        Starting config event now work := by
    intro closed message whole request admitted completed
    unfold completeRequest at completed
    split at completed
    · cases (Prod.mk.inj completed).2
    · rename_i live
      split at completed
      · cases (Prod.mk.inj completed).2
      · split at completed
        · cases (Prod.mk.inj completed).2
        · obtain ⟨rfl, -⟩ := Disposition.start.inj (Prod.mk.inj completed).2
          exact ⟨request, rfl, rfl, ⟨message, (admitRequest_some admitted).1, rfl⟩,
            message.inTime (Bool.eq_false_of_not_eq_true live)⟩
  have extends_ : ∀ {message : ModuleMessage} {assembly : ModuleAssembly},
      event.frame.has fRequest = true → admitRequest config state event = some message →
      extendAssembly config state now event message assembly = (middle, .start work body) →
        Starting config event now work := by
    intro message assembly request admitted extended
    unfold extendAssembly at extended
    dsimp only at extended
    split at extended
    · cases (Prod.mk.inj extended).2
    · split at extended
      · cases (Prod.mk.inj extended).2
      · exact completes request admitted extended
  unfold consumeEvent at handled
  dsimp only at handled
  split at handled
  · cases (Prod.mk.inj handled).2
  · split at handled
    · cases (Prod.mk.inj handled).2
    · rename_i request
      have request : event.frame.has fRequest = true := by simpa using request
      split at handled
      · cases (Prod.mk.inj handled).2
      · rename_i message admitted
        split at handled
        · exact extends_ request admitted handled
        · split at handled
          · cases (Prod.mk.inj handled).2
          · exact extends_ request admitted handled

/-- Where a ticket comes from, with the clock that was read for it. -/
inductive Ticketed (config : RuntimeConfig) (state : RuntimeState) (action : RuntimeAction) :
    HandlerRun → Prop where
  | kept {ticket : HandlerRun} (member : ticket ∈ state.tickets) :
      Ticketed config state action ticket
  | moved {run ticket : HandlerRun} (member : run ∈ state.tickets) (same : ticket.work = run.work)
      (unchecked : ∀ body status, ticket.phase ≠ .checked body status) :
      Ticketed config state action ticket
  | checked {position : Nat} {now : UInt64} {work : ModuleWork} {given : Bytes}
      {final : ModuleStatus} {rest : List HandlerRun} (looked : action = .checkCancelled position now)
      (located : state.running.drop position = ⟨work, .answered given final⟩ :: rest) :
      Ticketed config state action
        ⟨work, .checked (overrideResult work (flagOf state.flags work) now final given).2
          (overrideResult work (flagOf state.flags work) now final given).1⟩
  | started {event : Event} {attempts : List Attempt} {now : UInt64} {work : ModuleWork}
      {body : Bytes} (polled : action = .poll (.received event) attempts)
      (pc : state.pc = .polling now) (starting : Starting config event now work) :
      Ticketed config state action ⟨work, .ready body⟩

theorem handlerStep_ticketed {position : Nat} {run ticket : HandlerRun} {rest : List HandlerRun}
    (located : state.running.drop position = run :: rest)
    (placed : ∀ other now, action = .checkCancelled other now → other = position)
    (step : handlerStep state.flags run action = some (ticket, emitted)) :
    Ticketed config state action ticket := by
  have member : run ∈ state.tickets :=
    List.mem_append_left _ (List.mem_of_mem_drop (located ▸ List.mem_cons_self))
  obtain ⟨work, phase⟩ := run
  cases action with
  | invoke other =>
      cases phase <;> simp only [handlerStep, Option.some.injEq, Prod.mk.injEq, reduceCtorEq] at step
      obtain ⟨rfl, -⟩ := step
      exact .moved member rfl fun _ _ => HandlerPhase.noConfusion
  | handlerReturns other response status =>
      cases phase <;> simp only [handlerStep, Option.some.injEq, Prod.mk.injEq, reduceCtorEq] at step
      obtain ⟨rfl, -⟩ := step
      exact .moved member rfl fun _ _ => HandlerPhase.noConfusion
  | checkCancelled other now =>
      cases phase <;> simp only [handlerStep, Option.some.injEq, Prod.mk.injEq, reduceCtorEq] at step
      obtain ⟨rfl, -⟩ := step
      obtain rfl := placed other now rfl
      exact .checked rfl located
  | _ => simp [handlerStep] at step

theorem advance_ticketed {position : Nat}
    (placed : ∀ other now, action = .checkCancelled other now → other = position)
    (taken : state.advance position (handlerStep state.flags · action) = some (next, emitted)) :
    ∀ ticket ∈ next.tickets, Ticketed config state action ticket := by
  unfold RuntimeState.advance at taken
  split at taken
  · cases taken
  · rename_i run rest located
    obtain ⟨⟨after, sent⟩, moved, same⟩ := Option.map_eq_some_iff.mp taken
    obtain ⟨rfl, rfl⟩ := Prod.mk.inj same
    intro ticket member
    simp only [RuntimeState.tickets, List.mem_append, List.mem_cons] at member
    rcases member with (earlier | rfl | later) | buffered
    · exact .kept (List.mem_append_left _ (List.mem_of_mem_take earlier))
    · exact handlerStep_ticketed located placed moved
    · have held : run :: rest ⊆ state.running := located ▸ List.drop_subset _ _
      exact .kept (List.mem_append_left _ (held (List.mem_cons_of_mem _ later)))
    · exact .kept (List.mem_append_right _ buffered)

theorem pollStep_ticketed {attempts : List Attempt} {outcome : Client.PollOutcome}
    (pc : state.pc = .polling now)
    (taken : pollStep config state now attempts outcome = some (next, emitted)) :
    ∀ ticket ∈ next.tickets, Ticketed config state (.poll outcome attempts) ticket := by
  intro ticket member
  cases outcome with
  | panicked =>
      obtain ⟨rfl, -⟩ := Prod.mk.inj (Option.some.inj taken)
      exact .kept member
  | failed failure =>
      cases failure <;>
        (obtain ⟨rfl, -⟩ := Prod.mk.inj (Option.some.inj taken)
         exact .kept member)
  | empty =>
      obtain ⟨rfl, -⟩ := Prod.mk.inj (Option.some.inj taken)
      exact .kept member
  | received event =>
      have origin : ∀ {middle disposition}, consumeEvent config state now event =
          (middle, disposition) → ticket ∈ middle.tickets →
            Ticketed config state (.poll (.received event) attempts) ticket := by
        intro middle disposition handled member
        have starting := fun {work body} => @consumeEvent_starting config state event now middle work body
        cases consumeEvent_cases handled with
        | started kept request message assembly admitted opened holds last room =>
            simp only [RuntimeState.tickets, List.mem_append, List.mem_singleton] at member
            rcases member with (earlier | rfl) | buffered
            · exact .kept (List.mem_append_left _ earlier)
            · exact .started rfl pc (starting handled)
            · exact .kept (List.mem_append_right _ buffered)
        | _ => exact .kept member
      simp only [pollStep] at taken
      split at taken
      · rename_i middle reply handled
        obtain ⟨⟨final, sent⟩, answered, same⟩ := Option.map_eq_some_iff.mp taken
        obtain ⟨rfl, -⟩ := Prod.mk.inj same
        obtain ⟨pc, _, rfl, -⟩ := answer_sent answered
        exact origin handled member
      · rename_i middle disposition _ handled
        obtain ⟨rfl, -⟩ := Prod.mk.inj (Option.some.inj taken)
        exact origin handled member

theorem deliverStep_ticketed {position : Nat}
    (taken : deliverStep state position = some (next, emitted)) :
    ∀ ticket ∈ next.tickets, ticket ∈ state.tickets := by
  unfold deliverStep at taken
  split at taken
  · cases taken
  · rename_i run rest located
    split at taken
    · rename_i body status checked
      split at taken
      · obtain ⟨rfl, -⟩ := Prod.mk.inj (Option.some.inj taken)
        have held : run :: rest ⊆ state.running := located ▸ List.drop_subset _ _
        obtain ⟨work, phase⟩ := run
        obtain rfl : phase = .checked body status := checked
        intro ticket member
        simp only [RuntimeState.tickets, List.mem_append, List.map_append, List.map_cons,
          List.map_nil, List.mem_singleton] at member
        rcases member with (earlier | later) | buffered | rfl
        · exact List.mem_append_left _ (List.mem_of_mem_take earlier)
        · exact List.mem_append_left _ (held (List.mem_cons_of_mem _ later))
        · exact List.mem_append_right _ buffered
        · exact List.mem_append_left _ (held List.mem_cons_self)
      · cases taken
    · cases taken

theorem runtimeStep_ticketed (taken : runtimeStep config state action = some (next, emitted)) :
    ∀ ticket ∈ next.tickets, Ticketed config state action ticket := by
  have fewer : ∀ {result : ModuleResult} {rest : List ModuleResult} {pc : LoopPc}
      {jobs : AList fun _ : UInt64 => ModuleWork}, state.done = result :: rest →
      ∀ ticket ∈ ({ state with pc, done := rest, jobs } : RuntimeState).tickets,
        Ticketed config state action ticket := by
    intro result rest pc jobs buffered ticket member
    refine .kept ?_
    simp only [RuntimeState.tickets, buffered, List.map_cons, List.mem_append, List.mem_cons]
      at member ⊢
    exact member.imp_right .inr
  unfold runtimeStep at taken
  split at taken
  · split at taken
    · cases taken
    · rename_i result rest buffered
      obtain ⟨pc, _, rfl, -⟩ := answer_sent taken
      exact fewer buffered
  · split at taken
    · cases taken
    · split at taken
      · obtain ⟨rfl, -⟩ := Prod.mk.inj (Option.some.inj taken)
        exact fun ticket member => .kept member
      · split at taken <;>
          (obtain ⟨rfl, -⟩ := Prod.mk.inj (Option.some.inj taken)
           exact fun ticket member => .kept member)
  · rename_i pc
    exact pollStep_ticketed pc taken
  · exact advance_ticketed (fun _ _ same => by cases same) taken
  · exact advance_ticketed (fun _ _ same => by cases same) taken
  · exact advance_ticketed (fun _ _ same => (RuntimeAction.checkCancelled.inj same).1.symm) taken
  · exact fun ticket member => .kept (deliverStep_ticketed taken ticket member)
  · split at taken
    · cases taken
    · rename_i result rest buffered
      split at taken
      · obtain ⟨rfl, -⟩ := Prod.mk.inj (Option.some.inj taken)
        exact fewer buffered
      · cases taken
  · split at taken
    · cases taken
    · obtain ⟨rfl, -⟩ := Prod.mk.inj (Option.some.inj taken)
      exact fun ticket member => .kept member
  · cases taken

end Steps

section Runs

variable {config : RuntimeConfig} {state : RuntimeState} {actions : List RuntimeAction}
  {outputs : List RuntimeOutput}

/-- The job was started in time, on an event of its correlation. -/
def StartedInTime (config : RuntimeConfig) (actions : List RuntimeAction) (work : ModuleWork) :
    Prop :=
  ∃ state event attempts now,
    (runtimeMachine config).Passed .initial actions state (.poll (.received event) attempts) ∧
      state.pc = .polling now ∧ Starting config event now work

/-- Behind its OK answer the goroutine found the job uncancelled and in time. -/
def CheckedInTime (config : RuntimeConfig) (actions : List RuntimeAction) (work : ModuleWork)
    (body : Bytes) : Prop :=
  ∃ state position now rest,
    (runtimeMachine config).Passed .initial actions state (.checkCancelled position now) ∧
      state.running.drop position = ⟨work, .answered body moduleStatusOK⟩ :: rest ∧
      flagOf state.flags work = false ∧ InTime work.invocation.deadlineNS now

theorem StartedInTime.snoc {work : ModuleWork} (started : StartedInTime config actions work)
    (action : RuntimeAction) : StartedInTime config (actions ++ [action]) work := by
  obtain ⟨state, event, attempts, now, passed, known⟩ := started
  exact ⟨state, event, attempts, now, passed.snoc action, known⟩

theorem CheckedInTime.snoc {work : ModuleWork} {body : Bytes}
    (checked : CheckedInTime config actions work body) (action : RuntimeAction) :
    CheckedInTime config (actions ++ [action]) work body := by
  obtain ⟨state, position, now, rest, passed, known⟩ := checked
  exact ⟨state, position, now, rest, passed.snoc action, known⟩

/-- What holds of the tickets in flight. -/
structure Punctual (config : RuntimeConfig) (actions : List RuntimeAction) (state : RuntimeState) :
    Prop where
  started : ∀ ticket ∈ state.tickets, StartedInTime config actions ticket.work
  checked : ∀ work body, ⟨work, .checked body moduleStatusOK⟩ ∈ state.tickets →
    CheckedInTime config actions work body

theorem punctual_run (run : (runtimeMachine config).Run .initial actions state outputs) :
    Punctual config actions state := by
  refine run.invariant (fun actions state _ => Punctual config actions state)
    ⟨fun _ member => absurd member List.not_mem_nil,
      fun _ _ member => absurd member List.not_mem_nil⟩ ?_
  intro actions state outputs action next emitted before punctual taken
  have origin : ∀ ticket ∈ next.tickets, Ticketed config state action ticket :=
    runtimeStep_ticketed taken
  constructor
  · intro ticket member
    cases origin ticket member with
    | kept earlier => exact (punctual.started ticket earlier).snoc action
    | moved earlier same unchecked =>
        rw [same]
        exact (punctual.started _ earlier).snoc action
    | checked looked located =>
        rename_i position now work given final rest
        have held : ⟨work, .answered given final⟩ ∈ state.tickets :=
          List.mem_append_left _ (List.mem_of_mem_drop (located ▸ List.mem_cons_self))
        exact (punctual.started _ held).snoc action
    | started polled pc starting =>
        subst polled
        exact ⟨state, _, _, _, before.passes _, pc, starting⟩
  · intro work body member
    generalize whole : (⟨work, .checked body moduleStatusOK⟩ : HandlerRun) = ticket at member
    cases origin ticket member with
    | kept earlier => exact (punctual.checked work body (whole ▸ earlier)).snoc action
    | moved earlier same unchecked => exact absurd (whole ▸ rfl) (unchecked body moduleStatusOK)
    | checked looked located =>
        rename_i position now other given final rest
        obtain ⟨rfl, checked⟩ := HandlerRun.mk.inj whole
        obtain ⟨kept, fine⟩ := HandlerPhase.checked.inj checked
        have overridden : overrideResult work (flagOf state.flags work) now final given =
            (moduleStatusOK, body) := Prod.ext fine.symm kept.symm
        obtain ⟨rfl, rfl⟩ := overrideResult_ok overridden
        obtain ⟨calm, live⟩ := overrideResult_inTime overridden
        subst looked
        exact ⟨state, position, now, rest, before.passes _, located, calm, live⟩
    | started polled pc starting => cases (HandlerRun.mk.inj whole).2

/-- Where an OK fragment comes from, and that everything about it was in time. -/
def PromptReply (config : RuntimeConfig) (actions : List RuntimeAction)
    (fragment : SentFragment) : Prop :=
  ∃ work body, fragment.kind = work.eventKind ∧ fragment.correlation = work.correlationID ∧
    StartedInTime config actions work ∧ CheckedInTime config actions work body

theorem prompt_replies (run : (runtimeMachine config).Run .initial actions state outputs) :
    state.Staged ∧ ∀ fragment message, .replied fragment ∈ outputs →
      decodeModuleMessage fragment.payload = .ok message → message.status = moduleStatusOK →
        PromptReply config actions fragment := by
  refine run.invariant (fun actions state outputs => state.Staged ∧
    ∀ fragment message, .replied fragment ∈ outputs →
      decodeModuleMessage fragment.payload = .ok message → message.status = moduleStatusOK →
        PromptReply config actions fragment)
    ⟨fun _ member => absurd member List.not_mem_nil,
      fun _ _ member => absurd member List.not_mem_nil⟩ ?_
  rintro actions state outputs action next emitted before ⟨staged, prompt⟩ taken
  have effect := runtimeStep_effect taken
  refine ⟨staged.step effect, fun fragment message member decoded fine => ?_⟩
  rcases List.mem_append.mp member with earlier | fresh
  · obtain ⟨work, body, kind, correlation, started, checked⟩ :=
      prompt fragment message earlier decoded fine
    exact ⟨work, body, kind, correlation, started.snoc action, checked.snoc action⟩
  · have room : moduleMessageHeaderLen < config.inlineBudget.toNat :=
      runtimeStep_causes taken _ fresh
    rcases effect.sends with nothing | ⟨reply, replying, front⟩
    · exact absurd (mem_sentFragments.mpr fresh) (by simp [nothing])
    · have planned := front.subset (mem_sentFragments.mpr fresh)
      obtain ⟨kind, correlation⟩ := ModuleReply.mem_plan planned
      have punctual := punctual_run before
      cases replying with
      | event handled =>
          obtain ⟨part, -, read, -⟩ :=
            ModuleReply.plan_decoded (consumeEvent_cases handled).reply_staged room planned
          obtain rfl := Except.ok.inj (read.symm.trans decoded)
          exact absurd (settleResult_ok (Prod.ext fine rfl)).1 (consumeEvent_refuses handled)
      | result buffered =>
          rename_i attempts result rest
          have held : result.ticket ∈ state.tickets := by
            simp [RuntimeState.tickets, buffered]
          obtain ⟨part, -, read, -⟩ := ModuleReply.plan_decoded (staged _ held) room planned
          obtain rfl := Except.ok.inj (read.symm.trans decoded)
          have plain : result.status = moduleStatusOK := (settleResult_ok (Prod.ext fine rfl)).1
          refine ⟨result.work, result.body, kind, correlation,
            (punctual.started _ held).snoc _, (punctual.checked _ _ ?_).snoc _⟩
          rw [← plain]
          exact held

end Runs

section Calls

variable {config : RuntimeConfig} {module_ : RuntimeState} {moves : List RuntimeAction}
  {outputs : List RuntimeOutput}

theorem pollStep_consumes {state next : RuntimeState} {now : UInt64} {event : Event}
    {attempts : List Attempt} {emitted : List RuntimeOutput}
    (taken : pollStep config state now attempts (.received event) = some (next, emitted)) :
    .consumed event ∈ emitted := by
  simp only [pollStep] at taken
  split at taken
  · obtain ⟨_, answered, same⟩ := Option.map_eq_some_iff.mp taken
    obtain ⟨-, rfl⟩ := Prod.mk.inj same
    exact List.mem_cons_self
  · obtain ⟨-, rfl⟩ := Prod.mk.inj (Option.some.inj taken)
    exact List.mem_cons_self

/-- A job was started on an event that the loop consumed. -/
theorem StartedInTime.consumed {work : ModuleWork} (started : StartedInTime config moves work)
    (run : (runtimeMachine config).Run .initial moves module_ outputs) :
    ∃ event now, .consumed event ∈ outputs ∧ Starting config event now work := by
  obtain ⟨state, event, attempts, now, passed, pc, starting⟩ := started
  obtain ⟨next, emitted, taken, inside⟩ := run.through passed
  have polled : pollStep config state now attempts (.received event) = some (next, emitted) := by
    have step : runtimeStep config state (.poll (.received event) attempts) =
      some (next, emitted) := taken
    simpa only [runtimeStep, pc] using step
  exact ⟨event, now, inside (pollStep_consumes polled), starting⟩

theorem mem_repliedOf {correlation : UInt64} {fragment : SentFragment}
    (member : fragment ∈ repliedOf correlation outputs) :
    .replied fragment ∈ outputs ∧ fragment.correlation = correlation := by
  obtain ⟨output, present, same⟩ := List.mem_filterMap.mp member
  cases output with
  | replied other =>
      dsimp only at same
      split at same
      · rename_i owned
        obtain rfl := Option.some.inj same
        exact ⟨present, eq_of_beq owned⟩
      · cases same
  | _ => cases same

/-- A call that returned a body heard an OK fragment of its reply. -/
theorem call_heard {caller : ModuleCaller} {call : ModuleCall} {world : CallWorld} {body : Bytes}
    (answered : (caller.call call world).result = some (.ok body)) :
    ∃ event ∈ pollsOf caller.next world.polls, ∃ message,
      decodeModuleMessage event.payload = .ok message ∧ message.status = moduleStatusOK := by
  obtain ⟨waiting, expiry, ended⟩ : ∃ waiting : ModuleCaller, ∃ expiry,
      waiting.awaitReply call.eventKind caller.next expiry [] world.polls = some (.ok body) := by
    unfold ModuleCaller.call at answered
    split at answered
    · cases answered
    · dsimp only at answered
      split at answered
      · cases answered
      · split at answered
        · cases answered
        · exact ⟨_, _, answered⟩
  obtain ⟨consumed, earlier, last, took, replies, sound⟩ := awaitReply_ended ended
  have final := sound.final
  simp only [isFinal, Bool.and_eq_true] at final
  obtain ⟨message, decoded, -, fine⟩ :=
    sound.fine last (List.mem_append_right _ (List.mem_singleton_self _)) final.1
  refine ⟨last, ?_, message, decoded, fine⟩
  have member : last ∈ repliesOf call.eventKind caller.next consumed := by
    rw [replies]
    exact List.mem_append_right _ (List.mem_singleton_self _)
  obtain ⟨step, polled, same⟩ := List.mem_filterMap.mp member
  obtain ⟨received, own⟩ : step.outcome = .received last ∧
      (last.frame.correlationId == caller.next) = true := by
    split at same
    · rename_i event received
      split at same
      · rename_i own
        obtain rfl := Option.some.inj same
        simp only [belongs, Bool.and_eq_true] at own
        exact ⟨received, own.2⟩
      · cases same
    · cases same
  refine List.mem_filterMap.mpr ⟨step, took.front.subset polled, ?_⟩
  simp only [received, own, if_true]

variable {start caller : ModuleCaller} {calls : List (ModuleCall × CallWorld)}
  {records : List CallRecord} {wire : List SendCall} {here there : Client}

end Calls

section Example

def timedCall : ModuleCall := ⟨kindModuleBase, 1, 9, 1000, [4, 5]⟩

def timedReply : SentFragment :=
  ModuleReply.fragment ⟨kindModuleBase, 7, 1, 9, moduleStatusOK, [6]⟩ ([6], false)

/-- A call made at 500 that is to be over at 1500. -/
def timedRecord : CallRecord :=
  ⟨RemoteStage.pairedStage.caller, timedCall, ⟨500, 0, fun _ => .ok (),
    [⟨.empty, false, 0⟩,
      ⟨.received (timedReply.event RemoteStage.pairedClient fReply), false, 0⟩]⟩⟩

/-- The loop starts its job at 600, and the goroutine is done at 700. -/
def timedMoves : List RuntimeAction :=
  [.drained false false 600,
    .poll (.received ((timedCall.fragment 7 1500 ([4, 5], false)).event RemoteStage.pairedClient
      fRequest)) [],
    .invoke 0, .handlerReturns 0 [6] moduleStatusOK, .checkCancelled 0 700, .deliver 0,
    .receive [{ result := .ok () }]]

end Example

end AimeeLearning.Bus
