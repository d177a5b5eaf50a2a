import AimeeLearning.Bus.ModuleFrames

/-! A module process with its handler. The goroutines answer what the handler
makes of the body they were called with, and what the process says about a
request is what its handler said. -/

set_option autoImplicit false

namespace AimeeLearning.Bus

open Library

/-- `ModuleInvocation.Cancelled` -/
def ModuleInvocation.isCancelled (invocation : ModuleInvocation) (flags : List Bool)
    (now : UInt64) : Bool :=
  (flags[invocation.cancelled]?).getD false ||
    (now != 0 && invocation.deadlineNS != 0 && now ≥ invocation.deadlineNS)

/-- A handler: what it answers to a body for a stage, given what `Cancelled`
reports to it. -/
abbrev StageHandler := UInt32 → Bool → Bytes → Bytes × ModuleStatus

structure ProcessState where
  runtime : RuntimeState
  /-- What the handlers were called with. -/
  calls : List (ModuleWork × Bytes)

def ProcessState.initial : ProcessState := ⟨.initial, []⟩

inductive ProcessAction where
  /-- Anything but the return of a handler. -/
  | runtime (action : RuntimeAction)
  /-- The handler of a goroutine looks at its cancel flag and the clock and returns. -/
  | returns (position : Nat) (now : UInt64)

def RuntimeAction.isReturn : RuntimeAction → Bool
  | .handlerReturns _ _ _ => true
  | _ => false

/-- The calls of handlers among the outputs. -/
def callsOf (outputs : List RuntimeOutput) : List (ModuleWork × Bytes) :=
  outputs.filterMap fun
    | .invoked work body => some (work, body)
    | _ => none

/-- What the handler returns to a goroutine. -/
def handlerAnswer (serve : StageHandler) (state : ProcessState) (run : HandlerRun) (now : UInt64) :
    Option (Bytes × ModuleStatus) :=
  (state.calls.lookup run.work).map fun request =>
    serve run.work.invocation.stageID
      (run.work.invocation.isCancelled state.runtime.flags now) request

def processStep (serve : StageHandler) (config : RuntimeConfig) (state : ProcessState) :
    ProcessAction → Option (ProcessState × List RuntimeOutput)
  | .runtime action =>
      if action.isReturn then none
      else (runtimeStep config state.runtime action).map fun (next, emitted) =>
        (⟨next, state.calls ++ callsOf emitted⟩, emitted)
  | .returns position now =>
      match state.runtime.running.drop position with
      | [] => none
      | run :: _ =>
          match handlerAnswer serve state run now with
          | none => none
          | some (response, status) =>
              (runtimeStep config state.runtime (.handlerReturns position response status)).map
                fun (next, emitted) => (⟨next, state.calls⟩, emitted)

def processMachine (serve : StageHandler) (config : RuntimeConfig) :
    Machine ProcessState ProcessAction RuntimeOutput where
  step := processStep serve config

theorem mem_callsOf {outputs : List RuntimeOutput} {work : ModuleWork} {body : Bytes} :
    (work, body) ∈ callsOf outputs ↔ .invoked work body ∈ outputs := by
  constructor
  · intro member
    obtain ⟨output, present, same⟩ := List.mem_filterMap.mp member
    cases output with
    | invoked other request =>
        obtain ⟨rfl, rfl⟩ := Prod.mk.inj (Option.some.inj same)
        exact present
    | _ => cases same
  · exact fun present => List.mem_filterMap.mpr ⟨_, present, rfl⟩

section Steps

variable {serve : StageHandler} {config : RuntimeConfig} {state next : ProcessState}
  {action : ProcessAction} {emitted : List RuntimeOutput}

/-- What a step of the process is to the runtime: a step without an answer, or
the answer of the handler to what its goroutine was called with. -/
inductive ProcessMove (serve : StageHandler) (config : RuntimeConfig) (state : ProcessState) :
    ProcessAction → ProcessState → List RuntimeOutput → Prop
  | runtime {action : RuntimeAction} {next : RuntimeState} {emitted : List RuntimeOutput}
      (taken : runtimeStep config state.runtime action = some (next, emitted))
      (silent : ∀ work response status, .answered work response status ∉ emitted) :
      ProcessMove serve config state (.runtime action) ⟨next, state.calls ++ callsOf emitted⟩ emitted
  | returns {position : Nat} {now : UInt64} {next : RuntimeState} {work : ModuleWork}
      {request response : Bytes} {status : ModuleStatus}
      (calling : ⟨work, .calling⟩ ∈ state.runtime.running)
      (called : (work, request) ∈ state.calls)
      (computed : serve work.invocation.stageID
        (work.invocation.isCancelled state.runtime.flags now) request = (response, status))
      (taken : runtimeStep config state.runtime (.handlerReturns position response status) =
        some (next, [.answered work response status])) :
      ProcessMove serve config state (.returns position now) ⟨next, state.calls⟩
        [.answered work response status]

theorem advance_located {runtime next : RuntimeState} {position : Nat}
    {move : HandlerRun → Option (HandlerRun × List RuntimeOutput)}
    (taken : runtime.advance position move = some (next, emitted)) :
    ∃ run rest after, runtime.running.drop position = run :: rest ∧
      move run = some (after, emitted) := by
  unfold RuntimeState.advance at taken
  split at taken
  · cases taken
  · rename_i run rest located
    obtain ⟨⟨after, sent⟩, moved, same⟩ := Option.map_eq_some_iff.mp taken
    obtain ⟨-, rfl⟩ := Prod.mk.inj same
    exact ⟨run, rest, after, located, moved⟩

/-- What must hold for a step to have an output: only a handler that returns
answers, and only a budget beyond the envelope lets replies out. -/
def OutputCause (config : RuntimeConfig) (action : RuntimeAction) : RuntimeOutput → Prop
  | .answered _ _ _ => action.isReturn = true
  | .replied _ => moduleMessageHeaderLen < config.inlineBudget.toNat
  | _ => True

theorem answer_causes {runtime next : RuntimeState} {reply : ModuleReply} {attempts : List Attempt}
    (answered : answer config runtime reply attempts = some (next, emitted))
    (action : RuntimeAction) : ∀ output ∈ emitted, OutputCause config action output := by
  obtain ⟨⟨sent, result⟩, replied, same⟩ := Option.map_eq_some_iff.mp answered
  obtain ⟨-, rfl⟩ := Prod.mk.inj same
  intro output member
  obtain ⟨fragment, present, rfl⟩ := List.mem_map.mp member
  rcases replyModuleResult_budget replied with room | rfl
  · exact room
  · exact absurd present List.not_mem_nil

theorem pollStep_causes {runtime next : RuntimeState} {now : UInt64} {attempts : List Attempt}
    {outcome : Client.PollOutcome}
    (taken : pollStep config runtime now attempts outcome = some (next, emitted))
    (action : RuntimeAction) : ∀ output ∈ emitted, OutputCause config action output := by
  cases outcome with
  | received event =>
      simp only [pollStep] at taken
      split at taken
      · obtain ⟨⟨final, sent⟩, answered, same⟩ := Option.map_eq_some_iff.mp taken
        obtain ⟨-, rfl⟩ := Prod.mk.inj same
        exact List.forall_mem_cons.mpr ⟨trivial, answer_causes answered action⟩
      · obtain ⟨-, rfl⟩ := Prod.mk.inj (Option.some.inj taken)
        exact List.forall_mem_singleton.mpr trivial
  | failed failure =>
      cases failure <;>
        (simp only [pollStep, Option.some.injEq, Prod.mk.injEq] at taken
         obtain ⟨-, rfl⟩ := taken
         exact List.forall_mem_nil _)
  | _ =>
      simp only [pollStep, Option.some.injEq, Prod.mk.injEq] at taken
      obtain ⟨-, rfl⟩ := taken
      exact List.forall_mem_nil _

theorem handlerStep_causes {flags : List Bool} {run after : HandlerRun} {action : RuntimeAction}
    (moved : handlerStep flags run action = some (after, emitted)) :
    ∀ output ∈ emitted, OutputCause config action output := by
  obtain ⟨ticket, phase⟩ := run
  cases action with
  | handlerReturns position given settled =>
      cases phase <;> simp only [handlerStep, Option.some.injEq, Prod.mk.injEq, reduceCtorEq]
        at moved
      obtain ⟨-, rfl⟩ := moved
      exact List.forall_mem_singleton.mpr rfl
  | invoke position =>
      cases phase <;> simp only [handlerStep, Option.some.injEq, Prod.mk.injEq, reduceCtorEq]
        at moved
      obtain ⟨-, rfl⟩ := moved
      exact List.forall_mem_singleton.mpr trivial
  | checkCancelled position now =>
      cases phase <;> simp only [handlerStep, Option.some.injEq, Prod.mk.injEq, reduceCtorEq]
        at moved
      obtain ⟨-, rfl⟩ := moved
      exact List.forall_mem_nil _
  | _ => simp [handlerStep] at moved

theorem deliverStep_quiet {runtime next : RuntimeState} {position : Nat}
    (taken : deliverStep runtime position = some (next, emitted)) : emitted = [] := by
  unfold deliverStep at taken
  split at taken
  · cases taken
  · split at taken
    · split at taken
      · exact (Prod.mk.inj (Option.some.inj taken)).2.symm
      · cases taken
    · cases taken

theorem runtimeStep_causes {runtime next : RuntimeState} {action : RuntimeAction}
    (taken : runtimeStep config runtime action = some (next, emitted)) :
    ∀ output ∈ emitted, OutputCause config action output := by
  have advanced : ∀ {position}, runtime.advance position (handlerStep runtime.flags · action) =
      some (next, emitted) → ∀ output ∈ emitted, OutputCause config action output := by
    intro position taken
    obtain ⟨run, _, after, -, moved⟩ := advance_located taken
    exact handlerStep_causes moved
  have silent : emitted = [] → ∀ output ∈ emitted, OutputCause config action output := by
    rintro rfl
    exact List.forall_mem_nil _
  unfold runtimeStep at taken
  split at taken
  · split at taken
    · cases taken
    · exact answer_causes taken _
  · split at taken
    · cases taken
    · refine silent ?_
      split at taken
      · exact (Prod.mk.inj (Option.some.inj taken)).2.symm
      · split at taken <;> exact (Prod.mk.inj (Option.some.inj taken)).2.symm
  · exact pollStep_causes taken _
  · exact advanced taken
  · exact advanced taken
  · exact advanced taken
  · exact silent (deliverStep_quiet taken)
  · split at taken
    · cases taken
    · split at taken
      · exact silent (Prod.mk.inj (Option.some.inj taken)).2.symm
      · cases taken
  · split at taken
    · cases taken
    · exact silent (Prod.mk.inj (Option.some.inj taken)).2.symm
  · cases taken

theorem processStep_move (taken : processStep serve config state action = some (next, emitted)) :
    ProcessMove serve config state action next emitted := by
  cases action with
  | runtime action =>
      simp only [processStep] at taken
      split at taken
      · cases taken
      · rename_i other
        obtain ⟨⟨after, sent⟩, moved, same⟩ := Option.map_eq_some_iff.mp taken
        obtain ⟨rfl, rfl⟩ := Prod.mk.inj same
        exact .runtime moved fun work response status member =>
          other (runtimeStep_causes moved _ member)
  | returns position now =>
      simp only [processStep] at taken
      split at taken
      · cases taken
      · rename_i run rest located
        split at taken
        · cases taken
        · rename_i response status answered
          obtain ⟨⟨after, sent⟩, moved, same⟩ := Option.map_eq_some_iff.mp taken
          obtain ⟨rfl, rfl⟩ := Prod.mk.inj same
          obtain ⟨request, called, computed⟩ := Option.map_eq_some_iff.mp answered
          obtain ⟨early, late, stored, -⟩ := List.lookup_eq_some_iff.mp called
          obtain ⟨other, _, next, here, step⟩ := advance_located moved
          obtain ⟨rfl, -⟩ := List.cons.inj (located.symm.trans here)
          obtain ⟨work, phase⟩ := run
          cases phase <;> simp only [handlerStep, Option.some.injEq, Prod.mk.injEq, reduceCtorEq]
            at step
          obtain ⟨-, rfl⟩ := step
          have present := List.mem_of_mem_drop (located ▸ List.mem_cons_self)
          exact .returns present (by simp [stored]) computed moved

end Steps

section Runs

variable {serve : StageHandler} {config : RuntimeConfig} {state next : ProcessState}
  {outputs emitted : List RuntimeOutput}

/-- The actions of a process whose loop is restricted. -/
def permitted (allowed : RuntimeState → RuntimeAction → Bool) (state : ProcessState) :
    ProcessAction → Bool
  | .runtime action => allowed state.runtime action
  | .returns _ _ => true

/-- A process is a run of the loop and its goroutines. -/
theorem process_runtime {allowed : RuntimeState → RuntimeAction → Bool} {start : ProcessState}
    {actions : List ProcessAction}
    (free : ∀ state position response status,
      allowed state (.handlerReturns position response status) = true)
    (run : ((processMachine serve config).restrict (permitted allowed)).Run start actions state
      outputs) :
    ∃ steps, ((runtimeMachine config).restrict allowed).Run start.runtime steps state.runtime
      outputs := by
  induction run with
  | nil => exact ⟨[], .nil⟩
  | snoc before taken ih =>
      obtain ⟨steps, earlier⟩ := ih
      obtain ⟨given, moved⟩ := Machine.restrict_step.mp taken
      cases processStep_move moved with
      | runtime step silent =>
          exact ⟨_, .snoc earlier (Machine.restrict_step.mpr ⟨given, step⟩)⟩
      | returns calling called computed step =>
          exact ⟨_, .snoc earlier (Machine.restrict_step.mpr ⟨free _ _ _ _, step⟩)⟩

/-- What the handler made of the body it was called with for a work. -/
def Computed (serve : StageHandler) (outputs : List RuntimeOutput) (work : ModuleWork)
    (response : Bytes) (status : ModuleStatus) : Prop :=
  ∃ request cancelled, .invoked work request ∈ outputs ∧
    serve work.invocation.stageID cancelled request = (response, status)

theorem Computed.mono {work : ModuleWork} {response : Bytes} {status : ModuleStatus}
    (computed : Computed serve outputs work response status) :
    Computed serve (outputs ++ emitted) work response status := by
  obtain ⟨request, cancelled, invoked, answer⟩ := computed
  exact ⟨request, cancelled, List.mem_append_left _ invoked, answer⟩

/-- The body of an OK result, as the handler gave it. -/
def ComputedOK (serve : StageHandler) (outputs : List RuntimeOutput) (work : ModuleWork)
    (body : Bytes) : Prop :=
  Computed serve outputs work body moduleStatusOK ∧
    body.length ≤ moduleMessageMaxBody.toNat

theorem settleResult_ok {status : ModuleStatus} {response body : Bytes}
    (settled : settleResult status response = (moduleStatusOK, body)) :
    status = moduleStatusOK ∧ response = body ∧ body.length ≤ moduleMessageMaxBody.toNat := by
  unfold settleResult at settled
  split at settled
  · exact absurd (Prod.mk.inj settled).1 (by decide)
  · rename_i admissible
    have small : response.length ≤ moduleMessageMaxBody.toNat := by
      simp only [Bool.or_eq_true, not_or, decide_eq_true_eq, not_lt] at admissible
      exact admissible.2
    split at settled
    · rename_i bad
      obtain ⟨rfl, -⟩ := Prod.mk.inj settled
      exact absurd bad (by decide)
    · obtain ⟨rfl, rfl⟩ := Prod.mk.inj settled
      exact ⟨rfl, rfl, small⟩

theorem overrideResult_ok {work : ModuleWork} {cancelled : Bool} {now : UInt64}
    {status : ModuleStatus} {body kept : Bytes}
    (overridden : overrideResult work cancelled now status body = (moduleStatusOK, kept)) :
    status = moduleStatusOK ∧ body = kept := by
  unfold overrideResult at overridden
  split at overridden
  · exact absurd (Prod.mk.inj overridden).1 (by decide)
  · split at overridden
    · exact absurd (Prod.mk.inj overridden).1 (by decide)
    · exact Prod.mk.inj overridden

/-- The ticket is OK only with what the handler answered. -/
def HandlerRun.Sourced (serve : StageHandler) (outputs : List RuntimeOutput)
    (ticket : HandlerRun) : Prop :=
  ∀ body, ticket.phase = .answered body moduleStatusOK ∨
    ticket.phase = .checked body moduleStatusOK → ComputedOK serve outputs ticket.work body

/-- Where the answers of a process come from. -/
structure Sourced (serve : StageHandler) (state : ProcessState) (outputs : List RuntimeOutput) :
    Prop where
  called : ∀ work request, (work, request) ∈ state.calls → .invoked work request ∈ outputs
  tickets : ∀ ticket ∈ state.runtime.tickets, ticket.Sourced serve outputs
  answers : ∀ work response status, .answered work response status ∈ outputs →
    Computed serve outputs work response status

theorem Sourced.initial : Sourced serve .initial [] :=
  ⟨fun _ _ member => absurd member List.not_mem_nil,
    fun _ member => absurd member List.not_mem_nil,
    fun _ _ _ member => absurd member List.not_mem_nil⟩

theorem HandlerRun.Sourced.mono {ticket : HandlerRun} (sourced : ticket.Sourced serve outputs) :
    ticket.Sourced serve (outputs ++ emitted) :=
  fun body phase => ⟨(sourced body phase).1.mono, (sourced body phase).2⟩

/-- A ticket that moves without an answer is OK only if it was. -/
theorem HandlerMove.sourced {flags : List Bool} {run ticket : HandlerRun}
    (move : HandlerMove flags run.work run.phase ticket.phase emitted)
    (same : ticket.work = run.work) (sourced : run.Sourced serve outputs)
    (answered : ∀ response status, emitted = [.answered run.work response status] →
      Computed serve (outputs ++ emitted) run.work response status) :
    ticket.Sourced serve (outputs ++ emitted) := by
  intro body phase
  rw [same]
  generalize was : run.phase = before at move
  generalize becomes : ticket.phase = after at move phase
  cases move with
  | invoke request => rcases phase with phase | phase <;> cases phase
  | handlerReturns response status =>
      rcases phase with phase | phase
      · obtain ⟨kept, settled⟩ := HandlerPhase.answered.inj phase
        obtain ⟨rfl, rfl, small⟩ := settleResult_ok (Prod.ext settled kept)
        exact ⟨answered _ _ rfl, small⟩
      · cases phase
  | checkCancelled now given status =>
      rcases phase with phase | phase
      · cases phase
      · obtain ⟨kept, settled⟩ := HandlerPhase.checked.inj phase
        obtain ⟨rfl, rfl⟩ := overrideResult_ok (Prod.ext settled kept)
        exact ⟨(sourced _ (.inl was)).1.mono, (sourced _ (.inl was)).2⟩

theorem Sourced.step (sourced : Sourced serve state outputs)
    {action : ProcessAction} (move : ProcessMove serve config state action next emitted) :
    Sourced serve next (outputs ++ emitted) := by
  have tickets : ∀ {runtime action}, runtimeStep config state.runtime action =
      some (runtime, emitted) → (∀ work response status,
        .answered work response status ∈ emitted →
          Computed serve (outputs ++ emitted) work response status) →
      ∀ ticket ∈ runtime.tickets, ticket.Sourced serve (outputs ++ emitted) := by
    intro runtime action taken answered ticket member
    cases (runtimeStep_effect taken).origin member with
    | kept present => exact (sourced.tickets ticket present).mono
    | moved present same step =>
        refine step.sourced same (sourced.tickets _ present) fun response status only => ?_
        exact answered _ _ _ (by simp [only])
    | started body polled request admitted flags =>
        intro given phase
        rcases phase with phase | phase <;> cases phase
  cases move with
  | runtime taken silent =>
      have answered : ∀ work response status, .answered work response status ∈ emitted →
          Computed serve (outputs ++ emitted) work response status :=
        fun work response status member => absurd member (silent work response status)
      refine ⟨fun work request member => ?_, tickets taken answered,
        fun work response status member => ?_⟩
      · rcases List.mem_append.mp member with earlier | fresh
        · exact List.mem_append_left _ (sourced.called work request earlier)
        · exact List.mem_append_right _ (mem_callsOf.mp fresh)
      · rcases List.mem_append.mp member with earlier | fresh
        · exact (sourced.answers work response status earlier).mono
        · exact answered work response status fresh
  | returns calling called computed taken =>
      rename_i position now runtime work request response status
      have own : Computed serve (outputs ++ [.answered work response status]) work response status :=
        ⟨request, _, List.mem_append_left _ (sourced.called work request called), computed⟩
      have answered : ∀ other given final,
          .answered other given final ∈ [RuntimeOutput.answered work response status] →
          Computed serve (outputs ++ [.answered work response status]) other given final := by
        intro other given final member
        obtain ⟨rfl, rfl, rfl⟩ := RuntimeOutput.answered.inj (List.mem_singleton.mp member)
        exact own
      refine ⟨fun other given member => ?_, tickets taken answered,
        fun other given final member => ?_⟩
      · exact List.mem_append_left _ (sourced.called other given member)
      · rcases List.mem_append.mp member with earlier | fresh
        · exact (sourced.answers other given final earlier).mono
        · exact answered other given final fresh

theorem process_sourced {actions : List ProcessAction}
    (run : (processMachine serve config).Run .initial actions state outputs) :
    Sourced serve state outputs :=
  run.invariant (fun _ state outputs => Sourced serve state outputs) .initial
    fun _ _ _ _ _ _ _ before taken => before.step (processStep_move taken)

end Runs

section Replies

variable {serve : StageHandler} {config : RuntimeConfig} {state : ProcessState}
  {outputs : List RuntimeOutput} {reply : ModuleReply}

/-- The reply says what the handler answered, or it is not OK. -/
def ModuleReply.Sourced (serve : StageHandler) (outputs : List RuntimeOutput)
    (reply : ModuleReply) : Prop :=
  (settleResult reply.status reply.body).1 = moduleStatusOK →
    ∃ result : ModuleResult, result.status = moduleStatusOK ∧ reply = result.reply ∧
      ComputedOK serve outputs result.work result.body

section Refusals

variable {runtime middle : RuntimeState} {now : UInt64} {event : Event} {message : ModuleMessage}

theorem refuse_status {status : ModuleStatus}
    (refused : refuse config event message status = .reply reply) : reply.status = status := by
  obtain rfl := Disposition.reply.inj refused
  rfl

theorem completeRequest_refuses {body : Bytes}
    (handled : completeRequest config runtime now event message body = (middle, .reply reply)) :
    reply.status ≠ moduleStatusOK := by
  unfold completeRequest at handled
  split at handled
  · rw [refuse_status (Prod.mk.inj handled).2]
    decide
  · split at handled
    · rw [refuse_status (Prod.mk.inj handled).2]
      decide
    · split at handled
      · rw [refuse_status (Prod.mk.inj handled).2]
        decide
      · cases (Prod.mk.inj handled).2

theorem extendAssembly_refuses {assembly : ModuleAssembly}
    (handled : extendAssembly config runtime now event message assembly =
      (middle, .reply reply)) : reply.status ≠ moduleStatusOK := by
  unfold extendAssembly at handled
  dsimp only at handled
  split at handled
  · rw [refuse_status (Prod.mk.inj handled).2]
    decide
  · split at handled
    · cases (Prod.mk.inj handled).2
    · exact completeRequest_refuses handled

/-- The loop itself never answers OK. -/
theorem consumeEvent_refuses
    (handled : consumeEvent config runtime now event = (middle, .reply reply)) :
    reply.status ≠ moduleStatusOK := by
  unfold consumeEvent at handled
  dsimp only at handled
  split at handled
  · cases (Prod.mk.inj handled).2
  · split at handled
    · cases (Prod.mk.inj handled).2
    · split at handled
      · obtain rfl := Disposition.reply.inj (Prod.mk.inj handled).2
        exact show moduleStatusInvalidRequest ≠ moduleStatusOK by decide
      · split at handled
        · exact extendAssembly_refuses handled
        · split at handled
          · rw [refuse_status (Prod.mk.inj handled).2]
            decide
          · exact extendAssembly_refuses handled

end Refusals

theorem ModuleReply.Sourced.mono (sourced : reply.Sourced serve outputs)
    {emitted : List RuntimeOutput} : reply.Sourced serve (outputs ++ emitted) := by
  intro fine
  obtain ⟨result, plain, same, computed, small⟩ := sourced fine
  exact ⟨result, plain, same, computed.mono, small⟩

theorem Replying.sourced {action : RuntimeAction}
    (replying : Replying config state.runtime action reply) (sourced : Sourced serve state outputs)
    (staged : state.runtime.Staged) : reply.stageID ≠ 0 ∧ reply.Sourced serve outputs := by
  cases replying with
  | result buffered =>
      rename_i attempts result rest
      have held : result.ticket ∈ state.runtime.tickets := by
        simp [RuntimeState.tickets, buffered]
      refine ⟨staged _ held, fun fine => ⟨result, ?_, rfl, ?_⟩⟩
      · exact (settleResult_ok (Prod.ext fine rfl)).1
      · have plain : result.status = moduleStatusOK := (settleResult_ok (Prod.ext fine rfl)).1
        exact sourced.tickets _ held result.body (.inr (by rw [ModuleResult.ticket, plain]))
  | event handled =>
      refine ⟨(consumeEvent_cases handled).reply_staged, fun fine => ?_⟩
      exact absurd (settleResult_ok (Prod.ext fine rfl)).1 (consumeEvent_refuses handled)

/-- A fragment of a planned reply reads back as its piece. -/
theorem ModuleReply.plan_decoded (staged : reply.stageID ≠ 0)
    (room : moduleMessageHeaderLen < config.inlineBudget.toNat) {fragment : SentFragment}
    (planned : fragment ∈ reply.plan config.inlineBudget) :
    ∃ part, (part, fragment.more) ∈
        pieces (config.inlineBudget.toNat - moduleMessageHeaderLen)
          (settleResult reply.status reply.body).2 ∧
      decodeModuleMessage fragment.payload = .ok (reply.message part.length) ∧
      (reply.message part.length).body fragment.payload = part := by
  obtain ⟨⟨part, more⟩, cut, rfl⟩ := List.mem_map.mp planned
  have limit : moduleMessageMaxBody.toNat < 2 ^ 32 := moduleMessageMaxBody.toNat_lt
  have positive : 0 < config.inlineBudget.toNat - moduleMessageHeaderLen := by omega
  obtain ⟨-, within, -⟩ := pieces_length _ positive _ cut
  have small : part.length ≤ moduleMessageMaxBody.toNat :=
    within.trans (settleResult_sound reply.status reply.body).2
  have exactly : (reply.message part.length).bodyLen.toNat = part.length := by
    simp only [ModuleReply.message, UInt32.toNat_ofNat']
    exact Nat.mod_eq_of_lt (by omega)
  exact ⟨part, cut, ModuleMessage.decode_header (reply.message_valid staged small) exactly.le,
    ModuleMessage.body_header exactly⟩

/-- What a reply fragment says: a piece of what the handler computed, or that
the request was not served. -/
structure FragmentSourced (serve : StageHandler) (config : RuntimeConfig)
    (outputs : List RuntimeOutput) (fragment : SentFragment) (message : ModuleMessage) : Prop where
  decoded : decodeModuleMessage fragment.payload = .ok message
  result : message.operation = moduleOpResult
  served : message.status = moduleStatusOK → ∃ work response,
    Computed serve outputs work response moduleStatusOK ∧ fragment.kind = work.eventKind ∧
      fragment.correlation = work.correlationID ∧
      (message.body fragment.payload, fragment.more) ∈
        pieces (config.inlineBudget.toNat - moduleMessageHeaderLen) response
  refused : message.status ≠ moduleStatusOK →
    fragment.more = false ∧ message.body fragment.payload = []

theorem ModuleReply.Sourced.fragment (sourced : reply.Sourced serve outputs)
    (staged : reply.stageID ≠ 0) (room : moduleMessageHeaderLen < config.inlineBudget.toNat)
    {fragment : SentFragment} (planned : fragment ∈ reply.plan config.inlineBudget) :
    ∃ message, FragmentSourced serve config outputs fragment message := by
  obtain ⟨part, cut, decoded, body⟩ := reply.plan_decoded staged room planned
  obtain ⟨kind, correlation⟩ := ModuleReply.mem_plan planned
  refine ⟨reply.message part.length, decoded, rfl, fun fine => ?_, fun bad => ?_⟩
  · obtain ⟨result, plain, rfl, computed, small⟩ := sourced fine
    have kept : (settleResult result.reply.status result.reply.body).2 = result.body :=
      (settleResult_ok (Prod.ext fine rfl)).2.1.symm
    rw [kept] at cut
    exact ⟨result.work, result.body, computed, kind, correlation, body.symm ▸ cut⟩
  · rw [settleResult_empty bad, pieces_nil, List.mem_singleton, Prod.mk.injEq] at cut
    exact ⟨cut.2, body.trans cut.1⟩

/-- Every fragment sent is one of a reply that is sourced. -/
def RepliesSourced (serve : StageHandler) (config : RuntimeConfig) (outputs : List RuntimeOutput) :
    Prop :=
  ∀ fragment, .replied fragment ∈ outputs → moduleMessageHeaderLen < config.inlineBudget.toNat ∧
    ∃ reply : ModuleReply, reply.stageID ≠ 0 ∧ reply.Sourced serve outputs ∧
      fragment ∈ reply.plan config.inlineBudget

theorem process_plans {actions : List ProcessAction}
    (run : (processMachine serve config).Run .initial actions state outputs) :
    state.runtime.Staged ∧ RepliesSourced serve config outputs := by
  refine run.invariant
    (fun _ state outputs => state.runtime.Staged ∧ RepliesSourced serve config outputs)
    ⟨fun _ member => absurd member List.not_mem_nil,
      fun _ member => absurd member List.not_mem_nil⟩ ?_
  rintro _ state outputs _ next emitted before ⟨staged, replies⟩ taken
  have sourced := process_sourced before
  have stepped : ∃ action, runtimeStep config state.runtime action = some (next.runtime, emitted) := by
    cases processStep_move taken with
    | runtime step silent => exact ⟨_, step⟩
    | returns calling called computed step => exact ⟨_, step⟩
  obtain ⟨action, step⟩ := stepped
  have effect := runtimeStep_effect step
  refine ⟨staged.step effect, fun fragment member => ?_⟩
  rcases List.mem_append.mp member with earlier | fresh
  · obtain ⟨room, reply, named, said, planned⟩ := replies fragment earlier
    exact ⟨room, reply, named, said.mono, planned⟩
  · refine ⟨runtimeStep_causes step _ fresh, ?_⟩
    rcases effect.sends with nothing | ⟨reply, replying, front⟩
    · exact absurd (mem_sentFragments.mpr fresh) (by simp [nothing])
    · obtain ⟨named, said⟩ := replying.sourced sourced staged
      exact ⟨reply, named, said.mono, front.subset (mem_sentFragments.mpr fresh)⟩

/-- Whatever arrives and however the process is scheduled, each reply fragment
it sends is sourced. -/
theorem process_replies {actions : List ProcessAction}
    (run : (processMachine serve config).Run .initial actions state outputs)
    {fragment : SentFragment} (replied : .replied fragment ∈ outputs) :
    moduleMessageHeaderLen < config.inlineBudget.toNat ∧
      ∃ message, FragmentSourced serve config outputs fragment message := by
  obtain ⟨room, reply, staged, sourced, planned⟩ := (process_plans run).2 fragment replied
  exact ⟨room, sourced.fragment staged room planned⟩

end Replies

end AimeeLearning.Bus
