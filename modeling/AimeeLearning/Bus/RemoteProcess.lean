import AimeeLearning.Bus.RemoteCall
import AimeeLearning.Bus.StageProcess

/-! A stage call to a module process. While the process is calm the call returns
what its handler makes of the request when it is called in place and not
cancelled. -/

set_option autoImplicit false

namespace AimeeLearning.Bus

open Library

section Calm

variable {serve : StageHandler} {config : RuntimeConfig} {request : StageRequest}
  {state : ProcessState} {outputs : List RuntimeOutput}

/-- The calm runs of a process, as one correlation sees them. -/
def calmProcess (serve : StageHandler) (config : RuntimeConfig) (correlation : UInt64) :
    Machine ProcessState ProcessAction RuntimeOutput :=
  (processMachine serve config).restrict (permitted (calm correlation))

theorem process_serving (serves : Serves config request) (formed : request.Formed)
    {actions : List ProcessAction}
    (run : (calmProcess serve config request.correlation).Run .initial actions state outputs)
    (within : receivedOf request.correlation outputs <+: request.fragments)
    (uncancelled : ∀ event, .consumed event ∈ outputs →
      event.frame.correlationId = request.correlation → event.frame.has fCancel = false) :
    Serving config request state.runtime outputs := by
  obtain ⟨steps, runtime⟩ := process_runtime (fun _ _ _ _ => rfl) run
  exact serving_run serves formed runtime within uncancelled

/-- The invocation and the work of a ticket share their cancel flag. -/
def RuntimeState.SharesFlags (state : RuntimeState) : Prop :=
  ∀ ticket ∈ state.tickets, ticket.work.invocation.cancelled = ticket.work.cancelled

theorem process_sharesFlags {actions : List ProcessAction}
    (run : (calmProcess serve config request.correlation).Run .initial actions state outputs) :
    state.runtime.SharesFlags := by
  obtain ⟨steps, runtime⟩ := process_runtime (fun _ _ _ _ => rfl) run
  refine runtime.unrestricted.invariant (fun _ state _ => state.SharesFlags)
    (fun _ member => absurd member List.not_mem_nil) ?_
  intro _ state _ action next emitted _ shared taken
  exact @RuntimeEffect.works _ _ _ _ _ (fun work => work.invocation.cancelled = work.cancelled)
    (runtimeStep_effect taken) shared fun _ _ _ _ _ _ => rfl

theorem Flies.uncancelled {runtime : RuntimeState} {ticket : HandlerRun}
    (flies : Flies request runtime outputs ticket)
    (shared : ticket.work.invocation.cancelled = ticket.work.cancelled) (now : UInt64) :
    ticket.work.invocation.isCancelled runtime.flags now = false := by
  have clear := flies.clear
  rw [flagOf, ← shared] at clear
  simp [ModuleInvocation.isCancelled, clear, flies.deadline]

/-- What the handler answered to the request, it answered uncancelled. -/
def AnsweredPlainly (serve : StageHandler) (request : StageRequest)
    (outputs : List RuntimeOutput) : Prop :=
  ∀ work response status, .answered work response status ∈ outputs →
    work.correlationID = request.correlation →
      ∃ body, .invoked work body ∈ outputs ∧ serve request.stageID false body = (response, status)

theorem process_answers (serves : Serves config request) (formed : request.Formed)
    {actions : List ProcessAction}
    (run : (calmProcess serve config request.correlation).Run .initial actions state outputs)
    (within : receivedOf request.correlation outputs <+: request.fragments)
    (uncancelled : ∀ event, .consumed event ∈ outputs →
      event.frame.correlationId = request.correlation → event.frame.has fCancel = false) :
    AnsweredPlainly serve request outputs := by
  refine run.invariant (fun _ _ outputs =>
    receivedOf request.correlation outputs <+: request.fragments →
      (∀ event, .consumed event ∈ outputs →
        event.frame.correlationId = request.correlation → event.frame.has fCancel = false) →
        AnsweredPlainly serve request outputs)
    (fun _ _ _ _ _ member => absurd member List.not_mem_nil) ?_ within uncancelled
  intro actions state earlier action next emitted before holds step within uncancelled
  have front : receivedOf request.correlation earlier <+: request.fragments :=
    (receivedOf_append ▸ List.prefix_append _ _).trans within
  have kept : ∀ event, .consumed event ∈ earlier →
      event.frame.correlationId = request.correlation → event.frame.has fCancel = false :=
    fun event member => uncancelled event (List.mem_append_left _ member)
  obtain ⟨-, taken⟩ := Machine.restrict_step.mp step
  intro work response status member owned
  rcases List.mem_append.mp member with sooner | fresh
  · obtain ⟨body, invoked, computed⟩ := holds front kept work response status sooner owned
    exact ⟨body, List.mem_append_left _ invoked, computed⟩
  · cases processStep_move taken with
    | runtime moved silent => exact absurd fresh (silent _ _ _)
    | returns calling called computed moved =>
        rename_i position now runtime other body given final
        obtain ⟨rfl, rfl, rfl⟩ := RuntimeOutput.answered.inj (List.mem_singleton.mp fresh)
        have ticket : ⟨work, .calling⟩ ∈ state.runtime.tickets := List.mem_append_left _ calling
        have mine : ⟨work, .calling⟩ ∈ state.runtime.ticketsOf request.correlation :=
          List.mem_filter.mpr ⟨ticket, by simpa using owned⟩
        have flies := (process_serving serves formed before front kept).served.flying _ mine
        rw [flies.uncancelled (process_sharesFlags before _ ticket), flies.stage] at computed
        obtain ⟨actions, free⟩ : ∃ actions, (processMachine serve config).Run .initial actions
            state earlier := ⟨_, before.unrestricted⟩
        exact ⟨body, List.mem_append_left _ ((process_sourced free).called _ _ called), computed⟩

end Calm

theorem mem_answersOf {correlation : UInt64} {outputs : List RuntimeOutput} {response : Bytes}
    {status : ModuleStatus} (member : (response, status) ∈ answersOf correlation outputs) :
    ∃ work, .answered work response status ∈ outputs ∧ work.correlationID = correlation := by
  obtain ⟨output, present, same⟩ := List.mem_filterMap.mp member
  cases output with
  | answered work given final =>
      dsimp only at same
      split at same
      · rename_i owned
        obtain ⟨rfl, rfl⟩ := Prod.mk.inj (Option.some.inj same)
        exact ⟨work, present, eq_of_beq owned⟩
      · cases same
  | _ => cases same

namespace RemoteStage

variable {remote : RemoteStage} {world : CallWorld} {serve : StageHandler}

/-- What the handler makes of the request, called in place and not cancelled. -/
def inPlace (remote : RemoteStage) (serve : StageHandler) : Except CallError Bytes :=
  localResult (serve remote.call.stageID false remote.call.request).1
    (serve remote.call.stageID false remote.call.request).2

/-- A call and the process that serves it, after a calm run of the process. -/
structure CalmCall (remote : RemoteStage) (serve : StageHandler) (state : ProcessState)
    (outputs : List RuntimeOutput) : Prop where
  serving : Serving remote.config remote.request state.runtime outputs
  plain : AnsweredPlainly serve remote.request outputs

section Calls

variable {state : ProcessState} {outputs : List RuntimeOutput}

theorem Sound.calmCall (sound : remote.Sound) {actions : List ProcessAction}
    (run : (calmProcess serve remote.config remote.correlation).Run .initial actions state outputs)
    (received : receivedOf remote.correlation outputs <+: remote.request.fragments)
    (uncancelled : ∀ event, .consumed event ∈ outputs →
      event.frame.correlationId = remote.correlation → event.frame.has fCancel = false) :
    remote.CalmCall serve state outputs :=
  ⟨process_serving sound.serves sound.formed run received uncancelled,
    process_answers sound.serves sound.formed run received uncancelled⟩

/-- Once its job has landed, the request was answered as in place. -/
theorem CalmCall.answered (calm : remote.CalmCall serve state outputs) (sound : remote.Sound)
    (whole : receivedOf remote.correlation outputs = remote.request.fragments)
    (landed : state.runtime.ticketsOf remote.correlation = []) :
    ∃ response status, localResult response status = remote.inPlace serve ∧
      repliedOf remote.correlation outputs =
        (remote.request.reply response status).plan remote.config.inlineBudget := by
  obtain ⟨invoked, response, status, answered, replied⟩ := calm.serving.served.landed whole landed
  rw [sound.requestBody_eq] at invoked
  refine ⟨response, status, ?_, replied⟩
  have single : (response, status) ∈ answersOf remote.request.correlation outputs := by
    rw [answered]
    exact List.mem_singleton_self _
  obtain ⟨work, said, owned⟩ := mem_answersOf single
  obtain ⟨body, called, computed⟩ := calm.plain work response status said owned
  have body_eq : body ∈ invokedOf remote.request.correlation outputs := by
    refine List.mem_filterMap.mpr ⟨_, called, ?_⟩
    simp [owned]
  rw [invoked, List.mem_singleton] at body_eq
  subst body_eq
  have stage : remote.request.stageID = remote.call.stageID := rfl
  rw [stage] at computed
  rw [inPlace, computed]

/-- What polls that bring replies to the request make the call return. -/
theorem CalmCall.agrees (calm : remote.CalmCall serve state outputs) (sound : remote.Sound)
    (accepted : ∀ index, world.requestFragment index = .ok ()) {polls : List PollStep}
    (undisturbed : ∀ step ∈ polls, step.Undisturbed) {fragments : List SentFragment}
    (within : fragments <+: repliedOf remote.correlation outputs)
    (heard : Relays remote.there remote.here fReply fragments (pollsOf remote.correlation polls))
    {result : Except CallError Bytes} (returned : (remote.outcome world polls).result = some result) :
    result = remote.inPlace serve := by
  rw [(sound.sends accepted polls).2] at returned
  by_cases silent : repliedOf remote.correlation outputs = []
  · -- without a reply the wait cannot have ended
    obtain rfl : fragments = [] := List.prefix_nil.mp (silent ▸ within)
    obtain ⟨spoken, -⟩ := (@Sound.awaits remote sound [] moduleStatusOK polls [] undisturbed
      List.nil_prefix heard).1 result returned
    exact absurd (List.forall₂_nil_left_iff.mp heard) spoken
  · obtain ⟨whole, landed⟩ := calm.serving.landed_of_replied silent
    obtain ⟨response, status, same, replied⟩ := calm.answered sound whole landed
    rw [← same]
    exact ((sound.awaits undisturbed (replied ▸ within) heard).1 result returned).2

/-- What a call of a calm process returns is what its handler makes of the
request in place, and once the job has landed it does return. -/
theorem process_call (sound : remote.Sound)
    (accepted : ∀ index, world.requestFragment index = .ok ()) {events : List Event}
    (relayed : Relays remote.here remote.there fRequest
      ((remote.outcome world world.polls).calls.filterMap CallerCall.published) events)
    {actions : List ProcessAction}
    (run : (calmProcess serve remote.config remote.correlation).Run .initial actions state outputs)
    (received : receivedOf remote.correlation outputs <+: events)
    (uncancelled : ∀ event, .consumed event ∈ outputs →
      event.frame.correlationId = remote.correlation → event.frame.has fCancel = false)
    {polls : List PollStep} (undisturbed : ∀ step ∈ polls, step.Undisturbed) :
    (∀ fragments result, fragments <+: repliedOf remote.correlation outputs →
      Relays remote.there remote.here fReply fragments (pollsOf remote.correlation polls) →
      (remote.outcome world polls).result = some result → result = remote.inPlace serve) ∧
    (receivedOf remote.correlation outputs = events →
      state.runtime.ticketsOf remote.correlation = [] →
      Relays remote.there remote.here fReply (repliedOf remote.correlation outputs)
        (pollsOf remote.correlation polls) →
      (remote.outcome world polls).result = some (remote.inPlace serve)) := by
  rw [(sound.sends accepted world.polls).1] at relayed
  obtain rfl : events = remote.request.fragments :=
    relayed.events_eq sound.here.1 sound.requests_publishable sound.here.2.2.1 sound.there.2.2.2
  have calm := sound.calmCall run received uncancelled
  refine ⟨fun fragments result within heard returned =>
    calm.agrees sound accepted undisturbed within heard returned, fun whole landed heard => ?_⟩
  obtain ⟨response, status, same, replied⟩ := calm.answered sound whole landed
  rw [(sound.sends accepted polls).2, ← same]
  exact (sound.awaits undisturbed (replied ▸ List.prefix_refl _) heard).2 replied

end Calls

end RemoteStage

end AimeeLearning.Bus
