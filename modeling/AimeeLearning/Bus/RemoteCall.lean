import AimeeLearning.Bus.CallerWait
import AimeeLearning.Bus.StageCompletion

/-! A stage call between two clients of the bus. A host that relays the slots of
both directions unchanged makes the call return what the handler answered, as
if the handler had been called in place. -/

set_option autoImplicit false

namespace AimeeLearning.Bus

open Library

/-- The two ends of a stage call and the call itself. -/
structure RemoteStage where
  caller : ModuleCaller
  call : ModuleCall
  /-- The caller's client. -/
  here : Client
  config : RuntimeConfig
  /-- The module's client. -/
  there : Client

def CallerCall.published : CallerCall → Option SentFragment
  | .request kind correlation payload more (.ok ()) => some ⟨kind, correlation, payload, more⟩
  | _ => none

/-- What a call of the handler in place returns. -/
def localResult (response : Bytes) (status : ModuleStatus) : Except CallError Bytes :=
  if status > moduleStatusInternal ∨ response.length > moduleMessageMaxBody.toNat then
    .error (.status moduleStatusInternal)
  else if status = moduleStatusOK then .ok response
  else .error (.status status)

namespace RemoteStage

def correlation (remote : RemoteStage) : UInt64 := remote.caller.next

/-- A call that both ends can carry, without a deadline. -/
structure Sound (remote : RemoteStage) : Prop where
  short : remote.call.request.length ≤ moduleMessageMaxBody.toNat
  kind : kindModuleBase ≤ remote.call.eventKind
  stage : remote.config.stages.stageOf remote.call.eventKind = remote.call.stageID
  named : remote.call.stageID ≠ 0
  handler : remote.config.handler = true
  untimed : remote.call.deadline ≤ 0
  correlated : remote.correlation ≠ 0
  limit : remote.caller.responseLimit = moduleMessageMaxBody
  here : remote.here.Roomy ∧ remote.here.inlineBudget = remote.caller.inlineBudget ∧
    remote.here.outbound.slotSize = remote.here.slotSize ∧
    remote.here.inbound.slotSize = remote.here.slotSize
  there : remote.there.Roomy ∧ remote.there.inlineBudget = remote.config.inlineBudget ∧
    remote.there.outbound.slotSize = remote.there.slotSize ∧
    remote.there.inbound.slotSize = remote.there.slotSize

def requests (remote : RemoteStage) : List SentFragment :=
  (remote.caller.parts remote.call).map fun piece =>
    ⟨remote.call.eventKind, remote.correlation, remote.call.payload 0 piece.1, piece.2⟩

/-- The request as the module serves it. -/
def request (remote : RemoteStage) : StageRequest where
  kind := remote.call.eventKind
  stageID := remote.call.stageID
  correlation := remote.correlation
  traceID := remote.call.traceID
  fragments := remote.requests.map (·.event remote.here fRequest)

/-- The outcome of the call, given what its polls return. -/
def outcome (remote : RemoteStage) (world : CallWorld) (polls : List PollStep) : CallOutcome :=
  remote.caller.call remote.call { world with polls }

variable {remote : RemoteStage} {world : CallWorld}

theorem Sound.serves (sound : remote.Sound) : Serves remote.config remote.request := by
  refine ⟨sound.stage, sound.named, sound.handler, ?_⟩
  rw [← sound.there.2.1]
  exact sound.there.1.envelope

theorem Sound.chunk (sound : remote.Sound) :
    0 < remote.caller.inlineBudget.toNat - moduleMessageHeaderLen := by
  have envelope := sound.here.1.envelope
  rw [sound.here.2.1] at envelope
  unfold moduleMessageHeaderLen
  omega

theorem Sound.part (sound : remote.Sound) {piece : Bytes × Bool}
    (member : piece ∈ remote.caller.parts remote.call) :
    moduleMessageHeaderLen + piece.1.length ≤ remote.here.inlineBudget.toNat ∧
      piece.1.length ≤ moduleMessageMaxBody.toNat := by
  obtain ⟨chunk, inside, -⟩ := pieces_length _ sound.chunk piece member
  have positive := sound.chunk
  have short := sound.short
  rw [sound.here.2.1]
  omega

theorem awaitReply_correlated (caller : ModuleCaller) (correlation : UInt64) (kind : UInt32)
    (other : UInt64) (expiry : Option Int) (polls : List PollStep) (body : Bytes) :
    ({ caller with correlation } : ModuleCaller).awaitReply kind other expiry body polls =
      caller.awaitReply kind other expiry body polls := by
  induction polls generalizing body with
  | nil => rfl
  | cons step rest ih => simp only [ModuleCaller.awaitReply, ModuleCaller.acceptEvent, ih]

theorem call_sent {caller : ModuleCaller} {call : ModuleCall} {world : CallWorld}
    {calls : List CallerCall} (fits : ¬ UInt32.ofNat call.request.length > moduleMessageMaxBody)
    (sent : caller.send call caller.next (ModuleCaller.deadlineNS call world)
      world.requestFragment = (calls, .ok ())) :
    (caller.call call world).result = caller.awaitReply call.eventKind caller.next
        (ModuleCaller.expiry call world) [] world.polls ∧
      ∃ rest, (caller.call call world).calls = calls ++ rest ∧
        rest.filterMap CallerCall.published = [] := by
  have renamed : ({ caller with correlation := caller.next } : ModuleCaller).send call caller.next
      (ModuleCaller.deadlineNS call world) world.requestFragment = (calls, .ok ()) := sent
  simp only [ModuleCaller.call, if_neg fits, renamed, awaitReply_correlated]
  cases caller.awaitReply call.eventKind caller.next (ModuleCaller.expiry call world) []
      world.polls with
  | none => exact ⟨rfl, [], by simp⟩
  | some result =>
      cases result with
      | error failure => exact ⟨rfl, [.cancel call.eventKind caller.next], rfl, rfl⟩
      | ok body => exact ⟨rfl, [], by simp⟩

theorem call_publishes {caller : ModuleCaller} {call : ModuleCall} {world : CallWorld}
    (fits : ¬ UInt32.ofNat call.request.length > moduleMessageMaxBody)
    (room : ¬ caller.inlineBudget.toNat ≤ moduleMessageHeaderLen)
    (sendable : Sendable call (ModuleCaller.deadlineNS call world)
      (List.replicate caller.inlineBudget.toNat (0 : UInt8)).length (caller.parts call))
    (accepted : ∀ index, world.requestFragment index = .ok ()) :
    (caller.call call world).calls.filterMap CallerCall.published =
        (caller.parts call).map (fun piece => ⟨call.eventKind, caller.next,
          call.payload (ModuleCaller.deadlineNS call world) piece.1, piece.2⟩) ∧
      (caller.call call world).result = caller.awaitReply call.eventKind caller.next
        (ModuleCaller.expiry call world) [] world.polls := by
  have sent := @sendPieces_accepted call caller.next (ModuleCaller.deadlineNS call world)
    world.requestFragment 0 _ _ sendable accepted
  obtain ⟨result, rest, calls, silent⟩ := call_sent fits ((if_neg room).trans sent)
  refine ⟨?_, result⟩
  rw [calls, List.filterMap_append, silent, List.append_nil, List.filterMap_map]
  exact congrFun List.filterMap_eq_map _

theorem Sound.sends (sound : remote.Sound)
    (accepted : ∀ index, world.requestFragment index = .ok ()) (polls : List PollStep) :
    (remote.outcome world polls).calls.filterMap CallerCall.published = remote.requests ∧
      (remote.outcome world polls).result = remote.caller.awaitReply remote.call.eventKind
        remote.correlation none [] polls := by
  have maximum : moduleMessageMaxBody.toNat < 2 ^ 32 := moduleMessageMaxBody.toNat_lt
  have short := sound.short
  have fits : ¬ UInt32.ofNat remote.call.request.length > moduleMessageMaxBody := by
    rw [gt_iff_lt, UInt32.lt_iff_toNat_lt, UInt32.toNat_ofNat', Nat.mod_eq_of_lt (by omega)]
    omega
  have untimed : ¬ remote.call.deadline > 0 := not_lt.mpr sound.untimed
  have deadline : ModuleCaller.deadlineNS remote.call { world with polls } = 0 := if_neg untimed
  have expiry : ModuleCaller.expiry remote.call { world with polls } = none := if_neg untimed
  have chunk := sound.chunk
  have sendable : Sendable remote.call 0
      (List.replicate remote.caller.inlineBudget.toNat (0 : UInt8)).length
      (remote.caller.parts remote.call) := by
    intro piece member
    obtain ⟨inside, small⟩ := sound.part member
    rw [sound.here.2.1] at inside
    exact ⟨remote.call.message_valid sound.named small, by simpa using inside⟩
  have published := @call_publishes remote.caller remote.call { world with polls } fits (by omega)
    (deadline.symm ▸ sendable) accepted
  rwa [deadline, expiry] at published

theorem Sound.requests_publishable (sound : remote.Sound) :
    ∀ fragment ∈ remote.requests, Client.Publishable remote.here fRequest fragment.correlation
      fragment.payload := by
  intro fragment member
  obtain ⟨piece, cut, rfl⟩ := List.mem_map.mp member
  exact ⟨.inl rfl, sound.correlated, by simp [ModuleCall.payload, moduleMessageHeaderLen],
    by simpa [ModuleCall.payload] using (sound.part cut).1⟩

def pieceEvent (remote : RemoteStage) (piece : Bytes × Bool) : Event :=
  SentFragment.event ⟨remote.call.eventKind, remote.correlation, remote.call.payload 0 piece.1,
    piece.2⟩ remote.here fRequest

theorem request_fragments :
    remote.request.fragments = (remote.caller.parts remote.call).map remote.pieceEvent := by
  simp [request, requests, pieceEvent, List.map_map, Function.comp_def]

theorem payload_present (part : Bytes) : 0 < (remote.call.payload 0 part).length := by
  simp [ModuleCall.payload, moduleMessageHeaderLen]

theorem Sound.piece_decoded (sound : remote.Sound) {piece : Bytes × Bool}
    (cut : piece ∈ remote.caller.parts remote.call) :
    decodeModuleMessage (remote.pieceEvent piece).payload =
        .ok (remote.call.message 0 piece.1.length) ∧
      fragmentBody (remote.pieceEvent piece) = piece.1 := by
  obtain ⟨read, body⟩ :=
    @ModuleCall.payload_decoded remote.call 0 sound.named piece.1 (sound.part cut).2
  have decoded : decodeModuleMessage (remote.pieceEvent piece).payload =
      .ok (remote.call.message 0 piece.1.length) := read
  refine ⟨decoded, ?_⟩
  rw [fragmentBody, decoded]
  exact body

theorem Sound.requestBody_eq (sound : remote.Sound) :
    requestBody remote.request.fragments = remote.call.request := by
  have bodies : (remote.caller.parts remote.call).map (fragmentBody ∘ remote.pieceEvent) =
      (remote.caller.parts remote.call).map Prod.fst :=
    List.map_congr_left fun piece cut => (sound.piece_decoded cut).2
  rw [requestBody, request_fragments, List.map_map, bodies]
  exact pieces_flatten _ sound.chunk

theorem Sound.formed (sound : remote.Sound) : remote.request.Formed := by
  have each : ∀ event ∈ remote.request.fragments,
      ∃ piece ∈ remote.caller.parts remote.call, remote.pieceEvent piece = event := by
    intro event member
    exact List.mem_map.mp (request_fragments ▸ member)
  constructor
  · intro event member
    obtain ⟨piece, cut, rfl⟩ := each event member
    exact (SentFragment.event_request (payload_present piece.1)).2
  · intro event member
    obtain ⟨piece, cut, rfl⟩ := each event member
    exact ⟨(SentFragment.event_request (payload_present piece.1)).1,
      SentFragment.event_correlation⟩
  · intro event member
    obtain ⟨piece, cut, rfl⟩ := each event member
    refine ⟨?_, _, (sound.piece_decoded cut).1, rfl, rfl, rfl, rfl⟩
    rw [pieceEvent, SentFragment.event_frame (payload_present piece.1)]
    rfl
  · rw [request_fragments, List.map_map]
    refine ClosedBy.relabel (fun piece => ?_) (pieces_closedBy _ sound.chunk)
    exact SentFragment.event_more (payload_present piece.1) (.inl rfl)
  · rw [sound.requestBody_eq]
    exact sound.short

theorem verdict_local (request : StageRequest) (response : Bytes) (status : ModuleStatus) :
    (request.reply response status).verdict (settleResult status response).2 =
      localResult response status := by
  have invalid : (!validModuleStatus status || response.length > moduleMessageMaxBody.toNat) =
      true ↔ status > moduleStatusInternal ∨ response.length > moduleMessageMaxBody.toNat := by
    simp [validModuleStatus]
  by_cases unsound : status > moduleStatusInternal ∨
      response.length > moduleMessageMaxBody.toNat
  · have settled : settleResult status response = (moduleStatusInternal, []) := by
      rw [settleResult, if_pos (invalid.mpr unsound)]
    simp only [ModuleReply.verdict, StageRequest.reply, settled, localResult, if_pos unsound]
    exact if_neg (by decide)
  · by_cases plain : status = moduleStatusOK
    · have settled : settleResult status response = (status, response) := by
        rw [settleResult, if_neg (mt invalid.mp unsound), if_neg (by simp [plain])]
      simp only [ModuleReply.verdict, StageRequest.reply, settled, localResult, if_neg unsound,
        if_pos plain]
    · have settled : settleResult status response = (status, []) := by
        rw [settleResult, if_neg (mt invalid.mp unsound), if_pos (by simp [plain])]
      simp only [ModuleReply.verdict, StageRequest.reply, settled, localResult, if_neg unsound,
        if_neg plain]

theorem Sound.reply_publishable (sound : remote.Sound) (response : Bytes)
    (status : ModuleStatus) :
    ∀ fragment ∈ (remote.request.reply response status).plan remote.config.inlineBudget,
      Client.Publishable remote.there fReply fragment.correlation fragment.payload := by
  intro fragment member
  obtain ⟨piece, cut, rfl⟩ := List.mem_map.mp member
  have envelope := sound.there.1.envelope
  rw [sound.there.2.1] at envelope
  have chunk : 0 < remote.config.inlineBudget.toNat - moduleMessageHeaderLen := by
    unfold moduleMessageHeaderLen
    omega
  have inside := (pieces_length _ chunk piece cut).1
  refine ⟨.inr rfl, sound.correlated, by simp [ModuleReply.fragment, moduleMessageHeaderLen], ?_⟩
  rw [sound.there.2.1]
  simp only [ModuleReply.fragment, List.length_append, ModuleMessage.length_header]
  omega

theorem Sound.awaits (sound : remote.Sound) {response : Bytes} {status : ModuleStatus}
    {polls : List PollStep} {fragments : List SentFragment}
    (undisturbed : ∀ step ∈ polls, step.Undisturbed)
    (within : fragments <+:
      (remote.request.reply response status).plan remote.config.inlineBudget)
    (relayed : Relays remote.there remote.here fReply fragments
      (pollsOf remote.correlation polls)) :
    (∀ result, remote.caller.awaitReply remote.call.eventKind remote.correlation none [] polls =
        some result → pollsOf remote.correlation polls ≠ [] ∧
          result = localResult response status) ∧
      (fragments = (remote.request.reply response status).plan remote.config.inlineBudget →
        remote.caller.awaitReply remote.call.eventKind remote.correlation none [] polls =
          some (localResult response status)) := by
  have envelope := sound.there.1.envelope
  rw [sound.there.2.1] at envelope
  have chunk : 0 < remote.config.inlineBudget.toNat - moduleMessageHeaderLen := by
    unfold moduleMessageHeaderLen
    omega
  have heard := relayed.events_eq sound.there.1
    (fun fragment member => sound.reply_publishable response status fragment (within.subset member))
    sound.there.2.2.1 sound.here.2.2.2
  have joined := pieces_flatten (settleResult status response).2 chunk
  have mapped : ∀ planned : List SentFragment,
      planned = (remote.request.reply response status).plan remote.config.inlineBudget →
        planned.map (·.event remote.there fReply) =
          (pieces (remote.config.inlineBudget.toNat - moduleMessageHeaderLen)
            (settleResult status response).2).map fun piece =>
              ((remote.request.reply response status).fragment piece).event remote.there fReply := by
    rintro planned rfl
    rw [ModuleReply.plan, List.map_map]
    rfl
  have waits := @awaitReply_relayed remote.caller remote.there
    (remote.request.reply response status) sound.named sound.kind sound.limit polls undisturbed
    (pieces (remote.config.inlineBudget.toNat - moduleMessageHeaderLen)
      (settleResult status response).2) [] (pieces_closedBy _ chunk)
    (by rw [joined]; simpa using (settleResult_sound status response).2)
    (by rw [← mapped _ rfl]; exact heard ▸ within.map _)
  rw [joined, List.nil_append, verdict_local] at waits
  refine ⟨waits.1, fun whole => waits.2 ?_⟩
  rw [← mapped _ whole]
  exact heard

/-- The handler was called once, with the request, and answered; the call
returns its answer once the whole reply has been polled. -/
structure Answered (remote : RemoteStage) (world : CallWorld) (outputs : List RuntimeOutput)
    (response : Bytes) (status : ModuleStatus) : Prop where
  invoked : invokedOf remote.correlation outputs = [remote.call.request]
  answered : answersOf remote.correlation outputs = [(response, status)]
  returned : ∀ polls, (∀ step ∈ polls, step.Undisturbed) →
    Relays remote.there remote.here fReply (repliedOf remote.correlation outputs)
      (pollsOf remote.correlation polls) →
    (remote.outcome world polls).result = some (localResult response status)

/-- What a call and the module that serves it make of each other after a run
of the module. -/
structure Transparent (remote : RemoteStage) (world : CallWorld) (events : List Event)
    (state : RuntimeState) (outputs : List RuntimeOutput) : Prop where
  once : invokedOf remote.correlation outputs <+: [remote.call.request]
  sound : ∀ polls fragments result, (∀ step ∈ polls, step.Undisturbed) →
    fragments <+: repliedOf remote.correlation outputs →
    Relays remote.there remote.here fReply fragments (pollsOf remote.correlation polls) →
    (remote.outcome world polls).result = some result →
    ∃ response status, invokedOf remote.correlation outputs = [remote.call.request] ∧
      answersOf remote.correlation outputs = [(response, status)] ∧
      result = localResult response status
  settled : receivedOf remote.correlation outputs = events →
    state.ticketsOf remote.correlation = [] →
    ∃ response status, remote.Answered world outputs response status
  completes : ∀ response status,
    (receivedOf remote.correlation outputs ≠ events → state.Room remote.correlation) →
    ∃ actions next emitted,
      ((runtimeMachine remote.config).restrict (calm remote.correlation)).Run state actions next
        emitted ∧
      receivedOf remote.correlation (outputs ++ emitted) = events ∧
      ∃ given final, remote.Answered world (outputs ++ emitted) given final ∧
        (answersOf remote.correlation outputs = [] → (given, final) = (response, status))

theorem Sound.settles {state : RuntimeState} {outputs : List RuntimeOutput}
    (sound : remote.Sound) (accepted : ∀ index, world.requestFragment index = .ok ())
    (serving : Serving remote.config remote.request state outputs)
    (whole : receivedOf remote.correlation outputs = remote.request.fragments)
    (landed : state.ticketsOf remote.correlation = []) :
    ∃ response status, remote.Answered world outputs response status := by
  obtain ⟨invoked, response, status, answered, replied⟩ := serving.served.landed whole landed
  rw [sound.requestBody_eq] at invoked
  refine ⟨response, status, invoked, answered, fun polls undisturbed relayed => ?_⟩
  rw [(sound.sends accepted polls).2]
  exact (sound.awaits undisturbed (replied ▸ List.prefix_refl _) relayed).2 replied

/-- A call over the bus is transparent in every calm run of the module. -/
theorem remote_call_local (sound : remote.Sound)
    (accepted : ∀ index, world.requestFragment index = .ok ()) {events : List Event}
    (relayed : Relays remote.here remote.there fRequest
      ((remote.outcome world world.polls).calls.filterMap CallerCall.published) events)
    {actions : List RuntimeAction} {state : RuntimeState} {outputs : List RuntimeOutput}
    (run : ((runtimeMachine remote.config).restrict (calm remote.correlation)).Run .initial actions
      state outputs)
    (received : receivedOf remote.correlation outputs <+: events)
    (uncancelled : ∀ event, .consumed event ∈ outputs →
      event.frame.correlationId = remote.correlation → event.frame.has fCancel = false) :
    remote.Transparent world events state outputs := by
  rw [(sound.sends accepted world.polls).1] at relayed
  obtain rfl : events = remote.request.fragments :=
    relayed.events_eq sound.here.1 sound.requests_publishable sound.here.2.2.1 sound.there.2.2.2
  have serving := serving_run sound.serves sound.formed run received uncancelled
  constructor
  · have atomic := serving.phase.atomic
    rcases calls : invokedOf remote.correlation outputs with _ | ⟨body, rest⟩
    · exact List.nil_prefix
    · have alone := atomic.invokedOnce
      have body_eq := (atomic.complete body (by
        rw [show invokedOf remote.request.correlation outputs = _ from calls]
        exact List.mem_cons_self)).2
      rw [show invokedOf remote.request.correlation outputs = _ from calls] at alone
      obtain rfl : rest = [] := by simpa using alone
      exact (body_eq.trans sound.requestBody_eq) ▸ List.prefix_refl _
  · intro polls fragments result undisturbed within heard returned
    rw [(sound.sends accepted polls).2] at returned
    by_cases silent : repliedOf remote.correlation outputs = []
    · obtain rfl : fragments = [] := List.prefix_nil.mp (silent ▸ within)
      have nothing := (@Sound.awaits remote sound [] moduleStatusOK polls [] undisturbed
        List.nil_prefix heard).1 result returned
      cases heard_ : pollsOf remote.correlation polls with
      | nil => exact absurd heard_ nothing.1
      | cons event rest =>
          rw [heard_] at heard
          cases heard
    · obtain ⟨whole, landed⟩ := serving.landed_of_replied silent
      obtain ⟨invoked, response, status, answered, replied⟩ := serving.served.landed whole landed
      rw [sound.requestBody_eq] at invoked
      exact ⟨response, status, invoked, answered,
        ((sound.awaits undisturbed (replied ▸ within) heard).1 result returned).2⟩
  · exact sound.settles accepted serving
  · intro response status room
    obtain ⟨remaining, whole⟩ := received
    obtain ⟨actions, next, emitted, further, complete, consumed, landed, answers⟩ :=
      serving.completes sound.serves sound.formed whole
        (fun nonempty => room fun all => nonempty (by simpa [all] using whole)) response status
    have after := serving.run sound.serves sound.formed further (complete ▸ List.prefix_refl _)
      fun event said _ => sound.formed.kept event (consumed event said)
    obtain ⟨given, final, answered⟩ := sound.settles accepted after complete landed
    refine ⟨actions, next, emitted, further, complete, given, final, answered, fun none_ => ?_⟩
    have single := answered.answered
    rw [answersOf_append, none_, List.nil_append] at single
    simpa using single.symm.trans (answers none_)

/-- Two clients on rings of two slots whose budgets leave two body bytes. -/
def pairedClient : Client where
  handle := 1
  slotSize := 128
  inlineBudget := 42
  arenaSize := 0
  attachedEpoch := 0
  control := true
  inbound := ⟨128, 2, 1, 192⟩
  outbound := ⟨128, 2, 1, 192⟩
  pendingRead := false

/-- Three request bytes to the first stage. -/
def pairedStage : RemoteStage where
  caller := ⟨42, 6, moduleMessageMaxBody⟩
  call := ⟨kindModuleBase, 1, 9, 0, [1, 2, 3]⟩
  here := pairedClient
  config := { servingConfig with inlineBudget := 42 }
  there := pairedClient

theorem pairedStage_sound : pairedStage.Sound := by
  have roomy : pairedClient.Roomy := ⟨by decide, by decide, by decide⟩
  exact ⟨by decide, by decide, by decide, by decide, rfl, by decide, by decide, rfl,
    ⟨roomy, rfl, rfl, rfl⟩, ⟨roomy, rfl, rfl, rfl⟩⟩

def pairedWorld : CallWorld := ⟨0, 0, fun _ => .ok (), []⟩

/-- The module gathers two fragments, answers, and meets a full ring once. -/
def pairedActions : List RuntimeAction :=
  pairedStage.request.fragments.flatMap (iteration · []) ++
    [.invoke 0, .handlerReturns 0 [7, 8, 9] moduleStatusOK, .checkCancelled 0 5, .deliver 0,
      .receive [{ result := .ok () }, { result := .error .errWouldBlock },
        { result := .ok () }]]

theorem pairedStage_relays :
    Relays pairedStage.here pairedStage.there fRequest pairedStage.requests
      (pairedStage.requests.map (·.event pairedStage.here fRequest)) := by
  have fits : pairedStage.here.outbound.Fits (List.replicate 448 (0 : UInt8)).length :=
    ⟨⟨1, by decide, by decide⟩, by decide, by decide, by decide, by decide,
      by rw [List.length_replicate]; decide⟩
  have room : pairedStage.here.outbound.produceBegin (List.replicate 448 0) = some 192 := by
    decide +kernel
  refine List.forall₂_map_right_iff.mpr (List.forall₂_same.mpr fun fragment member => ?_)
  exact @relayed_of_room pairedStage.here fRequest pairedStage.there fragment 0 _ _
    pairedStage_sound.here.1 (pairedStage_sound.requests_publishable fragment member) fits rfl rfl
    rfl rfl rfl room

/-- An output that consumes no cancel frame. -/
def uncancelled : RuntimeOutput → Bool
  | .consumed event => !event.frame.has fCancel
  | _ => true

theorem remote_call_local_paired :
    ∃ state outputs, ((runtimeMachine pairedStage.config).restrict
        (calm pairedStage.correlation)).Run .initial pairedActions state outputs ∧
      pairedStage.requests.length = 2 ∧ (repliedOf 7 outputs).length = 2 ∧
      invokedOf 7 outputs = [[1, 2, 3]] ∧
      answersOf 7 outputs = [([7, 8, 9], moduleStatusOK)] ∧
      pairedStage.Transparent pairedWorld
        (pairedStage.requests.map (·.event pairedStage.here fRequest)) state outputs := by
  have executed : (((runtimeMachine pairedStage.config).restrict
      (calm pairedStage.correlation)).execute .initial pairedActions).any (fun final =>
        receivedOf 7 final.2 == pairedStage.request.fragments && invokedOf 7 final.2 == [[1, 2, 3]]
          && answersOf 7 final.2 == [([7, 8, 9], moduleStatusOK)]
          && (repliedOf 7 final.2).length == 2 && final.2.all uncancelled) = true := by
    decide +kernel
  obtain ⟨⟨state, outputs⟩, ran, same⟩ := (Option.any_eq_true _ _).mp executed
  simp only [Bool.and_eq_true, beq_iff_eq] at same
  obtain ⟨⟨⟨⟨received, invoked⟩, answered⟩, replied⟩, kept⟩ := same
  refine ⟨state, outputs, Machine.run_of_execute ran, by decide +kernel, replied, invoked,
    answered, ?_⟩
  have accepted : ∀ index, pairedWorld.requestFragment index = .ok () := fun _ => rfl
  refine remote_call_local pairedStage_sound accepted ?_ (Machine.run_of_execute ran) ?_ ?_
  · rw [(pairedStage_sound.sends accepted pairedWorld.polls).1]
    exact pairedStage_relays
  · exact received ▸ List.prefix_refl _
  · intro event consumed _
    simpa [uncancelled] using List.all_eq_true.mp kept _ consumed

end RemoteStage

end AimeeLearning.Bus
