import AimeeLearning.Bus.OrderlyStop
import AimeeLearning.Bus.RemoteProcess
import AimeeLearning.Observe.Classification

/-! The learning module as it is run: a process on the module bus whose one
stage classifies signals. What it says about a signal is what the policy says,
and a caller on the bus learns exactly that. -/

set_option autoImplicit false

namespace AimeeLearning.Observe

open Library Bus

def eventObserve : UInt32 := 6145

/-- The configuration `main` runs the module with. -/
def learningConfig (socketPath : String) : ModuleProcessConfig where
  socketPath := socketPath
  moduleName := "learning"
  principalClass := 1
  principalRef := 8
  stages := [⟨eventObserve, stageObserve⟩]
  handler := true

def learningStages : StageTable := (∅ : StageTable).insert eventObserve stageObserve

/-- The exit status of `main`, once RunModuleProcess returns. -/
def learningMain (args : List String) (dials : List Dial) (ctxErr : Bool)
    (runModuleClient : RuntimeConfig → Except RuntimeError Unit) : Option Nat :=
  match args with
  | [_, socketPath] =>
      (runModuleProcess (learningConfig socketPath) dials ctxErr runModuleClient).map exitStatus
  | _ => some 2

theorem learningConfig_valid (socketPath : String) :
    validateModuleConfig (learningConfig socketPath) =
      if socketPath = "" then .error .errModuleConfig else .ok learningStages := by
  by_cases empty : socketPath = ""
  · simp [validateModuleConfig, learningConfig, empty]
  · simp [validateModuleConfig, learningConfig, empty]
    rfl

section Exit

variable {name socketPath : String} {dials : List Dial} {client : Client}
  (serve : RuntimeConfig → Except RuntimeError Unit)

theorem learningConfig_stages (given : socketPath ≠ "") :
    validateModuleConfig (learningConfig socketPath) = .ok learningStages := by
  rw [learningConfig_valid, if_neg given]

theorem learningMain_connected (given : socketPath ≠ "")
    (connected : connectModule dials = some (.ok client)) (ctxErr : Bool) :
    learningMain [name, socketPath] dials ctxErr serve = some 0 ↔
      serve ((learningConfig socketPath).runtime learningStages client) = .ok () :=
  runModuleProcess_connected (learningConfig_stages given) connected ctxErr serve

theorem learningMain_unconnected (given : socketPath ≠ "") {failure : ConnectError}
    (stopped : connectModule dials = some (.error failure)) :
    learningMain [name, socketPath] dials true serve = some 0 :=
  runModuleProcess_unconnected (learningConfig_stages given) stopped serve

end Exit

section Replies

variable {config : RuntimeConfig} {state : ProcessState} {outputs : List RuntimeOutput}

theorem handle_served {stageID : UInt32} {cancelled : Bool} {request response : Bytes}
    (served : handle stageID cancelled request = (response, moduleStatusOK)) :
    goRefuses stageID request = false ∧
      response = uint32Bytes responseMagic ++ uint32Bytes (goMask (declaredSignal request)) := by
  unfold handle at served
  split at served
  · exact absurd (Prod.mk.inj served).2 (by decide)
  · rename_i accepted
    split at served
    · exact absurd (Prod.mk.inj served).2 (by decide)
    · exact ⟨by simpa using accepted, (Prod.mk.inj served).1.symm⟩

/-- What an OK fragment says of the request it answers. -/
structure Classifies (config : RuntimeConfig) (request : Bytes) (fragment : SentFragment)
    (message : ModuleMessage) : Prop where
  piece : ∃ response, (∀ sinkMask, responseDecode response sinkMask =
      (0, goMask (declaredSignal request))) ∧
    (message.body fragment.payload, fragment.more) ∈
      pieces (config.inlineBudget.toNat - moduleMessageHeaderLen) response
  whole : moduleMessageHeaderLen + responseLen ≤ config.inlineBudget.toNat →
    fragment.more = false ∧ ∀ sinkMask, responseDecode (message.body fragment.payload) sinkMask =
      (0, goMask (declaredSignal request))
  policy : signalPolicySinkMask (terminated (declaredSignal request)) =
    some (goMask (declaredSignal request)) ↔ SignalAgrees (declaredSignal request)

theorem classifies {work : ModuleWork} {request response : Bytes} {cancelled : Bool}
    {fragment : SentFragment} {message : ModuleMessage}
    (served : handle work.invocation.stageID cancelled request = (response, moduleStatusOK))
    (piece : (message.body fragment.payload, fragment.more) ∈
      pieces (config.inlineBudget.toNat - moduleMessageHeaderLen) response) :
    goRefuses work.invocation.stageID request = false ∧
      Classifies config request fragment message := by
  obtain ⟨accepted, rfl⟩ := handle_served served
  have reads := responseDecode_response (declaredSignal request)
  have accepted_here : goRefuses stageObserve request = false := by
    rw [goRefuses_stage, Bool.or_eq_false_iff] at accepted
    exact accepted.2
  refine ⟨accepted, ⟨_, reads, piece⟩, fun roomy => ?_,
    mask_agrees_iff (declaredSignal_ne_nil accepted_here)⟩
  have length : (uint32Bytes responseMagic ++
      uint32Bytes (goMask (declaredSignal request))).length = responseLen := by simp [responseLen]
  rw [pieces_of_le (by omega), List.mem_singleton, Prod.mk.injEq] at piece
  refine ⟨piece.2, fun sinkMask => ?_⟩
  rw [piece.1]
  exact reads sinkMask

/-- Whatever its peers send and however it is scheduled, the learning module
answers OK only to a request it was invoked with, kind and correlation kept, and
with the mask of the signal that request declares; its other answers are bare. -/
theorem learning_replies {actions : List ProcessAction}
    (run : (processMachine handle config).Run .initial actions state outputs)
    {fragment : SentFragment} (replied : .replied fragment ∈ outputs) :
    ∃ message, decodeModuleMessage fragment.payload = .ok message ∧
      message.operation = moduleOpResult ∧
      (message.status = moduleStatusOK → ∃ work request, .invoked work request ∈ outputs ∧
        fragment.kind = work.eventKind ∧ fragment.correlation = work.correlationID ∧
        goRefuses work.invocation.stageID request = false ∧
        Classifies config request fragment message) ∧
      (message.status ≠ moduleStatusOK →
        fragment.more = false ∧ message.body fragment.payload = []) := by
  obtain ⟨-, message, sourced⟩ := process_replies run replied
  refine ⟨message, sourced.decoded, sourced.result, fun fine => ?_, sourced.refused⟩
  obtain ⟨work, response, ⟨request, cancelled, invoked, computed⟩, kind, correlation, piece⟩ :=
    sourced.served fine
  obtain ⟨accepted, classified⟩ := classifies computed piece
  exact ⟨work, request, invoked, kind, correlation, accepted, classified⟩

/-- A client of the module bus on rings of two slots. -/
def observingClient : Client := { RemoteStage.pairedClient with inlineBudget := 64 }

/-- A correction is asked for over that client; its request takes two fragments. -/
def correctionStage : RemoteStage where
  caller := ⟨64, 6, moduleMessageMaxBody⟩
  call := ⟨eventObserve, stageObserve, 9, 0, requestBytes (cstr "correction")⟩
  here := observingClient
  config := (learningConfig "/run/bus.sock").runtime learningStages observingClient
  there := observingClient

theorem correctionStage_sound : correctionStage.Sound := by
  have roomy : observingClient.Roomy := ⟨by decide, by decide, by decide⟩
  exact ⟨by decide, by decide, by decide, by decide, rfl, by decide, by decide, rfl,
    ⟨roomy, rfl, rfl, rfl⟩, ⟨roomy, rfl, rfl, rfl⟩⟩

def correctionActions : List ProcessAction :=
  (correctionStage.request.fragments.flatMap (iteration · [])).map .runtime ++
    [.runtime (.invoke 0), .returns 0 0, .runtime (.checkCancelled 0 5), .runtime (.deliver 0),
      .runtime (.receive [{ result := .ok () }])]

/-- The answer to the correction. -/
def correctionReply : SentFragment :=
  (correctionStage.request.reply (uint32Bytes responseMagic ++ uint32Bytes 7)
    moduleStatusOK).fragment (uint32Bytes responseMagic ++ uint32Bytes 7, false)

theorem correction_served :
    ∃ state outputs, (calmProcess handle correctionStage.config 7).Run .initial correctionActions
        state outputs ∧
      receivedOf 7 outputs = correctionStage.request.fragments ∧
      repliedOf 7 outputs = [correctionReply] ∧ .replied correctionReply ∈ outputs ∧
      state.runtime.ticketsOf 7 = [] ∧ ∀ output ∈ outputs, RemoteStage.uncancelled output = true := by
  have executed : ((calmProcess handle correctionStage.config 7).execute .initial
      correctionActions).any (fun final =>
        receivedOf 7 final.2 == correctionStage.request.fragments &&
          repliedOf 7 final.2 == [correctionReply] && final.2.contains (.replied correctionReply) &&
          final.1.runtime.ticketsOf 7 == [] && final.2.all RemoteStage.uncancelled) = true := by
    decide +kernel
  obtain ⟨⟨state, outputs⟩, ran, same⟩ := (Option.any_eq_true _ _).mp executed
  simp only [Bool.and_eq_true, beq_iff_eq, List.contains_iff_mem, List.all_eq_true] at same
  obtain ⟨⟨⟨⟨received, replied⟩, member⟩, landed⟩, kept⟩ := same
  exact ⟨state, outputs, Machine.run_of_execute ran, received, replied, member, landed, kept⟩

/-- The module answers the correction, and with the mask of its policy. -/
theorem learning_replies_correction :
    ∃ state outputs message, (processMachine handle correctionStage.config).Run .initial
        correctionActions state outputs ∧ .replied correctionReply ∈ outputs ∧
      decodeModuleMessage correctionReply.payload = .ok message ∧
      message.status = moduleStatusOK ∧ ∃ request,
        Classifies correctionStage.config request correctionReply message := by
  obtain ⟨state, outputs, run, -, -, replied, -⟩ := correction_served
  obtain ⟨message, decoded, -, served, -⟩ := learning_replies run.unrestricted replied
  have read : (decodeModuleMessage correctionReply.payload).map (·.status) =
      .ok moduleStatusOK := by decide +kernel
  rw [decoded] at read
  have fine : message.status = moduleStatusOK := Except.ok.inj read
  obtain ⟨work, request, -, -, -, -, classified⟩ := served fine
  exact ⟨state, outputs, message, run.unrestricted, replied, decoded, fine, request, classified⟩

end Replies

section Calls

variable {remote : RemoteStage} {world : CallWorld} {text out filled : Bytes}

/-- In place the handler classifies an encoded signal. -/
theorem inPlace_classified (stage : remote.call.stageID = stageObserve) (free : 0 ∉ text)
    (encoded : requestEncode (some (terminated text)) out = some filled)
    (request : remote.call.request = filled.take requestLen) :
    signalPolicySinkMask (terminated text) = some (goMask text) ∧
      remote.inPlace handle =
        .ok (uint32Bytes responseMagic ++ uint32Bytes (goMask text)) := by
  have long : requestLen ≤ out.length := by
    by_contra short
    rw [requestEncode, if_pos (by simp [not_le.mp short])] at encoded
    cases encoded
  rw [requestEncode_eq long free] at encoded
  split at encoded
  · rename_i fits
    obtain rfl := Option.some.inj encoded
    rw [List.take_left' (length_requestBytes fits.2)] at request
    obtain ⟨accepted, declared⟩ := requestBytes_fields fits.1 fits.2
    have nonempty : text ≠ [] := List.length_pos_iff.mp fits.1
    refine ⟨?_, ?_⟩
    · rw [signalPolicySinkMask_eq, cString_terminated, cString_eq_self_iff.mpr free,
        if_neg nonempty]
    · have handled : handle stageObserve false (requestBytes text) =
          (uint32Bytes responseMagic ++ uint32Bytes (goMask text), moduleStatusOK) := by
        rw [declaredSignal] at declared
        simp only [handle, accepted, declared, Bool.false_eq_true, if_false]
      rw [RemoteStage.inPlace, stage, request, handled, localResult, if_neg, if_pos rfl]
      simp [moduleStatusOK, moduleStatusInternal, moduleMessageMaxBody]
  · cases encoded

/-- A signal encoded on the C side, called over the bus and served by the
learning module comes back, if it comes back, as the mask of the local policy;
and it does once the module has answered. -/
theorem remote_classification (sound : remote.Sound) (stage : remote.call.stageID = stageObserve)
    (free : 0 ∉ text) (encoded : requestEncode (some (terminated text)) out = some filled)
    (request : remote.call.request = filled.take requestLen)
    (accepted : ∀ index, world.requestFragment index = .ok ()) {events : List Event}
    (relayed : Relays remote.here remote.there fRequest
      ((remote.outcome world world.polls).calls.filterMap CallerCall.published) events)
    {actions : List ProcessAction} {state : ProcessState} {outputs : List RuntimeOutput}
    (run : (calmProcess handle remote.config remote.correlation).Run .initial actions state outputs)
    (received : receivedOf remote.correlation outputs <+: events)
    (uncancelled : ∀ event, .consumed event ∈ outputs →
      event.frame.correlationId = remote.correlation → event.frame.has fCancel = false)
    {polls : List PollStep} (undisturbed : ∀ step ∈ polls, step.Undisturbed)
    {fragments : List SentFragment} (within : fragments <+: repliedOf remote.correlation outputs)
    (heard : Relays remote.there remote.here fReply fragments (pollsOf remote.correlation polls)) :
    ∃ mask response, signalPolicySinkMask (terminated text) = some mask ∧
      (∀ sinkMask, responseDecode response sinkMask = (0, mask)) ∧
      (∀ result, (remote.outcome world polls).result = some result → result = .ok response) ∧
      (receivedOf remote.correlation outputs = events →
        state.runtime.ticketsOf remote.correlation = [] →
        fragments = repliedOf remote.correlation outputs →
        (remote.outcome world polls).result = some (.ok response)) := by
  obtain ⟨policy, inPlace⟩ := inPlace_classified stage free encoded request
  obtain ⟨agrees, returns⟩ := RemoteStage.process_call sound accepted relayed run received
    uncancelled undisturbed
  rw [inPlace] at agrees returns
  refine ⟨_, _, policy, responseDecode_response text, fun result returned => ?_,
    fun whole landed all => ?_⟩
  · exact agrees fragments result within heard returned
  · exact returns whole landed (all ▸ heard)

theorem observingClient_relays {fragment : SentFragment} {pattern : UInt16}
    (publishable : Client.Publishable observingClient pattern fragment.correlation
      fragment.payload) :
    Relayed observingClient observingClient pattern fragment
      (fragment.event observingClient pattern) := by
  have fits : observingClient.outbound.Fits (List.replicate 448 (0 : UInt8)).length :=
    ⟨⟨1, by decide, by decide⟩, by decide, by decide, by decide, by decide,
      by rw [List.length_replicate]; decide⟩
  have room : observingClient.outbound.produceBegin (List.replicate 448 0) = some 192 := by
    decide +kernel
  exact @relayed_of_room observingClient pattern observingClient fragment 0 _ _
    correctionStage_sound.here.1 publishable fits rfl rfl rfl rfl rfl room

/-- The polls in which the caller hears the answer to its correction. -/
def correctionPolls : List PollStep :=
  [⟨.empty, false, 0⟩, ⟨.received (correctionReply.event observingClient fReply), false, 0⟩]

/-- The call returns the mask of a correction. -/
theorem remote_classification_correction :
    ∃ response, (correctionStage.outcome RemoteStage.pairedWorld correctionPolls).result =
        some (.ok response) ∧ responseDecode response 0 = (0, 7) := by
  obtain ⟨state, outputs, run, received, replied, -, landed, kept⟩ := correction_served
  have sound := correctionStage_sound
  have accepted : ∀ index, RemoteStage.pairedWorld.requestFragment index = .ok () := fun _ => rfl
  have encoded : requestEncode (some (terminated (cstr "correction"))) (List.replicate 40 0) =
      some (requestBytes (cstr "correction")) := by decide +kernel
  have request : correctionStage.call.request =
      (requestBytes (cstr "correction")).take requestLen := by decide +kernel
  have asked : Relays correctionStage.here correctionStage.there fRequest
      ((correctionStage.outcome RemoteStage.pairedWorld
        RemoteStage.pairedWorld.polls).calls.filterMap CallerCall.published)
      correctionStage.request.fragments := by
    rw [(sound.sends accepted _).1]
    refine List.forall₂_map_right_iff.mpr (List.forall₂_same.mpr fun fragment member => ?_)
    exact observingClient_relays (sound.requests_publishable fragment member)
  have planned : correctionReply ∈ (correctionStage.request.reply (uint32Bytes responseMagic ++
      uint32Bytes 7) moduleStatusOK).plan correctionStage.config.inlineBudget := by decide +kernel
  have answered : Relays correctionStage.there correctionStage.here fReply [correctionReply]
      (pollsOf correctionStage.correlation correctionPolls) :=
    .cons (observingClient_relays (sound.reply_publishable _ _ _ planned)) .nil
  have undisturbed : ∀ step ∈ correctionPolls, step.Undisturbed :=
    List.forall_mem_cons.mpr ⟨rfl, List.forall_mem_singleton.mpr trivial⟩
  have within : [correctionReply] <+: repliedOf correctionStage.correlation outputs :=
    replied ▸ List.prefix_refl _
  obtain ⟨mask, response, policy, reads, -, returns⟩ := remote_classification sound rfl (by decide)
    encoded request accepted asked run (received ▸ List.prefix_refl _)
    (fun event consumed _ => by simpa [RemoteStage.uncancelled] using kept _ consumed)
    undisturbed within answered
  have corrected : signalPolicySinkMask (terminated (cstr "correction")) = some 7 := by
    decide +kernel
  rw [corrected] at policy
  obtain rfl := Option.some.inj policy
  exact ⟨response, returns received landed replied.symm, reads 0⟩

end Calls

end AimeeLearning.Observe
