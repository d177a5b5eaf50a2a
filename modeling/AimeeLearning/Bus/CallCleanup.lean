import AimeeLearning.Bus.ModuleCaller
import AimeeLearning.Bus.RequestAtomicity

/-! What a failed call leaves behind. A wait that fails publishes a cancel; a
send that fails after its first fragment does not, and the serving side keeps
the assembly it opened. -/

set_option autoImplicit false

namespace AimeeLearning.Bus

open Library

/-- A call that failed after a fragment was accepted ended with a cancel. -/
def CancelsOnFailure (kind : UInt32) (correlation : UInt64) (outcome : CallOutcome) : Prop :=
  ∀ failure, outcome.result = some (.error failure) →
    (∃ payload more, .request kind correlation payload more (.ok ()) ∈ outcome.calls) →
      outcome.calls.getLast? = some (.cancel kind correlation)

/-- The first fragment is accepted and a later one is refused. -/
structure Interrupted (caller : ModuleCaller) (call : ModuleCall) (world : CallWorld) : Prop where
  admissible : ¬ UInt32.ofNat call.request.length > moduleMessageMaxBody
  roomy : moduleMessageHeaderLen < caller.inlineBudget.toNat
  valid : ∀ piece ∈ caller.parts call,
    (call.message (ModuleCaller.deadlineNS call world) piece.1.length).valid = true
  first : world.requestFragment 0 = .ok ()
  later : ∃ k < (caller.parts call).length, ∃ failure, world.requestFragment k = .error failure

section Send

variable {caller : ModuleCaller} {call : ModuleCall} {correlation deadlineNS : UInt64}
  {requestFragment : Nat → Except BusError Unit}

theorem ModuleCaller.sendable (roomy : moduleMessageHeaderLen < caller.inlineBudget.toNat)
    (valid : ∀ piece ∈ caller.parts call,
      (call.message deadlineNS piece.1.length).valid = true) :
    Sendable call deadlineNS (List.replicate caller.inlineBudget.toNat (0 : UInt8)).length
      (caller.parts call) := by
  intro piece member
  have short := (pieces_length _ (by omega) piece member).1
  refine ⟨valid piece member, ?_⟩
  rw [List.length_replicate]
  omega

theorem ModuleCaller.parts_ne_nil (roomy : moduleMessageHeaderLen < caller.inlineBudget.toNat) :
    caller.parts call ≠ [] := by
  intro empty
  have closed := pieces_closedBy call.request
    (show 0 < caller.inlineBudget.toNat - moduleMessageHeaderLen by omega)
  rw [← ModuleCaller.parts, empty] at closed
  exact closed

/-- The first piece is the longest one, so an invalid envelope stops the loop
before it sends anything. -/
theorem ModuleCaller.send_invalid (correlation : UInt64)
    (requestFragment : Nat → Except BusError Unit) (roomy : moduleMessageHeaderLen < caller.inlineBudget.toNat)
    (invalid : ¬ ∀ piece ∈ caller.parts call,
      (call.message deadlineNS piece.1.length).valid = true) :
    (caller.send call correlation deadlineNS requestFragment).1 = [] := by
  obtain ⟨part, more, rest, cut⟩ : ∃ part more rest, caller.parts call = (part, more) :: rest := by
    cases cut : caller.parts call with
    | nil => exact absurd cut (parts_ne_nil roomy)
    | cons piece rest => exact ⟨piece.1, piece.2, rest, rfl⟩
  have longest : ∀ piece ∈ caller.parts call, piece.1.length ≤ part.length :=
    pieces_head_longest _ (by omega) cut
  have rejected : (call.message deadlineNS part.length).valid = false := by
    by_contra valid
    rw [Bool.not_eq_false] at valid
    have chunk : part.length ≤ caller.inlineBudget.toNat - moduleMessageHeaderLen :=
      (pieces_length _ (by omega) (part, more) (cut ▸ List.mem_cons_self)).1
    have word := caller.inlineBudget.toNat_lt
    exact invalid fun piece member =>
      call.message_valid_of_le valid (longest piece member) (by omega)
  rw [ModuleCaller.send, if_neg (by omega), cut]
  simp [sendPieces, ModuleMessage.encode, rejected]

end Send

section Call

variable {caller : ModuleCaller} {call : ModuleCall} {world : CallWorld}

inductive CallEnds (caller : ModuleCaller) (call : ModuleCall) (world : CallWorld) :
    CallOutcome → Prop
  | refused (oversized : UInt32.ofNat call.request.length > moduleMessageMaxBody) :
      CallEnds caller call world ⟨caller, [], some (.error (.bus .errModuleConfig))⟩
  | unsent (calls : List CallerCall) (failure : CallError)
      (admissible : ¬ UInt32.ofNat call.request.length > moduleMessageMaxBody)
      (failed : caller.send call caller.next (ModuleCaller.deadlineNS call world)
        world.requestFragment = (calls, .error failure)) :
      CallEnds caller call world
        ⟨{ caller with correlation := caller.next }, calls, some (.error failure)⟩
  | unanswered (calls : List CallerCall) (failure : CallError)
      (sent : caller.send call caller.next (ModuleCaller.deadlineNS call world)
        world.requestFragment = (calls, .ok ())) :
      CallEnds caller call world ⟨{ caller with correlation := caller.next },
        calls ++ [.cancel call.eventKind caller.next], some (.error failure)⟩
  | waited (calls : List CallerCall) (result : Option (Except CallError Bytes))
      (sent : caller.send call caller.next (ModuleCaller.deadlineNS call world)
        world.requestFragment = (calls, .ok ()))
      (fine : ∀ failure, result ≠ some (.error failure)) :
      CallEnds caller call world ⟨{ caller with correlation := caller.next }, calls, result⟩

theorem call_ends (caller : ModuleCaller) (call : ModuleCall) (world : CallWorld) :
    CallEnds caller call world (caller.call call world) := by
  unfold ModuleCaller.call
  split
  · rename_i oversized
    exact .refused oversized
  · rename_i admissible
    have same : ModuleCaller.send { caller with correlation := caller.next } call caller.next
        (ModuleCaller.deadlineNS call world) world.requestFragment =
      caller.send call caller.next (ModuleCaller.deadlineNS call world) world.requestFragment := rfl
    simp only [same]
    split
    · rename_i calls failure failed
      exact .unsent calls failure admissible failed
    · rename_i calls sent
      split
      · rename_i failure _
        exact .unanswered calls failure sent
      · rename_i fine
        exact .waited calls _ sent fine

/-- A send that fails is exactly an interrupted one, if its first fragment was
accepted. -/
theorem send_interrupted (admissible : ¬ UInt32.ofNat call.request.length > moduleMessageMaxBody)
    {calls : List CallerCall} {failure : CallError}
    (failed : caller.send call caller.next (ModuleCaller.deadlineNS call world)
      world.requestFragment = (calls, .error failure)) :
    (∃ payload more, .request call.eventKind caller.next payload more (.ok ()) ∈ calls) ↔
      Interrupted caller call world := by
  by_cases roomy : moduleMessageHeaderLen < caller.inlineBudget.toNat
  · by_cases valid : ∀ piece ∈ caller.parts call,
        (call.message (ModuleCaller.deadlineNS call world) piece.1.length).valid = true
    · have sendable := ModuleCaller.sendable roomy valid
      rw [ModuleCaller.send, if_neg (by omega)] at failed
      have accepted := sendPieces_accepted_iff caller.next world.requestFragment 0 sendable
        (ModuleCaller.parts_ne_nil roomy)
      have refused := (sendPieces_failed_iff caller.next world.requestFragment 0 sendable).mp
          ⟨failure, by rw [failed]⟩
      simp only [Nat.zero_add] at refused
      rw [failed] at accepted
      exact accepted.trans
        ⟨fun first => ⟨admissible, roomy, valid, first, refused⟩, fun cut => cut.first⟩
    · have nothing := ModuleCaller.send_invalid caller.next world.requestFragment
        roomy valid
      rw [failed] at nothing
      obtain rfl : calls = [] := nothing
      exact ⟨by simp, fun cut => absurd cut.valid valid⟩
  · rw [ModuleCaller.send, if_pos (by omega)] at failed
    obtain ⟨rfl, -⟩ := Prod.mk.inj failed
    exact ⟨by simp, fun cut => absurd cut.roomy roomy⟩

theorem send_uninterrupted {calls : List CallerCall}
    (sent : caller.send call caller.next (ModuleCaller.deadlineNS call world)
      world.requestFragment = (calls, .ok ())) : ¬ Interrupted caller call world := by
  rintro ⟨-, roomy, valid, -, later⟩
  rw [ModuleCaller.send, if_neg (by omega)] at sent
  obtain ⟨failure, failed⟩ := (sendPieces_failed_iff caller.next world.requestFragment 0
    (ModuleCaller.sendable roomy valid)).mpr (by simpa using later)
  rw [sent] at failed
  cases failed

/-- A failed call with an accepted fragment cancels it exactly when its send was
not interrupted between two fragments. -/
theorem call_cancels (caller : ModuleCaller) (call : ModuleCall) (world : CallWorld) :
    CancelsOnFailure call.eventKind caller.next (caller.call call world) ↔
      ¬ Interrupted caller call world := by
  have ends := call_ends caller call world
  generalize caller.call call world = outcome at ends
  cases ends with
  | refused oversized =>
      refine ⟨fun _ cut => cut.admissible oversized, fun _ failure _ accepted => ?_⟩
      simp at accepted
  | unsent calls failure admissible failed =>
      rw [← send_interrupted admissible failed]
      constructor
      · rintro cancels accepted
        have last := cancels failure rfl accepted
        rw [ModuleCaller.send] at failed
        split at failed
        · obtain ⟨rfl, -⟩ := Prod.mk.inj failed
          simp at last
        · obtain ⟨payload, more, result, cancel⟩ := sendPieces_requests _
            (by rw [failed]; exact List.mem_of_getLast? last)
          cases cancel
      · rintro nothing other _ accepted
        exact absurd accepted nothing
  | unanswered calls failure sent =>
      refine ⟨fun _ => send_uninterrupted sent, fun _ other _ _ => ?_⟩
      simp
  | waited calls result sent fine =>
      exact ⟨fun _ => send_uninterrupted sent, fun _ failure failed => absurd failed (fine failure)⟩

end Call

section Serving

/-- The last event of a correlation that can touch its assembly. -/
def lastOf (correlation : UInt64) (outputs : List RuntimeOutput) : Option Event :=
  (outputs.filterMap fun
    | .consumed event =>
        if (event.frame.has fCancel || event.frame.has fRequest) &&
            event.frame.correlationId == correlation then some event
        else none
    | _ => none).getLast?

theorem lastOf_append {correlation : UInt64} {outputs emitted : List RuntimeOutput}
    (nothing : ∀ event, .consumed event ∈ emitted → event.frame.correlationId = correlation →
      event.frame.has fCancel = false ∧ event.frame.has fRequest = false) :
    lastOf correlation (outputs ++ emitted) = lastOf correlation outputs := by
  have none_ : (emitted.filterMap fun
      | RuntimeOutput.consumed event =>
          if (event.frame.has fCancel || event.frame.has fRequest) &&
              event.frame.correlationId == correlation then some event
          else none
      | _ => none) = [] := by
    refine List.filterMap_eq_nil_iff.mpr fun output member => ?_
    cases output with
    | consumed event =>
        by_cases mine : event.frame.correlationId = correlation
        · obtain ⟨kept, other⟩ := nothing event member mine
          simp [kept, other]
        · simp [mine]
    | _ => rfl
  rw [lastOf, List.filterMap_append, none_, List.append_nil, lastOf]

theorem lastOf_consumed {correlation : UInt64} {outputs : List RuntimeOutput}
    {event : Event} {sent : List SentFragment}
    (mine : event.frame.correlationId = correlation)
    (touches : event.frame.has fCancel = true ∨ event.frame.has fRequest = true) :
    lastOf correlation (outputs ++ .consumed event :: sent.map .replied) = some event := by
  rw [show outputs ++ RuntimeOutput.consumed event :: sent.map .replied =
    (outputs ++ [.consumed event]) ++ sent.map .replied by simp]
  rw [lastOf_append (by simp)]
  simp [lastOf, mine, touches]

/-- An open assembly was last touched by a fragment that announced more. -/
def HeldOpen (correlation : UInt64) (state : RuntimeState) (outputs : List RuntimeOutput) : Prop :=
  correlation ∈ state.assemblies → ∃ event, lastOf correlation outputs = some event ∧
    event.frame.has fCancel = false ∧ event.frame.has fRequest = true ∧
      event.frame.has fMore = true

theorem HeldOpen.step {config : RuntimeConfig} {correlation : UInt64} {state next : RuntimeState}
    {outputs emitted : List RuntimeOutput} {action : RuntimeAction}
    (held : HeldOpen correlation state outputs)
    (taken : runtimeStep config state action = some (next, emitted)) :
    HeldOpen correlation next (outputs ++ emitted) := by
  cases runtimeStep_effect taken with
  | quiet pc => rwa [List.append_nil]
  | interrupted epochChanged now => rwa [List.append_nil]
  | moved located same move =>
      rw [HeldOpen, lastOf_append fun event member => absurd member (move.unconsumed event)]
      exact held
  | delivered located room => rwa [List.append_nil]
  | finished pc buffered answered =>
      rw [HeldOpen, lastOf_append (by simp)]
      exact held
  | collected stopping buffered => rwa [List.append_nil]
  | consumed pc handled answered silent =>
      rename_i now event attempts middle disposition sent
      have cases := consumeEvent_cases handled
      by_cases mine : event.frame.correlationId = correlation
      · subst mine
        cases cases with
        | cancelled flags cancel flagged =>
            intro present
            simp [AList.mem_erase] at present
        | ignored kept other =>
            rw [HeldOpen, lastOf_append]
            · exact held
            · rintro again member -
              rcases List.mem_cons.mp member with same | later
              · obtain rfl := RuntimeOutput.consumed.inj same
                exact ⟨kept, other⟩
              · simp at later
        | invalid kept request inadmissible =>
            intro present
            simp [AList.mem_erase] at present
        | full kept request message admitted fresh crowded =>
            intro present
            exact absurd (AList.lookup_isSome.mpr present) (by simp [fresh])
        | oversized kept request message assembly admitted opened tooLong =>
            intro present
            simp [AList.mem_erase] at present
        | extended kept request message assembly admitted opened holds more =>
            exact fun _ => ⟨event, lastOf_consumed rfl (.inr request), kept, request, more⟩
        | refused kept request message assembly status admitted opened last reason =>
            intro present
            simp [AList.mem_erase] at present
        | started kept request message assembly admitted opened holds last room =>
            intro present
            simp [AList.mem_erase] at present
      · have untouched := (cases.untouched mine pc).1
        rw [HeldOpen, lastOf_append, ← AList.lookup_isSome, untouched, AList.lookup_isSome]
        · exact held
        · rintro other member rfl
          rcases List.mem_cons.mp member with same | later
          · obtain rfl := RuntimeOutput.consumed.inj same
            exact absurd rfl mine
          · simp at later

/-- A failed call leaves through a cancel exactly when its send was not
interrupted, and the serving side holds an assembly only for a correlation
whose last event was a fragment that announced more: once the cancel of a call
is consumed nothing of it is left. -/
theorem failed_call_cleanup (caller : ModuleCaller) (call : ModuleCall) (world : CallWorld)
    {config : RuntimeConfig} {actions : List RuntimeAction} {state : RuntimeState}
    {outputs : List RuntimeOutput}
    (run : (runtimeMachine config).Run .initial actions state outputs) :
    (CancelsOnFailure call.eventKind caller.next (caller.call call world) ↔
        ¬ Interrupted caller call world) ∧
      ∀ correlation, HeldOpen correlation state outputs := by
  refine ⟨call_cancels caller call world, fun correlation => ?_⟩
  refine run.invariant (fun _ state outputs => HeldOpen correlation state outputs) ?_ ?_
  · intro present
    exact absurd present (AList.notMem_empty correlation)
  · intro actions state outputs action next emitted _ held taken
    exact held.step taken

/-- A call of two fragments whose second one meets a full ring. -/
def strandingCall : ModuleCall := ⟨kindModuleBase, 1, 0, 0, [1, 2]⟩

def strandingWorld : CallWorld where
  nowNS := 0
  start := 0
  requestFragment index := if index = 0 then .ok () else .error .errWouldBlock
  polls := []

/-- The first fragments of sixteen such calls, then a whole request. -/
def strandedActions : List RuntimeAction :=
  (List.range 16).flatMap
      (fun index => iteration (invokeEvent (UInt64.ofNat (index + 1)) [1] true) []) ++
    iteration (invokeEvent 17 [2] false) [{ result := .ok () }]

def strandedOutputs : List RuntimeOutput :=
  (List.range 16).map
      (fun index => .consumed (invokeEvent (UInt64.ofNat (index + 1)) [1] true)) ++
    [.consumed (invokeEvent 17 [2] false),
      .replied (ModuleReply.fragment ⟨kindModuleBase, 17, 1, 0, moduleStatusInternal, []⟩
        ([], false))]

/-- The call fails without a cancel although its first fragment went out, and
sixteen of them make the module refuse a request that fits one fragment. -/
theorem failed_call_strands :
    (ModuleCaller.call ⟨41, 0, moduleMessageMaxBody⟩ strandingCall strandingWorld).result =
        some (.error (.bus .errWouldBlock)) ∧
      ¬ CancelsOnFailure kindModuleBase 1
        (ModuleCaller.call ⟨41, 0, moduleMessageMaxBody⟩ strandingCall strandingWorld) ∧
      strandingCall.payload 0 [1] = (invokeEvent 1 [1] true).payload ∧
      ∃ state, (runtimeMachine servingConfig).Run .initial strandedActions state strandedOutputs ∧
        state.assemblies.keys.length = moduleMaxInFlight := by
  have executed : ((runtimeMachine servingConfig).execute .initial strandedActions).map
      (fun result => (result.1.assemblies.keys.length, result.2)) =
        some (moduleMaxInFlight, strandedOutputs) := by decide +kernel
  obtain ⟨⟨state, outputs⟩, ran, same⟩ := Option.map_eq_some_iff.mp executed
  obtain ⟨full, rfl⟩ := Prod.mk.inj same
  refine ⟨by decide +kernel, ?_, by decide +kernel, state, Machine.run_of_execute ran, full⟩
  have interrupted : Interrupted ⟨41, 0, moduleMessageMaxBody⟩ strandingCall strandingWorld :=
    ⟨by decide, by decide, by decide +kernel, rfl, 1, by decide +kernel, .errWouldBlock, rfl⟩
  exact fun cancels => (call_cancels _ _ _).mp cancels interrupted

/-- The ring has room, but the host restarts while the caller waits. -/
def restartedWorld : CallWorld where
  nowNS := 0
  start := 0
  requestFragment _ := .ok ()
  polls := [{ outcome := .failed .errEpoch }]

/-- A call that meets a new host epoch while it waits cancels its request; the
module holds the one assembly whose fragments still come. -/
theorem failed_call_cleanup_waiting :
    ∃ state, (runtimeMachine servingConfig).Run .initial
        (iteration (invokeEvent 7 [1] true) []) state [.consumed (invokeEvent 7 [1] true)] ∧
      CancelsOnFailure kindModuleBase 1
        (ModuleCaller.call ⟨41, 0, moduleMessageMaxBody⟩ strandingCall restartedWorld) ∧
      HeldOpen 7 state [.consumed (invokeEvent 7 [1] true)] := by
  have executed : ((runtimeMachine servingConfig).execute .initial
      (iteration (invokeEvent 7 [1] true) [])).map Prod.snd =
        some [.consumed (invokeEvent 7 [1] true)] := by decide +kernel
  obtain ⟨⟨state, outputs⟩, ran, rfl⟩ := Option.map_eq_some_iff.mp executed
  obtain ⟨cancels, held⟩ := failed_call_cleanup ⟨41, 0, moduleMessageMaxBody⟩ strandingCall
    restartedWorld (Machine.run_of_execute ran)
  refine ⟨state, Machine.run_of_execute ran, cancels.mpr ?_, held 7⟩
  rintro ⟨_, _, _, _, k, _, failure, refused⟩
  cases refused

end Serving

end AimeeLearning.Bus
