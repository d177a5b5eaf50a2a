import AimeeLearning.Bus.ChannelFifo
import AimeeLearning.Bus.RemoteProcess

/-! Calls made one after the other over one client. A call may end before its reply
comes; nobody who calls later takes that reply for its own. -/

set_option autoImplicit false

namespace AimeeLearning.Bus

open Library

/-- A call that has returned: who made it, with what, and in which world. -/
structure CallRecord where
  caller : ModuleCaller
  call : ModuleCall
  world : CallWorld

def CallRecord.correlation (record : CallRecord) : UInt64 := record.caller.next

def CallRecord.outcome (record : CallRecord) : CallOutcome :=
  record.caller.call record.call record.world

/-- The call was refused for its length before it began. -/
def CallRecord.Refused (record : CallRecord) : Prop :=
  record.outcome.calls = [] ∧ record.outcome.result = some (.error (.bus .errModuleConfig))

/-- The calls of one caller, each begun when the one before has returned. -/
def callerMachine : Machine ModuleCaller (ModuleCall × CallWorld) CallRecord where
  step caller action :=
    let record : CallRecord := ⟨caller, action.1, action.2⟩
    if record.outcome.result.isSome then some (record.outcome.caller, [record]) else none

def CallerCall.correlation : CallerCall → UInt64
  | .request _ correlation _ _ _ => correlation
  | .cancel _ correlation => correlation

section Correlations

variable {caller : ModuleCaller} {call : ModuleCall} {world : CallWorld}

/-- A call is refused before it begins, or counts the caller up. -/
theorem call_caller (caller : ModuleCaller) (call : ModuleCall) (world : CallWorld) :
    CallRecord.Refused ⟨caller, call, world⟩ ∧ (caller.call call world).caller = caller ∨
      (caller.call call world).caller = { caller with correlation := caller.next } := by
  unfold CallRecord.Refused CallRecord.outcome ModuleCaller.call
  split
  · exact .inl ⟨⟨rfl, rfl⟩, rfl⟩
  · right
    dsimp only
    split
    · rfl
    · split <;> rfl

theorem call_correlated {made : CallerCall} (member : made ∈ (caller.call call world).calls) :
    made.correlation = caller.next := by
  have sent : ∀ made ∈ (ModuleCaller.send { caller with correlation := caller.next } call
      caller.next (ModuleCaller.deadlineNS call world) world.requestFragment).1,
        made.correlation = caller.next := by
    intro made member
    unfold ModuleCaller.send at member
    split at member
    · cases member
    · obtain ⟨payload, more, result, rfl⟩ := sendPieces_requests made member
      rfl
  unfold ModuleCaller.call at member
  split at member
  · cases member
  · dsimp only at member
    split at member
    · rename_i calls failure same
      exact sent made (same ▸ member)
    · rename_i calls same
      split at member
      · rcases List.mem_append.mp member with requested | cancelled
        · exact sent made (same ▸ requested)
        · rw [List.mem_singleton.mp cancelled]
          rfl
      · exact sent made (same ▸ member)

theorem callerMachine_step {state next : ModuleCaller} {action : ModuleCall × CallWorld}
    {emitted : List CallRecord} :
    callerMachine.step state action = some (next, emitted) ↔
      (state.call action.1 action.2).result.isSome ∧
        next = (state.call action.1 action.2).caller ∧
          emitted = [⟨state, action.1, action.2⟩] := by
  have unfolded : callerMachine.step state action =
      if (state.call action.1 action.2).result.isSome then
        some ((state.call action.1 action.2).caller, [⟨state, action.1, action.2⟩])
      else none := rfl
  rw [unfolded]
  by_cases returned : (state.call action.1 action.2).result.isSome = true
  · rw [if_pos returned, Option.some.injEq, Prod.mk.injEq, and_iff_right returned]
    exact and_congr eq_comm eq_comm
  · rw [if_neg returned]
    exact iff_of_false (fun same => by cases same) fun taken => returned taken.1

variable {start state : ModuleCaller} {actions : List (ModuleCall × CallWorld)}
  {records : List CallRecord}

/-- The calls that sent anything did so under correlations that only grow. -/
structure Numbered (start state : ModuleCaller) (count : Nat) (records : List CallRecord) :
    Prop where
  counted : state.correlation.toNat ≤ start.correlation.toNat + count
  spent : ∀ record ∈ records, record.Refused ∨ record.correlation ≤ state.correlation
  apart : records.Pairwise fun early late => early.Refused ∨ early.correlation < late.correlation

theorem session_numbered (run : callerMachine.Run start actions state records)
    (fits : start.correlation.toNat + actions.length < 2 ^ 64) :
    Numbered start state actions.length records := by
  induction run with
  | nil => exact ⟨le_refl _, fun _ member => absurd member List.not_mem_nil, .nil⟩
  | snoc before taken ih =>
      rename_i actions state records action next emitted
      obtain ⟨-, rfl, rfl⟩ := callerMachine_step.mp taken
      rw [List.length_append, List.length_singleton] at fits ⊢
      have numbered := ih (by omega)
      have counted := numbered.counted
      have step : state.next.toNat = state.correlation.toNat + 1 := by
        rw [ModuleCaller.next, UInt64.toNat_add, UInt64.toNat_one, Nat.mod_eq_of_lt (by omega)]
      have later : state.correlation < state.next := UInt64.lt_iff_toNat_lt.mpr (by omega)
      refine ⟨?_, fun record member => ?_, ?_⟩
      · rcases call_caller state action.1 action.2 with ⟨-, same⟩ | same <;> rw [same]
        · omega
        · show state.next.toNat ≤ _
          omega
      · rcases List.mem_append.mp member with earlier | here
        · refine (numbered.spent record earlier).imp_right fun before => ?_
          rcases call_caller state action.1 action.2 with ⟨-, same⟩ | same <;> rw [same]
          · exact before
          · exact UInt64.le_of_lt (UInt64.lt_of_le_of_lt before later)
        · obtain rfl := List.mem_singleton.mp here
          refine (call_caller state action.1 action.2).imp (·.1) fun same => ?_
          rw [same]
          exact UInt64.le_refl _
      · refine List.pairwise_append.mpr ⟨numbered.apart, List.pairwise_singleton _ _, ?_⟩
        intro early member late here
        obtain rfl := List.mem_singleton.mp here
        exact (numbered.spent early member).imp_right fun before =>
          UInt64.lt_of_le_of_lt before later

end Correlations

section Isolation

/-- A poll that brings no event of another correlation. -/
def PollStep.own (correlation : UInt64) (step : PollStep) : Bool :=
  match step.outcome with
  | .received event => event.frame.correlationId == correlation
  | _ => true

theorem awaitReply_own (caller : ModuleCaller) (kind : UInt32) (correlation : UInt64)
    (expiry : Option Int) (body : Bytes) (polls : List PollStep) :
    caller.awaitReply kind correlation expiry body (polls.filter (·.own correlation)) =
      caller.awaitReply kind correlation expiry body polls := by
  induction polls generalizing body with
  | nil => rfl
  | cons step rest ih =>
      obtain ⟨outcome, ctxDone, now⟩ := step
      cases outcome with
      | panicked => rfl
      | failed failure => rfl
      | empty =>
          rw [List.filter_cons_of_pos rfl]
          simp only [ModuleCaller.awaitReply, ih]
      | received event =>
          by_cases mine : event.frame.correlationId = correlation
          · rw [List.filter_cons_of_pos (by simpa [PollStep.own] using mine)]
            simp only [ModuleCaller.awaitReply, ih]
          · rw [List.filter_cons_of_neg (by simpa [PollStep.own] using mine), ih]
            simp only [ModuleCaller.awaitReply, acceptEvent_foreign mine]

/-- A call is what it is without the events of other calls. -/
theorem call_own (caller : ModuleCaller) (call : ModuleCall) (world : CallWorld) :
    caller.call call { world with polls := world.polls.filter (·.own caller.next) } =
      caller.call call world := by
  unfold ModuleCaller.call
  split
  · rfl
  · dsimp only [ModuleCaller.deadlineNS, ModuleCaller.expiry]
    rw [awaitReply_own]

end Isolation

section Answered

variable {caller : ModuleCaller} {call : ModuleCall} {world : CallWorld}

/-- The request call that sent a fragment. -/
def SentFragment.made (fragment : SentFragment) : CallerCall :=
  .request fragment.kind fragment.correlation fragment.payload fragment.more (.ok ())

/-- The fragment a piece of the request goes out in. -/
def ModuleCall.fragment (call : ModuleCall) (correlation deadlineNS : UInt64)
    (piece : Bytes × Bool) : SentFragment :=
  ⟨call.eventKind, correlation, call.payload deadlineNS piece.1, piece.2⟩

theorem sendPieces_made {correlation deadlineNS : UInt64}
    {requestFragment : Nat → Except BusError Unit} {index : Nat} {frame : Bytes}
    {parts : List (Bytes × Bool)}
    (room : ∀ piece ∈ parts, moduleMessageHeaderLen + piece.1.length ≤ frame.length)
    (sent : (sendPieces call correlation deadlineNS requestFragment index frame parts).2 = .ok ()) :
    ∀ made ∈ (sendPieces call correlation deadlineNS requestFragment index frame parts).1,
      ∃ piece : Bytes × Bool, (call.message deadlineNS piece.1.length).valid = true ∧
        made = (call.fragment correlation deadlineNS piece).made := by
  induction parts generalizing index frame with
  | nil => exact fun _ member => absurd member List.not_mem_nil
  | cons piece rest ih =>
      obtain ⟨part, more⟩ := piece
      simp only [sendPieces] at sent ⊢
      split at sent
      · cases sent
      · rename_i written header encoded
        obtain ⟨valid, payload, length⟩ :=
          ModuleCall.payload_frame encoded (room (part, more) List.mem_cons_self)
        split at sent
        · cases sent
        · rename_i accepted
          rw [accepted]
          intro made member
          rcases List.mem_cons.mp member with rfl | later
          · exact ⟨(part, more), valid, by rw [payload]; rfl⟩
          · refine ih (fun other inside => ?_) sent made later
            rw [length]
            exact room other (List.mem_cons_of_mem _ inside)

/-- A call that returns a body has sent its request and nothing else. -/
theorem call_made {body : Bytes} (answered : (caller.call call world).result = some (.ok body)) :
    ∀ made ∈ (caller.call call world).calls,
      ∃ piece : Bytes × Bool,
        (call.message (ModuleCaller.deadlineNS call world) piece.1.length).valid = true ∧
          made = (call.fragment caller.next (ModuleCaller.deadlineNS call world) piece).made := by
  unfold ModuleCaller.call at answered ⊢
  split at answered
  · cases answered
  · rename_i fits
    rw [if_neg fits]
    dsimp only at answered ⊢
    split at answered
    · cases answered
    · rename_i calls sent
      split at answered
      · cases answered
      · intro made member
        unfold ModuleCaller.send at sent
        split at sent
        · cases Prod.mk.inj sent |>.2
        · rename_i budget
          refine sendPieces_made (fun piece inside => ?_) (congrArg Prod.snd sent) made
            (congrArg Prod.fst sent ▸ member)
          have within := (pieces_length _ (by omega) piece inside).1
          rw [List.length_replicate]
          dsimp only at within budget ⊢
          omega

theorem call_answered {body : Bytes} (answered : (caller.call call world).result = some (.ok body)) :
    (caller.call call world).calls =
      ((caller.call call world).calls.filterMap CallerCall.published).map SentFragment.made := by
  have every := call_made answered
  generalize (caller.call call world).calls = calls at every
  induction calls with
  | nil => rfl
  | cons made rest ih =>
      obtain ⟨piece, -, rfl⟩ := every made List.mem_cons_self
      exact congrArg (_ :: ·) (ih fun other member => every other (List.mem_cons_of_mem _ member))

/-- Every fragment of an answered call declares its deadline. -/
theorem published_declares {body : Bytes}
    (answered : (caller.call call world).result = some (.ok body)) {fragment : SentFragment}
    (sent : fragment ∈ (caller.call call world).calls.filterMap CallerCall.published) :
    fragment.kind = call.eventKind ∧ ∃ message, decodeModuleMessage fragment.payload = .ok message ∧
      message.deadlineNS = ModuleCaller.deadlineNS call world := by
  obtain ⟨made, member, same⟩ := List.mem_filterMap.mp sent
  obtain ⟨piece, valid, rfl⟩ := call_made answered made member
  obtain rfl := Option.some.inj same
  refine ⟨rfl, _, ModuleMessage.decode_header valid ?_, rfl⟩
  rw [ModuleCall.message, UInt32.toNat_ofNat']
  exact Nat.mod_le _ _

end Answered

section Wire

/-- What a host takes over of the bus calls of a caller: every accepted fragment,
and a cancel or not. -/
inductive OnWire : List CallerCall → List SendCall → Prop where
  | nil : OnWire [] []
  | refused {kind correlation payload more failure rest wire} : OnWire rest wire →
      OnWire (.request kind correlation payload more (.error failure) :: rest) wire
  | request {kind correlation payload more rest wire} : OnWire rest wire →
      OnWire (.request kind correlation payload more (.ok ()) :: rest)
        (.requestFragment kind correlation payload more :: wire)
  | lost {kind correlation rest wire} : OnWire rest wire →
      OnWire (.cancel kind correlation :: rest) wire
  | cancel {kind correlation rest wire} : OnWire rest wire →
      OnWire (.cancel kind correlation :: rest) (.cancel kind correlation :: wire)

theorem OnWire.split {early late : List CallerCall} {wire : List SendCall}
    (carried : OnWire (early ++ late) wire) :
    ∃ front back, wire = front ++ back ∧ OnWire early front ∧ OnWire late back := by
  induction early generalizing wire with
  | nil => exact ⟨[], wire, rfl, .nil, carried⟩
  | cons made rest ih =>
      cases carried with
      | refused further =>
          obtain ⟨front, back, rfl, first, second⟩ := ih further
          exact ⟨front, back, rfl, .refused first, second⟩
      | request further =>
          obtain ⟨front, back, rfl, first, second⟩ := ih further
          exact ⟨_ :: front, back, rfl, .request first, second⟩
      | lost further =>
          obtain ⟨front, back, rfl, first, second⟩ := ih further
          exact ⟨front, back, rfl, .lost first, second⟩
      | cancel further =>
          obtain ⟨front, back, rfl, first, second⟩ := ih further
          exact ⟨_ :: front, back, rfl, .cancel first, second⟩

theorem OnWire.correlated {calls : List CallerCall} {wire : List SendCall}
    (carried : OnWire calls wire) : ∀ sent ∈ wire, ∃ made ∈ calls,
      sent.correlation = made.correlation := by
  induction carried with
  | nil => exact fun _ member => absurd member List.not_mem_nil
  | refused _ ih =>
      intro sent member
      obtain ⟨made, inside, same⟩ := ih sent member
      exact ⟨made, List.mem_cons_of_mem _ inside, same⟩
  | lost _ ih =>
      intro sent member
      obtain ⟨made, inside, same⟩ := ih sent member
      exact ⟨made, List.mem_cons_of_mem _ inside, same⟩
  | request _ ih =>
      refine List.forall_mem_cons.mpr ⟨⟨_, List.mem_cons_self, rfl⟩, fun sent member => ?_⟩
      obtain ⟨made, inside, same⟩ := ih sent member
      exact ⟨made, List.mem_cons_of_mem _ inside, same⟩
  | cancel _ ih =>
      refine List.forall_mem_cons.mpr ⟨⟨_, List.mem_cons_self, rfl⟩, fun sent member => ?_⟩
      obtain ⟨made, inside, same⟩ := ih sent member
      exact ⟨made, List.mem_cons_of_mem _ inside, same⟩

theorem OnWire.foreign (correlation : UInt64) {calls : List CallerCall} {wire : List SendCall}
    (carried : OnWire calls wire) (others : ∀ made ∈ calls, made.correlation ≠ correlation) :
    wire.filter (·.correlation == correlation) = [] := by
  refine List.filter_eq_nil_iff.mpr fun sent member => ?_
  obtain ⟨made, inside, same⟩ := carried.correlated sent member
  simpa [same] using others made inside

def SentFragment.sendCall (fragment : SentFragment) : SendCall :=
  .requestFragment fragment.kind fragment.correlation fragment.payload fragment.more

theorem OnWire.sent {fragments : List SentFragment} {wire : List SendCall}
    (carried : OnWire (fragments.map SentFragment.made) wire) :
    wire = fragments.map SentFragment.sendCall := by
  induction fragments generalizing wire with
  | nil =>
      cases carried
      rfl
  | cons fragment rest ih =>
      cases carried with
      | request further => exact congrArg (fragment.sendCall :: ·) (ih further)

variable {start state : ModuleCaller} {actions : List (ModuleCall × CallWorld)}
  {records : List CallRecord} {wire : List SendCall}

/-- Of the wire of a session an answered call owns exactly its request. -/
theorem OnWire.owned (carried : OnWire (records.flatMap (·.outcome.calls)) wire)
    (run : callerMachine.Run start actions state records)
    (fits : start.correlation.toNat + actions.length < 2 ^ 64) {record : CallRecord}
    (member : record ∈ records) {body : Bytes} (answered : record.outcome.result = some (.ok body)) :
    wire.filter (·.correlation == record.correlation) =
      (record.outcome.calls.filterMap CallerCall.published).map SentFragment.sendCall := by
  have apart := (session_numbered run fits).apart
  obtain ⟨front, back, rfl⟩ := List.append_of_mem member
  rw [List.flatMap_append, List.flatMap_cons] at carried
  obtain ⟨early, further, rfl, before, rest⟩ := carried.split
  obtain ⟨here, late, rfl, mine, after⟩ := rest.split
  obtain ⟨-, follow, cross⟩ := List.pairwise_append.mp apart
  have none_before := before.foreign record.correlation fun made inside => by
    obtain ⟨other, among, made_by⟩ := List.mem_flatMap.mp inside
    rw [call_correlated made_by]
    rcases cross other among record List.mem_cons_self with refused | sooner
    · exact absurd made_by (refused.1 ▸ List.not_mem_nil)
    · exact (UInt64.ne_of_lt sooner)
  have none_after := after.foreign record.correlation fun made inside => by
    obtain ⟨other, among, made_by⟩ := List.mem_flatMap.mp inside
    rw [call_correlated made_by]
    rcases (List.pairwise_cons.mp follow).1 other among with refused | later
    · cases refused.2.symm.trans answered
    · exact (UInt64.ne_of_lt later).symm
  have own := call_answered answered
  have all : here.filter (·.correlation == record.correlation) = here := by
    refine List.filter_eq_self.mpr fun sent among => ?_
    obtain ⟨made, inside, same⟩ := mine.correlated sent among
    exact beq_iff_eq.mpr (same.trans (call_correlated inside))
  rw [List.filter_append, List.filter_append, none_before, none_after, all, List.nil_append,
    List.append_nil]
  have carried : OnWire record.outcome.calls here := mine
  rw [CallRecord.outcome, own] at carried
  exact carried.sent

end Wire

section Session

/-- Everything the process has polled. -/
def consumedEvents (outputs : List RuntimeOutput) : List Event :=
  outputs.filterMap fun
    | .consumed event => some event
    | _ => none

variable {outputs : List RuntimeOutput} {correlation : UInt64}

theorem mem_consumedEvents {event : Event} :
    event ∈ consumedEvents outputs ↔ .consumed event ∈ outputs := by
  refine List.mem_filterMap.trans ⟨fun ⟨output, member, same⟩ => ?_, fun member => ⟨_, member, rfl⟩⟩
  cases output with
  | consumed event => exact Option.some.inj same ▸ member
  | _ => cases same

theorem receivedOf_eq_filter (correlation : UInt64) (outputs : List RuntimeOutput) :
    receivedOf correlation outputs = (consumedEvents outputs).filter fun event =>
      event.frame.has fRequest && event.frame.correlationId == correlation := by
  rw [receivedOf, consumedEvents, List.filter_filterMap]
  refine List.filterMap_congr fun output _ => ?_
  cases output with
  | consumed event => simp [Option.filter]
  | _ => rfl

/-- What a process polled of a wire it saw a front of. -/
theorem consumed_owned {wire : List SendCall} {here : Client} {requests : List SentFragment}
    (polled : consumedEvents outputs <+: wire.map (·.event here))
    (owned : wire.filter (·.correlation == correlation) = requests.map SentFragment.sendCall) :
    (consumedEvents outputs).filter (·.frame.correlationId == correlation) <+:
      requests.map (·.event here fRequest) := by
  have mine : (wire.map (·.event here)).filter (·.frame.correlationId == correlation) =
      requests.map (·.event here fRequest) := by
    rw [List.filter_map]
    have same : ((fun event : Event => event.frame.correlationId == correlation) ∘
        fun call : SendCall => call.event here) = fun call => call.correlation == correlation := by
      funext call
      simp only [Function.comp, (call.delivers here).correlation]
    rw [same, owned, List.map_map]
    rfl
  exact mine ▸ polled.filter fun event => event.frame.correlationId == correlation

theorem received_owned {here : Client} {requests : List SentFragment}
    (front : (consumedEvents outputs).filter (·.frame.correlationId == correlation) <+:
      requests.map (·.event here fRequest))
    (present : ∀ fragment ∈ requests, 0 < fragment.payload.length) :
    receivedOf correlation outputs <+: requests.map (·.event here fRequest) ∧
      ∀ event, .consumed event ∈ outputs → event.frame.correlationId = correlation →
        event.frame.has fCancel = false := by
  refine ⟨?_, fun event consumed same => ?_⟩
  · have all : receivedOf correlation outputs =
        ((consumedEvents outputs).filter (·.frame.correlationId == correlation)).filter
          (·.frame.has fRequest) := by
      rw [receivedOf_eq_filter, List.filter_filter]
    have every : (requests.map (·.event here fRequest)).filter (·.frame.has fRequest) =
        requests.map (·.event here fRequest) := by
      refine List.filter_eq_self.mpr fun event member => ?_
      obtain ⟨fragment, among, rfl⟩ := List.mem_map.mp member
      exact (SentFragment.event_request (present fragment among)).1
    rw [all, ← every]
    exact front.filter _
  · have member : event ∈ (consumedEvents outputs).filter (·.frame.correlationId == correlation) :=
      List.mem_filter.mpr ⟨mem_consumedEvents.mpr consumed, beq_iff_eq.mpr same⟩
    obtain ⟨fragment, among, rfl⟩ := List.mem_map.mp (front.subset member)
    exact (SentFragment.event_request (present fragment among)).2

variable {caller : ModuleCaller} {call : ModuleCall} {world : CallWorld} {body : Bytes}

theorem sendPieces_accepting {deadlineNS : UInt64} {requestFragment : Nat → Except BusError Unit}
    {index : Nat} {frame : Bytes} {parts : List (Bytes × Bool)}
    (sent : (sendPieces call correlation deadlineNS requestFragment index frame parts).2 = .ok ()) :
    sendPieces call correlation deadlineNS (fun _ => .ok ()) index frame parts =
      sendPieces call correlation deadlineNS requestFragment index frame parts := by
  induction parts generalizing index frame with
  | nil => rfl
  | cons piece rest ih =>
      obtain ⟨part, more⟩ := piece
      simp only [sendPieces] at sent ⊢
      split at sent
      · cases sent
      · split at sent
        · cases sent
        · rename_i accepted
          simp only [accepted, ih sent]

/-- A wait without an expiry that ends with a body was disturbed by nothing it polled. -/
theorem awaitReply_undisturbed {kind : UInt32} {gathered : Bytes} {polls : List PollStep}
    (ended : caller.awaitReply kind correlation none gathered polls = some (.ok body)) :
    ∃ used unused, polls = used ++ unused ∧ (∀ step ∈ used, step.Undisturbed) ∧
      caller.awaitReply kind correlation none gathered used = some (.ok body) := by
  induction polls generalizing gathered with
  | nil => cases ended
  | cons step rest ih =>
      obtain ⟨outcome, ctxDone, now⟩ := step
      cases outcome with
      | panicked => cases ended
      | failed failure => cases ended
      | empty =>
          simp only [ModuleCaller.awaitReply] at ended
          cases ctxDone with
          | true => cases ended
          | false =>
              obtain ⟨used, unused, rfl, undisturbed, same⟩ := ih ended
              exact ⟨_ :: used, unused, rfl, List.forall_mem_cons.mpr ⟨rfl, undisturbed⟩, same⟩
      | received event =>
          simp only [ModuleCaller.awaitReply] at ended
          cases heard : caller.acceptEvent kind correlation gathered event with
          | error result =>
              rw [heard] at ended
              refine ⟨[_], rest, rfl, List.forall_mem_singleton.mpr trivial, ?_⟩
              simpa only [ModuleCaller.awaitReply, heard] using ended
          | ok more =>
              rw [heard] at ended
              obtain ⟨used, unused, rfl, undisturbed, same⟩ := ih ended
              refine ⟨_ :: used, unused, rfl, List.forall_mem_cons.mpr ⟨trivial, undisturbed⟩, ?_⟩
              simpa only [ModuleCaller.awaitReply, heard] using same

/-- An answered call is what it is when every request call is accepted. -/
theorem call_accepting (answered : (caller.call call world).result = some (.ok body)) :
    caller.call call { world with requestFragment := fun _ => .ok () } = caller.call call world := by
  unfold ModuleCaller.call at answered ⊢
  split at answered
  · cases answered
  · rename_i fits
    rw [if_neg fits, if_neg fits]
    dsimp only [ModuleCaller.deadlineNS, ModuleCaller.expiry] at answered ⊢
    split at answered
    · cases answered
    · rename_i calls sent
      have same : ModuleCaller.send { caller with correlation := caller.next } call caller.next
          (ModuleCaller.deadlineNS call world) (fun _ => .ok ()) = (calls, .ok ()) := by
        rw [← sent]
        unfold ModuleCaller.send at sent ⊢
        split at sent
        · cases Prod.mk.inj sent |>.2
        · rename_i room
          rw [if_neg room, if_neg room]
          exact sendPieces_accepting (congrArg Prod.snd sent)
      dsimp only [ModuleCaller.deadlineNS] at same sent
      rw [same]

/-- The two ends between which a call was made. -/
def CallRecord.stage (record : CallRecord) (here : Client) (config : RuntimeConfig)
    (there : Client) : RemoteStage :=
  ⟨record.caller, record.call, here, config, there⟩

variable {start state : ModuleCaller} {actions : List (ModuleCall × CallWorld)}
  {records : List CallRecord} {wire : List SendCall} {here there : Client}
  {config : RuntimeConfig} {serve : StageHandler} {process : ProcessState}

/-- A call of a session that returned a body returned what the handler makes
of its request in place. -/
theorem session_answered (run : callerMachine.Run start actions state records)
    (fits : start.correlation.toNat + actions.length < 2 ^ 64)
    (carried : OnWire (records.flatMap (·.outcome.calls)) wire)
    (polled : consumedEvents outputs <+: wire.map (·.event here)) {record : CallRecord}
    (member : record ∈ records) (answered : record.outcome.result = some (.ok body))
    (sound : (record.stage here config there).Sound) {moves : List ProcessAction}
    (served : (calmProcess serve config record.correlation).Run .initial moves process outputs)
    {fragments : List SentFragment} (within : fragments <+: repliedOf record.correlation outputs)
    (heard : Relays there here fReply fragments
      (pollsOf record.correlation record.world.polls)) :
    (record.stage here config there).inPlace serve = .ok body := by
  have accepted : ∀ index,
      ({ record.world with requestFragment := fun _ => .ok () } : CallWorld).requestFragment index =
        .ok () := fun _ => rfl
  have same := call_accepting answered
  obtain ⟨published, waited⟩ := sound.sends accepted record.world.polls
  have outcome : (record.stage here config there).outcome
      { record.world with requestFragment := fun _ => .ok () } record.world.polls =
        record.outcome := same
  rw [outcome] at published waited
  have owned := carried.owned run fits member answered
  rw [published] at owned
  obtain ⟨received, uncancelled⟩ := received_owned (consumed_owned polled owned)
    fun fragment among => (sound.requests_publishable fragment among).present
  have calm := sound.calmCall served received uncancelled
  rw [waited] at answered
  obtain ⟨used, unused, polls, undisturbed, ended⟩ := awaitReply_undisturbed answered
  have front : pollsOf record.correlation record.world.polls =
      pollsOf record.correlation used ++ pollsOf record.correlation unused := by
    rw [polls, pollsOf, List.filterMap_append]
    rfl
  rw [front] at heard
  refine (calm.agrees sound accepted undisturbed ((List.take_prefix _ _).trans within)
    (List.forall₂_take_append _ _ _ heard) ?_).symm
  exact (sound.sends accepted used).2.trans ended

/-- Calls made one after the other over one client take nothing for their own
that answers another: their correlations grow, and what they hear of other
correlations changes nothing. Whatever became of the calls before and after it,
a call without a deadline that returned a body got the one its own request makes
in place, where the process ran calmly. -/
theorem session_calls (run : callerMachine.Run start actions state records)
    (fits : start.correlation.toNat + actions.length < 2 ^ 64)
    (carried : OnWire (records.flatMap (·.outcome.calls)) wire)
    (polled : consumedEvents outputs <+: wire.map (·.event here)) :
    (records.Pairwise fun early late => early.Refused ∨ early.correlation < late.correlation) ∧
    ∀ record ∈ records,
      (∀ made ∈ record.outcome.calls, made.correlation = record.correlation) ∧
      record.caller.call record.call { record.world with
        polls := record.world.polls.filter (·.own record.correlation) } = record.outcome ∧
      ∀ body, record.outcome.result = some (.ok body) →
        (record.stage here config there).Sound →
        ∀ moves fragments,
          (calmProcess serve config record.correlation).Run .initial moves process outputs →
          fragments <+: repliedOf record.correlation outputs →
          Relays there here fReply fragments (pollsOf record.correlation record.world.polls) →
          (record.stage here config there).inPlace serve = .ok body :=
  ⟨(session_numbered run fits).apart, fun record member =>
    ⟨fun _ made => call_correlated made, call_own record.caller record.call record.world,
      fun _ answered sound _ _ served within heard =>
        session_answered run fits carried polled member answered sound served within heard⟩⟩

end Session

section Example

def CallerCall.carried : CallerCall → Option SendCall
  | .request kind correlation payload more (.ok ()) =>
      some (.requestFragment kind correlation payload more)
  | .request _ _ _ _ (.error _) => none
  | .cancel kind correlation => some (.cancel kind correlation)

theorem onWire_carried (calls : List CallerCall) :
    OnWire calls (calls.filterMap CallerCall.carried) := by
  induction calls with
  | nil => exact .nil
  | cons made rest ih =>
      cases made with
      | cancel kind correlation => exact .cancel ih
      | request kind correlation payload more result =>
          cases result with
          | error failure => exact .refused ih
          | ok taken => exact .request ih

/-- Three bytes in two fragments; the context ends before any of the reply. -/
def hastyRecord : CallRecord :=
  ⟨RemoteStage.pairedStage.caller, RemoteStage.pairedStage.call,
    ⟨0, 0, fun _ => .ok (), [⟨.empty, true, 0⟩]⟩⟩

/-- The call made after it. -/
def nextStage : RemoteStage :=
  { RemoteStage.pairedStage with
    caller := hastyRecord.outcome.caller
    call := ⟨kindModuleBase, 1, 9, 0, [4, 5]⟩ }

def staleReply : SentFragment :=
  (RemoteStage.pairedStage.request.reply [1, 2, 3] moduleStatusOK).fragment ([1, 2], true)

def nextReply : SentFragment :=
  (nextStage.request.reply [4, 5] moduleStatusOK).fragment ([4, 5], false)

/-- It hears of the reply to the first call before its own comes. -/
def nextRecord : CallRecord :=
  ⟨nextStage.caller, nextStage.call, ⟨0, 0, fun _ => .ok (),
    [⟨.received (staleReply.event RemoteStage.pairedClient fReply), false, 0⟩, ⟨.empty, false, 0⟩,
      ⟨.received (nextReply.event RemoteStage.pairedClient fReply), false, 0⟩]⟩⟩

def echo : StageHandler := fun _ _ body => (body, moduleStatusOK)

/-- The first request is answered before its cancel arrives. -/
def sessionMoves : List ProcessAction :=
  (RemoteStage.pairedStage.request.fragments.flatMap (iteration · [])).map .runtime ++
    [.runtime (.invoke 0), .returns 0 0, .runtime (.checkCancelled 0 5), .runtime (.deliver 0),
      .runtime (.receive [{ result := .ok () }, { result := .ok () }])] ++
    (iteration ((SendCall.cancel kindModuleBase 7).event RemoteStage.pairedClient) []).map
      .runtime ++
    (nextStage.request.fragments.flatMap (iteration · [])).map .runtime ++
    [.runtime (.invoke 0), .returns 0 0, .runtime (.checkCancelled 0 5), .runtime (.deliver 0),
      .runtime (.receive [{ result := .ok () }])]

def sessionWire : List SendCall :=
  ([hastyRecord, nextRecord].flatMap (·.outcome.calls)).filterMap CallerCall.carried

theorem nextStage_sound : nextStage.Sound := by
  have roomy : RemoteStage.pairedClient.Roomy := ⟨by decide, by decide, by decide⟩
  exact ⟨by decide, by decide, by decide, by decide, rfl, by decide, by decide +kernel,
    by decide +kernel, ⟨roomy, by decide +kernel, rfl, rfl⟩, ⟨roomy, rfl, rfl, rfl⟩⟩

/-- The second call returns what it asked for. -/
theorem session_calls_stale :
    nextRecord.outcome.result = some (.ok [4, 5]) ∧ nextStage.inPlace echo = .ok [4, 5] := by
  have executed : ((calmProcess echo nextStage.config 8).execute .initial sessionMoves).any
      (fun final => consumedEvents final.2 == sessionWire.map (·.event RemoteStage.pairedClient) &&
        repliedOf 8 final.2 == [nextReply]) = true := by
    decide +kernel
  obtain ⟨⟨process, outputs⟩, ran, same⟩ := (Option.any_eq_true _ _).mp executed
  simp only [Bool.and_eq_true, beq_iff_eq] at same
  obtain ⟨polled, replied⟩ := same
  have run : ∃ state, callerMachine.Run RemoteStage.pairedStage.caller
      [(hastyRecord.call, hastyRecord.world), (nextRecord.call, nextRecord.world)] state
        [hastyRecord, nextRecord] :=
    ⟨_, .snoc (.snoc .nil (callerMachine_step.mpr ⟨by decide +kernel, rfl, rfl⟩))
      (callerMachine_step.mpr ⟨by decide +kernel, rfl, rfl⟩)⟩
  obtain ⟨state, run⟩ := run
  have answered : nextRecord.outcome.result = some (.ok [4, 5]) := by decide +kernel
  have correlation : nextRecord.correlation = 8 := by decide +kernel
  have planned : nextReply ∈ (nextStage.request.reply [4, 5] moduleStatusOK).plan
      nextStage.config.inlineBudget := by decide +kernel
  have fits : RemoteStage.pairedClient.outbound.Fits (List.replicate 448 (0 : UInt8)).length :=
    ⟨⟨1, by decide, by decide⟩, by decide, by decide, by decide, by decide,
      by rw [List.length_replicate]; decide⟩
  have room : RemoteStage.pairedClient.outbound.produceBegin (List.replicate 448 0) = some 192 := by
    decide +kernel
  have heard : Relays RemoteStage.pairedClient RemoteStage.pairedClient fReply [nextReply]
      (pollsOf nextRecord.correlation nextRecord.world.polls) := by
    have only : pollsOf nextRecord.correlation nextRecord.world.polls =
        [nextReply.event RemoteStage.pairedClient fReply] := by decide +kernel
    rw [only]
    exact .cons (@relayed_of_room _ fReply _ nextReply 0 _ _ nextStage_sound.there.1
      (nextStage_sound.reply_publishable _ _ _ planned) fits rfl rfl rfl rfl rfl room) .nil
  have served : consumedEvents outputs <+:
      (([hastyRecord, nextRecord].flatMap (·.outcome.calls)).filterMap CallerCall.carried).map
        (·.event RemoteStage.pairedClient) := ⟨[], (List.append_nil _).trans polled⟩
  have within : [nextReply] <+: repliedOf nextRecord.correlation outputs :=
    ⟨[], (List.append_nil _).trans (by rw [correlation, replied])⟩
  obtain ⟨-, each⟩ := session_calls run (by decide +kernel) (onWire_carried _) served
  obtain ⟨-, -, returns⟩ := each nextRecord (List.mem_cons_of_mem _ List.mem_cons_self)
  exact ⟨answered, returns [4, 5] answered nextStage_sound sessionMoves [nextReply]
    (correlation ▸ Machine.run_of_execute ran) within heard⟩

end Example

end AimeeLearning.Bus
