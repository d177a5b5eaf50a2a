import AimeeLearning.Bus.Client
import AimeeLearning.Bus.ModuleProtocol
import AimeeLearning.Library.Fragments

/-! The calling side of a module stage: a request is cut to the inline budget
and sent as correlated fragments, then the bus is polled for the fragments of
the reply. What the bus and the clocks answer is given to a call as data; the
bus calls it makes are recorded in order. -/

set_option autoImplicit false

namespace AimeeLearning.Bus

open Library

inductive CallError where
  | bus (error : BusError)
  | deadline
  | cancelled
  | capabilityAbsent
  | rejected
  /-- The module's own outcome. -/
  | status (status : ModuleStatus)
  deriving DecidableEq, Repr

structure ModuleCaller where
  inlineBudget : UInt32
  correlation : UInt64
  responseLimit : UInt32 := moduleMessageMaxBody

/-- The arguments of Call; the deadline is a duration in nanoseconds. -/
structure ModuleCall where
  eventKind : UInt32
  stageID : UInt32
  traceID : UInt64
  deadline : Int
  request : Bytes

/-- One Poll of the waiting loop, with what the context and the clock say when
it finds nothing. -/
structure PollStep where
  outcome : Client.PollOutcome
  ctxDone : Bool := false
  now : Int := 0

structure CallWorld where
  /-- The monotonic clock when the deadline is computed. -/
  nowNS : UInt64
  /-- The wall clock when the expiry is computed. -/
  start : Int
  /-- The result of each RequestFragment call. -/
  requestFragment : Nat → Except BusError Unit
  polls : List PollStep

/-- A bus call made on behalf of a caller. -/
inductive CallerCall where
  | request (kind : UInt32) (correlation : UInt64) (payload : Bytes) (more : Bool)
      (result : Except BusError Unit)
  | cancel (kind : UInt32) (correlation : UInt64)

/-- The envelope of one request fragment. -/
def ModuleCall.message (call : ModuleCall) (deadlineNS : UInt64) (part : Nat) : ModuleMessage :=
  { operation := moduleOpInvoke, status := moduleStatusOK, stageID := call.stageID,
    bodyLen := UInt32.ofNat part, deadlineNS, traceID := call.traceID }

/-- The fragment loop. The frame buffer is reused from fragment to fragment. -/
def sendPieces (call : ModuleCall) (correlation deadlineNS : UInt64)
    (requestFragment : Nat → Except BusError Unit) :
    Nat → Bytes → List (Bytes × Bool) → List CallerCall × Except CallError Unit
  | _, _, [] => ([], .ok ())
  | index, frame, (part, more) :: rest =>
      match (call.message deadlineNS part.length).encode frame with
      | .error failure => ([], .error (.bus failure))
      | .ok (written, header) =>
          let frame := patch header written part
          let payload := frame.take (written + part.length)
          let result := requestFragment index
          let made := .request call.eventKind correlation payload more result
          match result with
          | .error failure => ([made], .error (.bus failure))
          | .ok () =>
              let (calls, outcome) :=
                sendPieces call correlation deadlineNS requestFragment (index + 1) frame rest
              (made :: calls, outcome)

namespace ModuleCaller

/-- The pieces a request is cut into. -/
def parts (caller : ModuleCaller) (call : ModuleCall) : List (Bytes × Bool) :=
  pieces (caller.inlineBudget.toNat - moduleMessageHeaderLen) call.request

def send (caller : ModuleCaller) (call : ModuleCall) (correlation deadlineNS : UInt64)
    (requestFragment : Nat → Except BusError Unit) : List CallerCall × Except CallError Unit :=
  if caller.inlineBudget.toNat ≤ moduleMessageHeaderLen then ([], .error (.bus .errModuleRuntime))
  else
    sendPieces call correlation deadlineNS requestFragment 0
      (List.replicate caller.inlineBudget.toNat 0) (caller.parts call)

/-- The answer of the host to a request of this correlation, if the event is one. -/
def hostVerdict (event : Event) (correlation : UInt64) : Option CallError :=
  if event.frame.correlationId == correlation then
    if event.frame.eventKind == kindCapabilityAbsent then some .capabilityAbsent
    else if event.frame.eventKind == kindError then some .rejected
    else none
  else none

/-- What one event does to the wait: nothing, more body bytes, or its end. -/
def acceptEvent (caller : ModuleCaller) (kind : UInt32) (correlation : UInt64) (body : Bytes)
    (event : Event) : Except (Except CallError Bytes) Bytes :=
  match hostVerdict event correlation with
  | some failure => .error (.error failure)
  | none =>
      if event.frame.eventKind != kind || event.frame.correlationId != correlation then .ok body
      else
        match decodeModuleMessage event.payload with
        | .error _ => .ok body
        | .ok message =>
            if message.operation != moduleOpResult then .ok body
            else if message.status != moduleStatusOK then .error (.error (.status message.status))
            else if moduleMessageHeaderLen + message.bodyLen.toNat > event.payload.length then
              .error (.error (.bus .errModuleRuntime))
            else if UInt32.ofNat body.length + message.bodyLen > caller.responseLimit then
              .error (.error (.bus .errModuleRuntime))
            else if event.frame.has fMore then .ok (body ++ message.body event.payload)
            else .error (.ok (body ++ message.body event.payload))

/-- The waiting loop; `none` while it still polls, and when a Poll panics, which
leaves Call without a result and without a Cancel. -/
def awaitReply (caller : ModuleCaller) (kind : UInt32) (correlation : UInt64)
    (expiry : Option Int) : Bytes → List PollStep → Option (Except CallError Bytes)
  | _, [] => none
  | body, step :: rest =>
      match step.outcome with
      | .panicked => none
      | .failed failure => some (.error (.bus failure))
      | .empty =>
          if step.ctxDone then some (.error .cancelled)
          else if expiry.any (step.now > ·) then some (.error .deadline)
          else caller.awaitReply kind correlation expiry body rest
      | .received event =>
          match caller.acceptEvent kind correlation body event with
          | .error result => some result
          | .ok body => caller.awaitReply kind correlation expiry body rest

end ModuleCaller

/-- A call that returned, still waits or panicked: the caller afterwards, the bus
calls it made and, if it returned, its result. -/
structure CallOutcome where
  caller : ModuleCaller
  calls : List CallerCall
  result : Option (Except CallError Bytes)

namespace ModuleCaller

/-- The correlation of the next call. -/
def next (caller : ModuleCaller) : UInt64 := caller.correlation + 1

/-- The absolute deadline the module is told. -/
def deadlineNS (call : ModuleCall) (world : CallWorld) : UInt64 :=
  if call.deadline > 0 then world.nowNS + UInt64.ofNat call.deadline.toNat else 0

/-- The caller's own expiry. -/
def expiry (call : ModuleCall) (world : CallWorld) : Option Int :=
  if call.deadline > 0 then some (world.start + call.deadline) else none

def call (caller : ModuleCaller) (call : ModuleCall) (world : CallWorld) : CallOutcome :=
  if UInt32.ofNat call.request.length > moduleMessageMaxBody then
    ⟨caller, [], some (.error (.bus .errModuleConfig))⟩
  else
    let correlation := caller.next
    let caller := { caller with correlation }
    match caller.send call correlation (deadlineNS call world) world.requestFragment with
    | (calls, .error failure) => ⟨caller, calls, some (.error failure)⟩
    | (calls, .ok ()) =>
        match caller.awaitReply call.eventKind correlation (expiry call world) [] world.polls with
        | some (.error failure) =>
            ⟨caller, calls ++ [.cancel call.eventKind correlation], some (.error failure)⟩
        | result => ⟨caller, calls, result⟩

end ModuleCaller

section Send

variable {call : ModuleCall} {correlation deadlineNS : UInt64}
  {requestFragment : Nat → Except BusError Unit}

def ModuleCall.payload (call : ModuleCall) (deadlineNS : UInt64) (part : Bytes) : Bytes :=
  (call.message deadlineNS part.length).header ++ part

theorem ModuleCall.message_valid_of_le {part longer : Nat}
    (valid : (call.message deadlineNS longer).valid = true) (shorter : part ≤ longer)
    (word : longer < 2 ^ 32) : (call.message deadlineNS part).valid = true := by
  have bound : UInt32.ofNat part ≤ UInt32.ofNat longer := by
    rw [UInt32.le_iff_toNat_le, UInt32.toNat_ofNat', UInt32.toNat_ofNat', Nat.mod_eq_of_lt word,
      Nat.mod_eq_of_lt (by omega)]
    exact shorter
  obtain ⟨operation, status, plain, staged, flags, fits⟩ := ModuleMessage.valid_iff.mp valid
  exact ModuleMessage.valid_iff.mpr
    ⟨operation, status, plain, staged, flags, UInt32.le_trans bound fits⟩

theorem ModuleCall.message_valid (named : call.stageID ≠ 0) {part : Nat}
    (small : part ≤ moduleMessageMaxBody.toNat) : (call.message deadlineNS part).valid = true := by
  have maximum : moduleMessageMaxBody.toNat < 2 ^ 32 := moduleMessageMaxBody.toNat_lt
  have bound : UInt32.ofNat part ≤ moduleMessageMaxBody := by
    rw [UInt32.le_iff_toNat_le, UInt32.toNat_ofNat', Nat.mod_eq_of_lt (by omega)]
    exact small
  exact ModuleMessage.valid_iff.mpr
    ⟨.inl rfl, by simp [ModuleCall.message]; decide, fun _ => rfl, named, rfl, bound⟩

theorem ModuleCall.payload_decoded (named : call.stageID ≠ 0) {part : Bytes}
    (small : part.length ≤ moduleMessageMaxBody.toNat) :
    decodeModuleMessage (call.payload deadlineNS part) = .ok (call.message deadlineNS part.length) ∧
      (call.message deadlineNS part.length).body (call.payload deadlineNS part) = part := by
  have maximum : moduleMessageMaxBody.toNat < 2 ^ 32 := moduleMessageMaxBody.toNat_lt
  have announced : (call.message deadlineNS part.length).bodyLen.toNat = part.length := by
    rw [ModuleCall.message, UInt32.toNat_ofNat', Nat.mod_eq_of_lt (by omega)]
  exact ⟨ModuleMessage.decode_header (call.message_valid named small) announced.le,
    ModuleMessage.body_header announced⟩

theorem ModuleCall.payload_frame {frame header part : Bytes} {written : Nat}
    (encoded : (call.message deadlineNS part.length).encode frame = .ok (written, header))
    (room : moduleMessageHeaderLen + part.length ≤ frame.length) :
    (call.message deadlineNS part.length).valid = true ∧
      (patch header written part).take (written + part.length) = call.payload deadlineNS part ∧
      (patch header written part).length = frame.length := by
  unfold ModuleMessage.encode at encoded
  split at encoded
  · cases encoded
  · rename_i sound
    simp only [Bool.or_eq_true, Bool.not_eq_true', decide_eq_true_eq, not_or,
      Bool.not_eq_false] at sound
    obtain ⟨rfl, rfl⟩ := Prod.mk.inj (Except.ok.inj encoded)
    have front := ModuleMessage.length_header (call.message deadlineNS part.length)
    have whole : (patch frame 0 (call.message deadlineNS part.length).header).length =
        frame.length := length_patch (by rw [front]; omega)
    refine ⟨sound.2, ?_, ?_⟩
    · have kept : (patch frame 0 (call.message deadlineNS part.length).header).take
          moduleMessageHeaderLen = (call.message deadlineNS part.length).header := by
        rw [patch, List.take_zero, List.nil_append, ← front, List.take_left']
        rfl
      rw [patch, kept, ModuleCall.payload, ← front, ← List.length_append, List.take_left']
      rfl
    · rw [length_patch (by rw [whole]; omega), whole]

/-- Fragments that fit the buffer and whose envelope is valid. -/
def Sendable (call : ModuleCall) (deadlineNS : UInt64) (room : Nat)
    (parts : List (Bytes × Bool)) : Prop :=
  ∀ piece ∈ parts, (call.message deadlineNS piece.1.length).valid = true ∧
    moduleMessageHeaderLen + piece.1.length ≤ room

/-- The request call of one fragment, as the loop makes it. -/
def requestCall (call : ModuleCall) (correlation deadlineNS : UInt64)
    (requestFragment : Nat → Except BusError Unit) (index : Nat) (piece : Bytes × Bool) :
    CallerCall :=
  .request call.eventKind correlation (call.payload deadlineNS piece.1) piece.2
    (requestFragment index)

theorem sendPieces_cons (correlation : UInt64) (requestFragment : Nat → Except BusError Unit)
    (index : Nat) {frame : Bytes} {piece : Bytes × Bool} {rest : List (Bytes × Bool)}
    (sendable : Sendable call deadlineNS frame.length (piece :: rest)) :
    ∃ buffer : Bytes, buffer.length = frame.length ∧
      sendPieces call correlation deadlineNS requestFragment index frame (piece :: rest) =
        match requestFragment index with
        | .error failure =>
            ([requestCall call correlation deadlineNS requestFragment index piece],
              .error (.bus failure))
        | .ok () =>
            (requestCall call correlation deadlineNS requestFragment index piece ::
                (sendPieces call correlation deadlineNS requestFragment (index + 1) buffer rest).1,
              (sendPieces call correlation deadlineNS requestFragment (index + 1) buffer rest).2) := by
  obtain ⟨part, more⟩ := piece
  obtain ⟨valid, room⟩ := sendable (part, more) List.mem_cons_self
  have encoded : (call.message deadlineNS part.length).encode frame =
      .ok (moduleMessageHeaderLen,
        patch frame 0 (call.message deadlineNS part.length).header) := by
    have long : ¬ frame.length < moduleMessageHeaderLen := by omega
    simp [ModuleMessage.encode, valid, long]
  obtain ⟨-, payload, length⟩ := ModuleCall.payload_frame encoded room
  refine ⟨_, length, ?_⟩
  simp only [sendPieces, encoded, payload, requestCall]

theorem sendPieces_accepted {index : Nat} {frame : Bytes} {parts : List (Bytes × Bool)}
    (sendable : Sendable call deadlineNS frame.length parts)
    (accepted : ∀ position, requestFragment position = .ok ()) :
    sendPieces call correlation deadlineNS requestFragment index frame parts =
      (parts.map fun piece => .request call.eventKind correlation
        (call.payload deadlineNS piece.1) piece.2 (.ok ()), .ok ()) := by
  induction parts generalizing index frame with
  | nil => rfl
  | cons piece rest ih =>
      obtain ⟨buffer, length, unfolded⟩ := sendPieces_cons correlation requestFragment index
        sendable
      rw [unfolded]
      simp only [accepted index, requestCall]
      rw [ih fun other member => length ▸ sendable other (List.mem_cons_of_mem piece member)]
      simp

/-- The loop fails exactly when one of its fragments is refused. -/
theorem sendPieces_failed_iff (correlation : UInt64)
    (requestFragment : Nat → Except BusError Unit) (index : Nat) {frame : Bytes}
    {parts : List (Bytes × Bool)} (sendable : Sendable call deadlineNS frame.length parts) :
    (∃ failure, (sendPieces call correlation deadlineNS requestFragment index frame parts).2 =
        .error failure) ↔
      ∃ k < parts.length, ∃ failure, requestFragment (index + k) = .error failure := by
  induction parts generalizing index frame with
  | nil => simp [sendPieces]
  | cons piece rest ih =>
      obtain ⟨buffer, length, unfolded⟩ := sendPieces_cons correlation requestFragment index
        sendable
      rw [unfolded]
      cases answer : requestFragment index with
      | error failure =>
          simp only [Except.error.injEq, exists_eq', true_iff]
          exact ⟨0, by simp, failure, answer⟩
      | ok fine =>
          simp only
          rw [ih _ fun other member => length ▸ sendable other (List.mem_cons_of_mem piece member)]
          constructor
          · rintro ⟨k, inside, failure, refused⟩
            rw [Nat.add_right_comm, Nat.add_assoc] at refused
            exact ⟨k + 1, by simpa using inside, failure, refused⟩
          · rintro ⟨k, inside, failure, refused⟩
            cases k with
            | zero =>
                rw [Nat.add_zero, answer] at refused
                cases refused
            | succ k =>
                rw [← Nat.add_assoc, Nat.add_right_comm] at refused
                exact ⟨k, by simpa using inside, failure, refused⟩

theorem sendPieces_requests {index : Nat} {frame : Bytes} {parts : List (Bytes × Bool)} :
    ∀ made ∈ (sendPieces call correlation deadlineNS requestFragment index frame parts).1,
      ∃ payload more result,
        made = .request call.eventKind correlation payload more result := by
  induction parts generalizing index frame with
  | nil => simp [sendPieces]
  | cons piece rest ih =>
      obtain ⟨part, more⟩ := piece
      intro made member
      simp only [sendPieces] at member
      split at member
      · cases member
      · split at member
        · obtain rfl := List.mem_singleton.mp member
          exact ⟨_, _, _, rfl⟩
        · rcases List.mem_cons.mp member with rfl | later
          · exact ⟨_, _, _, rfl⟩
          · exact ih made later

/-- Some fragment was accepted exactly when the first one was. -/
theorem sendPieces_accepted_iff (correlation : UInt64)
    (requestFragment : Nat → Except BusError Unit) (index : Nat) {frame : Bytes}
    {parts : List (Bytes × Bool)} (sendable : Sendable call deadlineNS frame.length parts) (nonempty : parts ≠ []) :
    (∃ payload more, .request call.eventKind correlation payload more (.ok ()) ∈
        (sendPieces call correlation deadlineNS requestFragment index frame parts).1) ↔
      requestFragment index = .ok () := by
  cases parts with
  | nil => exact absurd rfl nonempty
  | cons piece rest =>
      obtain ⟨buffer, length, unfolded⟩ := sendPieces_cons correlation requestFragment index
        sendable
      rw [unfolded]
      cases answer : requestFragment index with
      | error failure => simp [requestCall, answer]
      | ok fine =>
          refine ⟨fun _ => rfl, fun _ => ⟨call.payload deadlineNS piece.1, piece.2, ?_⟩⟩
          simp [requestCall, answer]

end Send

end AimeeLearning.Bus
