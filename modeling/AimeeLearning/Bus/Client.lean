import AimeeLearning.Bus.Ring

/-! The attached bus client: publishing one frame to its outbound ring and
taking one event from its inbound ring. Each call is given the bytes of the one
ring it touches and the host epoch it observes. -/

set_option autoImplicit false

namespace AimeeLearning.Bus

open Library

structure Client where
  handle : UInt32
  slotSize : UInt32
  inlineBudget : UInt32
  arenaSize : UInt64
  attachedEpoch : UInt64
  /-- Whether the control region was attached. -/
  control : Bool
  inbound : Ring
  outbound : Ring
  pendingRead : Bool
  deriving DecidableEq, Repr

/-- A received event; the payload aliases the inbound slot. -/
structure Event where
  frame : Frame
  payload : Bytes
  deriving DecidableEq, Repr

/-- A fragment of a request or a reply that was accepted for publishing. -/
structure SentFragment where
  kind : UInt32
  correlation : UInt64
  payload : Bytes
  more : Bool
  deriving DecidableEq, Repr

namespace Client

/-- Whether the host restarted since attach. -/
def epochChanged (client : Client) (epoch : UInt64) : Bool :=
  client.control && epoch != client.attachedEpoch

/-- The frame `emit` builds around a payload. -/
def frame (client : Client) (flags : UInt16) (kind : UInt32) (corr : UInt64)
    (payload : Bytes) : Frame :=
  if payload.length > 0 then
    { hdrFlags := flags ||| fInline, wireVersion := wireVersion, eventKind := kind,
      correlationId := corr, srcHandle := client.handle,
      payloadLen := UInt32.ofNat payload.length, payloadRef := UInt64.ofNat hdrLen }
  else
    { hdrFlags := flags, wireVersion := wireVersion, eventKind := kind,
      correlationId := corr, srcHandle := client.handle }

/-- Encode the frame and copy the payload behind it; Go's `copy` stops at the
shorter of the two. -/
def fillSlot (frame : Frame) (payload slot : Bytes) : Except BusError Bytes :=
  let (written, encoded) := frame.encode slot
  if written != hdrLen then .error .errProtocol
  else .ok (patch encoded hdrLen (payload.take (encoded.length - hdrLen)))

/-- The checks `emit` makes before it looks at the ring. -/
def admits (client : Client) (epoch : UInt64) (payload : Bytes) : Except BusError Unit :=
  if !client.control then .error .errProtocol
  else if payload.length > 0 && (UInt32.ofNat payload.length > client.inlineBudget ||
      hdrLen + payload.length > client.slotSize.toNat) then .error .errPayload
  else if client.epochChanged epoch then .error .errEpoch
  else .ok ()

/-- The result of a publish and the outbound ring afterwards. -/
def emit (client : Client) (epoch : UInt64) (mem : Bytes) (flags : UInt16) (kind : UInt32)
    (corr : UInt64) (payload : Bytes) : Except BusError Unit × Bytes :=
  match client.admits epoch payload with
  | .error failure => (.error failure, mem)
  | .ok () =>
      match client.outbound.produceBegin mem with
      | none => (.error .errWouldBlock, mem)
      | some offset =>
          let slot := window mem offset client.outbound.slotSize.toNat
          match fillSlot (client.frame flags kind corr payload) payload slot with
          | .error failure => (.error failure, mem)
          | .ok filled => (.ok (), Ring.produceCommit (patch mem offset filled))

def fragmentFlags (pattern : UInt16) (more : Bool) : UInt16 :=
  if more then pattern ||| fMore else pattern

/-- The argument checks shared by requests and replies. -/
def fragmentFault (corr : UInt64) (payload : Bytes) (more : Bool) : Bool :=
  corr == 0 || more && payload.length == 0

def requestFragment (client : Client) (epoch : UInt64) (mem : Bytes) (kind : UInt32)
    (corr : UInt64) (payload : Bytes) (more : Bool) : Except BusError Unit × Bytes :=
  if fragmentFault corr payload more then (.error .errProtocol, mem)
  else client.emit epoch mem (fragmentFlags fRequest more) kind corr payload

def replyFragment (client : Client) (epoch : UInt64) (mem : Bytes) (kind : UInt32)
    (corr : UInt64) (payload : Bytes) (more : Bool) : Except BusError Unit × Bytes :=
  if fragmentFault corr payload more then (.error .errProtocol, mem)
  else client.emit epoch mem (fragmentFlags fReply more) kind corr payload

def publish (client : Client) (epoch : UInt64) (mem : Bytes) (kind : UInt32) (payload : Bytes) :
    Except BusError Unit × Bytes :=
  client.emit epoch mem fNotification kind 0 payload

def cancel (client : Client) (epoch : UInt64) (mem : Bytes) (kind : UInt32) (corr : UInt64) :
    Except BusError Unit × Bytes :=
  if corr == 0 then (.error .errProtocol, mem)
  else client.emit epoch mem fCancel kind corr []

/-- What one Poll does for its caller; a slice expression with bad bounds panics. -/
inductive PollOutcome where
  | panicked
  | failed (error : BusError)
  | empty
  | received (event : Event)
  deriving DecidableEq, Repr

/-- `slot[low:high]` of the slot at `offset`: the capacity of the slot slice
reaches to the end of the mapping. -/
def sliceSlot (mem : Bytes) (offset low high : Nat) : Option Bytes :=
  if low ≤ high ∧ offset + high ≤ mem.length then some (window mem (offset + low) (high - low))
  else none

/-- The event of the slot at `offset`, or none when its header does not decode. -/
def readSlot (client : Client) (mem : Bytes) (offset : Nat) : PollOutcome :=
  let slot := window mem offset client.inbound.slotSize.toNat
  match decode slot {} with
  | (.ok, frame) =>
      if frame.has fInline && frame.payloadLen > 0 &&
          frame.payloadEnd ≤ client.slotSize.toUInt64 then
        match sliceSlot mem offset frame.payloadRef.toNat frame.payloadEnd.toNat with
        | none => .panicked
        | some payload => .received { frame, payload }
      else .received { frame, payload := [] }
  | _ => .empty

/-- The inbound ring once the slot handed out by the previous Poll is released. -/
def released (client : Client) (mem : Bytes) : Bytes :=
  if client.pendingRead then Ring.consumeCommit mem else mem

/-- The outcome, the client and the inbound ring afterwards. -/
def poll (client : Client) (epoch : UInt64) (mem : Bytes) : PollOutcome × Client × Bytes :=
  if !client.control then (.failed .errProtocol, client, mem)
  else if client.epochChanged epoch then (.failed .errEpoch, client, mem)
  else
    let mem := client.released mem
    let idle := { client with pendingRead := false }
    match client.inbound.consumeBegin mem with
    | none => (.empty, idle, mem)
    | some offset =>
        match client.readSlot mem offset with
        | .empty => (.empty, idle, Ring.consumeCommit mem)
        | outcome => (outcome, { client with pendingRead := true }, mem)

/-- The slot a Poll looks at, if it gets that far. -/
def polledSlot (client : Client) (epoch : UInt64) (mem : Bytes) : Option Bytes :=
  if !client.control || client.epochChanged epoch then none
  else (client.inbound.consumeBegin (client.released mem)).map fun offset =>
    window (client.released mem) offset client.inbound.slotSize.toNat

end Client

end AimeeLearning.Bus
