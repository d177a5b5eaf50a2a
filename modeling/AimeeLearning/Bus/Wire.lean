import AimeeLearning.Library.Bytes

/-! The frame codec of the shared-memory event bus: field widths, validation
order and byte offsets are those of the Go reference client. -/

set_option autoImplicit false

namespace AimeeLearning.Bus

open Library

def wireMagic : UInt32 := 0x30535542
def wireVersion : UInt16 := 3
def hdrLen : Nat := 64
def maxPayload : UInt32 := (1 : UInt32) <<< 20

def fInline : UInt16 := 0x0001
def fArena : UInt16 := 0x0002
def fNotification : UInt16 := 0x0004
def fRequest : UInt16 := 0x0008
def fReply : UInt16 := 0x0010
def fCancel : UInt16 := 0x0020
def fControl : UInt16 := 0x0040
def fMore : UInt16 := 0x0080

def fPlacementMask : UInt16 := fInline ||| fArena
def fPatternMask : UInt16 := fNotification ||| fRequest ||| fReply ||| fCancel
def fKnownMask : UInt16 := fPlacementMask ||| fPatternMask ||| fControl ||| fMore

def kindError : UInt32 := 3
def kindCapabilityAbsent : UInt32 := 4
def kindModuleBase : UInt32 := 256

/-- The sentinel errors of the package. -/
inductive BusError where
  | errRingLayout
  | errRegion
  | errDenied
  | errProtocol
  | errEpoch
  | errWouldBlock
  | errPayload
  | errModuleMessage
  | errModuleConfig
  | errModuleRuntime
  deriving DecidableEq, Repr

structure Frame where
  hdrFlags : UInt16 := 0
  wireVersion : UInt16 := 0
  eventKind : UInt32 := 0
  principalRef : UInt32 := 0
  correlationId : UInt64 := 0
  seq : UInt64 := 0
  logicalTs : UInt64 := 0
  payloadRef : UInt64 := 0
  payloadLen : UInt32 := 0
  srcHandle : UInt32 := 0
  dstHandle : UInt32 := 0
  generation : UInt32 := 0
  deriving DecidableEq, Repr

inductive Result where
  | ok
  | errShort
  | errMagic
  | errVersion
  | errFlags
  | errPayloadLen
  | errCorrelation
  | errReserved
  deriving DecidableEq, Repr

def exactlyOne (value : UInt16) : Bool :=
  value != 0 && value &&& (value - 1) == 0

/-- Whether a header flag is set. -/
def Frame.has (frame : Frame) (flag : UInt16) : Bool :=
  frame.hdrFlags &&& flag != 0

/-- The placement and payload-length rules, in the order the code checks them. -/
def Frame.validatePayload (frame : Frame) : Result :=
  let placement := frame.hdrFlags &&& fPlacementMask
  if frame.payloadLen > 0 then
    if !exactlyOne placement then .errFlags
    else if frame.payloadLen > maxPayload then .errPayloadLen
    else .ok
  else
    if placement != 0 then .errFlags
    else if frame.payloadRef != 0 then .errPayloadLen
    else .ok

/-- Only inline requests and replies with a payload may carry FMore. -/
def Frame.validateMore (frame : Frame) : Result :=
  let placement := frame.hdrFlags &&& fPlacementMask
  let pattern := frame.hdrFlags &&& fPatternMask
  if frame.has fMore then
    if (pattern != fRequest && pattern != fReply) || placement != fInline ||
        frame.payloadLen == 0 then .errFlags
    else .ok
  else .ok

def Frame.validateCorrelation (frame : Frame) : Result :=
  if frame.has fNotification then
    if frame.correlationId != 0 then .errCorrelation else .ok
  else if frame.correlationId == 0 then .errCorrelation else .ok

def Frame.validate (frame : Frame) : Result :=
  if frame.wireVersion != Bus.wireVersion then .errVersion
  else if frame.hdrFlags &&& ~~~fKnownMask != 0 then .errFlags
  else if !exactlyOne (frame.hdrFlags &&& fPatternMask) then .errFlags
  else if frame.validatePayload != .ok then frame.validatePayload
  else if frame.validateMore != .ok then frame.validateMore
  else if !frame.has fArena && frame.generation != 0 then .errFlags
  else frame.validateCorrelation

/-- The 64 header bytes; each field's offset is the length of what precedes it. -/
def Frame.header (frame : Frame) : Bytes :=
  uint32Bytes Bus.wireMagic ++ (uint16Bytes frame.hdrFlags ++ (uint16Bytes frame.wireVersion ++
    (uint32Bytes frame.eventKind ++ (uint32Bytes frame.principalRef ++
    (uint64Bytes frame.correlationId ++ (uint64Bytes frame.seq ++ (uint64Bytes frame.logicalTs ++
    (uint64Bytes frame.payloadRef ++ (uint32Bytes frame.payloadLen ++
    (uint32Bytes frame.srcHandle ++ (uint32Bytes frame.dstHandle ++
      uint32Bytes frame.generation)))))))))))

/-- Returns the number of bytes written and the buffer afterwards. -/
def Frame.encode (frame : Frame) (out : Bytes) : Nat × Bytes :=
  if out.length < hdrLen then (0, out)
  else if frame.validate != .ok then (0, out)
  else (hdrLen, patch out 0 frame.header)

/-- The fields as they stand in the header bytes, before validation. -/
def Frame.fields (input : Bytes) : Frame where
  hdrFlags := uint16At input 4
  wireVersion := uint16At input 6
  eventKind := uint32At input 8
  principalRef := uint32At input 12
  correlationId := uint64At input 16
  seq := uint64At input 24
  logicalTs := uint64At input 32
  payloadRef := uint64At input 40
  payloadLen := uint32At input 48
  srcHandle := uint32At input 52
  dstHandle := uint32At input 56
  generation := uint32At input 60

/-- Returns the verdict and the caller's frame, untouched on every error. -/
def decode (input : Bytes) (out : Frame) : Result × Frame :=
  if input.length < hdrLen then (.errShort, out)
  else if uint32At input 0 != wireMagic then (.errMagic, out)
  else
    let frame := Frame.fields input
    if frame.validate != .ok then (frame.validate, out)
    else (.ok, frame)

/-- The end of an inline payload is a sum modulo `2 ^ 64`. -/
def Frame.payloadEnd (frame : Frame) : UInt64 :=
  frame.payloadRef + frame.payloadLen.toUInt64

def Frame.checkPlacement (frame : Frame) (slotSize : UInt32) (arenaSize : UInt64) : Result :=
  if frame.validate != .ok then frame.validate
  else if frame.payloadLen == 0 then .ok
  else if frame.has fInline then
    if frame.payloadEnd < frame.payloadRef then .errPayloadLen
    else if frame.payloadRef < UInt64.ofNat hdrLen || frame.payloadEnd > slotSize.toUInt64 then
      .errPayloadLen
    else .ok
  else if frame.payloadLen.toUInt64 > arenaSize then .errPayloadLen
  else .ok

@[simp] theorem Frame.length_header (frame : Frame) : frame.header.length = hdrLen := by
  simp [Frame.header, hdrLen]

theorem Frame.fields_header (frame : Frame) (rest : Bytes) :
    Frame.fields (frame.header ++ rest) = frame := by
  simp [Frame.fields, Frame.header, uint16At, uint32At, uint64At, List.append_assoc,
    window_append_right, window_append_left, uint16_ofLittleEndian, uint32_ofLittleEndian,
    uint64_ofLittleEndian]

theorem Frame.magic_header (frame : Frame) (rest : Bytes) :
    uint32At (frame.header ++ rest) 0 = Bus.wireMagic := by
  simp [Frame.header, uint32At, List.append_assoc, window_append_left, uint32_ofLittleEndian]

theorem decode_header {frame : Frame} (valid : frame.validate = .ok) (rest : Bytes) (out : Frame) :
    decode (frame.header ++ rest) out = (.ok, frame) := by
  simp [decode, Frame.magic_header, Frame.fields_header, valid]

theorem decode_ok {input : Bytes} {out frame : Frame} (decoded : decode input out = (.ok, frame)) :
    frame.validate = .ok := by
  simp only [decode] at decoded
  split at decoded
  · cases decoded
  · split at decoded
    · cases decoded
    · split at decoded
      · rename_i bad
        obtain ⟨verdict, rfl⟩ := Prod.mk.inj decoded
        simp [verdict] at bad
      · rename_i good
        obtain ⟨-, rfl⟩ := Prod.mk.inj decoded
        simpa using good

theorem Frame.validate_ok_iff {frame : Frame} :
    frame.validate = .ok ↔
      frame.wireVersion = Bus.wireVersion ∧ frame.hdrFlags &&& ~~~fKnownMask = 0 ∧
        exactlyOne (frame.hdrFlags &&& fPatternMask) = true ∧
        frame.validatePayload = .ok ∧ frame.validateMore = .ok ∧
        (frame.has fArena = true ∨ frame.generation = 0) ∧ frame.validateCorrelation = .ok := by
  unfold Frame.validate
  by_cases version : frame.wireVersion = Bus.wireVersion
  · by_cases known : frame.hdrFlags &&& ~~~fKnownMask = 0
    · by_cases pattern : exactlyOne (frame.hdrFlags &&& fPatternMask) = true
      · by_cases payload : frame.validatePayload = .ok
        · by_cases more : frame.validateMore = .ok
          · by_cases arena : frame.has fArena = true <;>
              by_cases generation : frame.generation = 0 <;>
              simp [version, known, pattern, payload, more, arena, generation]
          · simp [version, known, pattern, payload, more]
        · simp [version, known, pattern, payload]
      · simp [version, known, pattern]
    · simp [version, known]
  · simp [version]

theorem Frame.payloadLen_le {frame : Frame} (valid : frame.validate = .ok) :
    frame.payloadLen ≤ maxPayload := by
  obtain ⟨-, -, -, payload, -⟩ := Frame.validate_ok_iff.mp valid
  by_cases present : frame.payloadLen > 0
  · by_contra large
    have tooLong : frame.payloadLen > maxPayload := UInt32.not_le.mp large
    simp only [Frame.validatePayload, present, tooLong, if_true] at payload
    split at payload <;> cases payload
  · have empty : frame.payloadLen ≤ 0 := UInt32.not_lt.mp present
    exact UInt32.le_trans empty (by decide)

end AimeeLearning.Bus
