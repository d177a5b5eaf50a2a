import AimeeLearning.Bus.Wire

/-! The envelope of a module stage. Every payload of a stage call starts with
one 40-byte message header; the body bytes follow it. -/

set_option autoImplicit false

namespace AimeeLearning.Bus

open Library

def moduleMessageMagic : UInt32 := 0x444f4d41
def moduleMessageVersion : UInt16 := 1
def moduleMessageHeaderLen : Nat := 40
def moduleMessageMaxBody : UInt32 := 16 * 1024 * 1024

/-- An operation and a status are 16-bit words; the source names some of them. -/
abbrev ModuleOperation := UInt16

def moduleOpInvoke : ModuleOperation := 1
def moduleOpResult : ModuleOperation := 2

abbrev ModuleStatus := UInt16

def moduleStatusOK : ModuleStatus := 0
def moduleStatusCapabilityAbsent : ModuleStatus := 1
def moduleStatusCancelled : ModuleStatus := 2
def moduleStatusDeadlineExceeded : ModuleStatus := 3
def moduleStatusInvalidRequest : ModuleStatus := 4
def moduleStatusInternal : ModuleStatus := 5

structure ModuleMessage where
  operation : ModuleOperation := 0
  status : ModuleStatus := 0
  stageID : UInt32 := 0
  flags : UInt32 := 0
  bodyLen : UInt32 := 0
  deadlineNS : UInt64 := 0
  traceID : UInt64 := 0
  deriving DecidableEq, Repr

def ModuleMessage.valid (message : ModuleMessage) : Bool :=
  if message.operation != moduleOpInvoke && message.operation != moduleOpResult then false
  else if message.status > moduleStatusInternal ||
      message.operation == moduleOpInvoke && message.status != moduleStatusOK then false
  else message.stageID != 0 && message.flags == 0 && message.bodyLen ≤ moduleMessageMaxBody

/-- The 40 header bytes; each field's offset is the length of what precedes it. -/
def ModuleMessage.header (message : ModuleMessage) : Bytes :=
  uint32Bytes moduleMessageMagic ++ (uint16Bytes moduleMessageVersion ++
    (uint16Bytes (UInt16.ofNat moduleMessageHeaderLen) ++ (uint16Bytes message.operation ++
    (uint16Bytes message.status ++ (uint32Bytes message.stageID ++ (uint32Bytes message.flags ++
    (uint32Bytes message.bodyLen ++ (uint64Bytes message.deadlineNS ++
      uint64Bytes message.traceID))))))))

/-- The number of bytes written and the buffer afterwards. -/
def ModuleMessage.encode (message : ModuleMessage) (out : Bytes) : Except BusError (Nat × Bytes) :=
  if out.length < moduleMessageHeaderLen || !message.valid then .error .errModuleMessage
  else .ok (moduleMessageHeaderLen, patch out 0 message.header)

/-- The fields as they stand in the header bytes, before validation. -/
def ModuleMessage.fields (input : Bytes) : ModuleMessage where
  operation := uint16At input 8
  status := uint16At input 10
  stageID := uint32At input 12
  flags := uint32At input 16
  bodyLen := uint32At input 20
  deadlineNS := uint64At input 24
  traceID := uint64At input 32

def decodeModuleMessage (input : Bytes) : Except BusError ModuleMessage :=
  if input.length < moduleMessageHeaderLen || uint32At input 0 != moduleMessageMagic ||
      uint16At input 4 != moduleMessageVersion ||
      uint16At input 6 != UInt16.ofNat moduleMessageHeaderLen then .error .errModuleMessage
  else
    let message := ModuleMessage.fields input
    if !message.valid || message.bodyLen.toNat > input.length - moduleMessageHeaderLen then
      .error .errModuleMessage
    else .ok message

def ModuleMessage.deadlineExpired (message : ModuleMessage) (nowNS : UInt64) : Bool :=
  message.deadlineNS != 0 && nowNS ≥ message.deadlineNS

/-- The body bytes a decoded message names. -/
def ModuleMessage.body (message : ModuleMessage) (payload : Bytes) : Bytes :=
  window payload moduleMessageHeaderLen message.bodyLen.toNat

namespace ModuleMessage

@[simp] theorem length_header (message : ModuleMessage) :
    message.header.length = moduleMessageHeaderLen := by
  simp [header, moduleMessageHeaderLen]

theorem fields_header (message : ModuleMessage) (rest : Bytes) :
    fields (message.header ++ rest) = message := by
  simp [fields, header, uint16At, uint32At, uint64At, List.append_assoc, window_append_right,
    window_append_left, uint16_ofLittleEndian, uint32_ofLittleEndian, uint64_ofLittleEndian]

theorem magic_header (message : ModuleMessage) (rest : Bytes) :
    uint32At (message.header ++ rest) 0 = moduleMessageMagic ∧
      uint16At (message.header ++ rest) 4 = moduleMessageVersion ∧
      uint16At (message.header ++ rest) 6 = UInt16.ofNat moduleMessageHeaderLen := by
  simp [header, uint16At, uint32At, List.append_assoc, window_append_right, window_append_left,
    uint16_ofLittleEndian, uint32_ofLittleEndian]

/-- A valid message survives the codec in front of any payload that is at
least as long as the body it announces. -/
theorem decode_header {message : ModuleMessage} {rest : Bytes} (valid : message.valid = true)
    (holds : message.bodyLen.toNat ≤ rest.length) :
    decodeModuleMessage (message.header ++ rest) = .ok message := by
  obtain ⟨magic, version, size⟩ := magic_header message rest
  simp [decodeModuleMessage, magic, version, size, fields_header, valid, holds]

theorem valid_iff {message : ModuleMessage} :
    message.valid = true ↔
      (message.operation = moduleOpInvoke ∨ message.operation = moduleOpResult) ∧
        message.status ≤ moduleStatusInternal ∧
        (message.operation = moduleOpInvoke → message.status = moduleStatusOK) ∧
        message.stageID ≠ 0 ∧ message.flags = 0 ∧ message.bodyLen ≤ moduleMessageMaxBody := by
  unfold valid
  by_cases invoke : message.operation = moduleOpInvoke
  · by_cases plain : message.status = moduleStatusOK
    · simp [invoke, plain, moduleStatusOK, moduleStatusInternal, and_assoc]
    · simp [invoke, plain]
  · by_cases result : message.operation = moduleOpResult
    · have apart : moduleOpResult ≠ moduleOpInvoke := by decide
      by_cases bounded : message.status ≤ moduleStatusInternal
      · simp [result, apart, bounded, UInt16.not_lt.mpr bounded, and_assoc]
      · simp [result, bounded, UInt16.not_le.mp bounded]
    · simp [invoke, result]

theorem decode_ok {input : Bytes} {message : ModuleMessage}
    (decoded : decodeModuleMessage input = .ok message) :
    message.valid = true ∧
      moduleMessageHeaderLen + message.bodyLen.toNat ≤ input.length := by
  simp only [decodeModuleMessage] at decoded
  split at decoded
  · cases decoded
  · rename_i framed
    split at decoded
    · cases decoded
    · rename_i sound
      obtain rfl := Except.ok.inj decoded
      simp only [Bool.or_eq_true, decide_eq_true_eq, Bool.not_eq_true', not_or,
        Bool.not_eq_false, not_lt] at framed sound
      exact ⟨sound.1, by omega⟩

/-- An accepted message announces exactly the bytes its body has. -/
theorem length_body {input : Bytes} {message : ModuleMessage}
    (decoded : decodeModuleMessage input = .ok message) :
    (message.body input).length = message.bodyLen.toNat := by
  have := (decode_ok decoded).2
  rw [body, length_window]
  omega

theorem body_header {message : ModuleMessage} {body : Bytes}
    (exactly : message.bodyLen.toNat = body.length) :
    message.body (message.header ++ body) = body := by
  have behind : message.header.length ≤ moduleMessageHeaderLen := (length_header message).le
  rw [ModuleMessage.body, window_append_right behind, length_header, exactly]
  simp [window]

end ModuleMessage

end AimeeLearning.Bus
