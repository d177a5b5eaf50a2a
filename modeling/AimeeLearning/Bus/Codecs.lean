import AimeeLearning.Bus.ModuleProtocol
import Mathlib.Logic.Equiv.Defs

/-! Both headers of the bus are one-to-one: frames that validate with the
64-byte headers that decode, and messages that are valid with the 40-byte
envelopes that decode. -/

set_option autoImplicit false

namespace AimeeLearning.Bus

open Library

section Frames

theorem Frame.header_fields {input : Bytes} (long : hdrLen ≤ input.length)
    (magic : uint32At input 0 = Bus.wireMagic) :
    (Frame.fields input).header = input.take hdrLen := by
  unfold hdrLen at long ⊢
  simp only [Frame.header, Frame.fields, ← magic]
  rw [uint32Bytes_uint32At (by omega), uint16Bytes_uint16At (by omega),
    uint16Bytes_uint16At (by omega), uint32Bytes_uint32At (by omega),
    uint32Bytes_uint32At (by omega), uint64Bytes_uint64At (by omega),
    uint64Bytes_uint64At (by omega), uint64Bytes_uint64At (by omega),
    uint64Bytes_uint64At (by omega), uint32Bytes_uint32At (by omega),
    uint32Bytes_uint32At (by omega), uint32Bytes_uint32At (by omega),
    uint32Bytes_uint32At (by omega)]
  simp (disch := omega) only [window_adjacent]
  simp [window]

theorem decode_ok_header {input : Bytes} {out frame : Frame}
    (decoded : decode input out = (.ok, frame)) :
    hdrLen ≤ input.length ∧ frame.header = input.take hdrLen := by
  simp only [decode] at decoded
  split at decoded
  · cases decoded
  · rename_i long
    split at decoded
    · cases decoded
    · rename_i magic
      split at decoded
      · rename_i bad
        obtain ⟨verdict, -⟩ := Prod.mk.inj decoded
        simp [verdict] at bad
      · obtain ⟨-, rfl⟩ := Prod.mk.inj decoded
        exact ⟨not_lt.mp long, Frame.header_fields (not_lt.mp long) (by simpa using magic)⟩

theorem decode_untouched {input : Bytes} {out : Frame} (refused : (decode input out).1 ≠ .ok) :
    (decode input out).2 = out := by
  by_cases long : input.length < hdrLen
  · rw [decode, if_pos long]
  · by_cases magic : uint32At input 0 = Bus.wireMagic
    · by_cases valid : (Frame.fields input).validate = .ok
      · simp [decode, long, magic, valid] at refused
      · simp [decode, long, magic, valid]
    · simp [decode, long, magic]

theorem Frame.encode_valid {frame : Frame} {out : Bytes} (valid : frame.validate = .ok)
    (long : hdrLen ≤ out.length) :
    frame.encode out = (hdrLen, frame.header ++ out.drop hdrLen) := by
  rw [Frame.encode, if_neg (not_lt.mpr long), if_neg (by simp [valid]), patch, List.take_zero,
    List.nil_append, Nat.zero_add, Frame.length_header]

theorem Frame.encode_invalid {frame : Frame} {out : Bytes} (invalid : frame.validate ≠ .ok) :
    frame.encode out = (0, out) := by
  simp [Frame.encode, invalid]

abbrev ValidFrame := { frame : Frame // frame.validate = .ok }

/-- A 64-byte header that decodes. -/
abbrev AcceptedHeader := { input : Bytes // input.length = hdrLen ∧ (decode input {}).1 = .ok }

def frameHeaderEquiv : ValidFrame ≃ AcceptedHeader where
  toFun frame := ⟨frame.1.header, frame.1.length_header, by
    have decoded := decode_header frame.2 [] {}
    rw [List.append_nil] at decoded
    rw [decoded]⟩
  invFun input := ⟨(decode input.1 {}).2, decode_ok (Prod.ext input.2.2 rfl)⟩
  left_inv frame := by
    have decoded := decode_header frame.2 [] {}
    rw [List.append_nil] at decoded
    exact Subtype.ext (congrArg Prod.snd decoded)
  right_inv input := by
    have header := (decode_ok_header (Prod.ext input.2.2 rfl)).2
    rw [List.take_of_length_le input.2.1.le] at header
    exact Subtype.ext header

theorem frameHeaderEquiv_apply (frame : ValidFrame) :
    (frameHeaderEquiv frame).1 = frame.1.header := rfl

/-- What the frame codec promises of a frame and a buffer, and of an input. -/
structure FrameCodec : Prop where
  writes : ∀ (frame : Frame) (out : Bytes), hdrLen ≤ out.length →
    ((frame.encode out).1 = hdrLen ↔ frame.validate = .ok) ∧
      (frame.validate ≠ .ok → frame.encode out = (0, out))
  returns : ∀ (frame : Frame) (out rest : Bytes) (caller : Frame), hdrLen ≤ out.length →
    frame.validate = .ok →
      decode ((frame.encode out).2.take hdrLen ++ rest) caller = (.ok, frame)
  reproduces : ∀ (input out : Bytes) (caller frame : Frame), hdrLen ≤ out.length →
    decode input caller = (.ok, frame) →
      (frame.encode out).1 = hdrLen ∧ (frame.encode out).2.take hdrLen = input.take hdrLen
  untouched : ∀ (input : Bytes) (caller : Frame), (decode input caller).1 ≠ .ok →
    (decode input caller).2 = caller
  paired : ∃ codec : ValidFrame ≃ AcceptedHeader,
    (∀ frame out, hdrLen ≤ out.length →
      (codec frame).1 = (frame.1.encode out).2.take hdrLen) ∧
    ∀ input caller, decode input.1 caller = (.ok, (codec.symm input).1)

/-- Valid frames and accepted headers correspond one to one. -/
theorem frame_codec : FrameCodec where
  writes frame out long := by
    constructor
    · by_cases valid : frame.validate = .ok
      · simp [Frame.encode_valid valid long, valid]
      · simp [Frame.encode_invalid valid, valid, hdrLen]
    · exact Frame.encode_invalid
  returns frame out rest caller long valid := by
    rw [Frame.encode_valid valid long, List.take_left' frame.length_header]
    exact decode_header valid rest caller
  reproduces input out caller frame long decoded := by
    rw [Frame.encode_valid (decode_ok decoded) long]
    exact ⟨rfl, (List.take_left' frame.length_header).trans (decode_ok_header decoded).2⟩
  untouched input caller := decode_untouched
  paired := by
    refine ⟨frameHeaderEquiv, fun frame out long => ?_, fun input caller => ?_⟩
    · rw [Frame.encode_valid frame.2 long, List.take_left' frame.1.length_header,
        frameHeaderEquiv_apply]
    · obtain ⟨frame, rfl⟩ := frameHeaderEquiv.surjective input
      have decoded := decode_header frame.2 [] caller
      rw [List.append_nil] at decoded
      rw [Equiv.symm_apply_apply, frameHeaderEquiv_apply]
      exact decoded

end Frames

section Messages

namespace ModuleMessage

theorem header_fields {input : Bytes} (long : moduleMessageHeaderLen ≤ input.length)
    (magic : uint32At input 0 = moduleMessageMagic)
    (version : uint16At input 4 = moduleMessageVersion)
    (size : uint16At input 6 = UInt16.ofNat moduleMessageHeaderLen) :
    (fields input).header = input.take moduleMessageHeaderLen := by
  unfold header
  rw [← magic, ← version, ← size]
  unfold moduleMessageHeaderLen at long ⊢
  simp only [fields]
  rw [uint32Bytes_uint32At (by omega), uint16Bytes_uint16At (by omega),
    uint16Bytes_uint16At (by omega), uint16Bytes_uint16At (by omega),
    uint16Bytes_uint16At (by omega), uint32Bytes_uint32At (by omega),
    uint32Bytes_uint32At (by omega), uint32Bytes_uint32At (by omega),
    uint64Bytes_uint64At (by omega), uint64Bytes_uint64At (by omega)]
  simp (disch := omega) only [window_adjacent]
  simp [window]

theorem decode_ok_header {input : Bytes} {message : ModuleMessage}
    (decoded : decodeModuleMessage input = .ok message) :
    message.header = input.take moduleMessageHeaderLen := by
  simp only [decodeModuleMessage] at decoded
  split at decoded
  · cases decoded
  · rename_i framed
    simp only [Bool.or_eq_true, decide_eq_true_eq, bne_iff_ne, ne_eq, not_or, not_not,
      not_lt] at framed
    obtain ⟨⟨⟨long, magic⟩, version⟩, size⟩ := framed
    split at decoded
    · cases decoded
    · obtain rfl := Except.ok.inj decoded
      exact header_fields long magic version size

theorem encode_valid {message : ModuleMessage} {out : Bytes} (valid : message.valid = true)
    (long : moduleMessageHeaderLen ≤ out.length) :
    message.encode out =
      .ok (moduleMessageHeaderLen, message.header ++ out.drop moduleMessageHeaderLen) := by
  rw [encode, if_neg (by simp [valid, long]), patch, List.take_zero, List.nil_append,
    Nat.zero_add, length_header]

theorem encode_invalid {message : ModuleMessage} {out : Bytes} (invalid : message.valid = false) :
    message.encode out = .error .errModuleMessage := by
  simp [encode, invalid]

end ModuleMessage

/-- What the message codec promises; `buffer` is any buffer with room. -/
structure ModuleMessageCodec : Prop where
  returns : ∀ (message : ModuleMessage) (buffer rest : Bytes), message.valid = true →
    moduleMessageHeaderLen ≤ buffer.length → message.bodyLen.toNat ≤ rest.length →
      ∃ filled, message.encode buffer = .ok (moduleMessageHeaderLen, filled) ∧
        decodeModuleMessage (filled.take moduleMessageHeaderLen ++ rest) = .ok message
  reproduces : ∀ (input buffer : Bytes) (message : ModuleMessage),
    decodeModuleMessage input = .ok message → moduleMessageHeaderLen ≤ buffer.length →
      (∃ filled, message.encode buffer = .ok (moduleMessageHeaderLen, filled) ∧
        filled.take moduleMessageHeaderLen = input.take moduleMessageHeaderLen) ∧
      moduleMessageHeaderLen + message.bodyLen.toNat ≤ input.length
  refuses : ∀ (message : ModuleMessage) (buffer : Bytes), moduleMessageHeaderLen ≤ buffer.length →
    ((∃ failure, message.encode buffer = .error failure) ↔
      ∀ input, decodeModuleMessage input ≠ .ok message)

/-- Valid messages and accepted envelopes correspond one to one. -/
theorem module_message_codec : ModuleMessageCodec where
  returns message buffer rest valid long holds := by
    refine ⟨_, ModuleMessage.encode_valid valid long, ?_⟩
    rw [List.take_left' message.length_header]
    exact ModuleMessage.decode_header valid holds
  reproduces input buffer message decoded long := by
    obtain ⟨valid, inside⟩ := ModuleMessage.decode_ok decoded
    refine ⟨⟨_, ModuleMessage.encode_valid valid long, ?_⟩, inside⟩
    rw [List.take_left' message.length_header]
    exact ModuleMessage.decode_ok_header decoded
  refuses message buffer long := by
    cases valid : message.valid with
    | true =>
        have body : message.bodyLen.toNat ≤
            (List.replicate message.bodyLen.toNat (0 : UInt8)).length :=
          (List.length_replicate ..).ge
        have decoded := ModuleMessage.decode_header valid body
        simp only [ModuleMessage.encode_valid valid long, reduceCtorEq, exists_false, false_iff]
        exact fun never => never _ decoded
    | false =>
        simp only [ModuleMessage.encode_invalid valid, Except.error.injEq, exists_eq', true_iff]
        intro input decoded
        rw [(ModuleMessage.decode_ok decoded).1] at valid
        cases valid

end Messages

end AimeeLearning.Bus
