import AimeeLearning.Observe.Parity

/-! Classifying a signal over the wire. The request the C side encodes is
accepted by the Go handler, and the mask in its response is the one the C
policy computes for the signal. -/

set_option autoImplicit false

namespace AimeeLearning.Observe

open Library Bus

def requestBytes (text : Bytes) : Bytes :=
  putU32 requestMagic ++ ([observeVersion, 0, UInt8.ofNat text.length, 0] ++ (text ++
    List.replicate (requestLen - 8 - text.length) 0))

section Requests

variable {text : Bytes}

theorem length_requestBytes (short : text.length ≤ signalMax.toNat) :
    (requestBytes text).length = requestLen := by
  have limit : signalMax.toNat = 31 := rfl
  simp only [requestBytes, putU32_eq, List.length_append, length_uint32Bytes, List.length_cons,
    List.length_nil, List.length_replicate, requestLen]
  omega

theorem patch_request {out : Bytes} (short : text.length ≤ signalMax.toNat) :
    patch (patch (patch (patch (patch out 0 (List.replicate requestLen 0)) 0 (putU32 requestMagic))
      4 [observeVersion]) 6 [UInt8.ofNat text.length]) 8 text =
      requestBytes text ++ out.drop requestLen := by
  have limit : signalMax.toNat = 31 := rfl
  obtain ⟨a, b, c, d, magic⟩ : ∃ a b c d, putU32 requestMagic = [a, b, c, d] := ⟨_, _, _, _, rfl⟩
  have cleared : patch out 0 (List.replicate requestLen 0) =
      0 :: 0 :: 0 :: 0 :: 0 :: 0 :: 0 :: 0 :: (List.replicate 32 0 ++ out.drop requestLen) := by
    simp [patch, requestLen, List.replicate]
  have framed : patch (patch (patch (patch out 0 (List.replicate requestLen 0)) 0
      (putU32 requestMagic)) 4 [observeVersion]) 6 [UInt8.ofNat text.length] =
        [a, b, c, d, observeVersion, 0, UInt8.ofNat text.length, 0] ++
          (List.replicate 32 0 ++ out.drop requestLen) := by
    rw [cleared, magic]
    simp [patch]
  have behind : (List.replicate 32 (0 : UInt8)).drop text.length =
      List.replicate (requestLen - 8 - text.length) 0 := by
    rw [List.drop_replicate]
    rfl
  rw [framed, requestBytes, magic, patch, List.take_left' (by rfl), List.drop_append,
    List.drop_eq_nil_of_le (by simp), List.nil_append]
  rw [show 8 + text.length - [a, b, c, d, observeVersion, 0, UInt8.ofNat text.length, 0].length =
    text.length by simp, List.drop_append_of_le_length (by simp; omega), behind]
  simp

theorem requestEncode_eq {out : Bytes} (long : requestLen ≤ out.length) (free : 0 ∉ text) :
    requestEncode (some (terminated text)) out =
      if 1 ≤ text.length ∧ text.length ≤ signalMax.toNat then
        some (requestBytes text ++ out.drop requestLen)
      else none := by
  have same : cString (terminated text) = text := by
    rw [cString_terminated, cString_eq_self_iff.mpr free]
  simp only [requestEncode, Option.map_some, Option.getD_some, same]
  by_cases empty : text.length = 0
  · rw [if_pos (by simp [empty]), if_neg (by omega)]
  · by_cases short : text.length ≤ signalMax.toNat
    · rw [if_neg (by simp [not_lt.mpr long, empty, not_lt.mpr short]), if_pos ⟨by omega, short⟩,
        patch_request short]
    · rw [if_pos (by simp [not_le.mp short]), if_neg (by omega)]

theorem requestBytes_fields (nonempty : 1 ≤ text.length) (short : text.length ≤ signalMax.toNat) :
    goRefuses stageObserve (requestBytes text) = false ∧
      declaredSignal (requestBytes text) = text := by
  have limit : signalMax.toNat = 31 := rfl
  have small : (UInt8.ofNat text.length).toNat = text.length := by
    simp only [UInt8.toNat_ofNat']
    omega
  have sized := length_requestBytes short
  have magic : uint32At (requestBytes text) 0 = requestMagic := by
    rw [requestBytes, putU32_eq, uint32At, window_append_left (length_uint32Bytes _),
      uint32_ofLittleEndian]
  have version : byteAt (requestBytes text) 4 = observeVersion := rfl
  have declared : byteAt (requestBytes text) 6 = UInt8.ofNat text.length := rfl
  have positive : UInt8.ofNat text.length ≠ 0 := by
    intro zero
    rw [zero] at small
    simp at small
    omega
  have bounded : ¬ UInt8.ofNat text.length > signalMax := by
    rw [gt_iff_lt, UInt8.lt_iff_toNat_lt, small]
    omega
  constructor
  · simp only [goRefuses, sized, magic, version, declared, bne_self_eq_false, Bool.false_or,
      Bool.or_eq_false_iff, beq_eq_false_iff_ne, decide_eq_false_iff_not]
    exact ⟨⟨⟨rfl, rfl⟩, positive⟩, bounded⟩
  · have front : (putU32 requestMagic ++
        [observeVersion, 0, UInt8.ofNat text.length, 0]).length = 8 := rfl
    rw [declaredSignal, declared, small, requestBytes, ← List.append_assoc,
      window_append_right front.le, front, Nat.sub_self, window_append_left rfl]

theorem requestDecode_bytes (nonempty : 1 ≤ text.length) (short : text.length ≤ signalMax.toNat)
    {signalCap : Nat} (room : text.length < signalCap) :
    requestDecode (requestBytes text) signalCap = some (terminated text) := by
  have limit : signalMax.toNat = 31 := rfl
  obtain ⟨accepted, declared⟩ := requestBytes_fields nonempty short
  have sized : 4 ≤ (requestBytes text).length := by
    rw [length_requestBytes short]
    decide
  have small : (byteAt (requestBytes text) 6).toNat = text.length := by
    rw [show byteAt (requestBytes text) 6 = UInt8.ofNat text.length from rfl]
    simp only [UInt8.toNat_ofNat']
    omega
  rw [declaredSignal, small] at declared
  simp only [goRefuses, bne_self_eq_false, Bool.false_or, Bool.or_eq_false_iff] at accepted
  have given : (signalCap == 0) = false := beq_eq_false_iff_ne.mpr (by omega)
  have inside : decide (text.length ≥ signalCap) = false := decide_eq_false (by omega)
  simp only [requestDecode, accepted, getU32_eq _ sized, small, given, inside, Bool.or_false,
    Bool.false_eq_true, if_false, declared]

end Requests

theorem goMask_known (signal : Bytes) :
    goMask signal &&& ~~~(sinkReranker ||| sinkSupersede ||| sinkRule ||| sinkWorkflow) = 0 := by
  unfold goMask
  split_ifs <;> decide

theorem responseDecode_response (signal : Bytes) (sinkMask : UInt32) :
    responseDecode (uint32Bytes responseMagic ++ uint32Bytes (goMask signal)) sinkMask =
      (0, goMask signal) := by
  have magic : getU32 (uint32Bytes responseMagic ++ uint32Bytes (goMask signal)) =
      responseMagic := by
    rw [getU32_eq _ (by simp), uint32At, window_append_left (length_uint32Bytes _),
      uint32_ofLittleEndian]
  have mask : getU32 ((uint32Bytes responseMagic ++ uint32Bytes (goMask signal)).drop 4) =
      goMask signal := by
    rw [List.drop_left' (length_uint32Bytes _), getU32_eq _ (by simp), uint32At]
    have whole : window (uint32Bytes (goMask signal)) 0 4 = uint32Bytes (goMask signal) := by
      simp [window, List.take_of_length_le]
    rw [whole, uint32_ofLittleEndian]
  simp only [responseDecode, magic, mask, goMask_known, bne_self_eq_false, Bool.or_false]
  rw [if_neg (by simp [responseLen]), if_neg (by simp)]

/-- Encoding succeeds exactly for the texts of 1 to 31 bytes, in particular for
every nonempty text of a 32-byte field, and an encoded text is classified over
the wire as it is locally. -/
theorem wire_classification (text out : Bytes) (free : 0 ∉ text) (long : requestLen ≤ out.length) :
    ((requestEncode (some (terminated text)) out).isSome = true ↔
      1 ≤ text.length ∧ text.length ≤ signalMax.toNat) ∧
    (∀ field : Bytes, field.length = 32 → 0 ∈ field → cString field ≠ [] →
      (requestEncode (some field) out).isSome = true) ∧
    ∀ filled, requestEncode (some (terminated text)) out = some filled →
      (∀ signalCap, text.length < signalCap →
        requestDecode (filled.take requestLen) signalCap = some (terminated text)) ∧
      (handle stageObserve false (filled.take requestLen)).2 = moduleStatusOK ∧
      ∃ mask, signalPolicySinkMask (terminated text) = some mask ∧
        ∀ sinkMask, responseDecode (handle stageObserve false (filled.take requestLen)).1 sinkMask =
          (0, mask) := by
  have limit : signalMax.toNat = 31 := rfl
  refine ⟨?_, fun field sized nul nonempty => ?_, fun filled encoded => ?_⟩
  · rw [requestEncode_eq long free]
    split <;> simp_all
  · have shorter : (cString field).length ≤ signalMax.toNat := by
      have within : (cString field).length ≤ field.length := (List.takeWhile_prefix _).length_le
      have strict : (cString field).length ≠ field.length := by
        intro same
        have whole : cString field = field :=
          (List.takeWhile_prefix _).eq_of_length same
        exact cString_eq_self_iff.mp whole nul
      omega
    have positive : 1 ≤ (cString field).length := List.length_pos_iff.mpr nonempty
    have encoded := requestEncode_eq long (zero_notMem_cString field)
    rw [if_pos ⟨positive, shorter⟩] at encoded
    have same : requestEncode (some field) out =
        requestEncode (some (terminated (cString field))) out := by
      simp only [requestEncode, Option.map_some, cString_terminated,
        cString_eq_self_iff.mpr (zero_notMem_cString field)]
    rw [same, encoded]
    rfl
  · rw [requestEncode_eq long free] at encoded
    split at encoded
    · rename_i fits
      obtain rfl := Option.some.inj encoded
      rw [List.take_left' (length_requestBytes fits.2)]
      obtain ⟨accepted, declared⟩ := requestBytes_fields fits.1 fits.2
      have nonempty : text ≠ [] := List.length_pos_iff.mp fits.1
      have handled : handle stageObserve false (requestBytes text) =
          (uint32Bytes responseMagic ++ uint32Bytes (goMask text), moduleStatusOK) := by
        rw [declaredSignal] at declared
        simp only [handle, accepted, declared, Bool.false_eq_true, if_false]
      refine ⟨fun signalCap room => ?_, by rw [handled], goMask text, ?_, fun sinkMask => ?_⟩
      · exact requestDecode_bytes fits.1 fits.2 room
      · rw [signalPolicySinkMask_eq, cString_terminated, cString_eq_self_iff.mpr free,
          if_neg nonempty]
      · rw [handled]
        exact responseDecode_response text sinkMask
    · cases encoded

/-- A correction encodes, and is classified over the wire as by the policy. -/
theorem wire_classification_correction :
    ∃ filled, requestEncode (some (terminated (cstr "correction"))) (List.replicate 40 0) =
        some filled ∧
      (handle stageObserve false (filled.take requestLen)).2 = moduleStatusOK ∧
      ∃ mask, signalPolicySinkMask (terminated (cstr "correction")) = some mask ∧
        responseDecode (handle stageObserve false (filled.take requestLen)).1 0 = (0, mask) := by
  obtain ⟨encodes, -, composed⟩ := wire_classification (cstr "correction") (List.replicate 40 0)
    (by decide) (by decide)
  obtain ⟨filled, encoded⟩ := Option.isSome_iff_exists.mp (encodes.mpr (by decide))
  obtain ⟨-, status, mask, masked, response⟩ := composed filled encoded
  exact ⟨filled, encoded, status, mask, masked, response 0⟩

end AimeeLearning.Observe
