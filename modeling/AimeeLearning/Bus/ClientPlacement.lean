import AimeeLearning.Bus.Client

/-! Poll bounds an inline payload by one comparison of a 64-bit modular sum.
Against `CheckPlacement` it lacks the wrap test and the header test, so it
agrees with it except on frames whose inline reference wraps back into the slot
(a panic) or overlaps the header (a payload). -/

set_option autoImplicit false

namespace AimeeLearning.Bus

open Library

/-- An inline reference that ends inside the slot although it wraps past
`2 ^ 64` or starts inside the header. -/
def Frame.Escapes (frame : Frame) (slotSize : UInt32) : Prop :=
  frame.has fInline = true ∧ 0 < frame.payloadLen ∧
    frame.payloadEnd ≤ slotSize.toUInt64 ∧
    (frame.payloadRef < UInt64.ofNat hdrLen ∨ frame.payloadEnd < frame.payloadRef)

instance (frame : Frame) (slotSize : UInt32) : Decidable (frame.Escapes slotSize) :=
  inferInstanceAs (Decidable (_ ∧ _))

/-- Poll takes exactly the payloads the placement check admits, and returns. -/
structure PollAgrees (client : Client) (epoch : UInt64) (mem : Bytes) : Prop where
  returns : (client.poll epoch mem).1 ≠ .panicked
  admitted : ∀ event, (client.poll epoch mem).1 = .received event → event.payload ≠ [] →
    event.frame.checkPlacement client.slotSize client.arenaSize = .ok ∧
      ∃ slot, client.polledSlot epoch mem = some slot ∧ decode slot {} = (.ok, event.frame) ∧
        event.payload = window slot event.frame.payloadRef.toNat event.frame.payloadLen.toNat ∧
        event.payload.length = event.frame.payloadLen.toNat
  rejected : ∀ slot frame, client.polledSlot epoch mem = some slot →
    decode slot {} = (.ok, frame) → frame.has fInline = true →
    frame.checkPlacement client.slotSize client.arenaSize ≠ .ok →
    (client.poll epoch mem).1 = .received { frame, payload := [] }

theorem Frame.payloadEnd_toNat {frame : Frame} (ordered : ¬ frame.payloadEnd < frame.payloadRef) :
    frame.payloadEnd.toNat = frame.payloadRef.toNat + frame.payloadLen.toNat := by
  have lower := UInt64.le_iff_toNat_le.mp (UInt64.not_lt.mp ordered)
  have ref : frame.payloadRef.toNat < 2 ^ 64 := frame.payloadRef.toNat_lt
  have len : frame.payloadLen.toNat < 2 ^ 32 := frame.payloadLen.toNat_lt
  unfold Frame.payloadEnd at lower ⊢
  rw [UInt64.toNat_add, UInt32.toNat_toUInt64] at lower ⊢
  omega

theorem Frame.checkPlacement_inline {frame : Frame} (slotSize : UInt32) (arenaSize : UInt64)
    (valid : frame.validate = .ok) (inline_ : frame.has fInline = true)
    (present : 0 < frame.payloadLen) :
    frame.checkPlacement slotSize arenaSize = .ok ↔
      ¬ frame.payloadEnd < frame.payloadRef ∧ ¬ frame.payloadRef < UInt64.ofNat hdrLen ∧
        frame.payloadEnd ≤ slotSize.toUInt64 := by
  have nonempty : frame.payloadLen ≠ 0 := by
    rintro empty
    rw [empty] at present
    exact absurd present (by decide)
  unfold Frame.checkPlacement
  by_cases wraps : frame.payloadEnd < frame.payloadRef
  · simp [valid, nonempty, inline_, wraps]
  · by_cases overlaps : frame.payloadRef < UInt64.ofNat hdrLen
    · simp [valid, nonempty, inline_, wraps, overlaps]
    · by_cases past : frame.payloadEnd ≤ slotSize.toUInt64
      · simp [valid, nonempty, inline_, wraps, overlaps, past, UInt64.not_lt.mpr past]
      · simp [valid, nonempty, inline_, wraps, overlaps, past, UInt64.not_le.mp past]

section ReadSlot

variable {client : Client} {mem : Bytes} {offset : Nat} {frame : Frame}

/-- No payload is taken unless the frame is inline, non-empty and its modular
end is inside the slot. -/
theorem Client.readSlot_bare
    (decoded : decode (window mem offset client.inbound.slotSize.toNat) {} = (.ok, frame))
    (bare : ¬ (frame.has fInline = true ∧ 0 < frame.payloadLen ∧
      frame.payloadEnd ≤ client.slotSize.toUInt64)) :
    client.readSlot mem offset = .received { frame, payload := [] } := by
  have skipped : (frame.has fInline && frame.payloadLen > 0 &&
      frame.payloadEnd ≤ client.slotSize.toUInt64) = false := by
    rw [Bool.eq_false_iff]
    simpa [and_assoc] using bare
  simp only [Client.readSlot, decoded, skipped, Bool.false_eq_true, if_false]

theorem Client.readSlot_inline
    (decoded : decode (window mem offset client.inbound.slotSize.toNat) {} = (.ok, frame))
    (mapped : offset + client.slotSize.toNat ≤ mem.length)
    (inline_ : frame.has fInline = true) (present : 0 < frame.payloadLen)
    (ends : frame.payloadEnd ≤ client.slotSize.toUInt64) :
    client.readSlot mem offset =
      if frame.payloadEnd < frame.payloadRef then .panicked
      else .received
        ⟨frame, window mem (offset + frame.payloadRef.toNat) frame.payloadLen.toNat⟩ := by
  have taken : (frame.has fInline && frame.payloadLen > 0 &&
      frame.payloadEnd ≤ client.slotSize.toUInt64) = true := by
    simpa [and_assoc] using ⟨inline_, present, ends⟩
  have inside : frame.payloadEnd.toNat ≤ client.slotSize.toNat := by
    simpa using UInt64.le_iff_toNat_le.mp ends
  simp only [Client.readSlot, decoded, taken, if_true, Client.sliceSlot]
  by_cases wraps : frame.payloadEnd < frame.payloadRef
  · have reversed : ¬ frame.payloadRef.toNat ≤ frame.payloadEnd.toNat :=
      Nat.not_le.mpr (UInt64.lt_iff_toNat_lt.mp wraps)
    simp [wraps, reversed]
  · have total := Frame.payloadEnd_toNat wraps
    have bounds : frame.payloadRef.toNat ≤ frame.payloadEnd.toNat ∧
        offset + frame.payloadEnd.toNat ≤ mem.length := by omega
    have width : frame.payloadEnd.toNat - frame.payloadRef.toNat = frame.payloadLen.toNat := by
      omega
    simp [wraps, bounds, width]

end ReadSlot

section Poll

variable {client : Client} {epoch : UInt64} {mem : Bytes}

theorem Client.length_released (fits : client.inbound.Fits mem.length) :
    (client.released mem).length = mem.length := by
  have long : ringHdrBytes ≤ mem.length := by have := fits.mapped; omega
  unfold Client.released
  split
  · exact Ring.length_storeTail long _
  · rfl

theorem Client.polledSlot_some (fits : client.inbound.Fits mem.length) {slot : Bytes}
    (polled : client.polledSlot epoch mem = some slot) :
    ∃ offset, client.control = true ∧ client.epochChanged epoch = false ∧
      client.inbound.consumeBegin (client.released mem) = some offset ∧
      slot = window (client.released mem) offset client.inbound.slotSize.toNat ∧
      offset + client.inbound.slotSize.toNat ≤ (client.released mem).length := by
  unfold Client.polledSlot at polled
  split at polled
  · cases polled
  · rename_i live
    simp only [Bool.or_eq_true, not_or, Bool.not_eq_true, Bool.not_eq_false'] at live
    obtain ⟨offset, begun, rfl⟩ := Option.map_eq_some_iff.mp polled
    refine ⟨offset, live.1, live.2, begun, rfl, ?_⟩
    simp only [Ring.consumeBegin] at begun
    split at begun
    · cases begun
    · obtain rfl := Option.some.inj begun
      have bounds := (Ring.slot_bounds fits (Ring.tail (client.released mem)).toNat).2
      rwa [UInt64.ofNat_toNat, ← Client.length_released fits] at bounds

theorem Client.poll_outcome {offset : Nat} (control : client.control = true)
    (live : client.epochChanged epoch = false)
    (begun : client.inbound.consumeBegin (client.released mem) = some offset) :
    (client.poll epoch mem).1 = client.readSlot (client.released mem) offset := by
  simp only [Client.poll, control, live, begun, Bool.not_true, Bool.false_eq_true, if_false]
  split <;> simp_all

theorem Client.poll_noSlot (nothing : client.polledSlot epoch mem = none) :
    (∃ failure, (client.poll epoch mem).1 = .failed failure) ∨
      (client.poll epoch mem).1 = .empty := by
  unfold Client.polledSlot at nothing
  by_cases control : client.control = true
  · by_cases live : client.epochChanged epoch = true
    · exact .inl ⟨.errEpoch, by simp [Client.poll, control, live]⟩
    · have begun : client.inbound.consumeBegin (client.released mem) = none := by
        simpa [control, live] using nothing
      exact .inr (by simp [Client.poll, control, live, begun])
  · exact .inl ⟨.errProtocol, by simp [Client.poll, control]⟩

private theorem agrees_noSlot (nothing : client.polledSlot epoch mem = none) :
    PollAgrees client epoch mem := by
  have silent := Client.poll_noSlot nothing
  constructor
  · rcases silent with ⟨failure, failed⟩ | empty <;> simp_all
  · rcases silent with ⟨failure, failed⟩ | empty <;> simp_all
  · intro slot frame polled
    rw [nothing] at polled
    cases polled

variable {slot : Bytes} {frame : Frame}

/-- A frame Poll reports without payload agrees when the check refuses it, or
when it carries none. -/
private theorem agrees_bare (polled : client.polledSlot epoch mem = some slot)
    (decoded : decode slot {} = (.ok, frame))
    (bare : (client.poll epoch mem).1 = .received { frame, payload := [] }) :
    PollAgrees client epoch mem := by
  constructor
  · rw [bare]
    simp
  · intro event received nonempty
    rw [bare] at received
    obtain rfl := Client.PollOutcome.received.inj received
    exact absurd rfl nonempty
  · intro other seen found same _ _
    obtain rfl := Option.some.inj (polled.symm.trans found)
    obtain rfl := (Prod.mk.inj (decoded.symm.trans same)).2
    exact bare

private theorem agrees_payload {payload : Bytes}
    (polled : client.polledSlot epoch mem = some slot)
    (decoded : decode slot {} = (.ok, frame))
    (read : (client.poll epoch mem).1 = .received { frame, payload })
    (admitted : frame.checkPlacement client.slotSize client.arenaSize = .ok)
    (referenced : payload = window slot frame.payloadRef.toNat frame.payloadLen.toNat)
    (whole : payload.length = frame.payloadLen.toNat) :
    PollAgrees client epoch mem := by
  constructor
  · rw [read]
    simp
  · intro event received _
    rw [read] at received
    obtain rfl := Client.PollOutcome.received.inj received
    exact ⟨admitted, slot, polled, decoded, referenced, whole⟩
  · intro other seen found same _ refused
    obtain rfl := Option.some.inj (polled.symm.trans found)
    obtain rfl := (Prod.mk.inj (decoded.symm.trans same)).2
    exact absurd admitted refused

private theorem agrees_skipped (polled : client.polledSlot epoch mem = some slot)
    (skipped : (client.poll epoch mem).1 = .empty)
    (bad : (decode slot {}).1 ≠ .ok) :
    PollAgrees client epoch mem := by
  constructor
  · rw [skipped]
    simp
  · intro event received
    rw [skipped] at received
    cases received
  · intro other seen found same
    obtain rfl := Option.some.inj (polled.symm.trans found)
    rw [same] at bad
    exact absurd rfl bad

private theorem agrees_inBounds (fits : client.inbound.Fits mem.length)
    (sized : client.inbound.slotSize = client.slotSize)
    (polled : client.polledSlot epoch mem = some slot)
    (decoded : decode slot {} = (.ok, frame))
    (taken : frame.has fInline = true ∧ 0 < frame.payloadLen ∧
      frame.payloadEnd ≤ client.slotSize.toUInt64)
    (stays : ¬ frame.Escapes client.slotSize) :
    PollAgrees client epoch mem := by
  obtain ⟨inline_, present, ends⟩ := taken
  obtain ⟨offset, control, live, begun, rfl, mapped⟩ := Client.polledSlot_some fits polled
  have inBounds : ¬ frame.payloadRef < UInt64.ofNat hdrLen ∧
      ¬ frame.payloadEnd < frame.payloadRef := by
    rw [← not_or]
    exact fun escape => stays ⟨inline_, present, ends, escape⟩
  have admitted := (Frame.checkPlacement_inline client.slotSize client.arenaSize
    (decode_ok decoded) inline_ present).mpr
      ⟨inBounds.2, inBounds.1, ends⟩
  have total := Frame.payloadEnd_toNat inBounds.2
  have inside : frame.payloadEnd.toNat ≤ client.slotSize.toNat := by
    simpa using UInt64.le_iff_toNat_le.mp ends
  rw [sized] at mapped
  have read := Client.readSlot_inline decoded mapped inline_ present ends
  rw [if_neg inBounds.2, ← Client.poll_outcome control live begun] at read
  refine agrees_payload polled decoded read admitted ?_ ?_
  · rw [window_window (by rw [sized]; omega)]
  · rw [length_window]
    omega

private theorem not_agrees_escape (fits : client.inbound.Fits mem.length)
    (sized : client.inbound.slotSize = client.slotSize)
    (polled : client.polledSlot epoch mem = some slot)
    (decoded : decode slot {} = (.ok, frame))
    (escapes : frame.Escapes client.slotSize) :
    ¬ PollAgrees client epoch mem := by
  intro agrees
  obtain ⟨inline_, present, ends, escape⟩ := escapes
  obtain ⟨offset, control, live, begun, rfl, mapped⟩ := Client.polledSlot_some fits polled
  rw [sized] at mapped
  have outcome := Client.poll_outcome control live begun
  have read := Client.readSlot_inline decoded mapped inline_ present ends
  by_cases wraps : frame.payloadEnd < frame.payloadRef
  · rw [if_pos wraps] at read
    exact agrees.returns (outcome.trans read)
  · rw [if_neg wraps] at read
    have overlaps : frame.payloadRef < UInt64.ofNat hdrLen := escape.resolve_right wraps
    have refused : frame.checkPlacement client.slotSize client.arenaSize ≠ .ok := by
      intro admitted
      exact ((Frame.checkPlacement_inline _ _ (decode_ok decoded) inline_ present).mp
        admitted).2.1 overlaps
    have bare := agrees.rejected _ frame polled decoded inline_ refused
    have same := Client.PollOutcome.received.inj ((outcome.trans read).symm.trans bare)
    have empty := congrArg (fun event => event.payload.length) same
    have total := Frame.payloadEnd_toNat wraps
    have inside : frame.payloadEnd.toNat ≤ client.slotSize.toNat := by
      simpa using UInt64.le_iff_toNat_le.mp ends
    have positive : 0 < frame.payloadLen.toNat := UInt32.lt_iff_toNat_lt.mp present
    simp only [length_window, List.length_nil] at empty
    omega

/-- Poll agrees with the placement check exactly on the slots whose frame, if
its header decodes, does not escape the slot body by a wrap or an overlap. -/
theorem poll_agrees_iff (fits : client.inbound.Fits mem.length)
    (sized : client.inbound.slotSize = client.slotSize) :
    PollAgrees client epoch mem ↔
      ∀ slot frame, client.polledSlot epoch mem = some slot → decode slot {} = (.ok, frame) →
        ¬ frame.Escapes client.slotSize := by
  constructor
  · intro agrees slot frame polled decoded escapes
    exact not_agrees_escape fits sized polled decoded escapes agrees
  · intro contained
    cases polled : client.polledSlot epoch mem with
    | none => exact agrees_noSlot polled
    | some slot =>
        obtain ⟨offset, control, live, begun, rfl, mapped⟩ := Client.polledSlot_some fits polled
        have outcome := Client.poll_outcome control live begun
        cases decoded : decode (window (client.released mem) offset
            client.inbound.slotSize.toNat) {} with
        | mk verdict frame =>
            by_cases good : verdict = .ok
            · subst good
              have stays := contained _ frame polled decoded
              by_cases taken : frame.has fInline = true ∧ 0 < frame.payloadLen ∧
                  frame.payloadEnd ≤ client.slotSize.toUInt64
              · exact agrees_inBounds fits sized polled decoded taken stays
              · exact agrees_bare polled decoded
                  (outcome.trans (Client.readSlot_bare decoded taken))
            · have skipped : client.readSlot (client.released mem) offset = .empty := by
                simp only [Client.readSlot, decoded]
                cases verdict <;> simp_all
              exact agrees_skipped polled (outcome.trans skipped) (by rw [decoded]; exact good)

end Poll

/-- A client whose inbound ring has two slots of 96 bytes. -/
def pollingClient : Client where
  handle := 1
  slotSize := 96
  inlineBudget := 32
  arenaSize := 0
  attachedEpoch := 1
  control := true
  inbound := ⟨96, 2, 1, 192⟩
  outbound := ⟨96, 2, 1, 192⟩
  pendingRead := false

/-- Its inbound ring with one unread slot, holding a frame and 32 body bytes. -/
def oneSlotRing (frame : Frame) : Bytes :=
  uint32Bytes ringMagic ++ uint32Bytes 96 ++ uint32Bytes 2 ++ uint32Bytes 1 ++ uint32Bytes 192 ++
    List.replicate 44 0 ++ uint64Bytes 1 ++ List.replicate 56 0 ++ uint64Bytes 0 ++
    List.replicate 56 0 ++ frame.header ++ List.replicate 128 7

/-- A request of two bytes at the given reference. -/
def referringFrame (payloadRef : UInt64) : Frame :=
  { hdrFlags := fRequest ||| fInline, wireVersion := wireVersion, eventKind := kindModuleBase,
    correlationId := 1, payloadRef, payloadLen := 2 }

/-- A reference one below `2 ^ 64` panics, one at the header's start yields
header bytes as payload; the placement check refuses both. -/
theorem poll_escapes :
    ((pollingClient.poll 1 (oneSlotRing (referringFrame (0 - 1)))).1 = .panicked ∧
      ¬ PollAgrees pollingClient 1 (oneSlotRing (referringFrame (0 - 1)))) ∧
    ((pollingClient.poll 1 (oneSlotRing (referringFrame 0))).1 =
        .received { frame := referringFrame 0, payload := [0x42, 0x55] } ∧
      (referringFrame 0).checkPlacement pollingClient.slotSize pollingClient.arenaSize ≠ .ok ∧
      ¬ PollAgrees pollingClient 1 (oneSlotRing (referringFrame 0))) := by
  have panicked : (pollingClient.poll 1 (oneSlotRing (referringFrame (0 - 1)))).1 = .panicked := by
    decide +kernel
  have taken : (pollingClient.poll 1 (oneSlotRing (referringFrame 0))).1 =
      .received { frame := referringFrame 0, payload := [0x42, 0x55] } := by
    decide +kernel
  have refused : (referringFrame 0).checkPlacement pollingClient.slotSize
      pollingClient.arenaSize ≠ .ok := by decide
  refine ⟨⟨panicked, fun agrees => agrees.returns panicked⟩, taken, refused, fun agrees => ?_⟩
  exact refused (agrees.admitted _ taken (by decide)).1

/-- A reference right behind the header stays inside the slot. -/
theorem poll_agrees_inside :
    PollAgrees pollingClient 1 (oneSlotRing (referringFrame 64)) := by
  have attached : attachRing (oneSlotRing (referringFrame 64)) = .ok pollingClient.inbound := by
    decide +kernel
  have polled : pollingClient.polledSlot 1 (oneSlotRing (referringFrame 64)) =
      some ((referringFrame 64).header ++ List.replicate 32 7) := by decide +kernel
  have decoded : decode ((referringFrame 64).header ++ List.replicate 32 7) {} =
      (.ok, referringFrame 64) := decode_header (by decide) _ _
  refine (poll_agrees_iff (attachRing_fits attached).1 rfl).mpr fun slot frame found read => ?_
  obtain rfl := Option.some.inj (polled.symm.trans found)
  obtain rfl := (Prod.mk.inj (decoded.symm.trans read)).2
  decide

end AimeeLearning.Bus
