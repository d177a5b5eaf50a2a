import AimeeLearning.Bus.Attach
import AimeeLearning.Bus.ChannelFifo
import AimeeLearning.Bus.ModuleRuntimeSteps

/-! What an accepted attach says about later publishes. The reply, the control
region and the ring headers are three copies of the geometry; a publish checks
the reply's and writes into the ring's slots. -/

set_option autoImplicit false

namespace AimeeLearning.Bus

open Library

variable {exchange : Bytes → Option AttachReply} {mmap : Nat → Int → Option Bytes}
  {principalClass principalRef : UInt32} {attached : Attached}

section Accepted

/-- The mapped bytes of the outbound ring at the attach. -/
def Attached.outboundMem (attached : Attached) : Bytes :=
  attached.queuePair.mem.drop attached.queuePair.outOff

theorem attachAs_client (accepted : attachAs exchange mmap principalClass principalRef = .ok attached) :
    attached.client.control = true ∧ attached.client.outbound = attached.queuePair.outbound ∧
      ∃ mem, attachQueuePair mem = .ok attached.queuePair := by
  simp only [attachAs] at accepted
  split at accepted
  · cases accepted
  split at accepted
  · cases accepted
  split at accepted
  · cases accepted
  split at accepted
  · cases accepted
  split at accepted
  · split at accepted
    · rename_i queuePair attach
      obtain rfl := Except.ok.inj accepted
      exact ⟨rfl, rfl, _, attach⟩
    · cases accepted
    · cases accepted
  · cases accepted

theorem attachAs_outbound (accepted : attachAs exchange mmap principalClass principalRef = .ok attached) :
    attachRing attached.outboundMem = .ok attached.client.outbound := by
  obtain ⟨-, same, mem, attach⟩ := attachAs_client accepted
  obtain ⟨region, -, -, -, -, outbound⟩ := attachQueuePair_ok attach
  rw [same, Attached.outboundMem, region]
  exact outbound

end Accepted

section Publishing

variable {client : Client} {call : SendCall} {epoch : UInt64} {mem : Bytes}

/-- What a payload may have at most: the inline budget and the wire's bound. -/
def Client.payloadBudget (client : Client) : Nat :=
  min client.inlineBudget.toNat maxPayload.toNat

theorem SendCall.frame_valid (proper : call.fault = false)
    (small : call.payload.length ≤ maxPayload.toNat) :
    (client.frame call.flags call.kind call.correlation call.payload).validate = .ok := by
  have limit : maxPayload.toNat < 2 ^ 32 := maxPayload.toNat_lt
  have exactly : (UInt32.ofNat call.payload.length).toNat = call.payload.length := by
    rw [UInt32.toNat_ofNat', Nat.mod_eq_of_lt (by omega)]
  have bounded : ¬ UInt32.ofNat call.payload.length > maxPayload := by
    rw [gt_iff_lt, UInt32.lt_iff_toNat_lt, exactly]
    omega
  have nonzero : 0 < call.payload.length →
      UInt32.ofNat call.payload.length > 0 ∧ UInt32.ofNat call.payload.length ≠ 0 := by
    intro present
    constructor
    · rw [gt_iff_lt, UInt32.lt_iff_toNat_lt, exactly]
      exact present
    · intro zero
      rw [zero] at exactly
      exact absurd exactly.symm present.ne'
  rw [Frame.validate_ok_iff, Client.frame]
  cases call with
  | publish kind payload =>
      by_cases present : 0 < payload.length
      · obtain ⟨positive, distinct⟩ := nonzero present
        simp only [SendCall.payload] at positive distinct bounded
        simp [SendCall.flags, SendCall.pattern, SendCall.more, SendCall.correlation, SendCall.payload,
          Client.fragmentFlags, Frame.validatePayload, Frame.validateMore, Frame.validateCorrelation,
          Frame.has, present, positive, distinct, bounded]
        decide
      · simp [SendCall.flags, SendCall.pattern, SendCall.more, SendCall.correlation, SendCall.payload,
          Client.fragmentFlags, Frame.validatePayload, Frame.validateMore, Frame.validateCorrelation,
          Frame.has, present]
        decide
  | requestFragment kind corr payload more | replyFragment kind corr payload more =>
      simp only [SendCall.fault, Client.fragmentFault, Bool.or_eq_false_iff, beq_eq_false_iff_ne,
        ne_eq, Bool.and_eq_false_iff] at proper
      obtain ⟨named, continued⟩ := proper
      by_cases present : 0 < payload.length
      · obtain ⟨positive, distinct⟩ := nonzero present
        simp only [SendCall.payload] at positive distinct bounded
        cases more <;>
          simp [SendCall.flags, SendCall.pattern, SendCall.more, SendCall.correlation,
            SendCall.payload, Client.fragmentFlags, Frame.validatePayload, Frame.validateMore,
            Frame.validateCorrelation, Frame.has, present, positive, distinct, bounded, named] <;>
          decide
      · have last : more = false := continued.resolve_right (by omega)
        simp [SendCall.flags, SendCall.pattern, SendCall.more, SendCall.correlation, SendCall.payload,
          Client.fragmentFlags, Frame.validatePayload, Frame.validateMore, Frame.validateCorrelation,
          Frame.has, present, last, named]
        decide
  | cancel kind corr =>
      have named : corr ≠ 0 := by simpa [SendCall.fault] using proper
      simp [SendCall.flags, SendCall.pattern, SendCall.more, SendCall.correlation, SendCall.payload,
        Client.fragmentFlags, Frame.validatePayload, Frame.validateMore, Frame.validateCorrelation,
        Frame.has, named]
      decide

theorem fillSlot_ok_iff {frame : Frame} {payload slot : Bytes} :
    (∃ filled, Client.fillSlot frame payload slot = .ok filled) ↔
      hdrLen ≤ slot.length ∧ frame.validate = .ok := by
  unfold Client.fillSlot Frame.encode
  by_cases short : slot.length < hdrLen
  · have nothing : (0 != hdrLen) = true := rfl
    simp [short, nothing]
  · have nothing : (0 != hdrLen) = true := rfl
    by_cases valid : frame.validate = .ok
    · simp [short, valid, not_lt.mp short]
    · simp [short, valid, nothing]

theorem emit_ok_iff {flags : UInt16} {kind : UInt32} {corr : UInt64} {payload later : Bytes} :
    client.emit epoch mem flags kind corr payload = (.ok (), later) ↔
      client.admits epoch payload = .ok () ∧ ∃ offset filled,
        client.outbound.produceBegin mem = some offset ∧
        Client.fillSlot (client.frame flags kind corr payload) payload
          (window mem offset client.outbound.slotSize.toNat) = .ok filled ∧
        later = Ring.produceCommit (patch mem offset filled) := by
  unfold Client.emit
  cases admitted : client.admits epoch payload with
  | error failure => simp
  | ok _ =>
      cases begun : client.outbound.produceBegin mem with
      | none => simp
      | some offset =>
          cases filled : Client.fillSlot (client.frame flags kind corr payload) payload
              (window mem offset client.outbound.slotSize.toNat) with
          | error failure => simp [filled]
          | ok slot => simp [filled, eq_comm]

/-- A payload the checks in front of the ring let through. -/
def Client.PayloadFits (client : Client) (payload : Bytes) : Prop :=
  payload = [] ∨
    payload.length ≤ client.inlineBudget.toNat ∧ hdrLen + payload.length ≤ client.slotSize.toNat

instance (payload : Bytes) : Decidable (client.PayloadFits payload) := by
  unfold Client.PayloadFits
  infer_instance

theorem admits_eq (control : client.control = true) (payload : Bytes) :
    client.admits epoch payload =
      if ¬ client.PayloadFits payload then .error .errPayload
      else if client.epochChanged epoch then .error .errEpoch else .ok () := by
  have word : client.slotSize.toNat < 2 ^ 32 := client.slotSize.toNat_lt
  by_cases empty : payload = []
  · subst empty
    simp [Client.admits, Client.PayloadFits, control]
  · have present : 0 < payload.length := List.length_pos_iff.mpr empty
    by_cases slotFits : hdrLen + payload.length ≤ client.slotSize.toNat
    · have exactly : (UInt32.ofNat payload.length).toNat = payload.length := by
        rw [UInt32.toNat_ofNat', Nat.mod_eq_of_lt (by omega)]
      have budget : UInt32.ofNat payload.length > client.inlineBudget ↔
          client.inlineBudget.toNat < payload.length := by
        rw [gt_iff_lt, UInt32.lt_iff_toNat_lt, exactly]
      simp [Client.admits, Client.PayloadFits, control, present, empty, budget, slotFits,
        not_lt.mpr slotFits]
    · simp [Client.admits, Client.PayloadFits, control, present, empty, slotFits, not_le.mp slotFits]

theorem admits_ok_iff {payload : Bytes} : client.admits epoch payload = .ok () ↔
    client.control = true ∧ client.epochChanged epoch = false ∧ client.PayloadFits payload := by
  cases control : client.control with
  | false => simp [Client.admits, control]
  | true =>
      rw [admits_eq control]
      split_ifs with fits changed
      · simp [changed]
      · simp [changed, fits]
      · simp [fits]

theorem emit_errPayload_iff (control : client.control = true) {flags : UInt16} {kind : UInt32}
    {corr : UInt64} {payload : Bytes} :
    (client.emit epoch mem flags kind corr payload).1 = .error .errPayload ↔
      ¬ client.PayloadFits payload := by
  unfold Client.emit
  rw [admits_eq control]
  by_cases fits : client.PayloadFits payload
  · cases client.epochChanged epoch with
    | true => simp [fits]
    | false =>
        cases client.outbound.produceBegin mem with
        | none => simp [fits]
        | some offset =>
            simp only [fits, not_true_eq_false, if_false, Bool.false_eq_true, iff_false]
            cases fill : Client.fillSlot (client.frame flags kind corr payload) payload
                (window mem offset client.outbound.slotSize.toNat) with
            | ok filled => exact nofun
            | error failure =>
                intro refused
                rw [show failure = .errPayload from Except.error.inj refused] at fill
                simp only [Client.fillSlot] at fill
                split_ifs at fill
                cases fill
  · simp [fits]

/-- The slot that a publish committed holds the whole payload behind the header. -/
def Client.StoresWhole (client : Client) (mem later payload : Bytes) : Prop :=
  window (client.outbound.slot later (Ring.head mem)) hdrLen payload.length = payload

theorem begun_slot (fits : client.outbound.Fits mem.length) {offset : Nat}
    (begun : client.outbound.produceBegin mem = some offset) :
    (window mem offset client.outbound.slotSize.toNat).length = client.outbound.slotSize.toNat := by
  have bounds := (Ring.slot_bounds fits (Ring.head mem).toNat).2
  rw [UInt64.ofNat_toNat, ← Ring.produceBegin_offset begun] at bounds
  rw [length_window]
  omega

/-- Where the ring's slots take the header and the budget, an accepted publish
is stored whole. -/
theorem send_stores (fits : client.outbound.Fits mem.length)
    (room : hdrLen + client.payloadBudget ≤ client.outbound.slotSize.toNat) {later : Bytes}
    (sent : client.send epoch mem call = (.ok (), later)) :
    client.StoresWhole mem later call.payload := by
  rw [Client.send_eq] at sent
  split at sent
  · cases sent
  obtain ⟨admitted, offset, filled, begun, fill, rfl⟩ := emit_ok_iff.mp sent
  have size := begun_slot fits begun
  have within : call.payload.length ≤ client.payloadBudget := by
    rcases (admits_ok_iff.mp admitted).2.2 with empty | ⟨inBudget, inSlot⟩
    · simp [empty]
    · have word : client.slotSize.toNat < 2 ^ 32 := client.slotSize.toNat_lt
      have valid := (fillSlot_ok_iff.mp ⟨filled, fill⟩).2
      have bounded := UInt32.le_iff_toNat_le.mp (Frame.payloadLen_le valid)
      by_cases present : call.payload.length > 0
      · rw [Client.frame, if_pos present, UInt32.toNat_ofNat', Nat.mod_eq_of_lt (by omega)] at bounded
        exact le_min inBudget bounded
      · exact (Nat.le_of_not_lt present).trans (Nat.zero_le _)
  obtain ⟨-, filledSize, rest, rfl⟩ := fillSlot_carries fill (by omega)
  rw [Client.StoresWhole, Ring.slot_committed fits begun (filledSize.trans size), List.append_assoc,
    ← Frame.length_header, window_append_right (by simp), Nat.sub_self]
  exact window_append_left rfl

/-- Where the reply's slot size takes the header and the budget too, no publish
within the budget is refused while a slot is free. -/
theorem send_accepts (fits : client.outbound.Fits mem.length) (control : client.control = true)
    (header : hdrLen ≤ client.outbound.slotSize.toNat)
    (room : client.payloadBudget = 0 ∨ hdrLen + client.payloadBudget ≤ client.slotSize.toNat)
    (proper : call.fault = false) (within : call.payload.length ≤ client.payloadBudget)
    (free : client.outbound.produceBegin mem ≠ none) :
    (client.send client.attachedEpoch mem call).1 = .ok () := by
  have admitted : client.admits client.attachedEpoch call.payload = .ok () := by
    refine admits_ok_iff.mpr ⟨control, by simp [Client.epochChanged], ?_⟩
    by_cases empty : call.payload = []
    · exact .inl empty
    · have present : 0 < call.payload.length := List.length_pos_iff.mpr empty
      exact .inr ⟨within.trans (min_le_left _ _), by omega⟩
  obtain ⟨offset, begun⟩ := Option.ne_none_iff_exists'.mp free
  have valid : (client.frame call.flags call.kind call.correlation call.payload).validate = .ok :=
    SendCall.frame_valid proper (within.trans (min_le_right _ _))
  obtain ⟨filled, fill⟩ := fillSlot_ok_iff.mpr ⟨(begun_slot fits begun).symm ▸ header, valid⟩
  rw [Client.send_eq, if_neg (by simp [proper]), emit_ok_iff.mpr ⟨admitted, offset, filled, begun, fill, rfl⟩]

end Publishing

section Replies

variable {inlineBudget : UInt32} {reply : ModuleReply}

/-- The longest fragment payload a reply is cut into. -/
def replyPayloadMax (inlineBudget : UInt32) : Nat :=
  min inlineBudget.toNat (moduleMessageHeaderLen + moduleMessageMaxBody.toNat)

theorem ModuleReply.length_fragment (reply : ModuleReply) (piece : Bytes × Bool) :
    (reply.fragment piece).payload.length = moduleMessageHeaderLen + piece.1.length := by
  simp [ModuleReply.fragment]

theorem plan_length_le (budget : moduleMessageHeaderLen < inlineBudget.toNat) {fragment : SentFragment}
    (planned : fragment ∈ reply.plan inlineBudget) :
    fragment.payload.length ≤ replyPayloadMax inlineBudget := by
  obtain ⟨piece, member, rfl⟩ := List.mem_map.mp planned
  obtain ⟨inChunk, inBody, -⟩ := pieces_length _ (by omega) piece member
  have bodyBound := (settleResult_sound reply.status reply.body).2
  rw [ModuleReply.length_fragment, replyPayloadMax, le_min_iff]
  constructor
  · omega
  · omega

theorem longest_reply (budget : moduleMessageHeaderLen < inlineBudget.toNat) :
    ∃ reply : ModuleReply, ∃ fragment ∈ reply.plan inlineBudget,
      fragment.payload.length = replyPayloadMax inlineBudget ∧
        Client.fragmentFault fragment.correlation fragment.payload fragment.more = false := by
  let body : Bytes := List.replicate (min (inlineBudget.toNat - moduleMessageHeaderLen)
    moduleMessageMaxBody.toNat) 0
  have size : body.length = min (inlineBudget.toNat - moduleMessageHeaderLen)
      moduleMessageMaxBody.toNat := List.length_replicate
  have admissible : ¬ moduleMessageMaxBody.toNat < body.length := by omega
  have settled : settleResult moduleStatusOK body = (moduleStatusOK, body) := by
    simp [settleResult, validModuleStatus, moduleStatusOK, moduleStatusInternal, admissible]
  refine ⟨⟨0, 1, 1, 0, moduleStatusOK, body⟩, _, List.mem_map_of_mem (a := (body, false)) ?_, ?_, rfl⟩
  · rw [settled, pieces_of_le (show body.length ≤ _ by omega)]
    exact List.mem_singleton_self _
  · rw [ModuleReply.length_fragment, replyPayloadMax, size]
    omega

end Replies

section Geometry

/-- What every later state of the outbound ring keeps. -/
structure Attached.HonoursBudget (attached : Attached) : Prop where
  stores : ∀ mem call later, mem.length = attached.outboundMem.length →
    attached.client.send attached.client.attachedEpoch mem call = (.ok (), later) →
      attached.client.StoresWhole mem later call.payload
  accepts : ∀ mem call, mem.length = attached.outboundMem.length → call.fault = false →
    call.payload.length ≤ attached.client.payloadBudget →
      attached.client.outbound.produceBegin mem ≠ none →
        (attached.client.send attached.client.attachedEpoch mem call).1 = .ok ()
  replies : ∀ mem (reply : ModuleReply), mem.length = attached.outboundMem.length →
    moduleMessageHeaderLen < attached.client.inlineBudget.toNat →
      ∀ fragment ∈ reply.plan attached.client.inlineBudget,
        (attached.client.send attached.client.attachedEpoch mem (.replyFragment fragment.kind
          fragment.correlation fragment.payload fragment.more)).1 ≠ .error .errPayload

/-- The relation between the reply's slot size and budget and the slot size in
the outbound ring's header. -/
structure Client.GeometryFits (client : Client) : Prop where
  ring : hdrLen + client.payloadBudget ≤ client.outbound.slotSize.toNat
  slot : client.payloadBudget = 0 ∨ hdrLen + client.payloadBudget ≤ client.slotSize.toNat
  reply : client.inlineBudget.toNat ≤ moduleMessageHeaderLen ∨
    hdrLen + replyPayloadMax client.inlineBudget ≤ client.slotSize.toNat

theorem Attached.later_free (attached : Attached)
    (ring : attachRing attached.outboundMem = .ok attached.client.outbound) :
    ∃ mem, mem.length = attached.outboundMem.length ∧
      attached.client.outbound.produceBegin mem ≠ none := by
  have fits := (attachRing_fits ring).1
  have long := fits.mapped
  refine ⟨Ring.storeTail attached.outboundMem (Ring.head attached.outboundMem),
    Ring.length_storeTail (by omega) _, ?_⟩
  have positive : ¬ (0 : UInt64) ≥ attached.client.outbound.capacity.toUInt64 := by
    have many := fits.many
    rw [ge_iff_le, UInt64.le_iff_toNat_le, UInt32.toNat_toUInt64]
    simp only [UInt64.toNat_zero]
    omega
  rw [Ring.produceBegin, Ring.tail_storeTail (by omega), Ring.head_storeTail (by omega),
    UInt64.sub_self, if_neg positive]
  exact Option.some_ne_none _

/-- An accepted attach honours its budget exactly when the header and the
budget fit both the slot size of the reply and that of the outbound ring. -/
theorem attach_honours_budget_iff
    (accepted : attachAs exchange mmap principalClass principalRef = .ok attached) :
    attached.HonoursBudget ↔ attached.client.GeometryFits := by
  have ring := attachAs_outbound accepted
  have control := (attachAs_client accepted).1
  have fitsAt {mem : Bytes} (same : mem.length = attached.outboundMem.length) :
      attached.client.outbound.Fits mem.length := same ▸ (attachRing_fits ring).1
  constructor
  · intro honours
    obtain ⟨free, later, room⟩ := attached.later_free ring
    have within : (List.replicate attached.client.payloadBudget (0 : UInt8)).length ≤
        attached.client.payloadBudget := by simp
    have accepted := honours.accepts free (.publish 0 (List.replicate attached.client.payloadBudget 0))
      later rfl within room
    have sent : attached.client.send attached.client.attachedEpoch free
        (.publish 0 (List.replicate attached.client.payloadBudget 0)) = (.ok (), _) :=
      Prod.ext accepted rfl
    have whole := honours.stores free _ _ later sent
    rw [Client.send_eq, if_neg (by simp [SendCall.fault])] at sent
    obtain ⟨admitted, offset, filled, begun, fill, ended⟩ := emit_ok_iff.mp sent
    have header := (fillSlot_ok_iff.mp ⟨filled, fill⟩).1
    rw [begun_slot (fitsAt later) begun] at header
    have budget := (admits_ok_iff.mp admitted).2.2
    simp only [SendCall.payload, Client.PayloadFits, List.replicate_eq_nil_iff,
      List.length_replicate] at budget
    refine ⟨?_, budget.imp_right And.right, ?_⟩
    · by_cases none : attached.client.payloadBudget = 0
      · rwa [none]
      · -- the window of the slot is as long as the payload
        have size := congrArg List.length whole
        rw [length_window, Ring.slot, length_window, SendCall.payload, List.length_replicate] at size
        omega
    · by_contra tight
      rw [not_or, not_le, not_le] at tight
      obtain ⟨reply, fragment, planned, longest, proper⟩ := longest_reply tight.1
      refine honours.replies free reply later tight.1 fragment planned ?_
      rw [Client.send_eq, if_neg (by rw [SendCall.fault, proper]; exact Bool.false_ne_true),
        emit_errPayload_iff control]
      rintro (empty | ⟨-, inSlot⟩)
      · have framed : 0 < replyPayloadMax attached.client.inlineBudget :=
          lt_min (by omega) (Nat.add_pos_left (by decide) _)
        rw [← longest, show fragment.payload = [] from empty] at framed
        exact absurd framed (Nat.lt_irrefl _)
      · rw [SendCall.payload, longest] at inSlot
        omega
  · intro fits
    refine ⟨fun mem call final later sent => send_stores (fitsAt later) fits.ring sent, ?_, ?_⟩
    · intro mem call later proper within free
      exact send_accepts (fitsAt later) control ((Nat.le_add_right _ _).trans fits.ring) fits.slot
        proper within free
    · intro mem reply later budget fragment planned refused
      have small := plan_length_le budget planned
      have slot := fits.reply.resolve_left (by omega)
      rw [Client.send_eq] at refused
      split at refused
      · cases refused
      · refine (emit_errPayload_iff control).mp refused (.inr ⟨?_, ?_⟩)
        · exact small.trans (min_le_left _ _)
        · exact (Nat.add_le_add_left small _).trans slot

/-- A host with two-slot rings whose reply and rings name their own sizes. -/
def geometryRing (slotSize : UInt32) : Bytes :=
  uint32Bytes ringMagic ++ uint32Bytes slotSize ++ uint32Bytes 2 ++ uint32Bytes 1 ++
    uint32Bytes 192 ++ List.replicate (172 + 2 * slotSize.toNat) 0

def geometryQueuePair (slotSize : UInt32) : Bytes :=
  uint32Bytes qpMagic ++ List.replicate 20 0 ++ uint32Bytes 128 ++ uint32Bytes (320 + 2 * slotSize) ++
    List.replicate 96 0 ++ geometryRing slotSize ++ geometryRing slotSize

def geometryControl (slotSize inlineBudget : UInt32) : Bytes :=
  uint32Bytes ctlMagic ++ uint32Bytes specVersion ++ uint32Bytes layoutVersion ++ uint32Bytes 0 ++
    uint32Bytes slotSize ++ uint32Bytes inlineBudget ++ uint64Bytes 2 ++ uint64Bytes 64 ++
    uint64Bytes 1 ++ List.replicate 48 0

def geometryReply (slotSize inlineBudget : UInt32) : Bytes → Option AttachReply := fun _ =>
  some ⟨uint32Bytes attachReplyMagic ++ uint32Bytes attachOK ++ uint64Bytes 7 ++ uint32Bytes slotSize ++
    uint32Bytes inlineBudget ++ uint64Bytes 2 ++ uint64Bytes 64 ++ uint64Bytes 1, 48, 3⟩

def geometryRegions (slotSize inlineBudget ringSlot : UInt32) (descriptor : Nat) (length : Int) :
    Option Bytes :=
  match descriptor with
  | 0 => some (geometryControl slotSize inlineBudget)
  | 1 => some (List.replicate length.toNat 0)
  | _ => some (geometryQueuePair ringSlot)

def geometryAttached (slotSize inlineBudget ringSlot : UInt32) : Attached where
  client :=
    { handle := 7, slotSize, inlineBudget, arenaSize := 64, attachedEpoch := 1, control := true,
      inbound := ⟨ringSlot, 2, 1, 192⟩, outbound := ⟨ringSlot, 2, 1, 192⟩, pendingRead := false }
  control := geometryControl slotSize inlineBudget
  queuePair :=
    { mem := geometryQueuePair ringSlot, inOff := 128, outOff := 320 + 2 * ringSlot.toNat
      inbound := ⟨ringSlot, 2, 1, 192⟩, outbound := ⟨ringSlot, 2, 1, 192⟩ }

/-- A budget of 128 bytes in slots of 192. -/
theorem attach_honours_roomy : (geometryAttached 192 128 192).HonoursBudget := by
  have accepted : attachAs (geometryReply 192 128) (geometryRegions 192 128 192) 1 1 =
      .ok (geometryAttached 192 128 192) := by decide +kernel
  exact (attach_honours_budget_iff accepted).mpr ⟨by decide, by decide, by decide⟩

/-- A budget of 128 bytes in slots of 128 refuses 65 bytes; where the reply says
256 and the ring has 96, 64 bytes are published and 32 of them are stored. -/
theorem attach_not_honours :
    (attachAs (geometryReply 128 128) (geometryRegions 128 128 128) 1 1 =
        .ok (geometryAttached 128 128 128) ∧
      ¬ (geometryAttached 128 128 128).HonoursBudget) ∧
    attachAs (geometryReply 256 128) (geometryRegions 256 128 96) 1 1 =
        .ok (geometryAttached 256 128 96) ∧
      ¬ (geometryAttached 256 128 96).HonoursBudget := by
  refine ⟨⟨by decide +kernel, fun honours => ?_⟩, by decide +kernel, fun honours => ?_⟩
  · have accepted := honours.accepts _ (.publish 0 (List.replicate 65 5)) rfl rfl (by decide)
      (by decide +kernel)
    revert accepted
    decide +kernel
  · have sent : ((geometryAttached 256 128 96).client.send (geometryAttached 256 128 96).client.attachedEpoch
        (geometryAttached 256 128 96).outboundMem (.publish 0 (List.replicate 64 5))).1 = .ok () := by
      decide +kernel
    have cut : ¬ (geometryAttached 256 128 96).client.StoresWhole (geometryAttached 256 128 96).outboundMem
        ((geometryAttached 256 128 96).client.send (geometryAttached 256 128 96).client.attachedEpoch
          (geometryAttached 256 128 96).outboundMem (.publish 0 (List.replicate 64 5))).2
        (SendCall.publish 0 (List.replicate 64 5)).payload := by
      unfold Client.StoresWhole
      decide +kernel
    have paired : ∀ {outcome : Except BusError Unit × Bytes}, outcome.1 = .ok () →
        outcome = (.ok (), outcome.2) := fun published => Prod.ext published rfl
    exact cut (honours.stores _ (.publish 0 (List.replicate 64 5)) _ rfl (paired sent))

end Geometry

end AimeeLearning.Bus
