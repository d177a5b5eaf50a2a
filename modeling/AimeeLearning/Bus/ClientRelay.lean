import AimeeLearning.Bus.ClientPlacement

/-! From one client to another: the slot a publish commits carries its frame and
payload, and a Poll of any slot that carries them returns exactly that event. A
host that copies slots unchanged is therefore a channel of events. -/

set_option autoImplicit false

namespace AimeeLearning.Bus

open Library

/-- The event a peer receives when a payload is published with these arguments. -/
def Client.sentEvent (sender : Client) (flags : UInt16) (kind : UInt32) (corr : UInt64)
    (payload : Bytes) : Event :=
  ⟨sender.frame flags kind corr payload, payload⟩

/-- A slot whose bytes start with the event's header and payload. -/
def Carries (slot : Bytes) (event : Event) : Prop :=
  ∃ rest, slot = event.frame.header ++ event.payload ++ rest

/-- An inline budget that is neither too small for an envelope nor too large for
a frame or a slot. -/
structure Client.Roomy (client : Client) : Prop where
  envelope : 40 < client.inlineBudget.toNat
  frame : client.inlineBudget ≤ maxPayload
  slot : hdrLen + client.inlineBudget.toNat ≤ client.slotSize.toNat

section Relay

variable {sender : Client} {pattern : UInt16} {kind : UInt32} {corr : UInt64} {payload : Bytes}
  {more : Bool}

/-- A fragment of a request or a reply that the sender may publish. -/
structure Client.Publishable (sender : Client) (pattern : UInt16) (corr : UInt64)
    (payload : Bytes) : Prop where
  pattern : pattern = fRequest ∨ pattern = fReply
  named : corr ≠ 0
  present : 0 < payload.length
  fits : payload.length ≤ sender.inlineBudget.toNat

theorem Client.Publishable.length (roomy : sender.Roomy)
    (fragment : Client.Publishable sender pattern corr payload) :
    (UInt32.ofNat payload.length).toNat = payload.length ∧
      UInt32.ofNat payload.length ≤ maxPayload := by
  have word := sender.inlineBudget.toNat_lt
  have limit := UInt32.le_iff_toNat_le.mp roomy.frame
  have fits := fragment.fits
  have exactly : (UInt32.ofNat payload.length).toNat = payload.length := by
    rw [UInt32.toNat_ofNat', Nat.mod_eq_of_lt (by omega)]
  exact ⟨exactly, UInt32.le_iff_toNat_le.mpr (by omega)⟩

theorem Client.frame_valid (roomy : sender.Roomy)
    (fragment : Client.Publishable sender pattern corr payload) :
    (sender.frame (Client.fragmentFlags pattern more) kind corr payload).validate = .ok := by
  obtain ⟨exactly, bounded⟩ := fragment.length roomy
  have present := fragment.present
  have nonempty : UInt32.ofNat payload.length > 0 := by
    rw [gt_iff_lt, UInt32.lt_iff_toNat_lt, exactly]
    exact present
  have nonzero : UInt32.ofNat payload.length ≠ 0 := by
    intro zero
    rw [zero] at exactly
    exact absurd exactly.symm (by simpa using fragment.present.ne')
  have small : ¬ UInt32.ofNat payload.length > maxPayload := UInt32.not_lt.mpr bounded
  rw [Client.frame, if_pos present]
  rw [Frame.validate_ok_iff]
  rcases fragment.pattern with rfl | rfl <;> cases more <;>
    simp [Client.fragmentFlags, Frame.validatePayload, Frame.validateMore,
      Frame.validateCorrelation, Frame.has, nonempty, nonzero, small, fragment.named] <;> decide

theorem Client.admits_ok {epoch : UInt64} (admitted : sender.admits epoch payload = .ok ()) :
    sender.control = true ∧ sender.epochChanged epoch = false := by
  simp only [Client.admits] at admitted
  split at admitted
  · cases admitted
  · rename_i control
    split at admitted
    · cases admitted
    · split at admitted
      · cases admitted
      · rename_i live
        exact ⟨by simpa using control, by simpa using live⟩

theorem Client.emit_carries {epoch : UInt64} {mem : Bytes} {offset : Nat} (roomy : sender.Roomy)
    (fragment : Client.Publishable sender pattern corr payload)
    (fits : sender.outbound.Fits mem.length) (sized : sender.outbound.slotSize = sender.slotSize)
    (control : sender.control = true) (live : sender.epochChanged epoch = false)
    (room : sender.outbound.produceBegin mem = some offset) :
    ∃ slot, Carries slot (sender.sentEvent (Client.fragmentFlags pattern more) kind corr payload) ∧
      slot.length = sender.slotSize.toNat ∧
      sender.emit epoch mem (Client.fragmentFlags pattern more) kind corr payload =
        (.ok (), Ring.produceCommit (patch mem offset slot)) := by
  obtain ⟨exactly, -⟩ := fragment.length roomy
  have within := fragment.fits
  have slotRoom := roomy.slot
  have valid : (sender.frame (Client.fragmentFlags pattern more) kind corr payload).validate = .ok :=
    Client.frame_valid roomy fragment
  have bounds : offset + sender.slotSize.toNat ≤ mem.length := by
    simp only [Ring.produceBegin] at room
    split at room
    · cases room
    · obtain rfl := Option.some.inj room
      have bounds := (Ring.slot_bounds fits (Ring.head mem).toNat).2
      rwa [UInt64.ofNat_toNat, sized] at bounds
  have size : (window mem offset sender.slotSize.toNat).length = sender.slotSize.toNat := by
    rw [length_window]
    omega
  refine ⟨patch (patch (window mem offset sender.slotSize.toNat) 0
    (sender.frame (Client.fragmentFlags pattern more) kind corr payload).header) hdrLen payload,
    ?_, ?_, ?_⟩
  · refine ⟨(window mem offset sender.slotSize.toNat).drop (hdrLen + payload.length), ?_⟩
    have written := patch_patch (window mem offset sender.slotSize.toNat)
      (sender.frame (Client.fragmentFlags pattern more) kind corr payload).header payload
    rwa [Frame.length_header] at written
  · have first : (patch (window mem offset sender.slotSize.toNat) 0
        (sender.frame (Client.fragmentFlags pattern more) kind corr payload).header).length =
          sender.slotSize.toNat := by
      rw [length_patch (by rw [Frame.length_header, size]; omega), size]
    rw [length_patch (by rw [first]; omega), first]
  · have admitted : sender.admits epoch payload = .ok () := by
      have small : ¬ UInt32.ofNat payload.length > sender.inlineBudget := by
        rw [gt_iff_lt, UInt32.lt_iff_toNat_lt, exactly]
        omega
      have slotFits : ¬ hdrLen + payload.length > sender.slotSize.toNat := by omega
      simp [Client.admits, control, live, small, slotFits]
    have long : ¬ sender.slotSize.toNat < hdrLen := by omega
    have copied : payload.take (sender.slotSize.toNat - hdrLen) = payload :=
      List.take_of_length_le (by omega)
    have first : (patch (window mem offset sender.slotSize.toNat) 0
        (sender.frame (Client.fragmentFlags pattern more) kind corr payload).header).length =
          sender.slotSize.toNat := by
      rw [length_patch (by rw [Frame.length_header, size]; omega), size]
    simp [Client.emit, admitted, room, Client.fillSlot, Frame.encode, valid, sized, size, long,
      first, copied]

theorem Client.readSlot_carries {receiver : Client} {mem : Bytes} {offset : Nat} {event : Event}
    (valid : event.frame.validate = .ok) (inline_ : event.frame.has fInline = true)
    (behind : event.frame.payloadRef = UInt64.ofNat hdrLen)
    (exactly : event.frame.payloadLen.toNat = event.payload.length)
    (present : 0 < event.payload.length)
    (sized : receiver.inbound.slotSize = receiver.slotSize)
    (mapped : offset + receiver.slotSize.toNat ≤ mem.length)
    (carries : Carries (window mem offset receiver.inbound.slotSize.toNat) event) :
    receiver.readSlot mem offset = .received event := by
  obtain ⟨rest, slot⟩ := carries
  have decoded : decode (window mem offset receiver.inbound.slotSize.toNat) {} =
      (.ok, event.frame) := by
    rw [slot, List.append_assoc]
    exact decode_header valid _ _
  have size : receiver.slotSize.toNat =
      hdrLen + event.payload.length + rest.length := by
    have lengths := congrArg List.length slot
    rw [length_window, sized, List.length_append, List.length_append, Frame.length_header]
      at lengths
    omega
  have word := receiver.slotSize.toNat_lt
  have refs : event.frame.payloadRef.toNat = hdrLen := by rw [behind]; rfl
  have ends : event.frame.payloadEnd.toNat = hdrLen + event.payload.length := by
    unfold Frame.payloadEnd
    rw [UInt64.toNat_add, UInt32.toNat_toUInt64, refs, exactly, Nat.mod_eq_of_lt]
    omega
  have inside : event.frame.payloadEnd ≤ receiver.slotSize.toUInt64 := by
    rw [UInt64.le_iff_toNat_le, UInt32.toNat_toUInt64]
    omega
  have ordered : ¬ event.frame.payloadEnd < event.frame.payloadRef := by
    rw [UInt64.lt_iff_toNat_lt]
    omega
  have carried : 0 < event.frame.payloadLen := by
    rw [UInt32.lt_iff_toNat_lt, exactly]
    exact present
  rw [Client.readSlot_inline decoded mapped inline_ carried inside, if_neg ordered, refs, exactly]
  congr
  have cut : window (window mem offset receiver.inbound.slotSize.toNat) hdrLen
      event.payload.length = event.payload := by
    rw [slot, List.append_assoc, window_append_right (by simp), Frame.length_header, Nat.sub_self,
      window_append_left rfl]
  rw [window_window (by rw [sized]; omega)] at cut
  exact cut

theorem Client.sentEvent_read (roomy : sender.Roomy)
    (fragment : Client.Publishable sender pattern corr payload) {receiver : Client} {mem : Bytes}
    {offset : Nat} (sized : receiver.inbound.slotSize = receiver.slotSize)
    (mapped : offset + receiver.slotSize.toNat ≤ mem.length)
    (carries : Carries (window mem offset receiver.inbound.slotSize.toNat)
      (sender.sentEvent (Client.fragmentFlags pattern more) kind corr payload)) :
    receiver.readSlot mem offset =
      .received (sender.sentEvent (Client.fragmentFlags pattern more) kind corr payload) := by
  have valid : (sender.frame (Client.fragmentFlags pattern more) kind corr payload).validate = .ok :=
    Client.frame_valid roomy fragment
  have shape : sender.frame (Client.fragmentFlags pattern more) kind corr payload =
      { hdrFlags := Client.fragmentFlags pattern more ||| fInline, wireVersion := wireVersion
        eventKind := kind, correlationId := corr, srcHandle := sender.handle
        payloadLen := UInt32.ofNat payload.length, payloadRef := UInt64.ofNat hdrLen } := by
    rw [Client.frame, if_pos fragment.present]
  refine Client.readSlot_carries valid ?_ ?_ ?_ fragment.present sized mapped carries
  · rw [Client.sentEvent, shape]
    simp only [Frame.has]
    rcases fragment.pattern with rfl | rfl <;> cases more <;> decide
  · rw [Client.sentEvent, shape]
  · rw [Client.sentEvent, shape]
    exact (fragment.length roomy).1

/-- A peer polls the slot that a publish committed, byte for byte. -/
def Relayed (sender receiver : Client) (pattern : UInt16) (fragment : SentFragment)
    (event : Event) : Prop :=
  ∃ epoch mem after landed offset,
    sender.outbound.Fits mem.length ∧
    sender.emit epoch mem (Client.fragmentFlags pattern fragment.more) fragment.kind
      fragment.correlation fragment.payload = (.ok (), after) ∧
    offset + receiver.slotSize.toNat ≤ landed.length ∧
    window landed offset receiver.inbound.slotSize.toNat =
      sender.outbound.slot after (Ring.head mem) ∧
    receiver.readSlot landed offset = .received event

def SentFragment.event (fragment : SentFragment) (sender : Client) (pattern : UInt16) : Event :=
  sender.sentEvent (Client.fragmentFlags pattern fragment.more) fragment.kind fragment.correlation
    fragment.payload

theorem Relayed.event_eq {receiver : Client} {fragment : SentFragment} {event : Event}
    (roomy : sender.Roomy)
    (publishable : Client.Publishable sender pattern fragment.correlation fragment.payload)
    (outbound : sender.outbound.slotSize = sender.slotSize)
    (inbound : receiver.inbound.slotSize = receiver.slotSize)
    (relayed : Relayed sender receiver pattern fragment event) :
    event = fragment.event sender pattern := by
  obtain ⟨epoch, mem, after, landed, offset, fits, published, mapped, same, read⟩ := relayed
  have admitted : sender.admits epoch fragment.payload = .ok () := by
    cases checked : sender.admits epoch fragment.payload with
    | error failure => simp [Client.emit, checked] at published
    | ok fine => rfl
  obtain ⟨control, live⟩ := Client.admits_ok admitted
  cases room : sender.outbound.produceBegin mem with
  | none => simp [Client.emit, admitted, room] at published
  | some position =>
      obtain ⟨slot, carries, length, emitted⟩ := Client.emit_carries roomy publishable fits outbound
        control live room
      obtain ⟨-, rfl⟩ := Prod.mk.inj (published.symm.trans emitted)
      have committed := Ring.slot_committed fits room (length.trans (by rw [outbound]))
      rw [committed] at same
      exact Client.PollOutcome.received.inj
        (read.symm.trans (Client.sentEvent_read roomy publishable inbound mapped (same ▸ carries)))

theorem relayed_of_room {receiver : Client} {fragment : SentFragment} {epoch : UInt64}
    {mem : Bytes} {offset : Nat} (roomy : sender.Roomy)
    (publishable : Client.Publishable sender pattern fragment.correlation fragment.payload)
    (fits : sender.outbound.Fits mem.length) (outbound : sender.outbound.slotSize = sender.slotSize)
    (inbound : receiver.inbound.slotSize = receiver.slotSize)
    (same : receiver.slotSize = sender.slotSize) (control : sender.control = true)
    (live : sender.epochChanged epoch = false)
    (room : sender.outbound.produceBegin mem = some offset) :
    Relayed sender receiver pattern fragment (fragment.event sender pattern) := by
  obtain ⟨slot, carries, length, emitted⟩ :=
    Client.emit_carries roomy publishable fits outbound control live room
  have filled : slot.length = sender.outbound.slotSize.toNat := length.trans (by rw [outbound])
  have committed := Ring.slot_committed fits room filled
  have bounds := (Ring.slot_bounds fits (Ring.head mem).toNat).2
  rw [UInt64.ofNat_toNat, ← Ring.produceBegin_offset room, outbound] at bounds
  have landed : window (Ring.produceCommit (patch mem offset slot)) offset
      receiver.inbound.slotSize.toNat = slot := by
    rw [inbound, same, ← outbound, Ring.produceBegin_offset room]
    rw [Ring.produceBegin_offset room] at committed
    exact committed
  have mapped : offset + receiver.slotSize.toNat ≤
      (Ring.produceCommit (patch mem offset slot)).length := by
    have stored : (patch mem offset slot).length = mem.length :=
      length_patch (by rw [length]; exact bounds)
    rw [same, Ring.produceCommit, Ring.length_storeHead (by have := fits.mapped; omega), stored]
    exact bounds
  refine ⟨epoch, mem, _, _, offset, fits, emitted, mapped, landed.trans committed.symm, ?_⟩
  exact Client.sentEvent_read roomy publishable inbound mapped (by rw [landed]; exact carries)

/-- A host that hands over the committed slots unchanged and in order. -/
def Relays (sender receiver : Client) (pattern : UInt16) : List SentFragment → List Event → Prop :=
  List.Forall₂ (Relayed sender receiver pattern)

theorem Relays.events_eq {receiver : Client} {fragments : List SentFragment} {events : List Event}
    (roomy : sender.Roomy)
    (publishable : ∀ fragment ∈ fragments,
      Client.Publishable sender pattern fragment.correlation fragment.payload)
    (outbound : sender.outbound.slotSize = sender.slotSize)
    (inbound : receiver.inbound.slotSize = receiver.slotSize)
    (relays : Relays sender receiver pattern fragments events) :
    events = fragments.map (·.event sender pattern) := by
  induction relays with
  | nil => rfl
  | cons relayed _ ih =>
      rw [List.map_cons, ← ih fun other member => publishable other (List.mem_cons_of_mem _ member),
        relayed.event_eq roomy (publishable _ List.mem_cons_self) outbound inbound]

end Relay

end AimeeLearning.Bus
