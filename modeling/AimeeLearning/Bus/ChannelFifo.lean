import AimeeLearning.Bus.ClientChannel
import Mathlib.Data.List.Forall2

/-! The client channel is a message queue. Every committed slot carries its
call's event, and the receiver takes the commits one by one in their order. The
ring's own invariant does the counting; this adds what the slots mean. -/

set_option autoImplicit false

namespace AimeeLearning.Bus

open Library

section Slots

variable {sender receiver : Client} {call : SendCall}

/-- The payload stands inline behind the header, or there is none. -/
def Event.Placed (event : Event) : Prop :=
  (event.payload = [] ∧ event.frame.payloadLen = 0) ∨
    (0 < event.payload.length ∧ event.frame.has fInline = true ∧
      event.frame.payloadRef = UInt64.ofNat hdrLen ∧
      event.frame.payloadLen.toNat = event.payload.length)

theorem Client.readSlot_placed {mem : Bytes} {offset : Nat} {event : Event}
    (valid : event.frame.validate = .ok) (placed : event.Placed)
    (sized : receiver.inbound.slotSize = receiver.slotSize)
    (mapped : offset + receiver.slotSize.toNat ≤ mem.length)
    (carries : Carries (window mem offset receiver.inbound.slotSize.toNat) event) :
    receiver.readSlot mem offset = .received event := by
  rcases placed with ⟨bare, none⟩ | ⟨present, inline_, behind, exactly⟩
  · obtain ⟨rest, slot⟩ := carries
    have decoded : decode (window mem offset receiver.inbound.slotSize.toNat) {} =
        (.ok, event.frame) := by
      rw [slot, List.append_assoc]
      exact decode_header valid _ _
    obtain ⟨frame, payload⟩ := event
    obtain rfl : payload = [] := bare
    simp only at none decoded
    simp [Client.readSlot, decoded, none]
  · exact Client.readSlot_carries valid inline_ behind exactly present sized mapped carries

theorem SendCall.flags_read (call : SendCall) :
    call.flags &&& fPatternMask = call.pattern ∧
      (call.flags ||| fInline) &&& fPatternMask = call.pattern ∧
      (call.flags &&& fMore != 0) = call.more ∧
      ((call.flags ||| fInline) &&& fMore != 0) = call.more ∧
      ((call.flags ||| fInline) &&& fInline != 0) = true := by
  have table : ∀ pattern ∈ [fNotification, fRequest, fReply, fCancel], ∀ more,
      Client.fragmentFlags pattern more &&& fPatternMask = pattern ∧
        (Client.fragmentFlags pattern more ||| fInline) &&& fPatternMask = pattern ∧
        (Client.fragmentFlags pattern more &&& fMore != 0) = more ∧
        ((Client.fragmentFlags pattern more ||| fInline) &&& fMore != 0) = more ∧
        ((Client.fragmentFlags pattern more ||| fInline) &&& fInline != 0) = true := by
    intro pattern member more
    simp only [List.mem_cons, List.not_mem_nil, or_false] at member
    rcases member with rfl | rfl | rfl | rfl <;> cases more <;> decide
  exact table call.pattern (by cases call <;> simp [SendCall.pattern]) call.more

theorem SendCall.event_placed (fits : call.payload.length < 2 ^ 32) :
    (call.event sender).Placed := by
  by_cases present : call.payload.length > 0
  · refine .inr ⟨present, ?_, ?_, ?_⟩ <;>
      simp only [SendCall.event, Client.sentEvent, Client.frame, if_pos present]
    · exact call.flags_read.2.2.2.2
    · rw [UInt32.toNat_ofNat', Nat.mod_eq_of_lt fits]
  · have bare : call.payload = [] := List.length_eq_zero_iff.mp (by omega)
    exact .inl ⟨bare, by simp [SendCall.event, Client.sentEvent, Client.frame, bare]⟩

/-- What a receiver is told of a call. -/
structure SendCall.Delivers (sender : Client) (call : SendCall) (event : Event) : Prop where
  kind : event.frame.eventKind = call.kind
  correlation : event.frame.correlationId = call.correlation
  pattern : event.frame.hdrFlags &&& fPatternMask = call.pattern
  more : event.frame.has fMore = call.more
  handle : event.frame.srcHandle = sender.handle
  payload : event.payload = call.payload

theorem SendCall.delivers (sender : Client) (call : SendCall) :
    call.Delivers sender (call.event sender) := by
  obtain ⟨pattern, inlinePattern, more, inlineMore, -⟩ := call.flags_read
  by_cases present : call.payload.length > 0
  · constructor <;> simp only [SendCall.event, Client.sentEvent, Client.frame, if_pos present]
    · exact inlinePattern
    · exact inlineMore
  · constructor <;> simp only [SendCall.event, Client.sentEvent, Client.frame, if_neg present]
    · exact pattern
    · exact more

theorem fillSlot_carries {frame : Frame} {payload slot filled : Bytes}
    (written : Client.fillSlot frame payload slot = .ok filled)
    (fits : hdrLen + payload.length ≤ slot.length) :
    frame.validate = .ok ∧ filled.length = slot.length ∧
      ∃ rest, filled = frame.header ++ payload ++ rest := by
  have long : ¬ slot.length < hdrLen := by omega
  by_cases valid : frame.validate = .ok
  · have header : (patch slot 0 frame.header).length = slot.length :=
      length_patch (by rw [Frame.length_header]; omega)
    have copied : payload.take (slot.length - hdrLen) = payload :=
      List.take_of_length_le (by omega)
    simp only [Client.fillSlot, Frame.encode, if_neg long, valid, bne_self_eq_false,
      Bool.false_eq_true, if_false, header, copied] at written
    obtain rfl := Except.ok.inj written
    refine ⟨valid, ?_, slot.drop (hdrLen + payload.length), ?_⟩
    · rw [length_patch (by rw [header]; exact fits), header]
    · have joined := patch_patch slot frame.header payload
      rwa [Frame.length_header] at joined
  · have refused : frame.encode slot = (0, slot) := by simp [Frame.encode, long, valid]
    simp [Client.fillSlot, refused, hdrLen] at written

theorem Client.admits_fits {epoch : UInt64} {payload : Bytes}
    (admitted : sender.admits epoch payload = .ok ()) (room : hdrLen ≤ sender.slotSize.toNat) :
    hdrLen + payload.length ≤ sender.slotSize.toNat := by
  by_cases present : 0 < payload.length
  · by_contra large
    have tooLong : hdrLen + payload.length > sender.slotSize.toNat := not_le.mp large
    simp only [Client.admits, present, tooLong, decide_true, Bool.or_true, Bool.and_true,
      gt_iff_lt] at admitted
    split at admitted <;> cases admitted
  · omega

end Slots

section Invariant

/-- The bytes a commit publishes. -/
def Commit.Fills (sender : Client) : Commit → Bytes → Prop
  | .send call, content =>
      (call.event sender).frame.validate = .ok ∧ call.payload.length < 2 ^ 32 ∧
        Carries content (call.event sender)
  | .foreign spoiled, content => content = spoiled ∧ (decode content {}).1 ≠ .ok

/-- A commit that passed the checks in front of the ring. -/
def Commit.Admitted (sender : Client) : Commit → Prop
  | .send call => hdrLen + call.payload.length ≤ sender.slotSize.toNat
  | .foreign content =>
      content.length = sender.outbound.slotSize.toNat ∧ (decode content {}).1 ≠ .ok

/-- What the receiver makes of a commit: an event, or a slot it skips. -/
def Commit.Taken (sender : Client) : Commit → Option Event → Prop
  | .send call, some event => call.Delivers sender event
  | .foreign _, none => True
  | _, _ => False

/-- The commits of a history, oldest first. -/
def commitsOf (outputs : List ChannelOutput) : List Commit :=
  outputs.filterMap fun
    | .committed what => some what
    | _ => none

/-- What the receiver consumed, oldest first. -/
def receivedSlots (outputs : List ChannelOutput) : List (Option Event) :=
  outputs.filterMap fun
    | .polled (.received event) => some (some event)
    | .skipped => some none
    | _ => none

variable (sender : Client) (first : Nat)

/-- What a publishing call has established. -/
def SenderOk (published released : Nat) (mem : Bytes) : SenderPc → Prop
  | .idle => True
  | .entered what => what.Admitted sender
  | .begun what head => what.Admitted sender ∧ head = UInt64.ofNat (first + published)
  | .filling what head =>
      what.Admitted sender ∧ head = UInt64.ofNat (first + published) ∧
        published < released + sender.outbound.capacity.toNat
  | .filled what head =>
      head = UInt64.ofNat (first + published) ∧
        published < released + sender.outbound.capacity.toNat ∧
        what.Fills sender (sender.outbound.slot mem head)
  | .committing what head loaded =>
      head = UInt64.ofNat (first + published) ∧
        published < released + sender.outbound.capacity.toNat ∧
        what.Fills sender (sender.outbound.slot mem head) ∧ loaded = head

/-- What a Poll has established. -/
def ReceiverOk (sent : List Commit) (released : Nat) (pendingRead : Bool) : ReceiverPc → Prop
  | .idle => True
  | .entered => pendingRead = true
  | .releasing loaded => pendingRead = true ∧ loaded = UInt64.ofNat (first + released)
  | .looking => pendingRead = false
  | .begun tail => pendingRead = false ∧ tail = UInt64.ofNat (first + released)
  | .reading tail =>
      pendingRead = false ∧ tail = UInt64.ofNat (first + released) ∧ released < sent.length
  | .spoiled => pendingRead = false ∧ ∃ content, sent[released]? = some (.foreign content)
  | .skipping loaded =>
      pendingRead = false ∧ loaded = UInt64.ofNat (first + released) ∧
        ∃ content, sent[released]? = some (.foreign content)

/-- The queue a channel holds: what was sent, what of it was taken, and how many
slots were given back. -/
structure ChannelInv (stream : List Bytes) (sent : List Commit) (taken : List (Option Event))
    (released : Nat) (state : Channel) : Prop where
  ring : RingInv sender.outbound first stream (List.replicate released [])
    ⟨state.mem, .idle, .idle⟩
  fills : List.Forall₂ (Commit.Fills sender) sent stream
  counted : taken.length = released + state.pendingRead.toNat
  within : taken.length ≤ sent.length
  matched : List.Forall₂ (Commit.Taken sender) (sent.take taken.length) taken
  held : state.pendingRead = true → ∃ call, sent[released]? = some (.send call) ∧
    taken[released]? = some (some (call.event sender))
  sending : SenderOk sender first sent.length released state.mem state.sender
  receiving : ReceiverOk first sent released state.pendingRead state.receiver

/-- Two clients on one ring that nothing was sent over yet. -/
structure Facing (receiver : Client) (mem : Bytes) : Prop where
  ring : attachRing mem = .ok sender.outbound
  shared : receiver.inbound = sender.outbound
  sized : sender.outbound.slotSize = sender.slotSize
  same : receiver.slotSize = sender.slotSize
  room : hdrLen ≤ sender.slotSize.toNat
  empty : Ring.head mem = Ring.tail mem

end Invariant

section Steps

variable {sender receiver : Client} {first : Nat} {stream : List Bytes} {sent : List Commit}
  {taken : List (Option Event)} {released : Nat} {state : Channel}

theorem ChannelInv.length (inv : ChannelInv sender first stream sent taken released state) :
    sent.length = stream.length := inv.fills.length_eq

theorem ChannelInv.withSender (inv : ChannelInv sender first stream sent taken released state)
    {pc : SenderPc} (sending : SenderOk sender first sent.length released state.mem pc) :
    ChannelInv sender first stream sent taken released { state with sender := pc } :=
  { inv with sending := sending }

theorem ChannelInv.withReceiver (inv : ChannelInv sender first stream sent taken released state)
    {pc : ReceiverPc} (receiving : ReceiverOk first sent released state.pendingRead pc) :
    ChannelInv sender first stream sent taken released { state with receiver := pc } :=
  { inv with receiving := receiving }

theorem ChannelInv.head (inv : ChannelInv sender first stream sent taken released state) :
    Ring.head state.mem = UInt64.ofNat (first + sent.length) := by
  rw [inv.length]
  exact inv.ring.head

theorem ChannelInv.tail (inv : ChannelInv sender first stream sent taken released state) :
    Ring.tail state.mem = UInt64.ofNat (first + released) := by
  simpa using inv.ring.tail

theorem ChannelInv.fill (inv : ChannelInv sender first stream sent taken released state)
    {what : Commit} {head : UInt64} {content : Bytes}
    (filling : state.sender = .filling what head)
    (sized : content.length = sender.outbound.slotSize.toNat)
    (fills : what.Fills sender content) :
    ChannelInv sender first stream sent taken released
      { state with
        mem := patch state.mem (sender.outbound.slotOffset head) content
        sender := .filled what head } := by
  have sending := inv.sending
  rw [filling] at sending
  obtain ⟨-, rfl, room⟩ := sending
  have ready := inv.ring.withPcs (.filling (UInt64.ofNat (first + sent.length))) .idle
    ⟨by rw [inv.length], by rw [← inv.length]; simpa using room⟩ trivial
  have stored : RingInv sender.outbound first stream (List.replicate released [])
      ⟨sender.outbound.storeSlot state.mem (UInt64.ofNat (first + sent.length)) 0 content, .idle,
        .idle⟩ :=
    (@RingInv.fill _ _ _ _ _ ready _ rfl 0 content (by omega)).withPcs .idle .idle trivial trivial
  rw [Ring.storeSlot, Nat.add_zero] at stored
  have bounds := (Ring.slot_bounds inv.ring.fits (first + sent.length)).2
  refine { inv with ring := stored, sending := ⟨rfl, room, ?_⟩ }
  have same : sender.outbound.slot
      (patch state.mem (sender.outbound.slotOffset (UInt64.ofNat (first + sent.length))) content)
      (UInt64.ofNat (first + sent.length)) = content := by
    rw [Ring.slot, ← sized]
    exact window_patch_same (by rw [sized]; exact bounds)
  rw [same]
  exact fills

theorem ReceiverOk.append {pendingRead : Bool} {pc : ReceiverPc}
    (valid : ReceiverOk first sent released pendingRead pc) (what : Commit) :
    ReceiverOk first (sent ++ [what]) released pendingRead pc := by
  have kept : ∀ content, sent[released]? = some (Commit.foreign content) →
      (sent ++ [what])[released]? = some (.foreign content) := fun _ found =>
    (List.getElem?_append_left (List.getElem?_eq_some_iff.mp found).1).trans found
  cases pc with
  | reading tail =>
      obtain ⟨idle, index, unread⟩ := valid
      exact ⟨idle, index, by rw [List.length_append]; omega⟩
  | spoiled =>
      obtain ⟨idle, content, found⟩ := valid
      exact ⟨idle, content, kept content found⟩
  | skipping loaded =>
      obtain ⟨idle, index, content, found⟩ := valid
      exact ⟨idle, index, content, kept content found⟩
  | _ => exact valid

theorem Commit.filled {what : Commit} {mem slot content : Bytes} (admitted : what.Admitted sender)
    (faced : Facing sender receiver mem)
    (sized : slot.length = sender.outbound.slotSize.toNat)
    (written : what.fill sender slot = .ok content) :
    content.length = sender.outbound.slotSize.toNat ∧ what.Fills sender content := by
  cases what with
  | send call =>
      have fits : hdrLen + call.payload.length ≤ slot.length := by
        rw [sized, faced.sized]
        exact admitted
      obtain ⟨valid, length, carries⟩ := fillSlot_carries written fits
      have word := sender.outbound.slotSize.toNat_lt
      exact ⟨length.trans sized, valid, by omega, carries⟩
  | foreign spoiled =>
      obtain rfl := Except.ok.inj written
      exact ⟨admitted.1, rfl, admitted.2⟩

theorem ChannelInv.commit (inv : ChannelInv sender first stream sent taken released state)
    {what : Commit} {head loaded : UInt64} (committing : state.sender = .committing what head loaded) :
    ChannelInv sender first (stream ++ [sender.outbound.slot state.mem head]) (sent ++ [what]) taken
      released { state with mem := Ring.storeHead state.mem (loaded + 1), sender := .idle } := by
  have sending := inv.sending
  rw [committing] at sending
  obtain ⟨rfl, room, fills, rfl⟩ := sending
  have ready := inv.ring.withPcs (.committing _ (UInt64.ofNat (first + sent.length))) .idle
    ⟨by rw [inv.length], by rw [← inv.length]; simpa using room, rfl⟩ trivial
  have within := inv.within
  refine
    { ring := ready.publish rfl
      fills := List.rel_append inv.fills (.cons fills .nil)
      counted := inv.counted
      within := by rw [List.length_append]; omega
      matched := by
        rw [List.take_append_of_le_length within]
        exact inv.matched
      held := fun pending => ?_
      sending := trivial
      receiving := ?_ }
  · obtain ⟨call, found, took⟩ := inv.held pending
    exact ⟨call, List.getElem?_append_left (List.getElem?_eq_some_iff.mp found).1 ▸ found, took⟩
  · exact inv.receiving.append what

theorem ChannelInv.oldest (inv : ChannelInv sender first stream sent taken released state)
    {what : Commit} (found : sent[released]? = some what) :
    what.Fills sender (sender.outbound.slot state.mem (UInt64.ofNat (first + released))) := by
  obtain ⟨unread, same⟩ := List.getElem?_eq_some_iff.mp found
  have within : released < stream.length := inv.length ▸ unread
  have current := inv.ring.unread released (by simp) within
  rw [List.getElem?_eq_getElem within] at current
  rw [← Option.some.inj current, ← same]
  exact (List.forall₂_iff_get.mp inv.fills).2 released unread within

theorem ChannelInv.ringReleased (inv : ChannelInv sender first stream sent taken released state)
    (unread : released < sent.length) {loaded : UInt64}
    (current : loaded = UInt64.ofNat (first + released)) :
    RingInv sender.outbound first stream (List.replicate (released + 1) [])
      ⟨Ring.storeTail state.mem (loaded + 1), .idle, .idle⟩ := by
  have unread : released < stream.length := inv.length ▸ unread
  have ready := inv.ring.withPcs .idle (.committing loaded loaded []) trivial
    ⟨by simpa using current, rfl, _, by
      rw [List.length_replicate]
      exact List.getElem?_eq_getElem unread, by intro access member; cases member⟩
  rw [List.replicate_succ']
  exact ready.release rfl

theorem SenderOk.release {published : Nat} {mem : Bytes} {pc : SenderPc}
    (fits : sender.outbound.Fits mem.length) (value : UInt64)
    (valid : SenderOk sender first published released mem pc) :
    SenderOk sender first published (released + 1) (Ring.storeTail mem value) pc := by
  cases pc with
  | idle => trivial
  | entered what => exact valid
  | begun what head => exact valid
  | filling what head =>
      obtain ⟨admitted, index, room⟩ := valid
      exact ⟨admitted, index, by omega⟩
  | filled what head =>
      obtain ⟨rfl, room, fills⟩ := valid
      exact ⟨rfl, by omega, by rwa [Ring.slot_storeTail fits]⟩
  | committing what head loaded =>
      obtain ⟨rfl, room, fills, same⟩ := valid
      exact ⟨rfl, by omega, by rwa [Ring.slot_storeTail fits], same⟩

theorem ChannelInv.take (inv : ChannelInv sender first stream sent taken released state)
    (idle : state.pendingRead = false) {what : Commit} {found : Option Event}
    (oldest : sent[released]? = some what) (agree : what.Taken sender found) :
    (taken ++ [found]).length = released + 1 ∧ (taken ++ [found]).length ≤ sent.length ∧
      List.Forall₂ (Commit.Taken sender) (sent.take (taken ++ [found]).length) (taken ++ [found]) := by
  have counted : taken.length = released := by simpa [idle] using inv.counted
  have unread := (List.getElem?_eq_some_iff.mp oldest).1
  refine ⟨by simp [counted], by simp [counted]; omega, ?_⟩
  rw [List.length_append, List.length_singleton, List.take_add_one, counted, oldest]
  exact List.rel_append (counted ▸ inv.matched) (.cons agree .nil)

theorem ChannelInv.receive (inv : ChannelInv sender first stream sent taken released state)
    (idle : state.pendingRead = false) {call : SendCall}
    (oldest : sent[released]? = some (.send call)) :
    ChannelInv sender first stream sent (taken ++ [some (call.event sender)]) released
      { state with receiver := .idle, pendingRead := true } := by
  have agree : (Commit.send call).Taken sender (some (call.event sender)) := call.delivers sender
  obtain ⟨counted, within, matched⟩ := inv.take idle oldest agree
  have position : taken.length = released := by simpa [idle] using inv.counted
  exact { inv with
    counted := counted
    within := within
    matched := matched
    held := fun _ => ⟨call, oldest, by rw [← position, List.getElem?_concat_length]⟩
    receiving := trivial }

theorem ChannelInv.skip (inv : ChannelInv sender first stream sent taken released state)
    {loaded : UInt64} (skipping : state.receiver = .skipping loaded) :
    ChannelInv sender first stream sent (taken ++ [none]) (released + 1)
      { state with mem := Ring.storeTail state.mem (loaded + 1), receiver := .idle } := by
  have receiving := inv.receiving
  rw [skipping] at receiving
  obtain ⟨idle, current, content, oldest⟩ := receiving
  have agree : (Commit.foreign content).Taken sender none := trivial
  obtain ⟨counted, within, matched⟩ := inv.take idle oldest agree
  exact
    { ring := inv.ringReleased (List.getElem?_eq_some_iff.mp oldest).1 current
      fills := inv.fills
      counted := by simpa [idle] using counted
      within := within
      matched := matched
      held := fun pending => absurd (idle.symm.trans pending) nofun
      sending := inv.sending.release inv.ring.fits _
      receiving := trivial }

theorem ChannelInv.release (inv : ChannelInv sender first stream sent taken released state)
    {loaded : UInt64} (releasing : state.receiver = .releasing loaded) :
    ChannelInv sender first stream sent taken (released + 1)
      { state with
        mem := Ring.storeTail state.mem (loaded + 1), receiver := .looking, pendingRead := false } := by
  have receiving := inv.receiving
  rw [releasing] at receiving
  obtain ⟨pending, current⟩ := receiving
  have counted : taken.length = released + 1 := by simpa [pending] using inv.counted
  have within := inv.within
  exact
    { ring := inv.ringReleased (by omega) current
      fills := inv.fills
      counted := counted
      within := within
      matched := inv.matched
      held := nofun
      sending := inv.sending.release inv.ring.fits _
      receiving := rfl }

theorem ChannelInv.read (inv : ChannelInv sender first stream sent taken released state)
    {mem : Bytes} (faced : Facing sender receiver mem) (unread : released < sent.length) :
    (∃ call, sent[released]? = some (.send call) ∧
        receiver.readSlot state.mem
          (receiver.inbound.slotOffset (UInt64.ofNat (first + released))) =
            .received (call.event sender)) ∨
      ∃ content, sent[released]? = some (.foreign content) ∧
        receiver.readSlot state.mem
          (receiver.inbound.slotOffset (UInt64.ofNat (first + released))) = .empty := by
  have fills := inv.oldest (List.getElem?_eq_getElem unread)
  have bounds := (Ring.slot_bounds inv.ring.fits (first + released)).2
  have sized : receiver.inbound.slotSize = receiver.slotSize := by
    rw [faced.shared, faced.sized, faced.same]
  have mapped : receiver.inbound.slotOffset (UInt64.ofNat (first + released)) +
      receiver.slotSize.toNat ≤ state.mem.length := by
    rw [← sized, faced.shared]
    exact bounds
  have slot : sender.outbound.slot state.mem (UInt64.ofNat (first + released)) =
      window state.mem (receiver.inbound.slotOffset (UInt64.ofNat (first + released)))
        receiver.inbound.slotSize.toNat := by
    rw [faced.shared, Ring.slot]
  rw [slot] at fills
  cases oldest : sent[released] with
  | send call =>
      rw [oldest] at fills
      obtain ⟨valid, small, carries⟩ := fills
      refine .inl ⟨call, by rw [List.getElem?_eq_getElem unread, oldest], ?_⟩
      exact Client.readSlot_placed valid (call.event_placed small) sized mapped carries
  | foreign spoiled =>
      rw [oldest] at fills
      refine .inr ⟨spoiled, by rw [List.getElem?_eq_getElem unread, oldest], ?_⟩
      have undecoded := fills.2
      simp only [Client.readSlot]
      split
      · rename_i frame decoded
        rw [decoded] at undecoded
        exact absurd rfl undecoded
      · rfl

variable {next : Channel} {action : ChannelAction} {emitted : List ChannelOutput} {mem : Bytes}

theorem receivedSlots_refused (what : Commit) (failure : BusError) :
    receivedSlots (what.refused failure) = [] ∧ commitsOf (what.refused failure) = [] := by
  cases what <;> exact ⟨rfl, rfl⟩

theorem senderStep_inv (inv : ChannelInv sender first stream sent taken released state)
    (faced : Facing sender receiver mem)
    (stepped : senderStep sender state action state.sender = some (next, emitted)) :
    receivedSlots emitted = [] ∧ ∃ added,
      ChannelInv sender first (stream ++ added) (sent ++ commitsOf emitted) taken released next := by
  have sending := inv.sending
  unfold senderStep at stepped
  split at stepped
  · rename_i epoch call idle
    split at stepped
    · obtain ⟨rfl, rfl⟩ := Prod.mk.inj (Option.some.inj stepped)
      exact ⟨rfl, [], by simpa [commitsOf] using inv⟩
    · split at stepped
      · obtain ⟨rfl, rfl⟩ := Prod.mk.inj (Option.some.inj stepped)
        exact ⟨rfl, [], by simpa [commitsOf] using inv⟩
      · rename_i admitted
        obtain ⟨rfl, rfl⟩ := Prod.mk.inj (Option.some.inj stepped)
        have fits : (Commit.send call).Admitted sender := Client.admits_fits admitted faced.room
        have entered : SenderOk sender first sent.length released state.mem
          (.entered (.send call)) := fits
        exact ⟨rfl, [], by simpa [commitsOf] using inv.withSender entered⟩
  · split at stepped
    · rename_i spoiled
      obtain ⟨rfl, rfl⟩ := Prod.mk.inj (Option.some.inj stepped)
      have entered : SenderOk sender first sent.length released state.mem
        (.entered (.foreign _)) := spoiled
      exact ⟨rfl, [], by simpa [commitsOf] using inv.withSender entered⟩
    · cases stepped
  · rename_i what entered
    obtain ⟨rfl, rfl⟩ := Prod.mk.inj (Option.some.inj stepped)
    rw [entered] at sending
    have begun : SenderOk sender first sent.length released state.mem
      (.begun what (Ring.head state.mem)) := ⟨sending, inv.head⟩
    exact ⟨rfl, [], by simpa [commitsOf] using inv.withSender begun⟩
  · rename_i what head begun
    rw [begun] at sending
    obtain ⟨admitted, rfl⟩ := sending
    split at stepped
    · obtain ⟨rfl, rfl⟩ := Prod.mk.inj (Option.some.inj stepped)
      obtain ⟨untaken, uncommitted⟩ := receivedSlots_refused what .errWouldBlock
      rw [untaken, uncommitted]
      exact ⟨rfl, [], by simpa using @ChannelInv.withSender _ _ _ _ _ _ _ inv .idle trivial⟩
    · rename_i room
      obtain ⟨rfl, rfl⟩ := Prod.mk.inj (Option.some.inj stepped)
      rw [inv.length] at room
      have space := inv.ring.room room
      rw [List.length_replicate, ← inv.length] at space
      have filling : SenderOk sender first sent.length released state.mem
        (.filling what (UInt64.ofNat (first + sent.length))) := ⟨admitted, rfl, space⟩
      exact ⟨rfl, [], by simpa [commitsOf] using inv.withSender filling⟩
  · rename_i what head filling
    have pending := sending
    rw [filling] at pending
    obtain ⟨admitted, current, -⟩ := pending
    split at stepped
    · rename_i failure refused
      obtain ⟨rfl, rfl⟩ := Prod.mk.inj (Option.some.inj stepped)
      obtain ⟨untaken, uncommitted⟩ := receivedSlots_refused what failure
      rw [untaken, uncommitted]
      exact ⟨rfl, [], by simpa using @ChannelInv.withSender _ _ _ _ _ _ _ inv .idle trivial⟩
    · rename_i content written
      obtain ⟨rfl, rfl⟩ := Prod.mk.inj (Option.some.inj stepped)
      obtain ⟨sized, fills⟩ := what.filled admitted faced
        (Ring.length_slot inv.ring.fits rfl (first + sent.length)) (current ▸ written)
      exact ⟨rfl, [], by simpa [commitsOf] using inv.fill filling sized fills⟩
  · rename_i what head filled
    obtain ⟨rfl, rfl⟩ := Prod.mk.inj (Option.some.inj stepped)
    rw [filled] at sending
    obtain ⟨current, room, fills⟩ := sending
    have committing : SenderOk sender first sent.length released state.mem
      (.committing what head (Ring.head state.mem)) := ⟨current, room, fills, inv.head.trans current.symm⟩
    exact ⟨rfl, [], by simpa [commitsOf] using inv.withSender committing⟩
  · rename_i what head loaded committing
    obtain ⟨rfl, rfl⟩ := Prod.mk.inj (Option.some.inj stepped)
    exact ⟨rfl, _, inv.commit committing⟩
  · cases stepped

/-- The call has written its slot, so it will commit. -/
def SenderPc.Wrote : SenderPc → Prop
  | .filled _ _ | .committing _ _ _ => True
  | _ => False

theorem senderStep_writes
    (stepped : senderStep sender state action state.sender = some (next, emitted)) :
    (∃ what failure, emitted = Commit.refused failure what ∧ next.mem = state.mem ∧
        ¬ state.sender.Wrote) ∨
      (emitted = [] ∧ (next.mem = state.mem ∨ next.sender.Wrote)) ∨
      ∃ what, emitted = [.committed what] := by
  unfold senderStep at stepped
  split at stepped
  · rename_i epoch call idle
    split at stepped
    · obtain ⟨rfl, rfl⟩ := Prod.mk.inj (Option.some.inj stepped)
      exact .inl ⟨.send call, _, rfl, rfl, by rw [idle]; exact id⟩
    · split at stepped
      · obtain ⟨rfl, rfl⟩ := Prod.mk.inj (Option.some.inj stepped)
        exact .inl ⟨.send call, _, rfl, rfl, by rw [idle]; exact id⟩
      · obtain ⟨rfl, rfl⟩ := Prod.mk.inj (Option.some.inj stepped)
        exact .inr (.inl ⟨rfl, .inl rfl⟩)
  · split at stepped
    · obtain ⟨rfl, rfl⟩ := Prod.mk.inj (Option.some.inj stepped)
      exact .inr (.inl ⟨rfl, .inl rfl⟩)
    · cases stepped
  · obtain ⟨rfl, rfl⟩ := Prod.mk.inj (Option.some.inj stepped)
    exact .inr (.inl ⟨rfl, .inl rfl⟩)
  · rename_i what head begun
    split at stepped
    · obtain ⟨rfl, rfl⟩ := Prod.mk.inj (Option.some.inj stepped)
      exact .inl ⟨what, _, rfl, rfl, by rw [begun]; exact id⟩
    · obtain ⟨rfl, rfl⟩ := Prod.mk.inj (Option.some.inj stepped)
      exact .inr (.inl ⟨rfl, .inl rfl⟩)
  · rename_i what head filling
    split at stepped
    · obtain ⟨rfl, rfl⟩ := Prod.mk.inj (Option.some.inj stepped)
      exact .inl ⟨what, _, rfl, rfl, by rw [filling]; exact id⟩
    · obtain ⟨rfl, rfl⟩ := Prod.mk.inj (Option.some.inj stepped)
      exact .inr (.inl ⟨rfl, .inr trivial⟩)
  · obtain ⟨rfl, rfl⟩ := Prod.mk.inj (Option.some.inj stepped)
    exact .inr (.inl ⟨rfl, .inl rfl⟩)
  · obtain ⟨rfl, rfl⟩ := Prod.mk.inj (Option.some.inj stepped)
    exact .inr (.inr ⟨_, rfl⟩)
  · cases stepped

theorem senderStep_unpolled
    (stepped : senderStep sender state action state.sender = some (next, emitted))
    (outcome : Client.PollOutcome) : .polled outcome ∉ emitted := by
  rcases senderStep_writes stepped with ⟨what, failure, rfl, -⟩ | ⟨rfl, -⟩ | ⟨what, rfl⟩
  · cases what <;> simp [Commit.refused]
  · simp
  · simp

/-- What a receiver on a sound ring may report. -/
def ChannelOutput.Calm : ChannelOutput → Prop
  | .skipped => True
  | .polled outcome => outcome ≠ .panicked
  | _ => False

theorem receiverStep_inv (inv : ChannelInv sender first stream sent taken released state)
    (faced : Facing sender receiver mem)
    (stepped : receiverStep receiver state action state.receiver = some (next, emitted)) :
    commitsOf emitted = [] ∧ (∀ output ∈ emitted, output.Calm) ∧ ∃ freed,
      ChannelInv sender first stream sent (taken ++ receivedSlots emitted) freed next := by
  have receiving := inv.receiving
  rcases receiverStep_enabled receiver state stepped with ⟨epoch, rfl, idle⟩ | ⟨rfl, entered⟩ |
    ⟨loaded, rfl, releasing⟩ | ⟨rfl, looking⟩ | ⟨tail, rfl, begun⟩ | ⟨tail, rfl, reading⟩ |
    ⟨rfl, spoiled⟩ | ⟨loaded, rfl, skipping⟩
  · rw [idle, receiverStep_poll] at stepped
    split at stepped
    · obtain ⟨rfl, rfl⟩ := Prod.mk.inj (Option.some.inj stepped)
      exact ⟨rfl, by simp [ChannelOutput.Calm], _, by simpa [receivedSlots] using inv⟩
    · split at stepped
      · obtain ⟨rfl, rfl⟩ := Prod.mk.inj (Option.some.inj stepped)
        exact ⟨rfl, by simp [ChannelOutput.Calm], _, by simpa [receivedSlots] using inv⟩
      · obtain ⟨rfl, rfl⟩ := Prod.mk.inj (Option.some.inj stepped)
        have entered : ReceiverOk first sent released state.pendingRead
            (if state.pendingRead then .entered else .looking) := by
          cases pending : state.pendingRead <;> simp [ReceiverOk]
        exact ⟨rfl, by simp [ChannelOutput.Calm], _, by simpa [receivedSlots] using inv.withReceiver entered⟩
  · rw [entered, receiverStep_releaseLoadTail] at stepped
    obtain ⟨rfl, rfl⟩ := Prod.mk.inj (Option.some.inj stepped)
    rw [entered] at receiving
    have releasing : ReceiverOk first sent released state.pendingRead
      (.releasing (Ring.tail state.mem)) := ⟨receiving, inv.tail⟩
    exact ⟨rfl, by simp [ChannelOutput.Calm], _, by simpa [receivedSlots] using inv.withReceiver releasing⟩
  · rw [releasing, receiverStep_releaseStoreTail] at stepped
    obtain ⟨rfl, rfl⟩ := Prod.mk.inj (Option.some.inj stepped)
    exact ⟨rfl, by simp [ChannelOutput.Calm], _, by simpa [receivedSlots] using inv.release releasing⟩
  · rw [looking, receiverStep_consumeLoadTail] at stepped
    obtain ⟨rfl, rfl⟩ := Prod.mk.inj (Option.some.inj stepped)
    rw [looking] at receiving
    have begun : ReceiverOk first sent released state.pendingRead
      (.begun (Ring.tail state.mem)) := ⟨receiving, inv.tail⟩
    exact ⟨rfl, by simp [ChannelOutput.Calm], _, by simpa [receivedSlots] using inv.withReceiver begun⟩
  · rw [begun, receiverStep_consumeLoadHead] at stepped
    rw [begun] at receiving
    obtain ⟨idle, rfl⟩ := receiving
    split at stepped
    · obtain ⟨rfl, rfl⟩ := Prod.mk.inj (Option.some.inj stepped)
      exact ⟨rfl, by simp [ChannelOutput.Calm], _, by
        simpa [receivedSlots] using @ChannelInv.withReceiver _ _ _ _ _ _ _ inv .idle trivial⟩
    · rename_i different
      obtain ⟨rfl, rfl⟩ := Prod.mk.inj (Option.some.inj stepped)
      have nonempty := inv.ring.nonempty (by rwa [List.length_replicate])
      rw [List.length_replicate, ← inv.length] at nonempty
      have reading : ReceiverOk first sent released state.pendingRead
        (.reading (UInt64.ofNat (first + released))) := ⟨idle, rfl, nonempty⟩
      exact ⟨rfl, by simp [ChannelOutput.Calm], _, by simpa [receivedSlots] using inv.withReceiver reading⟩
  · rw [reading, receiverStep_read] at stepped
    rw [reading] at receiving
    obtain ⟨idle, rfl, unread⟩ := receiving
    rcases inv.read faced unread with ⟨call, oldest, read⟩ | ⟨content, oldest, read⟩
    · simp only [read, Option.some.injEq, Prod.mk.injEq] at stepped
      obtain ⟨rfl, rfl⟩ := stepped
      exact ⟨rfl, by simp [ChannelOutput.Calm], _, inv.receive idle oldest⟩
    · simp only [read, Option.some.injEq, Prod.mk.injEq] at stepped
      obtain ⟨rfl, rfl⟩ := stepped
      have spoiled : ReceiverOk first sent released state.pendingRead .spoiled :=
        ⟨idle, content, oldest⟩
      exact ⟨rfl, by simp [ChannelOutput.Calm], _, by simpa [receivedSlots] using inv.withReceiver spoiled⟩
  · rw [spoiled, receiverStep_skipLoadTail] at stepped
    obtain ⟨rfl, rfl⟩ := Prod.mk.inj (Option.some.inj stepped)
    rw [spoiled] at receiving
    obtain ⟨idle, content, oldest⟩ := receiving
    have skipping : ReceiverOk first sent released state.pendingRead
      (.skipping (Ring.tail state.mem)) := ⟨idle, inv.tail, content, oldest⟩
    exact ⟨rfl, by simp [ChannelOutput.Calm], _, by simpa [receivedSlots] using inv.withReceiver skipping⟩
  · rw [skipping, receiverStep_skipStoreTail] at stepped
    obtain ⟨rfl, rfl⟩ := Prod.mk.inj (Option.some.inj stepped)
    exact ⟨rfl, by simp [ChannelOutput.Calm], _, inv.skip skipping⟩

end Steps

section Runs

variable {sender receiver : Client} {mem : Bytes} {actions : List ChannelAction}
  {state next : Channel} {outputs emitted : List ChannelOutput} {action : ChannelAction}

theorem channelInv_initial (faced : Facing sender receiver mem) :
    ChannelInv sender (Ring.tail mem).toNat [] [] [] 0 (.initial mem) := by
  have bare : unreadSlots sender.outbound mem = [] := by
    simp [unreadSlots, Ring.count, faced.empty]
  have ring := ringInv_initial faced.ring
  rw [bare] at ring
  exact
    { ring := ring
      fills := .nil
      counted := rfl
      within := Nat.le_refl _
      matched := .nil
      held := fun pending => absurd pending Bool.false_ne_true
      sending := trivial
      receiving := trivial }

theorem commitsOf_append (first second : List ChannelOutput) :
    commitsOf (first ++ second) = commitsOf first ++ commitsOf second :=
  List.filterMap_append

theorem receivedSlots_append (first second : List ChannelOutput) :
    receivedSlots (first ++ second) = receivedSlots first ++ receivedSlots second :=
  List.filterMap_append

theorem channelStep_inv {first : Nat} {stream : List Bytes} {sent : List Commit}
    {taken : List (Option Event)} {released : Nat} (faced : Facing sender receiver mem)
    (inv : ChannelInv sender first stream sent taken released state)
    (stepped : channelStep sender receiver state action = some (next, emitted)) :
    .polled .panicked ∉ emitted ∧ ∃ added freed,
      ChannelInv sender first (stream ++ added) (sent ++ commitsOf emitted)
        (taken ++ receivedSlots emitted) freed next := by
  unfold channelStep at stepped
  split at stepped
  · obtain ⟨untaken, added, after⟩ := senderStep_inv inv faced stepped
    rw [untaken, List.append_nil]
    exact ⟨senderStep_unpolled stepped _, added, released, after⟩
  · obtain ⟨uncommitted, calm, freed, after⟩ := receiverStep_inv inv faced stepped
    rw [uncommitted, List.append_nil]
    exact ⟨fun crashed => calm _ crashed rfl, [], freed, by rwa [List.append_nil]⟩

theorem channelInv_run (faced : Facing sender receiver mem)
    (run : (channelMachine sender receiver).Run (.initial mem) actions state outputs) :
    .polled .panicked ∉ outputs ∧ ∃ stream released,
      ChannelInv sender (Ring.tail mem).toNat stream (commitsOf outputs) (receivedSlots outputs) released
        state := by
  induction run with
  | nil => exact ⟨by simp, [], 0, channelInv_initial faced⟩
  | snoc before stepped ih =>
      obtain ⟨intact, stream, released, inv⟩ := ih
      obtain ⟨sound, added, freed, after⟩ := channelStep_inv faced inv stepped
      rw [commitsOf_append, receivedSlots_append]
      exact ⟨by simp [intact, sound], _, _, after⟩

/-- The messages of a channel after a history from an empty ring. -/
structure ChannelFaithful (sender receiver : Client) (state : Channel)
    (outputs : List ChannelOutput) : Prop where
  within : (receivedSlots outputs).length ≤ (commitsOf outputs).length
  /-- What was taken is what was committed, one for one from the front. -/
  inOrder : List.Forall₂ (Commit.Taken sender)
    ((commitsOf outputs).take (receivedSlots outputs).length) (receivedSlots outputs)
  intact : .polled .panicked ∉ outputs
  /-- The rest is still in the ring, with the slot the receiver looks at. -/
  waiting : (Ring.count state.mem).toNat + (receivedSlots outputs).length =
    (commitsOf outputs).length + state.pendingRead.toNat
  /-- The payload handed out last stands where the event points to. -/
  held : state.pendingRead = true → ∃ earlier event, receivedSlots outputs = earlier ++ [some event] ∧
    window state.mem (receiver.inbound.slotOffset (Ring.tail state.mem) + hdrLen)
      event.payload.length = event.payload

/-- What the next access of either side does to the messages. -/
structure ChannelStepSound (sender : Client) (state : Channel) (outputs : List ChannelOutput)
    (action : ChannelAction) (next : Channel) (emitted : List ChannelOutput) : Prop where
  refused : ∀ call failure, .refused call failure ∈ emitted →
    next.mem = state.mem ∧ ¬ state.sender.Wrote
  unwritten : action.sends = true → next.mem = state.mem ∨ next.sender.Wrote ∨
    ∃ what, emitted = [.committed what]
  /-- An access of the sender leaves the tail and every committed slot alone. -/
  shielded : action.sends = true → Ring.tail next.mem = Ring.tail state.mem ∧
    ∃ added, unreadSlots sender.outbound next.mem = unreadSlots sender.outbound state.mem ++ added ∧
      added.length = (commitsOf emitted).length
  /-- A Poll finds nothing only when everything committed was taken. -/
  drained : .polled .empty ∈ emitted → .skipped ∈ emitted ∨
    (receivedSlots outputs).length = (commitsOf outputs).length

theorem ChannelInv.faithful {first : Nat} {stream : List Bytes} {released : Nat}
    (inv : ChannelInv sender first stream (commitsOf outputs) (receivedSlots outputs) released state)
    (faced : Facing sender receiver mem) (intact : .polled .panicked ∉ outputs) :
    ChannelFaithful sender receiver state outputs := by
  have counted := inv.counted
  have occupied := inv.ring.count
  have length := inv.length
  have within := inv.within
  refine ⟨within, inv.matched, intact, ?_, fun pending => ?_⟩
  · rw [occupied, List.length_replicate]
    omega
  · obtain ⟨call, oldest, took⟩ := inv.held pending
    obtain ⟨-, -, rest, content⟩ := inv.oldest oldest
    have whole : (receivedSlots outputs).length = released + 1 := by simpa [pending] using counted
    have last : receivedSlots outputs = (receivedSlots outputs).take released ++ [some (call.event sender)] := by
      calc receivedSlots outputs
          = (receivedSlots outputs).take (released + 1) := (List.take_of_length_le (by omega)).symm
        _ = (receivedSlots outputs).take released ++ (receivedSlots outputs)[released]?.toList :=
            List.take_add_one
        _ = (receivedSlots outputs).take released ++ [some (call.event sender)] := by rw [took]; rfl
    refine ⟨_, _, last, ?_⟩
    have size := Ring.length_slot inv.ring.fits rfl (first + released)
    have cut : window (sender.outbound.slot state.mem (UInt64.ofNat (first + released))) hdrLen
        (call.event sender).payload.length = (call.event sender).payload := by
      rw [content, List.append_assoc, window_append_right (by simp), Frame.length_header,
        Nat.sub_self, window_append_left rfl]
    have inside : hdrLen + (call.event sender).payload.length ≤ sender.outbound.slotSize.toNat := by
      rw [← size, content]
      simp only [List.length_append, Frame.length_header]
      omega
    rw [Ring.slot, window_window inside] at cut
    rw [faced.shared, inv.tail]
    exact cut

theorem ChannelInv.drained {first : Nat} {stream : List Bytes} {released : Nat}
    (inv : ChannelInv sender first stream (commitsOf outputs) (receivedSlots outputs) released state)
    (stepped : receiverStep receiver state action state.receiver = some (next, emitted))
    (empty : .polled .empty ∈ emitted) :
    .skipped ∈ emitted ∨ (receivedSlots outputs).length = (commitsOf outputs).length := by
  have receiving := inv.receiving
  rcases receiverStep_enabled receiver state stepped with ⟨epoch, rfl, idle⟩ | ⟨rfl, entered⟩ |
    ⟨loaded, rfl, releasing⟩ | ⟨rfl, looking⟩ | ⟨tail, rfl, begun⟩ | ⟨tail, rfl, reading⟩ |
    ⟨rfl, spoiled⟩ | ⟨loaded, rfl, skipping⟩
  · rw [idle, receiverStep_poll] at stepped
    split at stepped
    · obtain ⟨-, rfl⟩ := Prod.mk.inj (Option.some.inj stepped)
      simp at empty
    · split at stepped <;>
        (obtain ⟨-, rfl⟩ := Prod.mk.inj (Option.some.inj stepped)
         simp at empty)
  · rw [entered, receiverStep_releaseLoadTail] at stepped
    obtain ⟨-, rfl⟩ := Prod.mk.inj (Option.some.inj stepped)
    cases empty
  · rw [releasing, receiverStep_releaseStoreTail] at stepped
    obtain ⟨-, rfl⟩ := Prod.mk.inj (Option.some.inj stepped)
    cases empty
  · rw [looking, receiverStep_consumeLoadTail] at stepped
    obtain ⟨-, rfl⟩ := Prod.mk.inj (Option.some.inj stepped)
    cases empty
  · rw [begun, receiverStep_consumeLoadHead] at stepped
    rw [begun] at receiving
    obtain ⟨idle, rfl⟩ := receiving
    split at stepped
    · rename_i same
      have counted : (receivedSlots outputs).length = released := by simpa [idle] using inv.counted
      have none : (Ring.count state.mem).toNat = 0 := by
        rw [Ring.count, same, inv.tail]
        simp
      have occupied : (Ring.count state.mem).toNat = _ := inv.ring.count
      have within := inv.within
      have length := inv.length
      rw [List.length_replicate] at occupied
      exact .inr (by omega)
    · obtain ⟨-, rfl⟩ := Prod.mk.inj (Option.some.inj stepped)
      cases empty
  · rw [reading, receiverStep_read] at stepped
    split at stepped
    · obtain ⟨-, rfl⟩ := Prod.mk.inj (Option.some.inj stepped)
      cases empty
    · rename_i other
      obtain ⟨-, rfl⟩ := Prod.mk.inj (Option.some.inj stepped)
      simp only [List.mem_singleton, ChannelOutput.polled.injEq] at empty
      exact absurd empty.symm other
  · rw [spoiled, receiverStep_skipLoadTail] at stepped
    obtain ⟨-, rfl⟩ := Prod.mk.inj (Option.some.inj stepped)
    cases empty
  · rw [skipping, receiverStep_skipStoreTail] at stepped
    obtain ⟨-, rfl⟩ := Prod.mk.inj (Option.some.inj stepped)
    exact .inl List.mem_cons_self

theorem ChannelInv.stepSound {first : Nat} {stream : List Bytes} {released : Nat}
    (inv : ChannelInv sender first stream (commitsOf outputs) (receivedSlots outputs) released state)
    (faced : Facing sender receiver mem)
    (stepped : channelStep sender receiver state action = some (next, emitted)) :
    ChannelStepSound sender state outputs action next emitted := by
  unfold channelStep at stepped
  split at stepped
  · rename_i sends
    have writes := senderStep_writes stepped
    refine ⟨fun call failure refused => ?_, fun _ => ?_, fun _ => ?_, fun empty =>
      absurd empty (senderStep_unpolled stepped _)⟩
    · rcases writes with ⟨what, cause, rfl, kept, early⟩ | ⟨rfl, -⟩ | ⟨what, rfl⟩
      · exact ⟨kept, early⟩
      · cases refused
      · simp at refused
    · rcases writes with ⟨what, cause, rfl, kept, early⟩ | ⟨rfl, kept | wrote⟩ | ⟨what, rfl⟩
      · exact .inl kept
      · exact .inl kept
      · exact .inr (.inl wrote)
      · exact .inr (.inr ⟨what, rfl⟩)
    · obtain ⟨-, added, after⟩ := senderStep_inv inv faced stepped
      refine ⟨after.tail.trans inv.tail.symm, added, ?_, ?_⟩
      · have before := inv.ring.unreadSlots
        have later := after.ring.unreadSlots
        have within := inv.within
        have counted := inv.counted
        have length := inv.length
        rw [List.length_replicate] at before later
        rw [List.drop_append_of_le_length (by omega)] at later
        exact later.symm.trans (congrArg (· ++ added) before)
      · have length := inv.length
        have longer := after.length
        rw [List.length_append, List.length_append] at longer
        omega
  · rename_i polls
    refine ⟨fun call failure refused => ?_, fun sends => absurd sends polls,
      fun sends => absurd sends polls, inv.drained stepped⟩
    obtain ⟨-, calm, -⟩ := receiverStep_inv inv faced stepped
    exact (calm _ refused).elim

/-- Every interleaving of publishing calls and Polls is a message queue. -/
theorem client_channel (faced : Facing sender receiver mem)
    (run : (channelMachine sender receiver).Run (.initial mem) actions state outputs) :
    ChannelFaithful sender receiver state outputs ∧
      ∀ action next emitted, channelStep sender receiver state action = some (next, emitted) →
        ChannelStepSound sender state outputs action next emitted := by
  obtain ⟨intact, stream, released, inv⟩ := channelInv_run faced run
  exact ⟨inv.faithful faced intact, fun _ _ _ stepped => inv.stepSound faced stepped⟩

/-- A client whose slots have room for eight payload bytes. -/
def narrowClient : Client where
  handle := 9
  slotSize := 72
  inlineBudget := 8
  arenaSize := 0
  attachedEpoch := 4
  control := true
  inbound := ⟨72, 2, 1, 192⟩
  outbound := ⟨72, 2, 1, 192⟩
  pendingRead := false

def narrowRing : Bytes :=
  uint32Bytes ringMagic ++ uint32Bytes 72 ++ uint32Bytes 2 ++ uint32Bytes 1 ++ uint32Bytes 192 ++
    List.replicate 316 0

def narrowCall : SendCall := .requestFragment 300 7 [1, 2] true

/-- A request fragment overlapping a Poll, a slot that does not decode, and the
Poll that skips it after it released the first one. -/
def narrowActions : List ChannelAction :=
  [.send 4 narrowCall, .produceLoadHead, .poll 4, .consumeLoadTail, .produceLoadTail, .fill,
    .commitLoadHead, .commitStoreHead, .consumeLoadHead, .intrude (List.replicate 72 0),
    .produceLoadHead, .read, .produceLoadTail, .fill, .commitLoadHead, .commitStoreHead, .poll 4,
    .releaseLoadTail, .releaseStoreTail, .consumeLoadTail, .consumeLoadHead, .read, .skipLoadTail,
    .skipStoreTail]

def narrowOutputs : List ChannelOutput :=
  [.committed (.send narrowCall), .polled (.received (narrowCall.event narrowClient)),
    .committed (.foreign (List.replicate 72 0)), .skipped, .polled .empty]

theorem client_channel_narrow :
    ∃ state, (channelMachine narrowClient narrowClient).Run (.initial narrowRing) narrowActions
        state narrowOutputs ∧
      receivedSlots narrowOutputs = [some (narrowCall.event narrowClient), none] ∧
      ChannelFaithful narrowClient narrowClient state narrowOutputs := by
  have faced : Facing narrowClient narrowClient narrowRing :=
    ⟨by decide +kernel, rfl, rfl, rfl, by decide, by decide +kernel⟩
  have executed : ((channelMachine narrowClient narrowClient).execute (.initial narrowRing)
      narrowActions).map Prod.snd = some narrowOutputs := by decide +kernel
  obtain ⟨⟨state, outputs⟩, ran, rfl⟩ := Option.map_eq_some_iff.mp executed
  have run := Machine.run_of_execute ran
  exact ⟨state, run, rfl, (client_channel faced run).1⟩

end Runs

end AimeeLearning.Bus
