import AimeeLearning.Bus.ClientChannel

/-! The attach handshake: one request, one reply with three descriptors, and the
mapped regions, each validated on its own. The socket and the memory mappings
are given by the host. -/

set_option autoImplicit false

namespace AimeeLearning.Bus

open Library

section Handshake

def attachReqMagic : UInt32 := 0x51524241
def attachReplyMagic : UInt32 := 0x50524241
def attachReplyBytes : Nat := 48
def attachOK : UInt32 := 0

def attachRequest (principalClass principalRef : UInt32) : Bytes :=
  uint32Bytes attachReqMagic ++ uint16Bytes wireVersion ++ uint16Bytes wireVersion ++
    uint32Bytes principalClass ++ uint32Bytes principalRef

/-- What the socket delivers: the reply buffer, how much of it was received and
how many descriptors came along. -/
structure AttachReply where
  buffer : Bytes
  received : Nat
  descriptors : Nat

inductive AttachError where
  | bus (error : BusError)
  | denied (status : UInt32)
  /-- A failing system call. -/
  | system
  deriving DecidableEq, Repr

end Handshake

section Regions

def ctlMagic : UInt32 := 0x4c544342
def ctlOffMagic : Nat := 0
def ctlOffSpec : Nat := 4
def ctlOffLayout : Nat := 8
def ctlOffSlot : Nat := 16
def ctlOffInline : Nat := 20
def ctlOffArena : Nat := 32
def ctlBytes : Nat := 96
def specVersion : UInt32 := 1
def layoutVersion : UInt32 := 1

def qpMagic : UInt32 := 0x52504251
def qpOffMagic : Nat := 0
def qpOffInboundOff : Nat := 24
def qpOffOutboundOff : Nat := 28
def qpOffHeartbeat : Nat := 32
def qpBytes : Nat := 96

/-- A control region that validates is viewed as it is. -/
def attachControl (mem : Bytes) : Except BusError Bytes :=
  if mem.length < ctlBytes then .error .errRegion
  else if uint32At mem ctlOffMagic != ctlMagic then .error .errRegion
  else if uint32At mem ctlOffSpec != specVersion || uint32At mem ctlOffLayout != layoutVersion then
    .error .errRegion
  else if uint32At mem ctlOffSlot == 0 || uint32At mem ctlOffInline > uint32At mem ctlOffSlot ||
      uint64At mem ctlOffArena == 0 then .error .errRegion
  else .ok mem

structure QueuePair where
  mem : Bytes
  inOff : Nat
  outOff : Nat
  inbound : Ring
  outbound : Ring
  deriving DecidableEq, Repr

def attachQueuePair (mem : Bytes) : Except BusError QueuePair :=
  if mem.length < qpBytes then .error .errRegion
  else if uint32At mem qpOffMagic != qpMagic then .error .errRegion
  else
    let inOff := (uint32At mem qpOffInboundOff).toNat
    let outOff := (uint32At mem qpOffOutboundOff).toNat
    if inOff ≥ mem.length || outOff ≥ mem.length || inOff == outOff then .error .errRegion
    else do
      let inbound ← attachRing (mem.drop inOff)
      let outbound ← attachRing (mem.drop outOff)
      .ok { mem, inOff, outOff, inbound, outbound }

/-- The client heartbeat the host reads for liveness. -/
def QueuePair.setHeartbeat (mem : Bytes) (now : UInt64) : Bytes :=
  patch mem qpOffHeartbeat (uint64Bytes now)

theorem attachQueuePair_ok {mem : Bytes} {pair : QueuePair}
    (accepted : attachQueuePair mem = .ok pair) :
    pair.mem = mem ∧ pair.inOff = (uint32At mem qpOffInboundOff).toNat ∧
      pair.outOff = (uint32At mem qpOffOutboundOff).toNat ∧ qpBytes ≤ mem.length ∧
      attachRing (mem.drop pair.inOff) = .ok pair.inbound ∧
      attachRing (mem.drop pair.outOff) = .ok pair.outbound := by
  simp only [attachQueuePair] at accepted
  split at accepted
  · cases accepted
  rename_i header
  split at accepted
  · cases accepted
  split at accepted
  · cases accepted
  cases inbound : attachRing (mem.drop (uint32At mem qpOffInboundOff).toNat) with
  | error failure =>
      rw [inbound] at accepted
      cases accepted
  | ok inRing =>
      cases outbound : attachRing (mem.drop (uint32At mem qpOffOutboundOff).toNat) with
      | error failure =>
          rw [inbound, outbound] at accepted
          cases accepted
      | ok outRing =>
          rw [inbound, outbound] at accepted
          obtain rfl := Except.ok.inj accepted
          exact ⟨rfl, rfl, rfl, Nat.le_of_not_lt header, inbound, outbound⟩

/-- `(n + 63) &^ 63` -/
def align64 (value : Int) : Int := goInt (value + 63) - goInt (value + 63) % 64

def qpairBytes (slotSize capacity : UInt32) : Int :=
  let ring := goInt (ringHdrBytes + goInt (slotSize.toNat * capacity.toNat))
  let inOff := align64 qpBytes
  let outOff := align64 (goInt (inOff + ring))
  goInt (outOff + ring)

end Regions

/-- An attached client with its mapped control region and queue pair. -/
structure Attached where
  client : Client
  control : Bytes
  queuePair : QueuePair
  deriving DecidableEq, Repr

/-- `exchange` answers the request and `mmap` maps a length of a descriptor. -/
def attachAs (exchange : Bytes → Option AttachReply) (mmap : Nat → Int → Option Bytes)
    (principalClass principalRef : UInt32) : Except AttachError Attached :=
  match exchange (attachRequest principalClass principalRef) with
  | none => .error .system
  | some reply =>
    let status := uint32At reply.buffer 4
    if reply.received != attachReplyBytes || uint32At reply.buffer 0 != attachReplyMagic then
      .error (.bus .errProtocol)
    else if status != attachOK then .error (.denied status)
    else if reply.descriptors != 3 then .error (.bus .errProtocol)
    else
      let slotSize := uint32At reply.buffer 16
      let arenaSize := uint64At reply.buffer 32
      match mmap 0 ctlBytes, mmap 1 (goInt (16 + arenaSize).toNat),
          mmap 2 (qpairBytes slotSize (uint32At reply.buffer 24)) with
      | some ctlMem, some _, some qpMem =>
        match attachControl ctlMem, attachQueuePair qpMem with
        | .ok control, .ok queuePair =>
          .ok
            { client :=
                { handle := uint32At reply.buffer 8
                  slotSize
                  inlineBudget := uint32At reply.buffer 20
                  arenaSize
                  attachedEpoch := uint64At reply.buffer 40
                  control := true
                  inbound := queuePair.inbound
                  outbound := queuePair.outbound
                  pendingRead := false }
              control
              queuePair }
        | .error failure, _ => .error (.bus failure)
        | .ok _, .error failure => .error (.bus failure)
      | _, _, _ => .error .system

end AimeeLearning.Bus
