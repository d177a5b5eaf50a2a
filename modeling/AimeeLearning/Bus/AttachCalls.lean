import AimeeLearning.Bus.OrderlyStop
import AimeeLearning.Library.Custody

/-! Attaching, connecting and running as programs of system calls, with the
descriptors and the mappings they hold. Whatever the kernel answers, nothing is
touched that is not held, and only an attached client leaves mappings behind. -/

set_option autoImplicit false

namespace AimeeLearning.Bus.System

open Library

abbrev Descriptor := Int

abbrev Errno := Nat

/-- ECONNREFUSED -/
def connRefused : Errno := 111

/-- A received control message with the descriptors in its data. -/
structure ControlMessage where
  level : Int
  type : Int
  rights : List Descriptor

def solSocket : Int := 1
def scmRights : Int := 1

def parseRights (messages : List ControlMessage) : List Descriptor :=
  (messages.filter fun message =>
    message.level == solSocket && message.type == scmRights).flatMap (·.rights)

/-- What one Recvmsg delivers. -/
structure Delivery where
  buffer : Bytes
  received : Nat
  controls : List ControlMessage

/-- The mapped regions of a client, by address; `none` once they are unmapped. -/
structure Regions where
  ctlMem : Option Nat
  arena : Option Nat
  qpMem : Option Nat
  deriving DecidableEq

inductive SystemCall where
  | socket
  | connect (fd : Descriptor) (path : String)
  | sendmsg (sock : Descriptor) (request : Bytes)
  | recvmsg (sock : Descriptor)
  | mmap (fd : Descriptor) (length : Int)
  | munmap (address : Nat)
  | close (fd : Descriptor)
  /-- Look at what is mapped. -/
  | view (address : Nat)
  /-- Read or write through a view that was taken before. -/
  | touch (address : Nat)
  /-- Wait for the context or the retry timer. -/
  | retry
  /-- ctx.Err -/
  | ctxErr
  /-- runModuleClient over the mapped regions. -/
  | serve (regions : Regions) (config : RuntimeConfig)

abbrev SystemCall.Answer : SystemCall → Type
  | .socket => Except Errno Descriptor
  | .connect _ _ => Except Errno Unit
  | .sendmsg _ _ => Except Errno Unit
  | .recvmsg _ => Except Errno Delivery
  | .mmap _ _ => Except Errno Nat
  | .munmap _ => Except Errno Unit
  | .close _ => Except Errno Unit
  | .view _ => Bytes
  | .touch _ => Unit
  | .retry => Bool
  | .ctxErr => Bool
  | .serve _ _ => Except RuntimeError Unit

abbrev SystemProgram (α : Type) := Program SystemCall SystemCall.Answer α

section Calls

def socket : SystemProgram (Except Errno Descriptor) := .perform SystemCall.socket

def connect (fd : Descriptor) (path : String) : SystemProgram (Except Errno Unit) :=
  .perform (SystemCall.connect fd path)

def sendmsg (sock : Descriptor) (request : Bytes) : SystemProgram (Except Errno Unit) :=
  .perform (SystemCall.sendmsg sock request)

def recvmsg (sock : Descriptor) : SystemProgram (Except Errno Delivery) := .perform (SystemCall.recvmsg sock)

def mmap (fd : Descriptor) (length : Int) : SystemProgram (Except Errno Nat) :=
  .perform (SystemCall.mmap fd length)

def view (address : Nat) : SystemProgram Bytes := .perform (SystemCall.view address)

def close (fd : Descriptor) : SystemProgram Unit := do
  let _ ← (.perform (SystemCall.close fd) : SystemProgram (Except Errno Unit))

def munmap (address : Nat) : SystemProgram Unit := do
  let _ ← (.perform (SystemCall.munmap address) : SystemProgram (Except Errno Unit))

def retry : SystemProgram Bool := .perform SystemCall.retry

def ctxErr : SystemProgram Bool := .perform SystemCall.ctxErr

def serve (regions : Regions) (config : RuntimeConfig) : SystemProgram (Except RuntimeError Unit) :=
  .perform (SystemCall.serve regions config)

def closeAll : List Descriptor → SystemProgram Unit
  | [] => pure ()
  | fd :: rest => do
      close fd
      closeAll rest

end Calls

section Attach

/-- Unmap one region that is still mapped. -/
def unmapRegion : Option Nat → SystemProgram (Option Nat)
  | some address => do
      munmap address
      return none
  | none => return none

def detach (regions : Regions) : SystemProgram Regions := do
  let ctlMem ← unmapRegion regions.ctlMem
  let arena ← unmapRegion regions.arena
  let qpMem ← unmapRegion regions.qpMem
  return ⟨ctlMem, arena, qpMem⟩

structure AttachedClient where
  attached : Attached
  regions : Regions

/-- The fields of the reply. -/
def replyClient (buffer : Bytes) (queuePair : QueuePair) : Client where
  handle := uint32At buffer 8
  slotSize := uint32At buffer 16
  inlineBudget := uint32At buffer 20
  arenaSize := uint64At buffer 32
  attachedEpoch := uint64At buffer 40
  control := true
  inbound := queuePair.inbound
  outbound := queuePair.outbound
  pendingRead := false

/-- The regions are mapped and the descriptors closed. -/
def validateRegions (buffer : Bytes) (ctlMem arena qpMem : Nat) :
    SystemProgram (Except AttachError AttachedClient) := do
  let regions : Regions := ⟨some ctlMem, some arena, some qpMem⟩
  match attachControl (← view ctlMem) with
  | .error failure => do
      let _ ← detach regions
      return .error (.bus failure)
  | .ok control =>
      match attachQueuePair (← view qpMem) with
      | .error failure => do
          let _ ← detach regions
          return .error (.bus failure)
      | .ok queuePair =>
          return .ok { attached := ⟨replyClient buffer queuePair, control, queuePair⟩, regions }

/-- Exactly three descriptors came with an accepting reply. -/
def mapRegions (buffer : Bytes) (ctlFd arenaFd qpFd : Descriptor) :
    SystemProgram (Except AttachError AttachedClient) := do
  match ← mmap ctlFd ctlBytes with
  | .error _ => do
      closeAll [ctlFd, arenaFd, qpFd]
      return .error .system
  | .ok ctlMem =>
      match ← mmap arenaFd (goInt (16 + uint64At buffer 32).toNat) with
      | .error _ => do
          munmap ctlMem
          closeAll [ctlFd, arenaFd, qpFd]
          return .error .system
      | .ok arena =>
          match ← mmap qpFd (qpairBytes (uint32At buffer 16) (uint32At buffer 24)) with
          | .error _ => do
              munmap ctlMem
              munmap arena
              closeAll [ctlFd, arenaFd, qpFd]
              return .error .system
          | .ok qpMem => do
              closeAll [ctlFd, arenaFd, qpFd]
              validateRegions buffer ctlMem arena qpMem

/-- The reply is in, with the descriptors it brought. -/
def acceptReply (delivery : Delivery) (fds : List Descriptor) :
    SystemProgram (Except AttachError AttachedClient) :=
  if delivery.received != attachReplyBytes || uint32At delivery.buffer 0 != attachReplyMagic then do
    closeAll fds
    return .error (.bus .errProtocol)
  else if uint32At delivery.buffer 4 != attachOK then do
    closeAll fds
    return .error (.denied (uint32At delivery.buffer 4))
  else
    match fds with
    | [ctlFd, arenaFd, qpFd] => mapRegions delivery.buffer ctlFd arenaFd qpFd
    | _ => do
        closeAll fds
        return .error (.bus .errProtocol)

def attachAs (sock : Descriptor) (principalClass principalRef : UInt32) :
    SystemProgram (Except AttachError AttachedClient) := do
  match ← sendmsg sock (attachRequest principalClass principalRef) with
  | .error _ => return .error .system
  | .ok () =>
      match ← recvmsg sock with
      | .error _ => return .error .system
      | .ok delivery => acceptReply delivery (parseRights delivery.controls)

end Attach

section Connect

/-- One round of the connect loop; `none` where it goes on. -/
def connectRound (socketPath : String) (principalClass principalRef : UInt32) :
    SystemProgram (Option (Except ConnectError AttachedClient)) := do
  match ← socket with
  | .error _ => return some (.error .system)
  | .ok fd =>
      match ← connect fd socketPath with
      | .ok () => do
          let result ← attachAs fd principalClass principalRef
          close fd
          return some (result.mapError .attach)
      | .error errno => do
          close fd
          if errno != connRefused then return some (.error .system)
          else if ← retry then return some (.error .context)
          else return none

/-- The rounds of connectModule; `none` while it still retries. -/
def connectModule (process : ModuleProcessConfig) (rounds : Nat) :
    SystemProgram (Option (Except ConnectError AttachedClient)) :=
  (connectRound process.socketPath process.principalClass process.principalRef).retried rounds

/-- Serve an attached client, and detach it however that ends. -/
def serveAttached (process : ModuleProcessConfig) (stages : StageTable) (client : AttachedClient) :
    SystemProgram (Except ProcessError Unit) := do
  let result ← serve client.regions (process.runtime stages client.attached.client)
  let _ ← detach client.regions
  return result.mapError .runtime

def runModuleProcess (process : ModuleProcessConfig) (rounds : Nat) :
    SystemProgram (Option (Except ProcessError Unit)) :=
  match validateModuleConfig process with
  | .error failure => return some (.error (.config failure))
  | .ok stages => do
      match ← connectModule process rounds with
      | none => return none
      | some (.error failure) =>
          if ← ctxErr then return some (.ok ())
          else return some (.error (.attach process.moduleName failure))
      | some (.ok client) => return some (← serveAttached process stages client)

end Connect

end AimeeLearning.Bus.System
