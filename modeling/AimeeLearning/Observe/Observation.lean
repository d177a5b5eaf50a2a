import AimeeLearning.Bus.ModuleProtocol
import AimeeLearning.Library.CString

/-! The learning-observation stage, twice: the production handler in Go and the
C parity fixture with the signal policy it calls. Both classify the signal of a
40-byte request into the mask of sinks it is routed to. -/

set_option autoImplicit false

namespace AimeeLearning.Observe

open Library Bus

def stageObserve : UInt32 := 1
def requestMagic : UInt32 := 0x53424f4c
def responseMagic : UInt32 := 0x4b53414c
def observeVersion : UInt8 := 1
def requestLen : Nat := 40
def responseLen : Nat := 8
def signalMax : UInt8 := 31

def sinkReranker : UInt32 := 0x01
def sinkSupersede : UInt32 := 0x02
def sinkRule : UInt32 := 0x04
def sinkWorkflow : UInt32 := 0x08

/-- A byte of a request; both handlers index only after the length test. -/
def byteAt (request : Bytes) (index : Nat) : UInt8 := (request[index]?).getD 0

/-- The switch of the Go handler over the declared bytes. -/
def goMask (signal : Bytes) : UInt32 :=
  if signal = cstr "thumb_up" ∨ signal = cstr "thumb_down" then sinkReranker
  else if signal = cstr "correction" then sinkReranker ||| sinkSupersede ||| sinkRule
  else if signal = cstr "preference_statement" ∨ signal = cstr "mark_rule" then sinkRule
  else if signal = cstr "workflow_repetition" then sinkWorkflow
  else 0

/-- The request tests of the Go handler. -/
def goRefuses (stageID : UInt32) (request : Bytes) : Bool :=
  stageID != stageObserve || request.length != requestLen ||
    uint32At request 0 != requestMagic || byteAt request 4 != observeVersion ||
    byteAt request 5 != 0 || byteAt request 7 != 0 || byteAt request 6 == 0 ||
    byteAt request 6 > signalMax

/-- `learning.Handle`; `cancelled` is what the invocation reports. -/
def handle (stageID : UInt32) (cancelled : Bool) (request : Bytes) : Bytes × ModuleStatus :=
  if goRefuses stageID request then ([], moduleStatusInvalidRequest)
  else if cancelled then ([], moduleStatusCancelled)
  else
    let mask := goMask (window request 8 (byteAt request 6).toNat)
    (uint32Bytes responseMagic ++ uint32Bytes mask, moduleStatusOK)

/-- `aimee_learning_get_u32` -/
def getU32 (input : Bytes) : UInt32 :=
  (byteAt input 0).toUInt32 ||| ((byteAt input 1).toUInt32 <<< 8) |||
    ((byteAt input 2).toUInt32 <<< 16) ||| ((byteAt input 3).toUInt32 <<< 24)

/-- `aimee_learning_put_u32` -/
def putU32 (value : UInt32) : Bytes :=
  [value.toUInt8, (value >>> 8).toUInt8, (value >>> 16).toUInt8, (value >>> 24).toUInt8]

/-- `aimee_learning_request_encode`: the buffer afterwards, when it returns 0;
`signal` points to a terminated buffer or is NULL. -/
def requestEncode (signal : Option Bytes) (out : Bytes) : Option Bytes :=
  let text := (signal.map cString).getD []
  if out.length < requestLen || text.length == 0 || text.length > signalMax.toNat then none
  else
    let cleared := patch out 0 (List.replicate requestLen 0)
    let framed := patch (patch (patch cleared 0 (putU32 requestMagic)) 4 [observeVersion])
      6 [UInt8.ofNat text.length]
    some (patch framed 8 text)

/-- `aimee_learning_request_decode`: the signal buffer it fills, terminated. -/
def requestDecode (input : Bytes) (signalCap : Nat) : Option Bytes :=
  if input.length != requestLen || signalCap == 0 || getU32 input != requestMagic ||
      byteAt input 4 != observeVersion || byteAt input 5 != 0 || byteAt input 7 != 0 ||
      byteAt input 6 == 0 || byteAt input 6 > signalMax || (byteAt input 6).toNat ≥ signalCap then
    none
  else some (terminated (window input 8 (byteAt input 6).toNat))

/-- `aimee_learning_response_decode`: the return code and `*sink_mask` afterwards. -/
def responseDecode (input : Bytes) (sinkMask : UInt32) : Int × UInt32 :=
  if input.length != responseLen || getU32 input != responseMagic then (-1, sinkMask)
  else
    let mask := getU32 (input.drop 4)
    if mask &&& ~~~(sinkReranker ||| sinkSupersede ||| sinkRule ||| sinkWorkflow) != 0 then
      (-1, mask)
    else (0, mask)

/-- `learning_signal_policy_sink_mask` on a pointer to a terminated buffer. -/
def signalPolicySinkMask (signal : Bytes) : Option UInt32 :=
  let text := cString signal
  if text = [] then none
  else if text = cstr "thumb_up" ∨ text = cstr "thumb_down" then some sinkReranker
  else if text = cstr "correction" then some (sinkReranker ||| sinkSupersede ||| sinkRule)
  else if text = cstr "preference_statement" ∨ text = cstr "mark_rule" then some sinkRule
  else if text = cstr "workflow_repetition" then some sinkWorkflow
  else some 0

/-- `aimee_module_handler`: the status, and the response it wrote. -/
def aimeeModuleHandler (stageID : UInt32) (cancelled : Bool) (request : Bytes)
    (responseCapacity : Nat) : ModuleStatus × Bytes :=
  if stageID != stageObserve || responseCapacity < responseLen then
    (moduleStatusInvalidRequest, [])
  else
    match requestDecode request (signalMax.toNat + 1) with
    | none => (moduleStatusInvalidRequest, [])
    | some signal =>
        if cancelled then (moduleStatusCancelled, [])
        else
          match signalPolicySinkMask signal with
          | none => (moduleStatusInternal, [])
          | some mask => (moduleStatusOK, putU32 responseMagic ++ putU32 mask)

end AimeeLearning.Observe
