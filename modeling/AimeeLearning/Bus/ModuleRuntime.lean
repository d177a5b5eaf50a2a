import AimeeLearning.Bus.Client
import AimeeLearning.Bus.ModuleProtocol
import AimeeLearning.Library.Fragments
import AimeeLearning.Library.Machine
import Mathlib.Data.List.AList

/-! The serving side of a module: one event loop that reassembles requests,
starts a handler goroutine for each of them and fragments the replies, and the
goroutines themselves. One action is one iteration of a loop, one step of a
goroutine or one channel operation. Only the loop touches the tables and only
the loop receives results, so a reply that waits for ring space is one action
that carries the results of its bus calls. -/

set_option autoImplicit false

namespace AimeeLearning.Bus

open Library

def moduleMaxInFlight : Nat := 16

structure ModuleStage where
  eventKind : UInt32
  stageID : UInt32
  deriving DecidableEq, Repr

structure ModuleInvocation where
  stageID : UInt32
  deadlineNS : UInt64
  traceID : UInt64
  /-- Where the cancel flag lives; works, invocations and results share it. -/
  cancelled : Nat
  deriving DecidableEq, Repr

structure ModuleProcessConfig where
  socketPath : String
  moduleName : String
  principalClass : UInt32
  principalRef : UInt32
  stages : List ModuleStage
  /-- Whether a handler was configured; what it does is left to the run. -/
  handler : Bool
  deriving DecidableEq, Repr

abbrev StageTable := AList fun _ : UInt32 => UInt32

/-- The stage of an event kind, zero when it is not served. -/
def StageTable.stageOf (stages : StageTable) (kind : UInt32) : UInt32 :=
  (AList.lookup kind stages).getD 0

def addStage (stages : StageTable) (stage : ModuleStage) : Except BusError StageTable :=
  if stage.eventKind == 0 || stage.stageID == 0 then .error .errModuleConfig
  else if stage.eventKind ∈ stages then .error .errModuleConfig
  else .ok (stages.insert stage.eventKind stage.stageID)

def validateModuleConfig (config : ModuleProcessConfig) : Except BusError StageTable :=
  if config.socketPath == "" || config.moduleName == "" || config.principalClass == 0 ||
      config.principalRef == 0 || config.stages.length == 0 then .error .errModuleConfig
  else config.stages.foldlM addStage ∅

structure ModuleAssembly where
  eventKind : UInt32
  message : ModuleMessage
  body : Bytes
  deriving DecidableEq, Repr

structure ModuleWork where
  eventKind : UInt32
  correlationID : UInt64
  invocation : ModuleInvocation
  cancelled : Nat
  deriving DecidableEq, Repr

structure ModuleResult where
  work : ModuleWork
  body : Bytes
  status : ModuleStatus
  deriving DecidableEq, Repr

def validModuleStatus (status : ModuleStatus) : Bool := status ≤ moduleStatusInternal

inductive HandlerPhase where
  | ready (body : Bytes)
  | calling
  | answered (body : Bytes) (status : ModuleStatus)
  | checked (body : Bytes) (status : ModuleStatus)
  deriving DecidableEq, Repr

structure HandlerRun where
  work : ModuleWork
  phase : HandlerPhase
  deriving DecidableEq, Repr

/-- Only an OK result of admissible size keeps its body. -/
def settleResult (status : ModuleStatus) (body : Bytes) : ModuleStatus × Bytes :=
  if !validModuleStatus status || body.length > moduleMessageMaxBody.toNat then
    (moduleStatusInternal, [])
  else if status != moduleStatusOK then (status, [])
  else (status, body)

/-- The last look at the cancel flag and at the clock before a result is sent. -/
def overrideResult (work : ModuleWork) (cancelled : Bool) (now : UInt64) (status : ModuleStatus)
    (body : Bytes) : ModuleStatus × Bytes :=
  if cancelled then (moduleStatusCancelled, [])
  else if work.invocation.deadlineNS != 0 && now != 0 && now ≥ work.invocation.deadlineNS then
    (moduleStatusDeadlineExceeded, [])
  else (status, body)

/-- Why the loop ended with an error. -/
inductive RuntimeError where
  | bus (error : BusError)
  | context
  deriving DecidableEq, Repr

structure ModuleReply where
  kind : UInt32
  correlation : UInt64
  stageID : UInt32
  traceID : UInt64
  status : ModuleStatus
  body : Bytes
  deriving DecidableEq, Repr

/-- What one try to send a fragment met: the result of ReplyFragment and, when
the ring was full, whether the context had ended or else the epoch changed, or
else the clock. -/
structure Attempt where
  result : Except BusError Unit
  ctxDone : Bool := false
  epochChanged : Bool := false
  now : UInt64 := 0

/-- Retry one fragment; `none` while the ring is still full. The remaining
attempts belong to the next fragment. -/
def sendFragment : List Attempt → Option (Except RuntimeError (List Attempt))
  | [] => none
  | attempt :: rest =>
      match attempt.result with
      | .ok () => some (.ok rest)
      | .error .errWouldBlock =>
          if attempt.ctxDone then some (.error .context)
          else if attempt.epochChanged then some (.error (.bus .errEpoch))
          else sendFragment rest
      | .error failure => some (.error (.bus failure))

/-- The envelope of one reply fragment. -/
def ModuleReply.message (reply : ModuleReply) (part : Nat) : ModuleMessage :=
  { operation := moduleOpResult, status := (settleResult reply.status reply.body).1,
    stageID := reply.stageID, bodyLen := UInt32.ofNat part, traceID := reply.traceID }

/-- The fragment loop: what was sent, and how the loop ended. -/
def replyPieces (reply : ModuleReply) :
    List (Bytes × Bool) → List Attempt → Option (List SentFragment × Except RuntimeError Unit)
  | [], _ => some ([], .ok ())
  | (part, more) :: rest, attempts =>
      let buffer := List.replicate (moduleMessageHeaderLen + part.length) 0
      match (reply.message part.length).encode buffer with
      | .error failure => some ([], .error (.bus failure))
      | .ok (_, header) =>
          let payload := patch header moduleMessageHeaderLen part
          match sendFragment attempts with
          | none => none
          | some (.error failure) => some ([], .error failure)
          | some (.ok remaining) =>
              (replyPieces reply rest remaining).map fun (sent, result) =>
                (⟨reply.kind, reply.correlation, payload, more⟩ :: sent, result)

def replyModuleResult (inlineBudget : UInt32) (reply : ModuleReply) (attempts : List Attempt) :
    Option (List SentFragment × Except RuntimeError Unit) :=
  if inlineBudget.toNat ≤ moduleMessageHeaderLen then some ([], .error (.bus .errModuleRuntime))
  else
    replyPieces reply (pieces (inlineBudget.toNat - moduleMessageHeaderLen)
      (settleResult reply.status reply.body).2) attempts

def invalidModuleRequest (event : Event) (stageID : UInt32) (traceID : UInt64) : ModuleReply where
  kind := event.frame.eventKind
  correlation := event.frame.correlationId
  stageID := if stageID == 0 then 1 else stageID
  traceID := traceID
  status := moduleStatusInvalidRequest
  body := []

def ModuleResult.reply (result : ModuleResult) : ModuleReply where
  kind := result.work.eventKind
  correlation := result.work.correlationID
  stageID := result.work.invocation.stageID
  traceID := result.work.invocation.traceID
  status := result.status
  body := result.body

/-- The parameters of runModuleClient. -/
structure RuntimeConfig where
  stages : StageTable
  handler : Bool
  inlineBudget : UInt32

inductive LoopPc where
  | draining
  | polling (now : UInt64)
  | stopping
  | returned (result : Except RuntimeError Unit)
  | panicked

structure RuntimeState where
  pc : LoopPc
  assemblies : AList fun _ : UInt64 => ModuleAssembly
  jobs : AList fun _ : UInt64 => ModuleWork
  /-- The cancel flags allocated so far. -/
  flags : List Bool
  running : List HandlerRun
  /-- The results buffered in the done channel. -/
  done : List ModuleResult

def RuntimeState.initial : RuntimeState := ⟨.draining, ∅, ∅, [], [], []⟩

/-- Store true in the flag of a work. -/
def setFlag (flags : List Bool) (work : ModuleWork) : List Bool := flags.set work.cancelled true

/-- The flag of a work, as an atomic load reads it. -/
def flagOf (flags : List Bool) (work : ModuleWork) : Bool := (flags[work.cancelled]?).getD false

def ModuleAssembly.continuedBy (assembly : ModuleAssembly) (kind : UInt32)
    (message : ModuleMessage) : Bool :=
  assembly.eventKind == kind && assembly.message.stageID == message.stageID &&
    assembly.message.deadlineNS == message.deadlineNS &&
    assembly.message.traceID == message.traceID

/-- The message of a request event, unless the loop finds the event invalid. -/
def admitRequest (config : RuntimeConfig) (state : RuntimeState) (event : Event) :
    Option ModuleMessage :=
  let expectedStage := config.stages.stageOf event.frame.eventKind
  match decodeModuleMessage event.payload with
  | .error _ => none
  | .ok message =>
      if expectedStage == 0 || message.operation != moduleOpInvoke ||
          message.stageID != expectedStage ||
          (state.jobs.lookup event.frame.correlationId).isSome then none
      else
        match state.assemblies.lookup event.frame.correlationId with
        | none => some message
        | some assembly =>
            if assembly.continuedBy event.frame.eventKind message then some message else none

/-- What an iteration of the loop does besides updating the tables. -/
inductive Disposition where
  | proceed
  | reply (reply : ModuleReply)
  | start (work : ModuleWork) (body : Bytes)
  deriving DecidableEq, Repr

/-- A reply without a body to an accepted message. -/
def refuse (config : RuntimeConfig) (event : Event) (message : ModuleMessage)
    (status : ModuleStatus) : Disposition :=
  .reply ⟨event.frame.eventKind, event.frame.correlationId,
    config.stages.stageOf event.frame.eventKind, message.traceID, status, []⟩

/-- What follows once the last fragment completed a request body. -/
def completeRequest (config : RuntimeConfig) (state : RuntimeState) (now : UInt64) (event : Event)
    (message : ModuleMessage) (body : Bytes) : RuntimeState × Disposition :=
  if message.deadlineExpired now then
    (state, refuse config event message moduleStatusDeadlineExceeded)
  else if !config.handler then
    (state, refuse config event message moduleStatusCapabilityAbsent)
  else if state.jobs.keys.length ≥ moduleMaxInFlight then
    (state, refuse config event message moduleStatusInternal)
  else
    let cancelled := state.flags.length
    let work : ModuleWork := ⟨event.frame.eventKind, event.frame.correlationId,
      ⟨config.stages.stageOf event.frame.eventKind, message.deadlineNS, message.traceID,
        cancelled⟩, cancelled⟩
    ({ state with
        flags := state.flags ++ [false]
        jobs := state.jobs.insert event.frame.correlationId work
        running := state.running ++ [⟨work, .ready body⟩] }, .start work body)

/-- One admitted fragment, added to the assembly it found or opened. -/
def extendAssembly (config : RuntimeConfig) (state : RuntimeState) (now : UInt64) (event : Event)
    (message : ModuleMessage) (assembly : ModuleAssembly) : RuntimeState × Disposition :=
  let correlation := event.frame.correlationId
  let body := message.body event.payload
  let closed := { state with assemblies := state.assemblies.erase correlation }
  if assembly.body.length + body.length > moduleMessageMaxBody.toNat then
    (closed, refuse config event message moduleStatusInternal)
  else if event.frame.has fMore then
    ({ state with assemblies :=
        state.assemblies.insert correlation { assembly with body := assembly.body ++ body } },
      .proceed)
  else completeRequest config closed now event message (assembly.body ++ body)

/-- The body of the loop for an event that Poll returned. -/
def consumeEvent (config : RuntimeConfig) (state : RuntimeState) (now : UInt64) (event : Event) :
    RuntimeState × Disposition :=
  let correlation := event.frame.correlationId
  if event.frame.has fCancel then
    ({ state with
        flags := ((state.jobs.lookup correlation).map (setFlag state.flags)).getD state.flags
        assemblies := state.assemblies.erase correlation }, .proceed)
  else if !event.frame.has fRequest then (state, .proceed)
  else
    match admitRequest config state event with
    | none =>
        ({ state with assemblies := state.assemblies.erase correlation },
          .reply (invalidModuleRequest event (config.stages.stageOf event.frame.eventKind) 0))
    | some message =>
        match state.assemblies.lookup correlation with
        | some assembly => extendAssembly config state now event message assembly
        | none =>
            if state.assemblies.keys.length ≥ moduleMaxInFlight then
              (state, refuse config event message moduleStatusInternal)
            else extendAssembly config state now event message
              ⟨event.frame.eventKind, message, []⟩

inductive RuntimeAction where
  /-- Receive a result in the inner loop and reply. -/
  | receive (attempts : List Attempt)
  /-- Find the channel empty, look at the context, the epoch and the clock. -/
  | drained (ctxDone epochChanged : Bool) (now : UInt64)
  | poll (outcome : Client.PollOutcome) (attempts : List Attempt)
  /-- The goroutine at a position calls the handler. -/
  | invoke (position : Nat)
  | handlerReturns (position : Nat) (response : Bytes) (status : ModuleStatus)
  | checkCancelled (position : Nat) (now : UInt64)
  /-- Send the result on the done channel. -/
  | deliver (position : Nat)
  /-- Receive a result after the context ended. -/
  | collect
  /-- No job is left after the context ended. -/
  | stopped

inductive RuntimeOutput where
  | consumed (event : Event)
  | invoked (work : ModuleWork) (body : Bytes)
  | answered (work : ModuleWork) (response : Bytes) (status : ModuleStatus)
  | replied (fragment : SentFragment)
  deriving DecidableEq, Repr

/-- Send a reply from a state the loop has already updated. -/
def answer (config : RuntimeConfig) (state : RuntimeState) (reply : ModuleReply)
    (attempts : List Attempt) : Option (RuntimeState × List RuntimeOutput) :=
  (replyModuleResult config.inlineBudget reply attempts).map fun (sent, result) =>
    ({ state with pc := match result with
        | .ok () => .draining
        | .error failure => .returned (.error failure) }, sent.map .replied)

/-- The rest of an iteration once Poll has returned. -/
def pollStep (config : RuntimeConfig) (state : RuntimeState) (now : UInt64)
    (attempts : List Attempt) : Client.PollOutcome → Option (RuntimeState × List RuntimeOutput)
  | .panicked => some ({ state with pc := .panicked }, [])
  | .failed .errEpoch => some ({ state with pc := .returned (.ok ()) }, [])
  | .failed failure => some ({ state with pc := .returned (.error (.bus failure)) }, [])
  | .empty => some ({ state with pc := .draining }, [])
  | .received event =>
      match consumeEvent config state now event with
      | (next, .reply reply) =>
          (answer config next reply attempts).map fun (final, sent) =>
            (final, .consumed event :: sent)
      | (next, _) => some ({ next with pc := .draining }, [.consumed event])

/-- Replace the goroutine at a position. -/
def RuntimeState.advance (state : RuntimeState) (position : Nat)
    (move : HandlerRun → Option (HandlerRun × List RuntimeOutput)) :
    Option (RuntimeState × List RuntimeOutput) :=
  match state.running.drop position with
  | [] => none
  | run :: rest =>
      (move run).map fun (next, emitted) =>
        ({ state with running := state.running.take position ++ next :: rest }, emitted)

/-- One step of runHandler before it sends its result. -/
def handlerStep (flags : List Bool) (run : HandlerRun) :
    RuntimeAction → Option (HandlerRun × List RuntimeOutput)
  | .invoke _ =>
      match run.phase with
      | .ready body => some ({ run with phase := .calling }, [.invoked run.work body])
      | _ => none
  | .handlerReturns _ response status =>
      match run.phase with
      | .calling =>
          let (settled, body) := settleResult status response
          some ({ run with phase := .answered body settled },
            [.answered run.work response status])
      | _ => none
  | .checkCancelled _ now =>
      match run.phase with
      | .answered body status =>
          let (status, body) := overrideResult run.work (flagOf flags run.work) now status body
          some ({ run with phase := .checked body status }, [])
      | _ => none
  | _ => none

/-- The send on the buffered channel, which blocks while the buffer is full. -/
def deliverStep (state : RuntimeState) (position : Nat) :
    Option (RuntimeState × List RuntimeOutput) :=
  match state.running.drop position with
  | [] => none
  | run :: rest =>
      match run.phase with
      | .checked body status =>
          if state.done.length < moduleMaxInFlight then
            some ({ state with
              running := state.running.take position ++ rest
              done := state.done ++ [⟨run.work, body, status⟩] }, [])
          else none
      | _ => none

/-- Set the flag of every job. -/
def cancelAll (state : RuntimeState) : List Bool :=
  state.jobs.entries.foldl (fun flags entry => setFlag flags entry.2) state.flags

def runtimeStep (config : RuntimeConfig) (state : RuntimeState) (action : RuntimeAction) :
    Option (RuntimeState × List RuntimeOutput) :=
  match action, state.pc with
  | .receive attempts, .draining =>
      match state.done with
      | [] => none
      | result :: rest =>
          answer config { state with
            done := rest, jobs := state.jobs.erase result.work.correlationID } result.reply attempts
  | .drained ctxDone epochChanged now, .draining =>
      if state.done ≠ [] then none
      else if ctxDone then some ({ state with pc := .stopping, flags := cancelAll state }, [])
      else if epochChanged then some ({ state with pc := .returned (.ok ()) }, [])
      else some ({ state with pc := .polling now }, [])
  | .poll outcome attempts, .polling now => pollStep config state now attempts outcome
  | .invoke position, _ => state.advance position (handlerStep state.flags · action)
  | .handlerReturns position _ _, _ => state.advance position (handlerStep state.flags · action)
  | .checkCancelled position _, _ => state.advance position (handlerStep state.flags · action)
  | .deliver position, _ => deliverStep state position
  | .collect, .stopping =>
      match state.done with
      | [] => none
      | result :: rest =>
          if state.jobs.keys.length > 0 then
            some ({ state with
              done := rest, jobs := state.jobs.erase result.work.correlationID }, [])
          else none
  | .stopped, .stopping =>
      if state.jobs.keys.length > 0 then none
      else some ({ state with pc := .returned (.ok ()) }, [])
  | _, _ => none

def runtimeMachine (config : RuntimeConfig) : Machine RuntimeState RuntimeAction RuntimeOutput where
  step := runtimeStep config

end AimeeLearning.Bus
