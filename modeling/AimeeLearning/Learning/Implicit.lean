import AimeeLearning.Learning.CallEvents
import Mathlib.Algebra.Order.Field.Basic
import Mathlib.Data.Rat.Cast.Order
import Mathlib.Logic.Function.Basic
import Mathlib.Tactic.Ring

/-! The implicit-signal detectors beside the router's API, and the latency
telemetry of both. The dogfood module and the clock are given by the environment;
milliseconds are exact rationals. -/

set_option autoImplicit false

namespace AimeeLearning.Learning

open Library Traced Observe

variable {σ ν : Type}

section Telemetry

structure Timespec where
  sec : Int
  nsec : Int

/-- The two readings of CLOCK_MONOTONIC around a path. -/
structure Stopwatch where
  t0 : Timespec
  t1 : Timespec

def Stopwatch.ms (watch : Stopwatch) : Rat :=
  (watch.t1.sec - watch.t0.sec : Int) * 1000 + (watch.t1.nsec - watch.t0.nsec : Int) / 1000000

/-- The readings of a clock that does not run backwards. -/
structure Stopwatch.Ordered (watch : Stopwatch) : Prop where
  started : 0 ≤ watch.t0.nsec ∧ watch.t0.nsec < 1000000000
  stopped : 0 ≤ watch.t1.nsec ∧ watch.t1.nsec < 1000000000
  later : watch.t0.sec < watch.t1.sec ∨
    watch.t0.sec = watch.t1.sec ∧ watch.t0.nsec ≤ watch.t1.nsec

theorem Stopwatch.Ordered.ms_nonneg {watch : Stopwatch} (ordered : watch.Ordered) :
    0 ≤ watch.ms := by
  have elapsed : (0 : Int) ≤
      (watch.t1.sec - watch.t0.sec) * 1000000000 + (watch.t1.nsec - watch.t0.nsec) := by
    have started := ordered.started
    have stopped := ordered.stopped
    rcases ordered.later with seconds | ⟨same, nanos⟩ <;> omega
  have scaled : watch.ms = ((watch.t1.sec - watch.t0.sec) * 1000000000 +
      (watch.t1.nsec - watch.t0.nsec) : Int) / 1000000 := by
    rw [Stopwatch.ms]
    push_cast
    ring
  rw [scaled]
  exact div_nonneg (by exact_mod_cast elapsed) (by norm_num)

/-- Whether a path counts for ingest or for detection. -/
inductive Channel where
  | ingest
  | detection
  deriving DecidableEq

/-- The three process-local numbers of a channel. -/
structure Telemetry where
  calls : Int
  msSum : Rat
  msMax : Rat
  deriving DecidableEq

def Telemetry.zero : Telemetry := ⟨0, 0, 0⟩

/-- `learning_ingest_record_ms` and `learning_router_record_detection_ms` -/
def Telemetry.recordMs (ms : Rat) (telemetry : Telemetry) : Telemetry :=
  if ms < 0 then telemetry
  else
    { calls := telemetry.calls + 1
      msSum := telemetry.msSum + ms
      msMax := if ms > telemetry.msMax then ms else telemetry.msMax }

/-- The calls, the average and the maximum. -/
def Telemetry.metrics (telemetry : Telemetry) : Int × Rat × Rat :=
  (telemetry.calls, if telemetry.calls > 0 then telemetry.msSum / telemetry.calls else 0,
    telemetry.msMax)

end Telemetry

section Process

/-- The router's world and the statics of the learning process. -/
structure LearningProcess (σ : Type) where
  world : σ
  telemetry : Channel → Telemetry

inductive ProcessEvent (ν : Type) where
  | router (event : RouterEvent ν)
  | timed (channel : Channel) (ms : Rat)
  | reset (channel : Channel)

abbrev ProcessM (σ ν α : Type) := Traced (LearningProcess σ) (ProcessEvent ν) α

/-- A program of the router inside the process. -/
def onWorld {α : Type} (program : RouterM σ ν α) : ProcessM σ ν α :=
  within LearningProcess.world (fun world process => { process with world }) .router program

def recordMs (channel : Channel) (ms : Rat) : ProcessM σ ν Unit := do
  call fun process => ((), { process with
    telemetry := Function.update process.telemetry channel
      ((process.telemetry channel).recordMs ms) })
  emit (.timed channel ms)

/-- `learning_router_metrics_reset` and `learning_router_detection_metrics_reset` -/
def metricsReset (channel : Channel) : ProcessM σ ν Unit := do
  call fun process => ((), { process with
    telemetry := Function.update process.telemetry channel .zero })
  emit (.reset channel)

variable (env : RouterEnv σ ν)

/-- learning_router_record_signal with its clock: a path that stores the signal
reaches the end of the function and is timed, the others return before. -/
def recordSignalTimed (rawInput : Option LearningSignalInput)
    (out : Option LearningDispatchResult) (watch : Stopwatch) :
    ProcessM σ ν (Int × Option LearningDispatchResult) := do
  let (code, noted) ← onWorld (learningRouterRecordSignal env rawInput out)
  if code > 0 then do
    recordMs .ingest watch.ms
    return (code, noted)
  else return (code, noted)

end Process

section Detectors

/-- What the dogfood module makes of a user turn. -/
inductive AutolabelKind where
  | repair
  | continuation
  | other
  deriving DecidableEq

/-- The configuration flags and the dogfood look-ups of the detectors. -/
structure DetectorEnv (σ : Type) where
  configCitationRepair : σ → Bool
  configCitationContinuation : σ → Bool
  configRepeatQuestion : σ → Bool
  configRepeatedCorrection : σ → Bool
  configWorkflowRepetition : σ → Bool
  classifyNextTurn : σ → Bytes → AutolabelKind
  queryIsRepeat : σ → Bytes → Bytes → Bytes → Bool

/-- A zeroed field of this size that a string is printed into unless it is NULL. -/
def printedField (cap : Nat) (text : Option Bytes) : Bytes := (text.map (snprintf cap)).getD []

/-- The input `emit_implicit` records. -/
def emitImplicit (signalType polarity : String) (title description targetKey : Option Bytes)
    (targetMemoryId : Int) (workflowProject workflowSignalType : Option Bytes) :
    LearningSignalInput where
  signalType := snprintf 32 (cstr signalType)
  source := snprintf 16 (cstr "implicit")
  polarity := snprintf 16 (cstr polarity)
  title := printedField 256 title
  description := printedField 1024 description
  targetKey := printedField 256 targetKey
  targetMemoryId := targetMemoryId
  correctionText := []
  workflowProject := printedField 128 workflowProject
  workflowSignalType := printedField 64 workflowSignalType
  evidenceRefsJson := some (cstr "[]")
  highConfidence := false

variable (env : RouterEnv σ ν)

/-- One pass of a detector: behind its gate it looks for a signal, records it,
and is timed either way. -/
def detectionPass (gate : σ → Bool) (sighting : σ → Option LearningSignalInput)
    (ingest detection : Stopwatch) : ProcessM σ ν Unit := do
  if ← read (gate ·.world) then do
    match ← read (sighting ·.world) with
    | none => pure ()
    | some input => do
        let _ ← recordSignalTimed env (some input) none ingest
    recordMs .detection detection.ms
  else pure ()

variable (detectors : DetectorEnv σ)

def learningImplicitDetectTurn (userText : Option Bytes) :
    Stopwatch → Stopwatch → ProcessM σ ν Unit :=
  detectionPass env
    (fun world => userText.getD [] != [] && env.configPresent world &&
      (detectors.configCitationRepair world || detectors.configCitationContinuation world))
    fun world =>
      let kind := detectors.classifyNextTurn world (userText.getD [])
      if kind == .repair && detectors.configCitationRepair world then
        some (emitImplicit "citation_then_repair" "negative"
          (some (cstr "Implicit citation_then_repair signal"))
          (some (cstr "User turn classified as repair/correction after memory retrieval.")) none 0
          none none)
      else if kind == .continuation && detectors.configCitationContinuation world then
        some (emitImplicit "citation_then_continuation" "positive"
          (some (cstr "Implicit citation_then_continuation signal"))
          (some (cstr "User turn classified as continuation after memory retrieval.")) none 0
          none none)
      else none

def learningImplicitRecordRepeatQuestion (sessionId tool queryHash : Option Bytes) :
    Stopwatch → Stopwatch → ProcessM σ ν Unit :=
  detectionPass env
    (fun world => sessionId.isSome && tool.isSome && queryHash.getD [] != [] &&
      env.configPresent world && detectors.configRepeatQuestion world)
    fun world =>
      if detectors.queryIsRepeat world (sessionId.getD []) (tool.getD []) (queryHash.getD []) then
        some (emitImplicit "repeat_question" "negative"
          (some (cstr "Implicit repeat_question signal"))
          (some (cstr "Same (session, tool, query_hash) already appeared this month.")) tool 0
          none none)
      else none

def learningImplicitRecordCorrection (targetKey : Option Bytes) (targetMemoryId : Int) :
    Stopwatch → Stopwatch → ProcessM σ ν Unit :=
  detectionPass env
    (fun world => env.configPresent world && detectors.configRepeatedCorrection world)
    fun _ =>
      some (emitImplicit "repeated_correction" "negative"
        (some (cstr "Implicit repeated_correction signal"))
        (some (cstr "Correction signal recorded; cross-source substrate tracks recurrence."))
        targetKey targetMemoryId none none)

def learningImplicitRecordWorkflow (workspace signalType description : Option Bytes) :
    Stopwatch → Stopwatch → ProcessM σ ν Unit :=
  detectionPass env
    (fun world => workspace.getD [] != [] && signalType.getD [] != [] &&
      env.configPresent world && detectors.configWorkflowRepetition world)
    fun _ =>
      some (emitImplicit "workflow_repetition" "positive"
        (some (cstr "Implicit workflow_repetition signal")) (some (description.getD [])) workspace 0
        workspace signalType)

end Detectors

section Machine

/-- One call of a detector. -/
inductive DetectorCall where
  | detectTurn (userText : Option Bytes)
  | recordRepeatQuestion (sessionId tool queryHash : Option Bytes)
  | recordCorrection (targetKey : Option Bytes) (targetMemoryId : Int)
  | recordWorkflow (workspace signalType description : Option Bytes)

/-- One call into the learning process, with what the clock shows on the way. -/
inductive ProcessOp where
  | router (op : RouterOp) (ingest : Stopwatch)
  | detect (call : DetectorCall) (ingest detection : Stopwatch)
  | metricsReset (channel : Channel)

variable (env : RouterEnv σ ν) (detectors : DetectorEnv σ)

def runDetector : DetectorCall → Stopwatch → Stopwatch → ProcessM σ ν Unit
  | .detectTurn userText => learningImplicitDetectTurn env detectors userText
  | .recordRepeatQuestion sessionId tool queryHash =>
      learningImplicitRecordRepeatQuestion env detectors sessionId tool queryHash
  | .recordCorrection targetKey targetMemoryId =>
      learningImplicitRecordCorrection env detectors targetKey targetMemoryId
  | .recordWorkflow workspace signalType description =>
      learningImplicitRecordWorkflow env detectors workspace signalType description

def runProcessOp : ProcessOp → ProcessM σ ν Unit
  | .router (.recordSignal rawInput out) ingest => do
      let _ ← recordSignalTimed env rawInput out ingest
  | .router op _ => onWorld (runRouterOp env op)
  | .detect call ingest detection => runDetector env detectors call ingest detection
  | .metricsReset channel => metricsReset channel

def learningProcessMachine : Machine (LearningProcess σ) ProcessOp (ProcessEvent ν) where
  step process op := some ((runProcessOp env detectors op).run process).2

end Machine

end AimeeLearning.Learning
