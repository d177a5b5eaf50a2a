import AimeeLearning.Learning.Implicit
import AimeeLearning.Learning.WeeklyCap
import Mathlib.Algebra.Order.BigOperators.Group.List

/-! Runs of the learning process. Its telemetry is exact, what it does to the
store is a run of the router's calls, and its detectors stay within their sink. -/

set_option autoImplicit false

namespace AimeeLearning.Learning

open Library Traced Observe

variable {σ ν α β : Type} {env : RouterEnv σ ν} {detectors : DetectorEnv σ}
  {process final : LearningProcess σ} {events : List (ProcessEvent ν)}

section Passes

/-- An input that only a detector records. -/
structure Implicit (call : DetectorCall) (input : LearningSignalInput) : Prop where
  source : input.source = cstr "implicit"
  waits : input.highConfidence = false
  kind : input.signalType = cstr "citation_then_repair" ∨
    input.signalType = cstr "citation_then_continuation" ∨
    input.signalType = cstr "repeat_question" ∨ input.signalType = cstr "repeated_correction" ∨
    ∃ workspace signalType description, call = .recordWorkflow workspace signalType description ∧
      input.signalType = cstr "workflow_repetition" ∧
      input.workflowProject = printedField 128 workspace

/-- Every detector is a pass with a gate and an implicit input of its own. -/
theorem runDetector_pass (env : RouterEnv σ ν) (detectors : DetectorEnv σ) (call : DetectorCall) :
    ∃ gate sighting, runDetector env detectors call = detectionPass env gate sighting ∧
      ∀ world input, sighting world = some input → Implicit call input := by
  cases call with
  | detectTurn userText =>
      refine ⟨_, _, by unfold runDetector; rfl, ?_⟩
      intro world input sighted
      dsimp only at sighted
      split at sighted
      · obtain rfl := Option.some.inj sighted
        exact ⟨rfl, rfl, .inl rfl⟩
      split at sighted
      · obtain rfl := Option.some.inj sighted
        exact ⟨rfl, rfl, .inr (.inl rfl)⟩
      · cases sighted
  | recordRepeatQuestion sessionId tool queryHash =>
      refine ⟨_, _, by unfold runDetector; rfl, ?_⟩
      intro world input sighted
      split at sighted
      · obtain rfl := Option.some.inj sighted
        exact ⟨rfl, rfl, .inr (.inr (.inl rfl))⟩
      · cases sighted
  | recordCorrection targetKey targetMemoryId =>
      refine ⟨_, _, by unfold runDetector; rfl, ?_⟩
      intro world input sighted
      obtain rfl := Option.some.inj sighted
      exact ⟨rfl, rfl, .inr (.inr (.inr (.inl rfl)))⟩
  | recordWorkflow workspace signalType description =>
      refine ⟨_, _, by unfold runDetector; rfl, ?_⟩
      intro world input sighted
      obtain rfl := Option.some.inj sighted
      exact ⟨rfl, rfl, .inr (.inr (.inr (.inr ⟨workspace, signalType, description, rfl, rfl, rfl⟩)))⟩

theorem recordMs_spec {channel : Channel} {ms : Rat} {value : Unit}
    (ran : (recordMs channel ms : ProcessM σ ν Unit).run process = (value, final, events)) :
    final.world = process.world ∧ events = [.timed channel ms] := by
  obtain ⟨_, _, _, _, changed, reported, rfl⟩ := run_bind_iff.mp ran
  obtain ⟨same, rfl⟩ := run_call_iff.mp changed
  obtain ⟨rfl, rfl⟩ := run_emit_iff.mp reported
  obtain rfl := congrArg Prod.snd same
  exact ⟨rfl, rfl⟩

/-- A timed signal is a recorded one, with its sample behind it if it was stored. -/
theorem recordSignalTimed_spec {rawInput : Option LearningSignalInput}
    {out : Option LearningDispatchResult} {watch : Stopwatch}
    {result : Int × Option LearningDispatchResult}
    (ran : (recordSignalTimed env rawInput out watch).run process = (result, final, events)) :
    ∃ reported, (learningRouterRecordSignal env rawInput out).run process.world =
        (result, final.world, reported) ∧
      events = reported.map .router ++
        if 0 < result.1 then [.timed .ingest watch.ms] else [] := by
  obtain ⟨⟨code, noted⟩, _, _, _, recorded, timing, rfl⟩ := run_bind_iff.mp ran
  obtain ⟨world, reported, calling, rfl, rfl⟩ := run_within_iff.mp recorded
  dsimp only at timing
  split at timing
  · rename_i positive
    obtain ⟨_, _, _, _, measured, ended, rfl⟩ := run_bind_iff.mp timing
    obtain ⟨rfl, rfl, rfl⟩ := run_pure_iff.mp ended
    obtain ⟨same, rfl⟩ := recordMs_spec measured
    rw [same, if_pos positive, List.append_nil]
    exact ⟨reported, calling, rfl⟩
  · rename_i positive
    obtain ⟨rfl, rfl, rfl⟩ := run_pure_iff.mp timing
    rw [if_neg positive]
    exact ⟨reported, calling, rfl⟩

/-- A pass does nothing, or is timed behind the signal it recorded, if any. -/
theorem detectionPass_spec {gate : σ → Bool} {sighting : σ → Option LearningSignalInput}
    {ingest detection : Stopwatch} {value : Unit}
    (ran : (detectionPass env gate sighting ingest detection).run process =
      (value, final, events)) :
    (final = process ∧ events = []) ∨
      ∃ early between, events = early ++ [.timed .detection detection.ms] ∧
        final.world = between.world ∧
        ((between = process ∧ early = []) ∨ ∃ input result,
          sighting process.world = some input ∧
          (recordSignalTimed env (some input) none ingest).run process =
            (result, between, early)) := by
  obtain ⟨enters, _, _, _, gated, passing, rfl⟩ := run_bind_iff.mp ran
  obtain ⟨-, rfl, rfl⟩ := run_read_iff.mp gated
  split at passing
  · obtain ⟨sighted, _, _, _, looked, recording, rfl⟩ := run_bind_iff.mp passing
    obtain ⟨saw, rfl, rfl⟩ := run_read_iff.mp looked
    split at recording
    · obtain ⟨same, rfl⟩ := recordMs_spec recording
      exact .inr ⟨[], _, rfl, same, .inl ⟨rfl, rfl⟩⟩
    · rename_i input
      obtain ⟨result, between, early, _, recorded, timing, rfl⟩ := run_bind_iff.mp recording
      obtain ⟨same, rfl⟩ := recordMs_spec timing
      exact .inr ⟨early, between, rfl, same, .inr ⟨input, result, saw.symm, recorded⟩⟩
  · obtain ⟨-, rfl, rfl⟩ := run_pure_iff.mp passing
    exact .inl ⟨rfl, rfl⟩

end Passes

section Telemetry

/-- What an event does to the numbers of a channel. -/
def Telemetry.after (channel : Channel) (telemetry : Telemetry) : ProcessEvent ν → Telemetry
  | .router _ => telemetry
  | .timed other ms => if other = channel then telemetry.recordMs ms else telemetry
  | .reset other => if other = channel then .zero else telemetry

/-- The program's events tell what becomes of the telemetry. -/
def Tracked (program : ProcessM σ ν α) : Prop :=
  ∀ process value final events, program.run process = (value, final, events) → ∀ channel,
    final.telemetry channel = events.foldl (Telemetry.after channel) (process.telemetry channel)

theorem tracked_pure (value : α) : Tracked (pure value : ProcessM σ ν α) := by
  intro process result final events ran channel
  obtain ⟨-, rfl, rfl⟩ := run_pure_iff.mp ran
  rfl

theorem tracked_read (view : LearningProcess σ → α) : Tracked (read view : ProcessM σ ν α) := by
  intro process result final events ran channel
  obtain ⟨-, rfl, rfl⟩ := run_read_iff.mp ran
  rfl

theorem Tracked.bind {first : ProcessM σ ν α} {next : α → ProcessM σ ν β}
    (begins : Tracked first) (goesOn : ∀ value, Tracked (next value)) :
    Tracked (first >>= next) := by
  intro process result final events ran channel
  obtain ⟨value, middle, early, late, began, ended, rfl⟩ := run_bind_iff.mp ran
  rw [List.foldl_append, ← begins _ _ _ _ began channel]
  exact goesOn value _ _ _ _ ended channel

theorem foldl_router (channel : Channel) (telemetry : Telemetry) (reported : List (RouterEvent ν)) :
    (reported.map ProcessEvent.router).foldl (Telemetry.after channel) telemetry = telemetry := by
  induction reported with
  | nil => rfl
  | cons _ _ ih => exact ih

theorem tracked_onWorld (program : RouterM σ ν α) : Tracked (onWorld program) := by
  intro process value final events ran channel
  obtain ⟨world, reported, -, rfl, rfl⟩ := run_within_iff.mp ran
  exact (foldl_router channel _ reported).symm

theorem tracked_recordMs (channel : Channel) (ms : Rat) :
    Tracked (recordMs channel ms : ProcessM σ ν Unit) := by
  intro process value final events ran other
  obtain ⟨_, _, _, _, changed, reported, rfl⟩ := run_bind_iff.mp ran
  obtain ⟨same, rfl⟩ := run_call_iff.mp changed
  obtain ⟨rfl, rfl⟩ := run_emit_iff.mp reported
  obtain rfl := congrArg Prod.snd same
  by_cases here : channel = other
  · subst here
    simp [Telemetry.after]
  · simp [Telemetry.after, here, Ne.symm here]

theorem tracked_metricsReset (channel : Channel) :
    Tracked (metricsReset channel : ProcessM σ ν Unit) := by
  intro process value final events ran other
  obtain ⟨_, _, _, _, changed, reported, rfl⟩ := run_bind_iff.mp ran
  obtain ⟨same, rfl⟩ := run_call_iff.mp changed
  obtain ⟨rfl, rfl⟩ := run_emit_iff.mp reported
  obtain rfl := congrArg Prod.snd same
  by_cases here : channel = other
  · subst here
    simp [Telemetry.after]
  · simp [Telemetry.after, here, Ne.symm here]

theorem recordSignalTimed_tracked (rawInput : Option LearningSignalInput)
    (out : Option LearningDispatchResult) (watch : Stopwatch) :
    Tracked (recordSignalTimed env rawInput out watch) := by
  refine (tracked_onWorld _).bind fun result => ?_
  obtain ⟨code, noted⟩ := result
  by_cases stored : code > 0
  · simp only [stored, if_true]
    exact (tracked_recordMs _ _).bind fun _ => tracked_pure _
  · simp only [stored, if_false]
    exact tracked_pure _

theorem detectionPass_tracked (gate : σ → Bool) (sighting : σ → Option LearningSignalInput)
    (ingest detection : Stopwatch) : Tracked (detectionPass env gate sighting ingest detection) := by
  refine (tracked_read _).bind fun enters => ?_
  split
  · refine (tracked_read _).bind fun sighted => ?_
    split
    · exact tracked_recordMs _ _
    · exact (recordSignalTimed_tracked _ _ _).bind fun _ => tracked_recordMs _ _
  · exact tracked_pure _

theorem runProcessOp_tracked (op : ProcessOp) : Tracked (runProcessOp env detectors op) := by
  cases op with
  | router op ingest =>
      cases op with
      | recordSignal rawInput out =>
          exact (recordSignalTimed_tracked _ _ _).bind fun _ => tracked_pure _
      | _ => exact tracked_onWorld _
  | detect call ingest detection =>
      obtain ⟨gate, sighting, same, -⟩ := runDetector_pass env detectors call
      rw [runProcessOp, same]
      exact detectionPass_tracked gate sighting ingest detection
  | metricsReset channel => exact tracked_metricsReset channel

end Telemetry

section Samples

def keepSample (channel : Channel) (samples : List Rat) : ProcessEvent ν → List Rat
  | .router _ => samples
  | .timed other ms => if other = channel ∧ 0 ≤ ms then samples ++ [ms] else samples
  | .reset other => if other = channel then [] else samples

/-- What was timed on a channel since its last reset. -/
def samplesSince (channel : Channel) (events : List (ProcessEvent ν)) : List Rat :=
  events.foldl (keepSample channel) []

def Telemetry.of (samples : List Rat) : Telemetry where
  calls := samples.length
  msSum := samples.sum
  msMax := samples.foldl max 0

theorem Telemetry.recordMs_of {ms : Rat} (forward : 0 ≤ ms) (samples : List Rat) :
    (Telemetry.of samples).recordMs ms = .of (samples ++ [ms]) := by
  rw [Telemetry.recordMs, if_neg (not_lt.mpr forward)]
  have greatest : (if ms > samples.foldl max 0 then ms else samples.foldl max 0) =
      (samples ++ [ms]).foldl max 0 := by
    rw [List.foldl_append, List.foldl_cons, List.foldl_nil, max_def_lt]
  simp [Telemetry.of, greatest]

theorem Telemetry.after_of (channel : Channel) (samples : List Rat) (event : ProcessEvent ν) :
    (Telemetry.of samples).after channel event = .of (keepSample channel samples event) := by
  cases event with
  | router event => rfl
  | timed other ms =>
      by_cases here : other = channel
      · by_cases forward : 0 ≤ ms
        · simp [Telemetry.after, keepSample, here, forward, Telemetry.recordMs_of]
        · simp [Telemetry.after, keepSample, here, forward, Telemetry.recordMs, not_le.mp forward]
      · simp [Telemetry.after, keepSample, here]
  | reset other =>
      by_cases here : other = channel
      · simp [Telemetry.after, keepSample, here, Telemetry.of, Telemetry.zero]
      · simp [Telemetry.after, keepSample, here]

theorem foldl_after_of (channel : Channel) (samples : List Rat) (events : List (ProcessEvent ν)) :
    events.foldl (Telemetry.after channel) (.of samples) =
      .of (events.foldl (keepSample channel) samples) := by
  induction events generalizing samples with
  | nil => rfl
  | cons event rest ih => rw [List.foldl_cons, Telemetry.after_of, ih, List.foldl_cons]

theorem samplesSince_nonneg (channel : Channel) (events : List (ProcessEvent ν)) :
    ∀ ms ∈ samplesSince channel events, 0 ≤ ms := by
  have kept : ∀ samples : List Rat, (∀ ms ∈ samples, 0 ≤ ms) →
      ∀ ms ∈ events.foldl (keepSample channel) samples, 0 ≤ ms := by
    induction events with
    | nil => exact fun _ nonneg => nonneg
    | cons event rest ih =>
        intro samples nonneg
        refine ih _ ?_
        cases event with
        | router event => exact nonneg
        | timed other ms =>
            simp only [keepSample]
            split
            · rename_i taken
              intro sample member
              rcases List.mem_append.mp member with earlier | last
              · exact nonneg sample earlier
              · rw [List.mem_singleton.mp last]
                exact taken.2
            · exact nonneg
        | reset other =>
            simp only [keepSample]
            split
            · exact fun _ member => absurd member List.not_mem_nil
            · exact nonneg
  exact kept [] fun _ member => absurd member List.not_mem_nil

theorem le_foldl_max (samples : List Rat) (least : Rat) :
    least ≤ samples.foldl max least ∧ ∀ ms ∈ samples, ms ≤ samples.foldl max least := by
  induction samples generalizing least with
  | nil => simp
  | cons first rest ih =>
      obtain ⟨above, among⟩ := ih (max least first)
      refine ⟨(le_max_left _ _).trans above, List.forall_mem_cons.mpr ⟨?_, among⟩⟩
      exact (le_max_right _ _).trans above

/-- The metrics are those of the samples: their number, their mean and a bound of
them, never below the mean. -/
structure MetricsOf (samples : List Rat) (metrics : Int × Rat × Rat) : Prop where
  calls : metrics.1 = samples.length
  mean : metrics.1 * metrics.2.1 = samples.sum
  nonneg : 0 ≤ metrics.2.1
  bounded : ∀ ms ∈ samples, ms ≤ metrics.2.2
  mean_le : metrics.2.1 ≤ metrics.2.2

theorem metrics_of {samples : List Rat} (nonneg : ∀ ms ∈ samples, 0 ≤ ms) :
    MetricsOf samples (Telemetry.of samples).metrics := by
  obtain ⟨least, among⟩ := le_foldl_max samples 0
  cases samples with
  | nil =>
      have still : (Telemetry.of []).metrics = (0, 0, 0) := rfl
      rw [still]
      exact ⟨rfl, by simp, le_refl _, by simp, le_refl _⟩
  | cons first rest =>
      have some_ : (0 : Int) < (first :: rest).length := Int.natCast_pos.mpr (by simp)
      have counted : (0 : Rat) < ((first :: rest).length : Int) := by exact_mod_cast some_
      have average : (Telemetry.of (first :: rest)).metrics.2.1 =
          (first :: rest).sum / ((first :: rest).length : Int) := by
        rw [Telemetry.metrics, Telemetry.of]
        exact if_pos some_
      refine ⟨rfl, ?_, ?_, among, ?_⟩
      · rw [average]
        exact mul_div_cancel₀ _ counted.ne'
      · rw [average]
        exact div_nonneg (List.sum_nonneg nonneg) counted.le
      · rw [average, div_le_iff₀ counted, mul_comm]
        have bound := List.sum_le_card_nsmul (first :: rest) _ among
        rw [nsmul_eq_mul] at bound
        exact_mod_cast bound

end Samples

section Stored

def keepStored (ids : List Int) : ProcessEvent ν → List Int
  | .router event => ids ++ storedSignals [event]
  | .timed _ _ => ids
  | .reset channel => if channel = .ingest then [] else ids

/-- The signals stored since the ingest numbers were reset. -/
def storedSince (events : List (ProcessEvent ν)) : List Int := events.foldl keepStored []

/-- The events store as many signals as they time. -/
def EvenlyTimed (events : List (ProcessEvent ν)) : Prop :=
  ∀ (ids : List Int) (samples : List Rat), ids.length = samples.length →
    (events.foldl keepStored ids).length = (events.foldl (keepSample .ingest) samples).length

theorem EvenlyTimed.append {early late : List (ProcessEvent ν)} (left : EvenlyTimed early)
    (right : EvenlyTimed late) : EvenlyTimed (early ++ late) := by
  intro ids samples same
  rw [List.foldl_append, List.foldl_append]
  exact right _ _ (left ids samples same)

theorem foldl_keepStored_router (ids : List Int) (reported : List (RouterEvent ν)) :
    (reported.map ProcessEvent.router).foldl keepStored ids = ids ++ storedSignals reported := by
  induction reported generalizing ids with
  | nil => exact (List.append_nil ids).symm
  | cons event rest ih =>
      rw [List.map_cons, List.foldl_cons, ih, keepStored, List.append_assoc, storedSignals,
        storedSignals, storedSignals, ← List.filterMap_append, List.singleton_append]

theorem foldl_keepSample_router (samples : List Rat) (reported : List (RouterEvent ν)) :
    (reported.map ProcessEvent.router).foldl (keepSample .ingest) samples = samples := by
  induction reported with
  | nil => rfl
  | cons _ _ ih => exact ih

theorem evenlyTimed_router {reported : List (RouterEvent ν)} (none : storedSignals reported = []) :
    EvenlyTimed (reported.map ProcessEvent.router) := by
  intro ids samples same
  rw [foldl_keepStored_router, foldl_keepSample_router, none, List.append_nil, same]

/-- A signal is stored and timed, or neither. -/
theorem recordSignalTimed_even {rawInput : Option LearningSignalInput}
    {out : Option LearningDispatchResult} {watch : Stopwatch} (forward : 0 ≤ watch.ms)
    {result : Int × Option LearningDispatchResult}
    (ran : (recordSignalTimed env rawInput out watch).run process = (result, final, events)) :
    EvenlyTimed events := by
  obtain ⟨reported, recorded, rfl⟩ := recordSignalTimed_spec ran
  have stored : storedSignals reported = if 0 < result.1 then [result.1] else [] := by
    cases rawInput with
    | none =>
        obtain ⟨same, -, rfl⟩ := run_pure_iff.mp recorded
        rw [same]
        rfl
    | some raw => exact (learningRouterRecordSignal_events recorded).storedSignals_eq
  intro ids samples same
  rw [List.foldl_append, List.foldl_append, foldl_keepStored_router, foldl_keepSample_router,
    stored]
  split
  · simp [keepStored, keepSample, forward, same]
  · simpa using same

/-- The clock readings of a call are in order. -/
def ProcessOp.Forward : ProcessOp → Prop
  | .router _ ingest => ingest.Ordered
  | .detect _ ingest _ => ingest.Ordered
  | .metricsReset _ => True

theorem runProcessOp_plain {op : RouterOp} {ingest : Stopwatch}
    (other : ∀ rawInput out, op ≠ .recordSignal rawInput out) :
    runProcessOp env detectors (.router op ingest) = onWorld (runRouterOp env op) := by
  cases op with
  | recordSignal rawInput out => exact absurd rfl (other rawInput out)
  | _ => rfl

theorem runProcessOp_even {op : ProcessOp} (forward : op.Forward)
    (ran : (runProcessOp env detectors op).run process = ((), final, events)) :
    EvenlyTimed events := by
  cases op with
  | router op ingest =>
      by_cases records : ∃ rawInput out, op = .recordSignal rawInput out
      · obtain ⟨rawInput, out, rfl⟩ := records
        obtain ⟨result, _, _, _, recorded, ended, rfl⟩ := run_bind_iff.mp ran
        obtain ⟨-, -, rfl⟩ := run_pure_iff.mp ended
        rw [List.append_nil]
        exact recordSignalTimed_even forward.ms_nonneg recorded
      · have other : ∀ rawInput out, op ≠ .recordSignal rawInput out :=
          fun rawInput out same => records ⟨rawInput, out, same⟩
        rw [runProcessOp_plain other] at ran
        obtain ⟨world, reported, calling, -, rfl⟩ := run_within_iff.mp ran
        obtain ⟨id, emits⟩ := runRouterOp_emits env op other
        exact evenlyTimed_router (CommitEvent.unstored (emits _ _ _ _ calling))
  | detect call ingest detection =>
      obtain ⟨gate, sighting, same, -⟩ := runDetector_pass env detectors call
      rw [runProcessOp, same] at ran
      rcases detectionPass_spec ran with ⟨-, rfl⟩ | ⟨early, between, rfl, -, recorded⟩
      · exact fun _ _ same => same
      refine EvenlyTimed.append ?_ fun _ _ same => same
      rcases recorded with ⟨-, rfl⟩ | ⟨input, result, -, recorded⟩
      · exact fun _ _ same => same
      · exact recordSignalTimed_even forward.ms_nonneg recorded
  | metricsReset channel =>
      obtain ⟨_, _, _, _, changed, reported, rfl⟩ := run_bind_iff.mp ran
      obtain ⟨-, rfl⟩ := run_call_iff.mp changed
      obtain ⟨-, rfl⟩ := run_emit_iff.mp reported
      intro ids samples same
      cases channel with
      | ingest => rfl
      | detection => exact same

end Stored

section Afternoon

/-- The world of an afternoon whose classifier is the policy. -/
def policyWorld : MemoryWorld :=
  { afternoon with classify := fun signal => signalPolicySinkMask (terminated signal) }

/-- Detectors that are all enabled and see something in everything. -/
def everyDetector : DetectorEnv MemoryStore :=
  ⟨fun _ => true, fun _ => true, fun _ => true, fun _ => true, fun _ => true,
    fun _ _ => .repair, fun _ _ _ _ => true⟩

/-- Two milliseconds. -/
def shortWatch : Stopwatch := ⟨⟨1, 0⟩, ⟨1, 2000000⟩⟩

/-- A repaired turn, a reset, then the same workflow twice. -/
def implicitOps : List ProcessOp :=
  let workflow : DetectorCall :=
    .recordWorkflow (some (cstr "aimee")) (some (cstr "build")) (some (cstr "make"))
  [.detect (.detectTurn (some (cstr "no"))) shortWatch shortWatch, .metricsReset .ingest,
    .detect workflow shortWatch shortWatch, .detect workflow shortWatch shortWatch]

def startedProcess : LearningProcess MemoryStore := ⟨.empty, fun _ => .zero⟩

def processRun (ops : List ProcessOp) : LearningProcess MemoryStore × List (ProcessEvent Int) :=
  ((learningProcessMachine (memoryEnv policyWorld) everyDetector).execute startedProcess ops).getD
    (startedProcess, [])

theorem processRun_run (ops : List ProcessOp) :
    (learningProcessMachine (memoryEnv policyWorld) everyDetector).Run startedProcess ops
      (processRun ops).1 (processRun ops).2 := by
  have executes : ∀ start, ((learningProcessMachine (memoryEnv policyWorld)
      everyDetector).execute start ops).isSome := by
    induction ops with
    | nil => exact fun _ => rfl
    | cons op rest ih =>
        intro start
        obtain ⟨result, same⟩ := Option.isSome_iff_exists.mp
          (ih ((runProcessOp (memoryEnv policyWorld) everyDetector op).run start).2.1)
        simp only [Machine.execute, learningProcessMachine] at same ⊢
        rw [same]
        rfl
  obtain ⟨result, same⟩ := Option.isSome_iff_exists.mp (executes startedProcess)
  unfold processRun
  rw [same]
  exact Machine.run_of_execute same

end Afternoon

section Runs

variable {start : LearningProcess σ} {ops : List ProcessOp}

theorem learningProcessMachine_step {op : ProcessOp} :
    (learningProcessMachine env detectors).step process op = some (final, events) ↔
      (runProcessOp env detectors op).run process = ((), final, events) := by
  simp only [learningProcessMachine, Option.some.injEq, Prod.ext_iff, true_and]

theorem run_tracked (run : (learningProcessMachine env detectors).Run start ops process events)
    (channel : Channel) :
    process.telemetry channel =
      events.foldl (Telemetry.after channel) (start.telemetry channel) := by
  induction run with
  | nil => rfl
  | snoc _ taken ih =>
      rw [List.foldl_append, ← ih]
      exact runProcessOp_tracked _ _ _ _ _ (learningProcessMachine_step.mp taken) channel

theorem run_even (run : (learningProcessMachine env detectors).Run start ops process events)
    (forward : ∀ op ∈ ops, op.Forward) : EvenlyTimed events := by
  induction run with
  | nil => exact fun _ _ same => same
  | snoc _ taken ih =>
      refine (ih fun op member => forward op (List.mem_append_left _ member)).append ?_
      exact runProcessOp_even (forward _ (by simp)) (learningProcessMachine_step.mp taken)

/-- After any run from the start of the process the metrics of each channel are
those of the passes timed since its last reset, whatever was reset on the other
one; with a clock that does not run backwards the ingest calls are the signals
stored since. -/
theorem process_telemetry
    (run : (learningProcessMachine env detectors).Run start ops process events)
    (fresh : ∀ channel, start.telemetry channel = .zero) :
    (∀ channel, process.telemetry channel = .of (samplesSince channel events) ∧
      MetricsOf (samplesSince channel events) (process.telemetry channel).metrics) ∧
    ((∀ op ∈ ops, op.Forward) →
      (process.telemetry .ingest).calls = (storedSince events).length) := by
  have numbers : ∀ channel, process.telemetry channel = .of (samplesSince channel events) := by
    intro channel
    rw [run_tracked run, fresh, samplesSince]
    exact foldl_after_of channel [] events
  refine ⟨fun channel => ⟨numbers channel, ?_⟩, fun forward => ?_⟩
  · rw [numbers]
    exact metrics_of (samplesSince_nonneg channel events)
  · rw [numbers]
    exact congrArg Int.ofNat (run_even run forward [] [] rfl).symm

/-- Three signals are stored, two of them since the reset. -/
theorem process_telemetry_reset :
    storedSince (processRun implicitOps).2 = [2, 3] ∧
      ((processRun implicitOps).1.telemetry .ingest).calls = 2 ∧
      ((processRun implicitOps).1.telemetry .detection).metrics = (3, 2, 2) := by
  have stored : storedSince (processRun implicitOps).2 = [2, 3] := by decide +kernel
  have ordered : shortWatch.Ordered := ⟨by decide, by decide, by decide⟩
  have forward : ∀ op ∈ implicitOps, op.Forward := by
    simp [implicitOps, ProcessOp.Forward, ordered]
  have counted := (process_telemetry (processRun_run implicitOps) fun _ => rfl).2 forward
  rw [stored] at counted
  exact ⟨stored, counted, by decide +kernel⟩

end Runs

section Calls

/-- What the events did to the store. -/
def routerEvents (events : List (ProcessEvent ν)) : List (RouterEvent ν) :=
  events.filterMap fun
    | .router event => some event
    | _ => none

theorem routerEvents_append (early late : List (ProcessEvent ν)) :
    routerEvents (early ++ late) = routerEvents early ++ routerEvents late :=
  List.filterMap_append

theorem routerEvents_router (reported : List (RouterEvent ν)) :
    routerEvents (reported.map ProcessEvent.router) = reported := by
  induction reported with
  | nil => rfl
  | cons event rest ih => exact congrArg (event :: ·) ih

/-- The router call a call into the process may come down to. -/
def ComesFrom (op : ProcessOp) (call : RouterOp) : Prop :=
  (∃ ingest, op = .router call ingest) ∨
    ∃ detector ingest detection input, op = .detect detector ingest detection ∧
      call = .recordSignal (some input) none ∧ Implicit detector input

/-- A call into the process is at most one call of the router. -/
theorem runProcessOp_calls {op : ProcessOp}
    (ran : (runProcessOp env detectors op).run process = ((), final, events)) :
    ∃ calls, (∀ call ∈ calls, ComesFrom op call) ∧
      (routerMachine env).Run process.world calls final.world (routerEvents events) := by
  have recorded_call : ∀ {rawInput : Option LearningSignalInput}
      {out : Option LearningDispatchResult} {watch : Stopwatch}
      {result : Int × Option LearningDispatchResult} {between : LearningProcess σ}
      {early : List (ProcessEvent ν)},
      (recordSignalTimed env rawInput out watch).run process = (result, between, early) →
      (routerMachine env).Run process.world [.recordSignal rawInput out] between.world
        (routerEvents early) := by
    intro rawInput out watch result between early recorded
    obtain ⟨reported, calling, rfl⟩ := recordSignalTimed_spec recorded
    have only : routerEvents (reported.map .router ++
        if 0 < result.1 then [.timed .ingest watch.ms] else []) = reported := by
      rw [routerEvents_append, routerEvents_router]
      split <;> exact List.append_nil reported
    rw [only]
    refine .single (routerMachine_step.mpr ?_)
    exact run_bind_iff.mpr ⟨_, _, _, _, calling, rfl, (List.append_nil _).symm⟩
  cases op with
  | router op ingest =>
      refine ⟨[op], fun call member => .inl ⟨ingest, by rw [List.mem_singleton.mp member]⟩, ?_⟩
      by_cases records : ∃ rawInput out, op = .recordSignal rawInput out
      · obtain ⟨rawInput, out, rfl⟩ := records
        obtain ⟨result, _, _, _, recorded, ended, rfl⟩ := run_bind_iff.mp ran
        obtain ⟨-, rfl, rfl⟩ := run_pure_iff.mp ended
        rw [List.append_nil]
        exact recorded_call recorded
      · rw [runProcessOp_plain fun rawInput out same => records ⟨rawInput, out, same⟩] at ran
        obtain ⟨world, reported, calling, rfl, rfl⟩ := run_within_iff.mp ran
        rw [routerEvents_router]
        exact .single (routerMachine_step.mpr calling)
  | detect call ingest detection =>
      obtain ⟨gate, sighting, same, implicit⟩ := runDetector_pass env detectors call
      rw [runProcessOp, same] at ran
      rcases detectionPass_spec ran with ⟨rfl, rfl⟩ | ⟨early, between, rfl, world, recorded⟩
      · exact ⟨[], fun _ member => absurd member List.not_mem_nil, .nil⟩
      rw [world, routerEvents_append]
      rcases recorded with ⟨rfl, rfl⟩ | ⟨input, result, sighted, recorded⟩
      · exact ⟨[], fun _ member => absurd member List.not_mem_nil, .nil⟩
      · refine ⟨[.recordSignal (some input) none], fun other member => .inr ?_, ?_⟩
        · exact ⟨call, ingest, detection, input, rfl, List.mem_singleton.mp member,
            implicit _ _ sighted⟩
        · have run := recorded_call recorded
          rwa [← List.append_nil (routerEvents early)] at run
  | metricsReset channel =>
      refine ⟨[], fun _ member => absurd member List.not_mem_nil, ?_⟩
      obtain ⟨_, _, _, _, changed, reported, rfl⟩ := run_bind_iff.mp ran
      obtain ⟨same, rfl⟩ := run_call_iff.mp changed
      obtain ⟨rfl, rfl⟩ := run_emit_iff.mp reported
      obtain rfl := congrArg Prod.snd same
      exact .nil

variable {start : LearningProcess σ} {ops : List ProcessOp}

/-- What a run of the process does to the store is a run of router calls. -/
theorem process_calls
    (run : (learningProcessMachine env detectors).Run start ops process events) :
    ∃ calls, (∀ call ∈ calls, ∃ op ∈ ops, ComesFrom op call) ∧
      (routerMachine env).Run start.world calls process.world (routerEvents events) := by
  induction run with
  | nil => exact ⟨[], fun _ member => absurd member List.not_mem_nil, .nil⟩
  | snoc _ taken ih =>
      obtain ⟨calls, from_, before⟩ := ih
      obtain ⟨more, last, after⟩ := runProcessOp_calls (learningProcessMachine_step.mp taken)
      refine ⟨calls ++ more, fun call member => ?_, ?_⟩
      · rcases List.mem_append.mp member with earlier | here
        · obtain ⟨op, among, comes⟩ := from_ call earlier
          exact ⟨op, List.mem_append_left _ among, comes⟩
        · exact ⟨_, List.mem_append_right _ (List.mem_singleton_self _), last call here⟩
      · rw [routerEvents_append]
        exact before.append after

variable {view : σ → StoreView} {instant : Bytes → Int}

/-- So the detectors do not get the store past what the router keeps: proposals
live their life and every week of every sink stays within the cap. -/
theorem process_keeps_cap {cap : Int} (acts : ActsAsNamed env view instant False)
    (counts : CommitsCounted env view instant)
    (fixed : ∀ world, learningMaxCommitsPerWeek env world = cap) (positive : 0 < cap)
    (empty : (view start.world).rows = [])
    (run : (learningProcessMachine env detectors).Run start ops process events) :
    ∃ calls, (∀ call ∈ calls, ∃ op ∈ ops, ComesFrom op call) ∧
      (routerMachine env).Run start.world calls process.world (routerEvents events) ∧
      (view process.world).Lawful ∧ WithinCap instant cap (view process.world) := by
  obtain ⟨calls, from_, router⟩ := process_calls run
  have lawful : (view start.world).Lawful := .of_empty empty
  have within : WithinCap instant cap (view start.world) := by
    intro sink time
    rw [empty]
    exact Int.le_of_lt positive
  have path : Path (Evolution (capLaw instant cap)) [] (view start.world) (routerEvents events)
      (view process.world) :=
    run_path acts (capObserved counts fixed) (fun _ _ _ => trivial) lawful router
  exact ⟨calls, from_, router, path_lawful path lawful, path_withinCap path lawful within⟩

theorem process_keeps_cap_implicit :
    .committed 1 0 ∈ routerEvents (processRun implicitOps).2 ∧
      WithinCap readTimestamp 1 (memoryView policyWorld (processRun implicitOps).1.world) := by
  have one : ∀ world, learningMaxCommitsPerWeek (memoryEnv policyWorld) world = 1 := fun _ => rfl
  obtain ⟨_, -, -, -, within⟩ := process_keeps_cap (memoryEnv_actsSurely fun _ => rfl)
    (memoryEnv_counts policyWorld) one (by decide) rfl (processRun_run implicitOps)
  exact ⟨by decide +kernel, within⟩

end Calls

section Implicit

/-- The registered classifier answers, if at all, with the mask of the policy. -/
def ClassifiesByPolicy (env : RouterEnv σ ν) : Prop :=
  ∀ classifier, env.signalClassifier = some classifier → ∀ world signal mask,
    (classifier world signal).1 = some mask → signalPolicySinkMask (terminated signal) = some mask

/-- Of all implicit signals the policy gives a sink only to a repeated workflow. -/
theorem implicit_mask {call : DetectorCall} {input : LearningSignalInput} {mask : UInt32}
    (policy : ClassifiesByPolicy env) (implicit : Implicit call input)
    (classified : Classified env input.signalType mask) :
    mask = 0 ∨ mask = sinkWorkflow ∧ ∃ workspace signalType description,
      call = .recordWorkflow workspace signalType description ∧
        input.workflowProject = printedField 128 workspace := by
  obtain ⟨classifier, world, registered, answered⟩ := classified
  have answer := policy classifier registered world _ mask answered
  rcases implicit.kind with kind | kind | kind | kind |
    ⟨workspace, signalType, description, same, kind, project⟩
  all_goals rw [kind] at answer
  · exact .inl (Option.some.inj (answer.symm.trans (by decide +kernel)))
  · exact .inl (Option.some.inj (answer.symm.trans (by decide +kernel)))
  · exact .inl (Option.some.inj (answer.symm.trans (by decide +kernel)))
  · exact .inl (Option.some.inj (answer.symm.trans (by decide +kernel)))
  · refine .inr ⟨Option.some.inj (answer.symm.trans (by decide +kernel)), ?_⟩
    exact ⟨workspace, signalType, description, same, project⟩

theorem routes_unmasked (env : RouterEnv σ ν) (input : LearningSignalInput) :
    routes env input 0 = [] := by
  simp [routes, ifMasked]

theorem routes_workflow (env : RouterEnv σ ν) (input : LearningSignalInput) :
    routes env input sinkWorkflow = (workflowRoute env input).toList := by
  have others : sinkWorkflow &&& sinkReranker = 0 ∧ sinkWorkflow &&& sinkSupersede = 0 ∧
      sinkWorkflow &&& sinkRule = 0 ∧ sinkWorkflow ≠ 0 := by decide
  simp [routes, ifMasked, others]

theorem workflowRoute_shape {input : LearningSignalInput} {route : Route}
    (built : workflowRoute env input = some route) :
    route.sink = cstr "workflow" ∧ route.targetKey = input.workflowProject ∧
      route.targetMemoryId = 0 ∧ route.highConfidence = false := by
  unfold workflowRoute at built
  split at built
  · obtain ⟨action, -, rfl⟩ := Option.map_eq_some_iff.mp built
    exact ⟨rfl, rfl, rfl, rfl⟩
  · cases built

/-- What a detector may do to the store: route a repeated workflow to its sink,
and commit only what an earlier signal opened. -/
structure StaysImplicit (call : DetectorCall) (events : List (RouterEvent ν)) : Prop where
  routed : ∀ signal route, .routed signal route ∈ events →
    ∃ workspace signalType description, call = .recordWorkflow workspace signalType description ∧
      route.sink = cstr "workflow" ∧ route.targetKey = printedField 128 workspace ∧
      route.targetMemoryId = 0 ∧ route.highConfidence = false
  committed : ∀ id rc, .committed id rc ∈ events → .bumped id ∈ events

theorem StaysImplicit.of_unrouted {call : DetectorCall} {events : List (RouterEvent ν)}
    (plain : ∀ event ∈ events, event = .archivedExpired ∨ ∃ id, event = .signalInserted id) :
    StaysImplicit call events where
  routed signal route member := by
    rcases plain _ member with same | ⟨id, same⟩ <;> cases same
  committed id rc member := by
    rcases plain _ member with same | ⟨id, same⟩ <;> cases same

theorem SinkEvents.committed {signalId : Int} {route : Route} {events : List (RouterEvent ν)}
    (shown : SinkEvents signalId route events) (waits : route.highConfidence = false) {id rc : Int}
    (member : .committed id rc ∈ events) : .bumped id ∈ events := by
  cases shown with
  | joined found later about =>
      have inside : .committed id rc ∈ later := by simpa using member
      cases about _ inside
      exact List.mem_cons_of_mem _ List.mem_cons_self
  | opened new later about low =>
      rw [low waits] at member
      simp at member
  | lost => simp at member

theorem SinkEvents.routed {signalId signal : Int} {route other : Route}
    {events : List (RouterEvent ν)} (shown : SinkEvents signalId route events)
    (member : .routed signal other ∈ events) : other = route := by
  cases shown with
  | joined found later about =>
      rcases List.mem_cons.mp member with here | further
      · exact (RouterEvent.routed.inj here).2
      · have inside : .routed signal other ∈ later := by simpa using further
        cases about _ inside
  | opened new later about low =>
      rcases List.mem_cons.mp member with here | further
      · exact (RouterEvent.routed.inj here).2
      · have inside : .routed signal other ∈ later := by simpa using further
        cases about _ inside
  | lost => exact (RouterEvent.routed.inj (List.mem_singleton.mp member)).2

theorem implicit_record {call : DetectorCall} {input : LearningSignalInput} {code : Int}
    {events : List (RouterEvent ν)} (policy : ClassifiesByPolicy env)
    (implicit : Implicit call input) (shown : RecordEvents env input code events) :
    StaysImplicit call events := by
  cases shown with
  | refused => exact .of_unrouted (by simp)
  | unstored => exact .of_unrouted (by simp)
  | stored signalId targetKey mask later positive classified routed =>
      rcases implicit_mask policy implicit classified with
        rfl | ⟨rfl, workspace, signalType, description, same, project⟩
      · rw [routes_unmasked] at routed
        cases routed
        exact .of_unrouted (by simp)
      rw [routes_workflow] at routed
      cases built : workflowRoute env { input with targetKey } with
      | none =>
          rw [built] at routed
          cases routed
          exact .of_unrouted (by simp)
      | some route =>
          rw [built] at routed
          obtain ⟨sink, key, memory, waits⟩ := workflowRoute_shape built
          cases routed with
          | @cons _ _ trace _ here rest =>
          cases rest
          rw [List.append_nil]
          refine ⟨fun signal other member => ?_, fun id rc member => ?_⟩
          · have inside : .routed signal other ∈ trace := by simpa using member
            obtain rfl := here.routed inside
            exact ⟨workspace, signalType, description, same, sink, key.trans project, memory, waits⟩
          · have inside : .committed id rc ∈ trace := by simpa using member
            exact List.mem_cons_of_mem _ (List.mem_cons_of_mem _ (here.committed waits inside))

/-- Whatever the configuration, the dogfood module and the store say. -/
theorem detector_stays {call : DetectorCall} {ingest detection : Stopwatch}
    (policy : ClassifiesByPolicy env)
    (ran : (runProcessOp env detectors (.detect call ingest detection)).run process =
      ((), final, events)) : StaysImplicit call (routerEvents events) := by
  obtain ⟨gate, sighting, same, implicit⟩ := runDetector_pass env detectors call
  rw [runProcessOp, same] at ran
  rcases detectionPass_spec ran with ⟨rfl, rfl⟩ | ⟨early, between, rfl, world, recorded⟩
  · exact .of_unrouted fun _ member => absurd member List.not_mem_nil
  have only : routerEvents (early ++ [.timed .detection detection.ms]) = routerEvents early := by
    rw [routerEvents_append]
    exact List.append_nil _
  rw [only]
  rcases recorded with ⟨rfl, rfl⟩ | ⟨input, result, sighted, recorded⟩
  · exact .of_unrouted fun _ member => absurd member List.not_mem_nil
  · obtain ⟨reported, calling, rfl⟩ := recordSignalTimed_spec recorded
    have shown := implicit_record policy (implicit _ _ sighted)
      (learningRouterRecordSignal_events calling)
    rw [routerEvents_append, routerEvents_router]
    split
    · simpa [routerEvents] using shown
    · simpa [routerEvents] using shown

variable {start : LearningProcess σ} {ops : List ProcessOp} {view : σ → StoreView}
  {instant : Bytes → Int} {fails : Prop}

/-- A call into the process that brings no explicit signal. -/
def ProcessOp.Signalless : ProcessOp → Prop
  | .router (.recordSignal _ _) _ => False
  | _ => True

theorem signalless_routed {op : ProcessOp} (policy : ClassifiesByPolicy env)
    (signalless : op.Signalless)
    (ran : (runProcessOp env detectors op).run process = ((), final, events)) {signal : Int}
    {route : Route} (member : .routed signal route ∈ routerEvents events) :
    route.sink = cstr "workflow" ∧ ∃ workspace signalType description ingest detection,
      op = .detect (.recordWorkflow workspace signalType description) ingest detection ∧
        route.targetKey = printedField 128 workspace := by
  cases op with
  | router op ingest =>
      have other : ∀ rawInput out, op ≠ .recordSignal rawInput out := by
        rintro rawInput out rfl
        exact signalless
      rw [runProcessOp_plain other] at ran
      obtain ⟨world, reported, calling, -, rfl⟩ := run_within_iff.mp ran
      obtain ⟨id, emits⟩ := runRouterOp_emits env op other
      rw [routerEvents_router] at member
      cases emits _ _ _ _ calling _ member
  | detect call ingest detection =>
      obtain ⟨workspace, signalType, description, rfl, sink, key, -, -⟩ :=
        (detector_stays policy ran).routed signal route member
      exact ⟨sink, workspace, signalType, description, ingest, detection, rfl, key⟩
  | metricsReset channel =>
      obtain ⟨_, _, _, _, changed, reported, rfl⟩ := run_bind_iff.mp ran
      obtain ⟨-, rfl⟩ := run_call_iff.mp changed
      obtain ⟨-, rfl⟩ := run_emit_iff.mp reported
      cases member

/-- Without explicit signals, whatever the detectors see and the reviewers do,
only repeated workflows are routed and the store holds workflow proposals alone;
a detector pass commits nothing that no earlier signal opened. -/
theorem implicit_run (policy : ClassifiesByPolicy env) (acts : ActsAsNamed env view instant fails)
    (run : (learningProcessMachine env detectors).Run start ops process events)
    (signalless : ∀ op ∈ ops, op.Signalless) (empty : (view start.world).rows = []) :
    (∀ signal route, .routed signal route ∈ routerEvents events → route.sink = cstr "workflow" ∧
      ∃ workspace signalType description ingest detection,
        .detect (.recordWorkflow workspace signalType description) ingest detection ∈ ops ∧
          route.targetKey = printedField 128 workspace) ∧
      (∀ row ∈ (view process.world).rows, row.sink = cstr "workflow") ∧
      ∀ call ingest detection final pass,
        (runProcessOp env detectors (.detect call ingest detection)).run process =
          ((), final, pass) → StaysImplicit call (routerEvents pass) := by
  have routed : ∀ signal route, .routed signal route ∈ routerEvents events →
      route.sink = cstr "workflow" ∧ ∃ workspace signalType description ingest detection,
        .detect (.recordWorkflow workspace signalType description) ingest detection ∈ ops ∧
          route.targetKey = printedField 128 workspace := by
    clear empty acts
    induction run with
    | nil => exact fun _ _ member => absurd member List.not_mem_nil
    | snoc _ taken ih =>
        intro signal route member
        rw [routerEvents_append] at member
        rcases List.mem_append.mp member with earlier | here
        · obtain ⟨sink, workspace, signalType, description, ingest, detection, among, key⟩ :=
            ih (fun op among => signalless op (List.mem_append_left _ among)) signal route earlier
          exact ⟨sink, workspace, signalType, description, ingest, detection,
            List.mem_append_left _ among, key⟩
        · obtain ⟨sink, workspace, signalType, description, ingest, detection, rfl, key⟩ :=
            signalless_routed policy (signalless _ (by simp))
              (learningProcessMachine_step.mp taken) here
          exact ⟨sink, workspace, signalType, description, ingest, detection, by simp, key⟩
  refine ⟨routed, fun row member => ?_, fun _ _ _ _ _ ran => detector_stays policy ran⟩
  obtain ⟨calls, -, router⟩ := process_calls run
  have lawful : (view start.world).Lawful := .of_empty empty
  rcases path_backward (run_freePath acts lawful router) lawful member with
    ⟨first, there, -⟩ | ⟨first, signal, route, expiresAt, early, late, same, inserted, moved⟩
  · rw [empty] at there
    exact absurd there List.not_mem_nil
  · rw [moved.target.1, inserted.sink]
    exact (routed signal route (by simp [same])).1

theorem policyWorld_policy : ClassifiesByPolicy (memoryEnv policyWorld) := by
  intro classifier registered world signal mask answered
  obtain rfl := Option.some.inj registered
  exact answered

/-- The second sight of a workflow commits what the first one opened; the repair
leaves no proposal. -/
theorem implicit_run_repeated :
    .committed 1 0 ∈ routerEvents (processRun implicitOps).2 ∧
      ∀ row ∈ (memoryView policyWorld (processRun implicitOps).1.world).rows,
        row.sink = cstr "workflow" := by
  have signalless : ∀ op ∈ implicitOps, op.Signalless := by
    simp [implicitOps, ProcessOp.Signalless]
  exact ⟨by decide +kernel, (implicit_run policyWorld_policy (memoryEnv_actsSurely fun _ => rfl)
    (processRun_run implicitOps) signalless rfl).2.1⟩

end Implicit

end AimeeLearning.Learning
