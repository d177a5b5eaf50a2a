import AimeeLearning.Learning.Router
import AimeeLearning.Library.Emissions

/-! The events of the router's calls, whatever the store answers: what a call
may report, and which of it needs which other. -/

set_option autoImplicit false

namespace AimeeLearning.Learning

open Library Traced Observe

variable {σ ν : Type} (env : RouterEnv σ ν)

section Commit

/-- What committing a proposal may report. -/
inductive CommitEvent (id : Int) : RouterEvent ν → Prop where
  | archivedExpired : CommitEvent id .archivedExpired
  | applied (other : Int) (effect : SinkEffect ν) (rc : Int) :
      CommitEvent id (.applied other effect rc)
  | committed (rc : Int) : CommitEvent id (.committed id rc)
  | archived (reason : Bytes) : CommitEvent id (.archived id reason)

theorem archiveExpired_emits (id : Int) : Emits (CommitEvent id) (archiveExpired env) :=
  (emits_call _).bind fun _ => emits_emit .archivedExpired

theorem learningGetProposal_emits (id other : Int) :
    Emits (CommitEvent id) (learningGetProposal env other) :=
  (archiveExpired_emits env id).bind fun _ => emits_call _

theorem learningApplySink_emits (id : Int) (proposal : LearningProposal) :
    Emits (CommitEvent id) (learningApplySink env proposal) := by
  unfold learningApplySink
  split
  · exact emits_pure _
  refine (emits_read _).bind fun session => ?_
  split
  · exact emits_pure _
  · exact emits_pure _
  · exact (emits_call _).bind fun _ => (emits_emit (.applied _ _ _)).bind fun _ => emits_pure _

theorem archiveProposal_emits (id : Int) (reason : String) :
    Emits (CommitEvent id) (archiveProposal env id reason) :=
  (emits_call _).bind fun _ => emits_emit (.archived _)

theorem archiveAndGet_emits (id : Int) (reason : String) :
    Emits (CommitEvent id) (archiveAndGet env id reason) :=
  (archiveProposal_emits env id reason).bind fun _ => learningGetProposal_emits env id id

theorem applyAndMark_emits (id : Int) (proposal : LearningProposal) :
    Emits (CommitEvent id) (applyAndMark env id proposal) := by
  refine (learningApplySink_emits env id proposal).bind fun rc => ?_
  split
  · exact emits_pure _
  · exact (emits_call _).bind fun _ => (emits_emit (.committed _)).bind fun _ =>
      learningGetProposal_emits env id id

theorem learningCommitProposal_emits (id : Int) :
    Emits (CommitEvent id) (learningCommitProposal env id) := by
  unfold learningCommitProposal
  refine (learningGetProposal_emits env id id).bind fun found => ?_
  split
  · exact emits_pure _
  split
  · exact emits_pure _
  split
  · exact emits_pure _
  refine (emits_call _).bind fun commits => (emits_read _).bind fun limit => ?_
  split
  · exact archiveAndGet_emits env id _
  · exact applyAndMark_emits env id _

theorem learningRejectProposal_emits (id : Int) :
    Emits (CommitEvent id) (learningRejectProposal env id) := by
  unfold learningRejectProposal
  split
  · exact emits_pure _
  refine (learningGetProposal_emits env id id).bind fun found => ?_
  split
  · exact emits_pure _
  split
  · exact archiveAndGet_emits env id _
  · exact learningGetProposal_emits env id id

/-- The calls beside the recording of signals deal with one proposal at most. -/
theorem runRouterOp_emits (op : RouterOp) (other : ∀ rawInput out, op ≠ .recordSignal rawInput out) :
    ∃ id, Emits (CommitEvent id) (runRouterOp env op) := by
  cases op with
  | recordSignal rawInput out => exact absurd rfl (other rawInput out)
  | acceptProposal id =>
      refine ⟨id, Emits.bind ?_ fun _ => emits_pure _⟩
      unfold learningAcceptProposal
      split
      · exact emits_pure _
      · exact (archiveExpired_emits env id).bind fun _ => learningCommitProposal_emits env id
  | rejectProposal id => exact ⟨id, (learningRejectProposal_emits env id).bind fun _ => emits_pure _⟩
  | getProposal id => exact ⟨id, (learningGetProposal_emits env id id).bind fun _ => emits_pure _⟩
  | listProposals stateFilter sink limit max =>
      refine ⟨0, Emits.bind ?_ fun _ => emits_pure _⟩
      exact (archiveExpired_emits env 0).bind fun _ => emits_call _

theorem commitQueued_emits (id : Int) (out : Option LearningDispatchResult) :
    Emits (CommitEvent id) (commitQueued env id out) := by
  unfold commitQueued
  refine (learningCommitProposal_emits env id).bind fun result => ?_
  split
  · exact emits_pure _
  · split <;> exact emits_pure _

theorem commitIf_emits (commits : Bool) (id : Int) (out : Option LearningDispatchResult) :
    Emits (CommitEvent id) (commitIf env commits id out) := by
  unfold commitIf
  split
  · exact (commitQueued_emits env id out).bind fun _ => emits_pure _
  · exact emits_pure _

end Commit

section Queue

/-- The events of one sink: a route that joins a proposal and may commit it, or
opens one, which only high confidence commits at once, or is lost. -/
inductive SinkEvents (signalId : Int) (route : Route) : List (RouterEvent ν) → Prop where
  | joined (id : Int) (later : List (RouterEvent ν)) (about : ∀ event ∈ later, CommitEvent id event) :
      SinkEvents signalId route (.routed signalId route :: .bumped id :: later)
  | opened (id : Int) (later : List (RouterEvent ν)) (about : ∀ event ∈ later, CommitEvent id event)
      (waits : route.highConfidence = false → later = []) :
      SinkEvents signalId route (.routed signalId route :: .inserted id :: later)
  | lost : SinkEvents signalId route [.routed signalId route]

variable {env}

theorem learningQueueSink_events {signalId code : Int} {route : Route} {evidenceRefs : Option Bytes}
    {out noted : Option LearningDispatchResult} {state final : σ} {events : List (RouterEvent ν)}
    (ran : (learningQueueSink env signalId route evidenceRefs out).run state =
      ((code, noted), final, events)) : SinkEvents signalId route events := by
  unfold learningQueueSink at ran
  obtain ⟨_, _, _, rest, routing, searching, rfl⟩ := run_bind_iff.mp ran
  obtain ⟨-, rfl⟩ := run_emit_iff.mp routing
  obtain ⟨found, _, _, later, asked, decided, rfl⟩ := run_bind_iff.mp searching
  obtain ⟨-, rfl⟩ := run_call_iff.mp asked
  split at decided
  · unfold joinPending at decided
    obtain ⟨_, _, _, _, bumping, announced, rfl⟩ := run_bind_iff.mp decided
    obtain ⟨-, rfl⟩ := run_call_iff.mp bumping
    obtain ⟨_, _, _, tail, reported, fetching, rfl⟩ := run_bind_iff.mp announced
    obtain ⟨-, rfl⟩ := run_emit_iff.mp reported
    refine .joined found tail fun event member => ?_
    refine Emits.bind (learningGetProposal_emits env found found) (fun proposal => ?_) _ _ _ _
      fetching event member
    split
    · exact emits_pure _
    · exact commitIf_emits env _ found _
  · unfold insertProposal at decided
    obtain ⟨_, _, _, _, reading, stamping, rfl⟩ := run_bind_iff.mp decided
    obtain ⟨-, -, rfl⟩ := run_read_iff.mp reading
    obtain ⟨_, _, _, _, reading, inserting, rfl⟩ := run_bind_iff.mp stamping
    obtain ⟨-, -, rfl⟩ := run_read_iff.mp reading
    obtain ⟨id, _, _, _, inserted, answered, rfl⟩ := run_bind_iff.mp inserting
    obtain ⟨-, rfl⟩ := run_call_iff.mp inserted
    split at answered
    · obtain ⟨-, -, rfl⟩ := run_pure_iff.mp answered
      exact .lost
    obtain ⟨_, _, _, tail, reported, ending, rfl⟩ := run_bind_iff.mp answered
    obtain ⟨-, rfl⟩ := run_emit_iff.mp reported
    refine .opened id tail (fun event member => ?_) fun low => ?_
    · exact commitIf_emits env _ id _ _ _ _ _ ending event member
    · rw [low] at ending
      exact (run_pure_iff.mp ending).2.2

/-- The events of a list of routes, one after the other. -/
inductive RouteEvents (signalId : Int) : List Route → List (RouterEvent ν) → Prop where
  | nil : RouteEvents signalId [] []
  | cons {route : Route} {rest : List Route} {here later : List (RouterEvent ν)} :
      SinkEvents signalId route here → RouteEvents signalId rest later →
      RouteEvents signalId (route :: rest) (here ++ later)

theorem queueRoutes_events {signalId : Int} {evidenceRefs : Option Bytes} {targets : List Route}
    {out noted : Option LearningDispatchResult} {state final : σ} {events : List (RouterEvent ν)}
    (ran : (queueRoutes env signalId evidenceRefs targets out).run state =
      (noted, final, events)) : RouteEvents signalId targets events := by
  induction targets generalizing out state events with
  | nil =>
      obtain ⟨-, -, rfl⟩ := run_pure_iff.mp ran
      exact .nil
  | cons route rest ih =>
      obtain ⟨⟨code, between⟩, _, here, later, queueing, remaining, rfl⟩ := run_bind_iff.mp ran
      exact .cons (learningQueueSink_events queueing) (ih remaining)

end Queue

section Record

/-- A classifier is registered and has answered this mask for the type. -/
def Classified (env : RouterEnv σ ν) (signalType : Bytes) (mask : UInt32) : Prop :=
  ∃ classifier state, env.signalClassifier = some classifier ∧
    (classifier state signalType).1 = some mask

/-- The events of a recorded signal: none, the sweep alone, or the stored signal
and what its input asks of the sinks of its mask. -/
inductive RecordEvents (env : RouterEnv σ ν) (raw : LearningSignalInput) :
    Int → List (RouterEvent ν) → Prop where
  | refused : RecordEvents env raw (-1) []
  | unstored : RecordEvents env raw (-1) [.archivedExpired]
  | stored (signalId : Int) (targetKey : Bytes) (mask : UInt32) (later : List (RouterEvent ν))
      (positive : 0 < signalId) (classified : Classified env raw.signalType mask)
      (routed : RouteEvents signalId (routes env { raw with targetKey } mask) later) :
      RecordEvents env raw signalId (.archivedExpired :: .signalInserted signalId :: later)

variable {env} {state final : σ} {events : List (RouterEvent ν)}

theorem learningFillTargetKey_filled {raw input : LearningSignalInput}
    (ran : (learningFillTargetKey env raw).run state = (input, final, events)) :
    (∃ targetKey, input = { raw with targetKey }) ∧ events = [] := by
  unfold learningFillTargetKey at ran
  split at ran
  · obtain ⟨rfl, -, rfl⟩ := run_pure_iff.mp ran
    exact ⟨⟨input.targetKey, rfl⟩, rfl⟩
  obtain ⟨key, _, _, _, asked, decided, rfl⟩ := run_bind_iff.mp ran
  obtain ⟨-, rfl⟩ := run_call_iff.mp asked
  split at decided
  · obtain ⟨rfl, -, rfl⟩ := run_pure_iff.mp decided
    exact ⟨⟨input.targetKey, rfl⟩, rfl⟩
  · obtain ⟨rfl, -, rfl⟩ := run_pure_iff.mp decided
    exact ⟨⟨_, rfl⟩, rfl⟩

theorem learningLogDogfood_events {input : LearningSignalInput} {value : Unit}
    (ran : (learningLogDogfood env input).run state = (value, final, events)) : events = [] := by
  unfold learningLogDogfood at ran
  dsimp only at ran
  split at ran
  · exact (run_call_iff.mp ran).2
  split at ran
  · exact (run_call_iff.mp ran).2
  split at ran
  · exact (run_call_iff.mp ran).2
  · exact (run_pure_iff.mp ran).2.2

theorem dispatchSignal_events {raw : LearningSignalInput} {mask : UInt32} {code : Int}
    {out noted : Option LearningDispatchResult} (classified : Classified env raw.signalType mask)
    (ran : (dispatchSignal env raw mask out).run state = ((code, noted), final, events)) :
    RecordEvents env raw code events := by
  unfold dispatchSignal at ran
  obtain ⟨input, _, _, _, filling, sweeping, rfl⟩ := run_bind_iff.mp ran
  obtain ⟨⟨targetKey, rfl⟩, rfl⟩ := learningFillTargetKey_filled filling
  obtain ⟨_, _, _, _, archiving, asking, rfl⟩ := run_bind_iff.mp sweeping
  obtain ⟨_, _, _, _, swept, reported, rfl⟩ := run_bind_iff.mp archiving
  obtain ⟨-, rfl⟩ := run_call_iff.mp swept
  obtain ⟨-, rfl⟩ := run_emit_iff.mp reported
  obtain ⟨session, _, _, _, asked, storing, rfl⟩ := run_bind_iff.mp asking
  obtain ⟨-, -, rfl⟩ := run_read_iff.mp asked
  obtain ⟨signalId, _, _, _, inserting, decided, rfl⟩ := run_bind_iff.mp storing
  obtain ⟨-, rfl⟩ := run_call_iff.mp inserting
  split at decided
  · obtain ⟨rfl, -, -, rfl⟩ := run_pure_pair_iff.mp decided
    exact .unstored
  · rename_i accepted
    obtain ⟨_, _, _, _, announced, logging, rfl⟩ := run_bind_iff.mp decided
    obtain ⟨-, rfl⟩ := run_emit_iff.mp announced
    obtain ⟨_, _, _, _, logs, queueing, rfl⟩ := run_bind_iff.mp logging
    obtain rfl := learningLogDogfood_events logs
    obtain ⟨_, _, later, _, queues, finished, rfl⟩ := run_bind_iff.mp queueing
    obtain ⟨rfl, -, -, rfl⟩ := run_pure_pair_iff.mp finished
    rw [List.append_nil]
    exact .stored code targetKey mask later (Int.not_le.mp accepted) classified
      (queueRoutes_events queues)

theorem learningRouterRecordSignal_events {raw : LearningSignalInput} {code : Int}
    {out noted : Option LearningDispatchResult}
    (ran : (learningRouterRecordSignal env (some raw) out).run state =
      ((code, noted), final, events)) : RecordEvents env raw code events := by
  unfold learningRouterRecordSignal at ran
  dsimp only at ran
  split at ran
  · obtain ⟨rfl, -, -, rfl⟩ := run_pure_pair_iff.mp ran
    exact .refused
  obtain ⟨refused, _, _, _, gate, gated, rfl⟩ := run_bind_iff.mp ran
  obtain ⟨-, -, rfl⟩ := run_read_iff.mp gate
  split at gated
  · obtain ⟨rfl, -, -, rfl⟩ := run_pure_pair_iff.mp gated
    exact .refused
  obtain ⟨mask, _, _, _, classify, dispatch, rfl⟩ := run_bind_iff.mp gated
  unfold learningClassifySignal at classify
  split at classify
  · obtain ⟨rfl, -, rfl⟩ := run_pure_iff.mp classify
    obtain ⟨rfl, -, -, rfl⟩ := run_pure_pair_iff.mp dispatch
    exact .refused
  · rename_i classifier registered
    obtain ⟨answered, rfl⟩ := run_call_iff.mp classify
    cases mask with
    | none =>
        obtain ⟨rfl, -, -, rfl⟩ := run_pure_pair_iff.mp dispatch
        exact .refused
    | some mask =>
        exact dispatchSignal_events ⟨classifier, _, registered, congrArg Prod.fst answered⟩ dispatch

end Record

section Stored

/-- The signals the events stored. -/
def storedSignals (events : List (RouterEvent ν)) : List Int :=
  events.filterMap fun
    | .signalInserted id => some id
    | _ => none

theorem CommitEvent.unstored {id : Int} {later : List (RouterEvent ν)}
    (about : ∀ event ∈ later, CommitEvent id event) : storedSignals later = [] := by
  refine List.filterMap_eq_nil_iff.mpr fun event member => ?_
  cases about event member <;> rfl

theorem SinkEvents.unstored {signalId : Int} {route : Route} {events : List (RouterEvent ν)}
    (shown : SinkEvents signalId route events) : storedSignals events = [] := by
  cases shown with
  | joined id later about =>
      have none := CommitEvent.unstored about
      exact none
  | opened id later about =>
      have none := CommitEvent.unstored about
      exact none
  | lost => rfl

theorem RouteEvents.unstored {signalId : Int} {targets : List Route}
    {events : List (RouterEvent ν)} (shown : RouteEvents signalId targets events) :
    storedSignals events = [] := by
  induction shown with
  | nil => rfl
  | cons here _ ih =>
      rw [storedSignals, List.filterMap_append]
      exact List.append_eq_nil_iff.mpr ⟨here.unstored, ih⟩

/-- A recorded signal is stored exactly when it gets a positive id. -/
theorem RecordEvents.storedSignals_eq {raw : LearningSignalInput} {code : Int}
    {events : List (RouterEvent ν)} (shown : RecordEvents env raw code events) :
    storedSignals events = if 0 < code then [code] else [] := by
  cases shown with
  | refused => rfl
  | unstored => rfl
  | stored signalId targetKey mask later positive classified routed =>
      rw [if_pos positive]
      exact congrArg (code :: ·) routed.unstored

end Stored

section Routed

/-- The routes the events brought signals to, in order. -/
def routesOf (events : List (RouterEvent ν)) : List Route :=
  events.filterMap fun
    | .routed _ route => some route
    | _ => none

variable {targets : List Route} {events : List (RouterEvent ν)}

theorem mem_routesOf {signal : Int} {route : Route} (routed : .routed signal route ∈ events) :
    route ∈ routesOf events :=
  List.mem_filterMap.mpr ⟨_, routed, rfl⟩

theorem routesOf_append {more : List (RouterEvent ν)} :
    routesOf (events ++ more) = routesOf events ++ routesOf more :=
  List.filterMap_append

theorem CommitEvent.unrouted {id : Int} (about : ∀ event ∈ events, CommitEvent id event) :
    routesOf events = [] := by
  refine List.filterMap_eq_nil_iff.mpr fun event member => ?_
  cases about event member <;> rfl

theorem SinkEvents.routesOf_eq {signalId : Int} {route : Route}
    (shown : SinkEvents signalId route events) : routesOf events = [route] := by
  cases shown with
  | joined id later about =>
      have none := CommitEvent.unrouted about
      exact congrArg (route :: ·) none
  | opened id later about =>
      have none := CommitEvent.unrouted about
      exact congrArg (route :: ·) none
  | lost => rfl

/-- Every route is taken once and in order. -/
theorem RouteEvents.routesOf_eq {signalId : Int} (shown : RouteEvents signalId targets events) :
    routesOf events = targets := by
  induction shown with
  | nil => rfl
  | cons here _ ih =>
      rw [routesOf_append, here.routesOf_eq, ih]
      rfl

/-- Only a recorded signal is brought to a sink. -/
theorem runRouterOp_unrouted {op : RouterOp} {state final : σ}
    (other : ∀ raw out, op ≠ .recordSignal (some raw) out)
    (ran : (runRouterOp env op).run state = ((), final, events)) : routesOf events = [] := by
  by_cases records : ∃ rawInput out, op = .recordSignal rawInput out
  · obtain ⟨rawInput, out, rfl⟩ := records
    cases rawInput with
    | some raw => exact absurd rfl (other raw out)
    | none =>
        obtain ⟨_, _, _, _, recorded, ended, rfl⟩ := run_bind_iff.mp ran
        obtain ⟨-, -, rfl⟩ := run_pure_iff.mp recorded
        obtain ⟨-, -, rfl⟩ := run_pure_iff.mp ended
        rfl
  · obtain ⟨id, emits⟩ := runRouterOp_emits env op fun rawInput out same =>
      records ⟨rawInput, out, same⟩
    exact CommitEvent.unrouted fun event member => emits _ _ _ _ ran event member

end Routed

end AimeeLearning.Learning
