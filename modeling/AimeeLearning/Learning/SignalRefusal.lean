import AimeeLearning.Learning.MemoryStore
import AimeeLearning.Learning.RouterRuns

/-! What a caller of learning_router_record_signal finds afterwards, in the store
and in the memory its `out` points to. Every refusal comes before the first write
of a signal; all of them but the check of the arguments clear `*out`. -/

set_option autoImplicit false

namespace AimeeLearning.Learning

open Library Traced

variable {σ ν α β : Type} {env : RouterEnv σ ν} {view : σ → StoreView} {instant : Bytes → Int}
  {fails : Prop}

section Memory

/-- `learning_dispatch_result_t` as it lies in the memory of the caller. -/
structure DispatchMemory where
  signalId : Int
  proposalIds : Fin learningMaxProposalIds → Int
  proposalCount : Int
  committedIds : Fin learningMaxProposalIds → Int
  committedCount : Int

namespace DispatchMemory

def zero : DispatchMemory := ⟨0, fun _ => 0, 0, fun _ => 0, 0⟩

/-- Memory filled with a byte, as `memset` leaves it. -/
def filled (word : Int) : DispatchMemory := ⟨word, fun _ => word, word, fun _ => word, word⟩

theorem filled_ne_zero {word : Int} (marked : word ≠ 0) : filled word ≠ zero :=
  fun same => marked (congrArg signalId same)

end DispatchMemory

/-- A result that was cleared before ids were appended to it. -/
def LearningDispatchResult.memory (result : LearningDispatchResult) : DispatchMemory where
  signalId := result.signalId
  proposalIds index := result.proposalIds.getD index 0
  proposalCount := result.proposalIds.length
  committedIds index := result.committedIds.getD index 0
  committedCount := result.committedIds.length

def learningDispatchClear (out : Option DispatchMemory) : Option DispatchMemory :=
  out.map fun _ => .zero

variable (env)

/-- learning_router_record_signal with the caller's memory, built with the store
or without it. An input that passes the check of the arguments has `*out` cleared
before anything is written there. -/
def learningRouterRecordSignalInto (db2 : Bool) (rawInput : Option LearningSignalInput)
    (out : Option DispatchMemory) : RouterM σ ν (Int × Option DispatchMemory) :=
  match rawInput with
  | none => pure (-1, out)
  | some raw =>
      if raw.signalType = [] then pure (-1, out)
      else if !db2 then pure (-1, learningDispatchClear out)
      else do
        let (code, noted) ← learningRouterRecordSignal env (some raw)
          ((learningDispatchClear out).map fun _ => .zero)
        pure (code, noted.map (·.memory))

end Memory

section Signals

def StoresNoSignal (view : σ → StoreView) (program : RouterM σ ν α) : Prop :=
  ∀ state value final events, program.run state = (value, final, events) →
    (view final).signals = (view state).signals

theorem noSignal_pure (value : α) : StoresNoSignal view (pure value : RouterM σ ν α) := by
  intro state result final events ran
  obtain ⟨-, rfl, -⟩ := run_pure_iff.mp ran
  rfl

theorem noSignal_read (look : σ → α) : StoresNoSignal view (read look : RouterM σ ν α) := by
  intro state result final events ran
  obtain ⟨-, rfl, -⟩ := run_read_iff.mp ran
  rfl

theorem noSignal_emit (event : RouterEvent ν) :
    StoresNoSignal view (emit event : RouterM σ ν Unit) := by
  intro state result final events ran
  obtain ⟨rfl, -⟩ := run_emit_iff.mp ran
  rfl

theorem noSignal_call {change : σ → α × σ}
    (keeps : ∀ state, (view (change state).2).signals = (view state).signals) :
    StoresNoSignal view (call change : RouterM σ ν α) := by
  intro state result final events ran
  obtain ⟨changed, -⟩ := run_call_iff.mp ran
  have kept := keeps state
  rw [changed] at kept
  exact kept

theorem StoresNoSignal.bind {first : RouterM σ ν α} {next : α → RouterM σ ν β}
    (begins : StoresNoSignal view first) (continues : ∀ value, StoresNoSignal view (next value)) :
    StoresNoSignal view (first >>= next) := by
  intro state result final events ran
  obtain ⟨value, middle, early, late, began, ended, -⟩ := run_bind_iff.mp ran
  exact (continues value _ _ _ _ ended).trans (begins _ _ _ _ began)

section Calls

variable (acts : ActsAsNamed env view instant fails)

include acts

theorem archiveExpired_noSignal : StoresNoSignal view (archiveExpired env) := by
  refine (noSignal_call fun state => ?_).bind fun _ => noSignal_emit _
  obtain ⟨time, -, -, signals, -⟩ := acts.archiveExpired state
  exact signals

theorem learningGetProposal_noSignal (id : Int) : StoresNoSignal view (learningGetProposal env id) :=
  (archiveExpired_noSignal acts).bind fun _ => noSignal_call fun state => (acts.get state id).1.signals

theorem archiveProposal_noSignal (id : Int) (reason : String) :
    StoresNoSignal view (archiveProposal env id reason) :=
  (noSignal_call fun state => (acts.archive state id (cstr reason)).2.1).bind fun _ =>
    noSignal_emit _

theorem learningApplySink_noSignal (proposal : LearningProposal) :
    StoresNoSignal view (learningApplySink env proposal) := by
  unfold learningApplySink
  split
  · exact noSignal_pure _
  · refine (noSignal_read _).bind fun session => ?_
    split
    · exact noSignal_pure _
    · exact noSignal_pure _
    · rename_i effect planned
      exact (noSignal_call fun state => (acts.perform state effect).signals).bind fun _ =>
        (noSignal_emit _).bind fun _ => noSignal_pure _

theorem applyAndMark_noSignal (id : Int) (proposal : LearningProposal) :
    StoresNoSignal view (applyAndMark env id proposal) := by
  refine (learningApplySink_noSignal acts proposal).bind fun rc => ?_
  split
  · exact noSignal_pure _
  · refine (noSignal_call fun state => ?_).bind fun _ => (noSignal_emit _).bind fun _ =>
      learningGetProposal_noSignal acts id
    obtain ⟨time, -, -, signals, -⟩ := acts.markCommitted state id
    exact signals

theorem learningCommitProposal_noSignal (id : Int) :
    StoresNoSignal view (learningCommitProposal env id) := by
  refine (learningGetProposal_noSignal acts id).bind fun found => ?_
  cases found with
  | none => exact noSignal_pure _
  | some proposal =>
      dsimp only
      split
      · exact noSignal_pure _
      · split
        · exact noSignal_pure _
        · refine (noSignal_call fun state => (acts.commits state _).signals).bind fun commits =>
            (noSignal_read _).bind fun limit => ?_
          split
          · exact (archiveProposal_noSignal acts id _).bind fun _ =>
              learningGetProposal_noSignal acts id
          · exact applyAndMark_noSignal acts id proposal

theorem commitQueued_noSignal (id : Int) (out : Option LearningDispatchResult) :
    StoresNoSignal view (commitQueued env id out) := by
  refine (learningCommitProposal_noSignal acts id).bind fun result => ?_
  split
  · exact noSignal_pure _
  · split <;> exact noSignal_pure _

theorem commitIf_noSignal (commits : Bool) (id : Int) (out : Option LearningDispatchResult) :
    StoresNoSignal view (commitIf env commits id out) := by
  unfold commitIf
  split
  · exact (commitQueued_noSignal acts id out).bind fun _ => noSignal_pure _
  · exact noSignal_pure _

theorem learningQueueSink_noSignal (signalId : Int) (route : Route) (evidenceRefs : Option Bytes)
    (out : Option LearningDispatchResult) :
    StoresNoSignal view (learningQueueSink env signalId route evidenceRefs out) := by
  refine (noSignal_emit _).bind fun _ => (noSignal_call fun state =>
    (acts.findPending state route.sink route.targetKey route.targetMemoryId).1.signals).bind
      fun found => ?_
  split
  · refine (noSignal_call fun state => (acts.bump state found).2.1).bind fun _ =>
      (noSignal_emit _).bind fun _ => (learningGetProposal_noSignal acts found).bind fun again => ?_
    split
    · exact noSignal_pure _
    · exact commitIf_noSignal acts _ found _
  · refine (noSignal_read _).bind fun days => (noSignal_read _).bind fun expiresAt =>
      (noSignal_call fun state =>
        (acts.insert state signalId route evidenceRefs expiresAt).2.1).bind fun id => ?_
    split
    · exact noSignal_pure _
    · exact (noSignal_emit _).bind fun _ => commitIf_noSignal acts _ id _

theorem queueRoutes_noSignal (signalId : Int) (evidenceRefs : Option Bytes) (targets : List Route)
    (out : Option LearningDispatchResult) :
    StoresNoSignal view (queueRoutes env signalId evidenceRefs targets out) := by
  induction targets generalizing out with
  | nil => exact noSignal_pure _
  | cons route rest ih =>
      exact (learningQueueSink_noSignal acts signalId route evidenceRefs out).bind fun _ => ih _

end Calls

end Signals

section Names

def namedSignal (out : Option LearningDispatchResult) : Option Int := out.map (·.signalId)

variable {given noted : Option LearningDispatchResult} {state final : σ}
  {events : List (RouterEvent ν)}

@[simp] theorem namedSignal_addProposal (id : Int) :
    namedSignal (given.map (·.addProposal id)) = namedSignal given := by
  cases given with
  | none => rfl
  | some former =>
      simp only [namedSignal, Option.map_some, LearningDispatchResult.addProposal]
      split <;> rfl

@[simp] theorem namedSignal_addCommitted (id : Int) :
    namedSignal (given.map (·.addCommitted id)) = namedSignal given := by
  cases given with
  | none => rfl
  | some former =>
      simp only [namedSignal, Option.map_some, LearningDispatchResult.addCommitted]
      split <;> rfl

theorem commitQueued_names {id : Int}
    (ran : (commitQueued env id given).run state = (noted, final, events)) :
    namedSignal noted = namedSignal given := by
  obtain ⟨result, committed, _, _, -, ended, -⟩ := run_bind_iff.mp ran
  split at ended
  · obtain ⟨rfl, -⟩ := run_pure_iff.mp ended
    rfl
  · split at ended
    · obtain ⟨rfl, -⟩ := run_pure_iff.mp ended
      exact namedSignal_addCommitted id
    · obtain ⟨rfl, -⟩ := run_pure_iff.mp ended
      rfl

theorem commitIf_names {commits : Bool} {id code : Int}
    (ran : (commitIf env commits id given).run state = ((code, noted), final, events)) :
    namedSignal noted = namedSignal given := by
  unfold commitIf at ran
  split at ran
  · obtain ⟨result, _, _, _, committing, ended, -⟩ := run_bind_iff.mp ran
    obtain ⟨-, rfl, -⟩ := run_pure_pair_iff.mp ended
    exact commitQueued_names committing
  · obtain ⟨-, rfl, -⟩ := run_pure_pair_iff.mp ran
    rfl

theorem learningQueueSink_names {signalId code : Int} {route : Route} {evidenceRefs : Option Bytes}
    (ran : (learningQueueSink env signalId route evidenceRefs given).run state =
      ((code, noted), final, events)) :
    namedSignal noted = namedSignal given := by
  obtain ⟨_, _, _, _, -, search, -⟩ := run_bind_iff.mp ran
  obtain ⟨found, _, _, _, -, branched, -⟩ := run_bind_iff.mp search
  split at branched
  · unfold joinPending at branched
    obtain ⟨_, _, _, _, -, reported, -⟩ := run_bind_iff.mp branched
    obtain ⟨_, _, _, _, -, looking, -⟩ := run_bind_iff.mp reported
    obtain ⟨again, _, _, _, -, decided, -⟩ := run_bind_iff.mp looking
    cases again with
    | none =>
        obtain ⟨-, rfl, -⟩ := run_pure_pair_iff.mp decided
        exact namedSignal_addProposal found
    | some proposal => exact (commitIf_names decided).trans (namedSignal_addProposal found)
  · unfold insertProposal at branched
    obtain ⟨days, _, _, _, -, timing, -⟩ := run_bind_iff.mp branched
    obtain ⟨expiresAt, _, _, _, -, storing, -⟩ := run_bind_iff.mp timing
    obtain ⟨id, _, _, _, -, decided, -⟩ := run_bind_iff.mp storing
    split at decided
    · obtain ⟨-, rfl, -⟩ := run_pure_pair_iff.mp decided
      rfl
    · obtain ⟨_, _, _, _, -, finished, -⟩ := run_bind_iff.mp decided
      exact (commitIf_names finished).trans (namedSignal_addProposal id)

theorem queueRoutes_names {signalId : Int} {evidenceRefs : Option Bytes} {targets : List Route}
    (ran : (queueRoutes env signalId evidenceRefs targets given).run state =
      (noted, final, events)) :
    namedSignal noted = namedSignal given := by
  induction targets generalizing given state events with
  | nil =>
      obtain ⟨rfl, -⟩ := run_pure_iff.mp ran
      rfl
  | cons route rest ih =>
      obtain ⟨⟨code, between⟩, _, _, _, queueing, remaining, -⟩ := run_bind_iff.mp ran
      exact (ih remaining).trans (learningQueueSink_names queueing)

end Names

section Refusals

/-- Nothing is left of a signal but an expiry sweep. -/
structure Untraced (instant : Bytes → Int) (before after : StoreView)
    (events : List (RouterEvent ν)) : Prop where
  signals : after.signals = before.signals
  rows : after.rows = before.rows ∨ ∃ time, before.now ≤ time ∧ time ≤ after.now ∧
    List.Forall₂ (Swept instant time) before.rows after.rows
  sweeps : ∀ event ∈ events, event = .archivedExpired

/-- The signal of an id is stored, and was not before. -/
structure StoredAs (id : Int) (before after : StoreView) (events : List (RouterEvent ν)) :
    Prop where
  fresh : id ∉ before.signals
  signals : after.signals = before.signals ++ [id]
  reported : .signalInserted id ∈ events

variable {before middle after : StoreView} {events : List (RouterEvent ν)}

theorem Untraced.quiet (quiet : before.Quiet after) :
    Untraced instant before after ([] : List (RouterEvent ν)) :=
  ⟨quiet.signals, .inl quiet.rows, nofun⟩

theorem Untraced.between (begins : before.Quiet middle)
    (untraced : Untraced instant middle after events) : Untraced instant before after events := by
  refine ⟨untraced.signals.trans begins.signals, ?_, untraced.sweeps⟩
  rcases untraced.rows with same | ⟨time, began, ended, swept⟩
  · exact .inl (same.trans begins.rows)
  · exact .inr ⟨time, begins.later.trans began, ended, begins.rows ▸ swept⟩

variable {state final : σ} {given noted : Option LearningDispatchResult} {raw : LearningSignalInput}
  {code : Int}

/-- How recording a signal ends. -/
inductive Recorded (instant : Bytes → Int) (before after : StoreView)
    (events : List (RouterEvent ν)) (given noted : Option LearningDispatchResult) : Int → Prop where
  | refused (untraced : Untraced instant before after events) (same : noted = given) :
      Recorded instant before after events given noted (-1)
  | stored {id : Int} (positive : 0 < id) (stored : StoredAs id before after events)
      (named : ∀ result, noted = some result → result.signalId = id) :
      Recorded instant before after events given noted id

variable {law : StoreLaw ν} (acts : ActsAsNamed env view law.instant law.fails)

include acts

theorem dispatchSignal_recorded {mask : UInt32}
    (ran : (dispatchSignal env raw mask given).run state = ((code, noted), final, events)) :
    Recorded law.instant (view state) (view final) events given noted code := by
  rcases dispatchSignal_cases acts [] ran with
    ⟨rfl, rfl, rfl, sweep⟩ | ⟨logged, body, rfl, positive, fresh, grown, -, queues⟩
  · refine .refused ⟨sweep.signals, ?_, by simp⟩ rfl
    obtain ⟨time, began, ended, -, rows⟩ := sweep
    rcases rows with moved | ⟨-, same⟩
    · exact .inr ⟨time, began, ended, moved⟩
    · exact .inl same
  · have kept := queueRoutes_noSignal acts _ _ _ _ _ _ _ _ queues
    have named := queueRoutes_names queues
    refine .stored positive ⟨fresh, kept.trans grown, by simp⟩ fun former same => ?_
    subst same
    cases given with
    | none => cases named
    | some former => exact Option.some.inj named

theorem learningRouterRecordSignal_recorded (usable : raw.signalType ≠ [])
    (ran : (learningRouterRecordSignal env (some raw) given).run state =
      ((code, noted), final, events)) :
    Recorded law.instant (view state) (view final) events (given.map fun _ => .zero) noted code := by
  rcases learningRouterRecordSignal_cases acts ran with
    ⟨rfl, rfl, quiet, cleared⟩ | ⟨other, mask, classified, same, -, -, -, quiet, dispatch⟩
  · exact .refused (.quiet quiet) (cleared ⟨raw, rfl, usable⟩)
  · cases dispatchSignal_recorded acts dispatch with
    | refused untraced same => exact .refused (untraced.between quiet) same
    | stored positive stored named =>
        refine .stored positive ⟨?_, ?_, stored.reported⟩ named
        · rw [← quiet.signals]
          exact stored.fresh
        · rw [← quiet.signals]
          exact stored.signals

end Refusals

section Contract

/-- What a caller may rely on: a refusal leaves no trace, in the store or in
`*out`, and an answer is the id of the stored signal. -/
structure RecordContract (instant : Bytes → Int) (before after : StoreView)
    (events : List (RouterEvent ν)) (code : Int) (noted : Option DispatchMemory) : Prop where
  answer : code = -1 ∨ 0 < code
  untraced : code = -1 → Untraced instant before after events
  cleared : code = -1 → ∀ memory, noted = some memory → memory = .zero
  stored : 0 < code → StoredAs code before after events
  named : 0 < code → ∀ memory, noted = some memory → memory.signalId = code

/-- The input passes the check of the arguments. -/
def Usable (rawInput : Option LearningSignalInput) : Prop :=
  ∃ raw, rawInput = some raw ∧ raw.signalType ≠ []

variable {state final : σ} {rawInput : Option LearningSignalInput} {db2 : Bool}
  {out noted : Option DispatchMemory} {code : Int} {events : List (RouterEvent ν)}

theorem refused_contract {before after : StoreView}
    (untraced : Untraced instant before after events)
    (cleared : ∀ memory, noted = some memory → memory = .zero) :
    RecordContract instant before after events (-1) noted :=
  ⟨.inl rfl, fun _ => untraced, fun _ => cleared, fun positive => absurd positive (by decide),
    fun positive => absurd positive (by decide)⟩

theorem cleared_zero {memory : DispatchMemory} (same : learningDispatchClear out = some memory) :
    memory = .zero := by
  obtain ⟨former, -, rfl⟩ := Option.map_eq_some_iff.mp same
  rfl

theorem unusable_run (unusable : ¬ Usable rawInput)
    (ran : (learningRouterRecordSignalInto env db2 rawInput out).run state =
      ((code, noted), final, events)) :
    code = -1 ∧ noted = out ∧ final = state ∧ events = [] := by
  unfold learningRouterRecordSignalInto at ran
  cases rawInput with
  | none =>
      obtain ⟨rfl, rfl, same, silent⟩ := run_pure_pair_iff.mp ran
      exact ⟨rfl, rfl, same, silent⟩
  | some raw =>
      have empty : raw.signalType = [] := by
        by_contra named
        exact unusable ⟨raw, rfl, named⟩
      dsimp only at ran
      rw [if_pos empty] at ran
      obtain ⟨rfl, rfl, same, silent⟩ := run_pure_pair_iff.mp ran
      exact ⟨rfl, rfl, same, silent⟩

variable (acts : ActsAsNamed env view instant fails)

include acts

theorem usable_contract (usable : Usable rawInput)
    (ran : (learningRouterRecordSignalInto env db2 rawInput out).run state =
      ((code, noted), final, events)) :
    RecordContract instant (view state) (view final) events code noted := by
  obtain ⟨raw, rfl, named⟩ := usable
  unfold learningRouterRecordSignalInto at ran
  dsimp only at ran
  rw [if_neg named] at ran
  split at ran
  · obtain ⟨rfl, rfl, rfl, rfl⟩ := run_pure_pair_iff.mp ran
    exact refused_contract (.quiet ⟨le_refl _, rfl, rfl⟩) fun _ => cleared_zero
  · obtain ⟨⟨answer, result⟩, _, _, _, recorded, ended, rfl⟩ := run_bind_iff.mp ran
    obtain ⟨rfl, rfl, rfl, rfl⟩ := run_pure_pair_iff.mp ended
    rw [List.append_nil]
    have acts : ActsAsNamed env view (freeLaw (ν := ν) instant fails).instant
      (freeLaw (ν := ν) instant fails).fails := acts
    cases learningRouterRecordSignal_recorded acts named recorded with
    | refused untraced same =>
        refine refused_contract untraced fun memory written => ?_
        subst same
        obtain ⟨former, here, rfl⟩ := Option.map_eq_some_iff.mp written
        obtain ⟨_, -, rfl⟩ := Option.map_eq_some_iff.mp here
        rfl
    | stored positive stored names =>
        refine ⟨.inr positive, fun refused => ?_, fun refused => ?_, fun _ => stored,
          fun _ memory written => ?_⟩
        · omega
        · omega
        · obtain ⟨result, here, rfl⟩ := Option.map_eq_some_iff.mp written
          exact names result here

/-- A refusal leaves no trace exactly where the arguments are usable or `*out`
held nothing before. -/
theorem record_signal_contract_iff
    (ran : (learningRouterRecordSignalInto env db2 rawInput out).run state =
      ((code, noted), final, events)) :
    RecordContract instant (view state) (view final) events code noted ↔
      Usable rawInput ∨ ∀ memory, out = some memory → memory = .zero := by
  constructor
  · intro contract
    by_cases usable : Usable rawInput
    · exact .inl usable
    · obtain ⟨rfl, rfl, -, -⟩ := unusable_run usable ran
      exact .inr (contract.cleared rfl)
  · rintro (usable | blank)
    · exact usable_contract acts usable ran
    · by_cases usable : Usable rawInput
      · exact usable_contract acts usable ran
      · obtain ⟨rfl, rfl, rfl, rfl⟩ := unusable_run usable ran
        exact refused_contract (.quiet ⟨le_refl _, rfl, rfl⟩) blank

end Contract

section Poisoned

/-- Memory filled with the byte 0x7f. -/
def poisoned : DispatchMemory := .filled 0x7f7f7f7f

/-- The afternoon without a classifier. -/
def unclassified : RouterEnv MemoryStore Int := { memoryEnv afternoon with signalClassifier := none }

theorem unclassified_acts : ActsAsNamed unclassified (memoryView afternoon) readTimestamp False := by
  have acts : ActsAsNamed (memoryEnv afternoon) (memoryView afternoon) readTimestamp False :=
    memoryEnv_actsSurely fun _ => rfl
  exact { acts with classifier := nofun }

/-- Without a classifier the poisoned result is cleared. -/
theorem unclassified_contract :
    RecordContract readTimestamp (memoryView afternoon .empty) (memoryView afternoon .empty)
      ([] : List (RouterEvent Int)) (-1) (some .zero) := by
  have ran : (learningRouterRecordSignalInto unclassified true (some (thumb "thumb_up" 0))
      (some poisoned)).run .empty = ((-1, some .zero), .empty, []) := rfl
  exact (record_signal_contract_iff unclassified_acts ran).mpr (.inl ⟨_, rfl, by decide⟩)

/-- A signal without a type leaves the poisoned result as it was. -/
theorem untyped_signal_uncleared :
    ¬ ∀ code noted final events,
      (learningRouterRecordSignalInto (memoryEnv afternoon) true (some bareSignal)
        (some poisoned)).run .empty = ((code, noted), final, events) →
      RecordContract readTimestamp (memoryView afternoon .empty) (memoryView afternoon final)
        events code noted := by
  intro claimed
  have contract := claimed (-1) (some poisoned) .empty [] rfl
  exact DispatchMemory.filled_ne_zero (by decide) (contract.cleared rfl poisoned rfl)

end Poisoned

end AimeeLearning.Learning
