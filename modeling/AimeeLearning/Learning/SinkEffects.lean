import AimeeLearning.Learning.MemoryStore
import AimeeLearning.Learning.RouterRuns

/-! How often the effect of a proposal is applied when writes may fail. The
router applies the effect first and does not look at what the marking returned,
so everything hangs on that one write. -/

set_option autoImplicit false

namespace AimeeLearning.Learning

open Library Observe

variable {σ ν : Type} {env : RouterEnv σ ν} {view : σ → StoreView} {instant : Bytes → Int}
  {fails : Prop}

/-- The effect of a proposal took. -/
def isApplied (id : Int) : RouterEvent ν → Bool
  | .applied other _ rc => other = id && rc = 0
  | _ => false

/-- How often the effect of a proposal took. -/
def timesApplied (id : Int) (events : List (RouterEvent ν)) : Nat := events.countP (isApplied id)

/-- No marking was lost right after an effect that took. -/
def MarksKept (events : List (RouterEvent ν)) : Prop :=
  ∀ early id effect rc late, events = early ++ .applied id effect 0 :: .committed id rc :: late →
    rc = 0

section Events

variable {past events : List (RouterEvent ν)}

theorem MarksKept.left (kept : MarksKept (past ++ events)) : MarksKept past := by
  rintro early id effect rc late rfl
  exact kept early id effect rc (late ++ events) (by simp)

theorem MarksKept.right (kept : MarksKept (past ++ events)) : MarksKept events := by
  rintro early id effect rc late rfl
  exact kept (past ++ early) id effect rc late (by simp)

theorem isApplied_iff {id : Int} {event : RouterEvent ν} :
    isApplied id event = true ↔ ∃ effect, event = .applied id effect 0 := by
  cases event <;> simp [isApplied]

theorem timesApplied_eq_zero {id : Int} :
    timesApplied id events = 0 ↔ ∀ effect, .applied id effect 0 ∉ events := by
  rw [timesApplied, List.countP_eq_zero]
  constructor
  · intro none effect member
    exact none _ member (isApplied_iff.mpr ⟨effect, rfl⟩)
  · intro none event member applied
    obtain ⟨effect, rfl⟩ := isApplied_iff.mp applied
    exact none effect member

theorem timesApplied_append {id : Int} :
    timesApplied id (past ++ events) = timesApplied id past + timesApplied id events :=
  List.countP_append

/-- No marking at all was lost. -/
def allMarked (events : List (RouterEvent ν)) : Bool :=
  events.all fun
    | .committed _ rc => rc = 0
    | _ => true

theorem MarksKept.of_all (marked : allMarked events = true) : MarksKept events := by
  rintro early id effect rc late rfl
  simpa using List.all_eq_true.mp marked (.committed id rc) (by simp)

end Events

section Paths

variable {law : StoreLaw ν} {past events : List (RouterEvent ν)} {before after : StoreView}

theorem Evolution.marked (step : Evolution law past before events after) (kept : MarksKept events)
    {id : Int} {effect : SinkEffect ν} (applied : .applied id effect 0 ∈ events) :
    events = [.applied id effect 0, .committed id 0] ∧ CommitStep law past id 0 before events after := by
  obtain ⟨rc, rfl⟩ := step.of_effect applied
  obtain rfl := kept [] id effect rc [] rfl
  exact ⟨rfl, step.of_commit (by simp)⟩

/-- What is known of a proposal's effect: it never took, or it took once and
the proposal is committed. -/
def EffectOnce (history : List (RouterEvent ν)) (view : StoreView) (id : Int) : Prop :=
  timesApplied id history = 0 ∨ timesApplied id history = 1 ∧ SettledId view.rows id stateCommitted

theorem EffectOnce.step {id : Int} (once : EffectOnce past before id) (lawful : before.Lawful)
    (kept : MarksKept events) (step : Evolution law past before events after) :
    EffectOnce (past ++ events) after id := by
  by_cases applied : ∃ effect, .applied id effect 0 ∈ events
  · obtain ⟨effect, applied⟩ := applied
    obtain ⟨rfl, commit⟩ := step.marked kept applied
    have never : timesApplied id past = 0 :=
      once.resolve_right fun ⟨_, settled⟩ => settled.not_pending (by decide) commit.pending
    refine .inr ⟨?_, commit.settles⟩
    rw [timesApplied_append, never]
    simp [timesApplied, isApplied]
  · have none : timesApplied id events = 0 :=
      timesApplied_eq_zero.mpr fun effect member => applied ⟨effect, member⟩
    unfold EffectOnce
    rw [timesApplied_append, none]
    exact once.imp_right fun ⟨times, settled⟩ =>
      ⟨times, settled.later (by decide) (.single step) lawful⟩

theorem path_effectOnce (path : Path (Evolution law) past before events after)
    (lawful : before.Lawful) (kept : MarksKept (past ++ events)) {id : Int}
    (once : EffectOnce past before id) : EffectOnce (past ++ events) after id := by
  have held := path.invariant
    (fun history view => view.Lawful ∧ (MarksKept history → EffectOnce history view id))
    ⟨lawful, fun _ => once⟩ fun history _ emitted _ both step =>
      ⟨step.lawful both.1, fun kept => (both.2 kept.left).step both.1 kept.right step⟩
  exact held.2 kept

theorem path_marked (path : Path (Evolution law) past before events after) (kept : MarksKept events)
    {id : Int} {effect : SinkEffect ν} (applied : .applied id effect 0 ∈ events) :
    .committed id 0 ∈ events := by
  obtain ⟨early, emitted, late, _, _, rfl, here, -, step, -⟩ := path.split applied
  obtain ⟨rfl, -⟩ := step.marked kept.left.right here
  simp

end Paths

/-- In every run in which no marking is lost after an effect, the effect of a
proposal takes at most once and the call in which it takes reports the commit. -/
theorem sink_effect_once (acts : ActsAsNamed env view instant fails) {start state : σ}
    (lawful : (view start).Lawful) {actions : List RouterOp} {outputs : List (RouterEvent ν)}
    (run : (routerMachine env).Run start actions state outputs) (kept : MarksKept outputs) :
    (∀ id, timesApplied id outputs ≤ 1) ∧
      (∀ id result final events,
        (learningAcceptProposal env id).run state = (result, final, events) → MarksKept events →
        ∀ other effect, .applied other effect 0 ∈ events → other = id ∧
          ∃ proposal, result = some proposal ∧ proposal.id = id ∧ proposal.state = stateCommitted) ∧
      ∀ rawInput given code noted final events,
        (learningRouterRecordSignal env rawInput (some given)).run state =
          ((code, noted), final, events) → MarksKept events →
        ∀ id effect, .applied id effect 0 ∈ events →
          ∃ result, noted = some result ∧ id ∈ result.committedIds := by
  have free : CapObserved env view (freeLaw (ν := ν) instant fails) :=
    capObserved_trivial acts fun _ _ _ => trivial
  have reached := run_lawful acts lawful run
  refine ⟨fun id => ?_, ?_, ?_⟩
  · have once : EffectOnce ([] ++ outputs) (view state) id :=
      path_effectOnce (run_freePath acts lawful run) lawful kept (.inl rfl)
    rcases once with never | ⟨times, -⟩
    · exact never.le.trans (Nat.zero_le 1)
    · exact times.le
  · intro id result final events ran marks other effect applied
    obtain ⟨path, report⟩ := learningAcceptProposal_spec acts free [] reached
      (fun _ => trivial) ran
    exact report other (path_marked path marks applied)
  · intro rawInput given code noted final events ran marks id effect applied
    obtain ⟨path, report⟩ := learningRouterRecordSignal_spec acts free [] reached
      (fun _ _ _ _ => trivial) ran
    exact report id (path_marked path marks applied) given rfl

/-- A preference is recorded and accepted. -/
theorem sink_effect_once_accepted :
    let run := memoryRun afternoon
      [.recordSignal (some (preference "tabs")) none, .acceptProposal 1]
    timesApplied 1 run.2 = 1 ∧ (∀ id, timesApplied id run.2 ≤ 1) := by
  intro run
  have ran := memoryRun_run afternoon
    [.recordSignal (some (preference "tabs")) none, .acceptProposal 1]
  exact ⟨by decide +kernel, (sink_effect_once (memoryEnv_acts afternoon) memoryView_empty ran
    (.of_all (by decide +kernel))).1⟩

/-- An afternoon whose first marking is lost. -/
def forgetfulAfternoon : MemoryWorld :=
  { afternoon with losesMark := fun number => number = 0 }

/-- The first acceptance applies the effect and reports the proposal pending;
the second applies it again. -/
theorem sink_effect_twice :
    let recorded := memoryRun forgetfulAfternoon [.recordSignal (some (preference "tabs")) none]
    let accepted := (learningAcceptProposal (memoryEnv forgetfulAfternoon) 1).run recorded.1
    ActsAsNamed (memoryEnv forgetfulAfternoon) (memoryView forgetfulAfternoon) readTimestamp
        (∃ number, forgetfulAfternoon.losesMark number = true) ∧
      timesApplied 1 accepted.2.2 = 1 ∧ accepted.1.map (·.state) = some statePending ∧
      timesApplied 1 (memoryRun forgetfulAfternoon
        [.recordSignal (some (preference "tabs")) none, .acceptProposal 1, .acceptProposal 1]).2 = 2 :=
  ⟨memoryEnv_acts _, by decide +kernel, by decide +kernel, by decide +kernel⟩

end AimeeLearning.Learning
