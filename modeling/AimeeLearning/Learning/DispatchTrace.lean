import AimeeLearning.Learning.RouterRuns
import AimeeLearning.Learning.TouchedRows

/-! How a recorded signal shows in the events of its call. Every sink takes one
proposal, which it inserts or raises, and may try to commit it; the dispatch
result notes the proposal, and the commit once it is marked. -/

set_option autoImplicit false

namespace AimeeLearning.Learning

open Library Traced

variable {σ ν : Type} {env : RouterEnv σ ν} {view : σ → StoreView} {law : StoreLaw ν}
  {past events trace : List (RouterEvent ν)}

section Traces

/-- How a try to commit a proposal shows, and whether it was marked. -/
inductive CommitTrace (id : Int) : Bool → List (RouterEvent ν) → Prop where
  | looked : CommitTrace id false [.archivedExpired]
  | capped (reason : Bytes) :
      CommitTrace id false [.archivedExpired, .archived id reason, .archivedExpired]
  | failed (effect : SinkEffect ν) (rc : Int) (wrong : rc ≠ 0) :
      CommitTrace id false [.archivedExpired, .applied id effect rc]
  | silent : CommitTrace id true [.archivedExpired, .committed id 0, .archivedExpired]
  | worked (effect : SinkEffect ν) : CommitTrace id true
      [.archivedExpired, .applied id effect 0, .committed id 0, .archivedExpired]

/-- The sink of a row had an action it could read and nothing to do, or did it. -/
def SinkWorked (env : RouterEnv σ ν) (events : List (RouterEvent ν)) (row : LearningProposal) :
    Prop :=
  ∃ action session, env.cjsonParse row.actionJson = some action ∧
    (sinkPlan env session row action = .nothing ∨
      ∃ effect, sinkPlan env session row action = .effect effect ∧ .applied row.id effect 0 ∈ events)

theorem sinkPlan_congr {row next : LearningProposal} (sink : next.sink = row.sink)
    (target : next.targetMemoryId = row.targetMemoryId) (session : Bytes) (action : CJson ν) :
    sinkPlan env session next action = sinkPlan env session row action := by
  simp only [sinkPlan, rerankerPlan, sink, target]

theorem SinkWorked.mono {row : LearningProposal} (worked : SinkWorked env trace row)
    (within : trace ⊆ events) : SinkWorked env events row := by
  obtain ⟨action, session, parsed, plan⟩ := worked
  exact ⟨action, session, parsed,
    plan.imp_right fun ⟨effect, planned, applied⟩ => ⟨effect, planned, within applied⟩⟩

theorem SinkWorked.moved {row next : LearningProposal} (worked : SinkWorked env trace row)
    (moved : RowStep events row next) : SinkWorked env trace next := by
  obtain ⟨action, session, parsed, plan⟩ := worked
  refine ⟨action, session, moved.action ▸ parsed, ?_⟩
  rw [sinkPlan_congr moved.target.1 moved.target.2.2, moved.id]
  exact plan

theorem learningApplySink_worked {proposal : LearningProposal} {state final : σ}
    (ran : (learningApplySink env proposal).run state = (0, final, events)) :
    SinkWorked env events proposal := by
  unfold learningApplySink at ran
  split at ran
  · obtain ⟨impossible, -⟩ := run_pure_iff.mp ran
    exact absurd impossible (by decide)
  · rename_i action parsed
    obtain ⟨session, _, _, _, _, planned, rfl⟩ := run_bind_iff.mp ran
    split at planned
    · obtain ⟨impossible, -⟩ := run_pure_iff.mp planned
      exact absurd impossible (by decide)
    · rename_i nothing
      exact ⟨action, session, parsed, .inl nothing⟩
    · rename_i effect plan
      obtain ⟨code, _, _, _, _, ended, rfl⟩ := run_bind_iff.mp planned
      obtain ⟨_, _, _, _, reported, returned, rfl⟩ := run_bind_iff.mp ended
      obtain ⟨rfl, rfl⟩ := run_emit_iff.mp reported
      obtain ⟨settled, -⟩ := run_pure_iff.mp returned
      exact ⟨action, session, parsed, .inr ⟨effect, plan, by simp [settled]⟩⟩

/-- What a try to commit comes to. -/
structure CommitOutcome (env : RouterEnv σ ν) (id : Int) (events : List (RouterEvent ν))
    (rows : List LearningProposal) (result : Option LearningProposal) (listed : Bool) : Prop where
  trace : CommitTrace id listed events
  answer : (∃ proposal, result = some proposal ∧ proposal.state = stateCommitted) ↔ listed = true
  worked : listed = true → ∃ row ∈ rows, row.id = id ∧ SinkWorked env events row

theorem CommitOutcome.unlisted {id : Int} {rows : List LearningProposal}
    {result : Option LearningProposal} (trace : CommitTrace id false events)
    (open' : ∀ proposal, result = some proposal → proposal.state ≠ stateCommitted) :
    CommitOutcome env id events rows result false := by
  refine ⟨trace, ⟨?_, nofun⟩, nofun⟩
  rintro ⟨proposal, same, done⟩
  exact absurd done (open' proposal same)

variable (acts : ActsAsNamed env view law.instant law.fails) (observed : CapObserved env view law)
  (sure : ¬ law.fails) (any : ∀ history rows id, law.reason history rows id)

include acts

theorem fetched_mem {id : Int} {state final : σ} {proposal : LearningProposal}
    (lawful : (view state).Lawful)
    (ran : (learningGetProposal env id).run state = (some proposal, final, events)) :
    proposal ∈ (view final).rows ∧ proposal.id = id := by
  obtain ⟨-, swept, answer⟩ := learningGetProposal_spec acts ran
  exact (find?_eq_some_iff_mem (swept.lawful lawful).unique).mp answer.symm

include sure

theorem applied_trace {proposal : LearningProposal} {state final : σ}
    {result : Option LearningProposal}
    (ran : (do
      let rc ← learningApplySink env proposal
      if rc ≠ 0 then pure none
      else do
        let rc ← call (env.proposalMarkCommitted · proposal.id)
        emit (.committed proposal.id rc)
        learningGetProposal env proposal.id : RouterM σ ν _).run state = (result, final, events)) :
    CommitTrace proposal.id false (.archivedExpired :: events) ∧ result = none ∨
      CommitTrace proposal.id true (.archivedExpired :: events) ∧
        .committed proposal.id 0 ∈ events ∧ SinkWorked env events proposal := by
  obtain ⟨rc, worked, applied, _, performed, ended, rfl⟩ := run_bind_iff.mp ran
  obtain ⟨-, effects⟩ := learningApplySink_spec acts performed
  split at ended
  · rename_i wrong
    obtain ⟨rfl, rfl, rfl⟩ := run_pure_iff.mp ended
    rcases effects with rfl | ⟨effect, rfl⟩
    · exact .inl ⟨.looked, rfl⟩
    · exact .inl ⟨.failed effect rc wrong, rfl⟩
  · rename_i right
    obtain rfl := not_not.mp right
    obtain ⟨code, marked, _, _, marking, noted, rfl⟩ := run_bind_iff.mp ended
    obtain ⟨done, rfl⟩ := run_call_iff.mp marking
    obtain ⟨_, _, _, _, reported, again, rfl⟩ := run_bind_iff.mp noted
    obtain ⟨rfl, rfl⟩ := run_emit_iff.mp reported
    obtain ⟨rfl, -, -⟩ := learningGetProposal_spec acts again
    obtain ⟨time, -, act⟩ := acts.markCommitted worked proposal.id
    rw [done] at act
    obtain rfl : code = 0 := (act.2.2.resolve_right fun lost => sure lost.1).1
    refine .inr ⟨?_, by simp, (learningApplySink_worked performed).mono (by simp)⟩
    rcases effects with rfl | ⟨effect, rfl⟩
    · exact .silent
    · exact .worked effect

include observed any

theorem learningCommitProposal_outcome {id : Int} {state final : σ}
    {result : Option LearningProposal} (lawful : (view state).Lawful)
    (unsettled : ∀ row ∈ (view state).rows, row.id = id → row.state ≠ stateCommitted)
    (ran : (learningCommitProposal env id).run state = (result, final, events)) :
    ∃ listed, CommitOutcome env id events (view final).rows result listed := by
  obtain ⟨path, report⟩ := learningCommitProposal_spec acts [] observed lawful
    (fun _ _ _ _ _ _ => any _ _ _) ran
  obtain ⟨found, fetched, rest, got, rfl, ways⟩ := learningCommitProposal_cases acts ran
  obtain ⟨-, swept, -⟩ := learningGetProposal_spec acts got
  have settled := swept.lawful lawful
  rcases ways with ⟨rfl, rfl, rfl, -⟩ | ⟨proposal, rfl, pending, branches⟩
  · refine ⟨false, .unlisted .looked ?_⟩
    rintro proposal rfl
    obtain ⟨member, named⟩ := fetched_mem acts lawful got
    exact path_unmarked path lawful unsettled (by simp) member named
  · obtain ⟨rfl, here, -, alone⟩ := found_pending acts lawful got pending
    have look := acts.commits fetched proposal.sink
    rcases branches with ⟨-, branched⟩ | ⟨room, branched⟩
    · obtain ⟨_, archived, _, _, refused, again, rfl⟩ := run_bind_iff.mp branched
      obtain ⟨rfl, step⟩ := archiveProposal_spec acts [] (look.rows ▸ alone) refused
      obtain ⟨rfl, -, -⟩ := learningGetProposal_spec acts again
      refine ⟨false, .unlisted (.capped _) ?_⟩
      rintro other rfl
      obtain ⟨member, same⟩ := fetched_mem acts (step.lawful (settled.quiet look)) again
      exact path_unmarked path lawful unsettled (by simp) member same
    · obtain ⟨counted, began, ahead, allowed⟩ := observed fetched proposal.sink room
      obtain ⟨back, -⟩ := apply_spec acts [] settled look began ahead here alone allowed
        (any _ _ _) branched
      obtain ⟨next, there, moved⟩ := path_forward back settled here
      rcases applied_trace acts sure branched with ⟨trace, rfl⟩ | ⟨trace, marked, work⟩
      · exact ⟨false, .unlisted trace nofun⟩
      · refine ⟨true, trace, ?_, fun _ => ⟨next, there, moved.id, (work.moved moved).mono (by simp)⟩⟩
        obtain ⟨last, found, -, committed⟩ := report.reported (by simp [marked])
        exact ⟨fun _ => rfl, fun _ => ⟨last, found, committed⟩⟩

end Traces

section Outcomes

/-- The proposal a sink took, whether it was marked, and how this shows. -/
structure SinkOutcome (ν : Type) where
  id : Int
  listed : Bool
  trace : List (RouterEvent ν)

/-- The result with what a sink did noted. -/
def LearningDispatchResult.noting (result : LearningDispatchResult) (outcome : SinkOutcome ν) :
    LearningDispatchResult :=
  if outcome.listed then (result.addProposal outcome.id).addCommitted outcome.id
  else result.addProposal outcome.id

variable {signal : Int} {route : Route} {id : Int} {listed : Bool}

/-- A sink takes a proposal by raising it or by inserting it. -/
inductive Opening (signal : Int) (route : Route) (id : Int) : List (RouterEvent ν) → Prop where
  | raised : Opening signal route id [.routed signal route, .bumped id, .archivedExpired]
  | inserted : Opening signal route id [.routed signal route, .inserted id]

/-- What follows the taking: nothing, or a try to commit. -/
inductive Closing (id : Int) : Bool → List (RouterEvent ν) → Prop where
  | waits : Closing id false []
  | tried {listed : Bool} {trace : List (RouterEvent ν)} (tries : CommitTrace id listed trace) :
      Closing id listed trace

/-- How a signal shows at a sink. -/
def QueueTrace (signal : Int) (route : Route) (id : Int) (listed : Bool)
    (trace : List (RouterEvent ν)) : Prop :=
  ∃ opening closing, trace = opening ++ closing ∧ Opening signal route id opening ∧
    Closing id listed closing

theorem QueueTrace.touched (shown : QueueTrace signal route id listed trace) {other : Int} :
    Touched trace other ↔ other = id := by
  obtain ⟨opening, closing, rfl, opens, closes⟩ := shown
  cases opens <;> rcases closes with _ | ⟨_ | _ | _ | _ | _⟩ <;> simp [Touched]

theorem QueueTrace.marked (shown : QueueTrace signal route id listed trace) {other : Int} :
    .committed other 0 ∈ trace ↔ listed = true ∧ other = id := by
  obtain ⟨opening, closing, rfl, opens, closes⟩ := shown
  cases opens <;> rcases closes with _ | ⟨_ | _ | _ | _ | _⟩ <;> simp

theorem QueueTrace.failed (shown : QueueTrace signal route id listed trace) {other rc : Int}
    {effect : SinkEffect ν} (applied : .applied other effect rc ∈ trace) (wrong : rc ≠ 0) :
    other = id ∧ listed = false := by
  obtain ⟨opening, closing, rfl, opens, closes⟩ := shown
  cases opens <;> rcases closes with _ | ⟨_ | _ | _ | _ | _⟩ <;> simp_all

theorem QueueTrace.routed (shown : QueueTrace signal route id listed trace) {other : Int}
    {target : Route} (routed : .routed other target ∈ trace) : target = route := by
  obtain ⟨opening, closing, rfl, opens, closes⟩ := shown
  cases opens <;> rcases closes with _ | ⟨_ | _ | _ | _ | _⟩ <;> simp_all

def notedCommit (id : Int) (listed : Bool) (given : Option LearningDispatchResult) :
    Option LearningDispatchResult :=
  if listed then given.map (·.addCommitted id) else given

theorem notedCommit_noting {given : Option LearningDispatchResult} :
    notedCommit id listed (given.map (·.addProposal id)) =
      given.map (·.noting (⟨id, listed, trace⟩ : SinkOutcome ν)) := by
  cases listed <;> cases given <;> rfl

/-- The row of a marked proposal shows that its sink worked. -/
def ListedWorked (env : RouterEnv σ ν) (id : Int) (listed : Bool) (events : List (RouterEvent ν))
    (rows : List LearningProposal) : Prop :=
  listed = true → ∃ row ∈ rows, row.id = id ∧ SinkWorked env events row

theorem ListedWorked.mono {rows : List LearningProposal}
    (worked : ListedWorked env id listed trace rows) (within : trace ⊆ events) :
    ListedWorked env id listed events rows := by
  intro marked
  obtain ⟨row, present, named, work⟩ := worked marked
  exact ⟨row, present, named, work.mono within⟩

variable (acts : ActsAsNamed env view law.instant law.fails) (observed : CapObserved env view law)
  (sure : ¬ law.fails) (any : ∀ history rows id, law.reason history rows id)
  {given noted : Option LearningDispatchResult} {state final : σ} {code : Int}

include acts observed sure any

theorem commitQueued_outcome (lawful : (view state).Lawful)
    (unsettled : ∀ row ∈ (view state).rows, row.id = id → row.state ≠ stateCommitted)
    (ran : (commitQueued env id given).run state = (noted, final, events)) :
    ∃ listed, CommitTrace id listed events ∧ noted = notedCommit id listed given ∧
      ListedWorked env id listed events (view final).rows := by
  obtain ⟨result, committed, tries, rest, tried, ended, rfl⟩ := run_bind_iff.mp ran
  obtain ⟨listed, outcome⟩ :=
    learningCommitProposal_outcome acts observed sure any lawful unsettled tried
  suffices finished : noted = notedCommit id listed given ∧ final = committed ∧ rest = [] by
    obtain ⟨rfl, rfl, rfl⟩ := finished
    rw [List.append_nil]
    exact ⟨listed, outcome.trace, rfl, outcome.worked⟩
  have unlisted : (∀ proposal, result = some proposal → proposal.state ≠ stateCommitted) →
      listed = false := by
    intro still
    by_contra marked
    obtain ⟨proposal, same, done⟩ := outcome.answer.mpr (by simpa using marked)
    exact still proposal same done
  split at ended
  · obtain ⟨rfl, rfl, rfl⟩ := run_pure_iff.mp ended
    rw [unlisted nofun]
    exact ⟨rfl, rfl, rfl⟩
  · rename_i proposal
    split at ended
    · rename_i done
      obtain ⟨rfl, rfl, rfl⟩ := run_pure_iff.mp ended
      rw [outcome.answer.mp ⟨proposal, rfl, done⟩]
      exact ⟨rfl, rfl, rfl⟩
    · rename_i still
      obtain ⟨rfl, rfl, rfl⟩ := run_pure_iff.mp ended
      rw [unlisted fun other same => Option.some.inj same ▸ still]
      exact ⟨rfl, rfl, rfl⟩

theorem commitIf_outcome {commits : Bool} (lawful : (view state).Lawful)
    (unsettled : ∀ row ∈ (view state).rows, row.id = id → row.state ≠ stateCommitted)
    (ran : (commitIf env commits id given).run state = ((code, noted), final, events)) :
    ∃ listed, Closing id listed events ∧ noted = notedCommit id listed given ∧
      ListedWorked env id listed events (view final).rows := by
  unfold commitIf at ran
  split at ran
  · obtain ⟨result, _, _, _, committing, ended, rfl⟩ := run_bind_iff.mp ran
    obtain ⟨-, rfl, rfl, rfl⟩ := run_pure_pair_iff.mp ended
    obtain ⟨listed, tries, same, worked⟩ :=
      commitQueued_outcome acts observed sure any lawful unsettled committing
    rw [List.append_nil]
    exact ⟨listed, .tried tries, same, worked⟩
  · obtain ⟨-, rfl, rfl, rfl⟩ := run_pure_pair_iff.mp ran
    exact ⟨false, .waits, rfl, nofun⟩

/-- What a sink does with a signal. -/
def Takes (env : RouterEnv σ ν) (signal : Int) (route : Route) (events : List (RouterEvent ν))
    (rows : List LearningProposal) (given noted : Option LearningDispatchResult) : Prop :=
  ∃ outcome : SinkOutcome ν, outcome.trace = events ∧
    QueueTrace signal route outcome.id outcome.listed events ∧
    noted = given.map (·.noting outcome) ∧
    ListedWorked env outcome.id outcome.listed events rows

omit acts observed sure any in
theorem Takes.of_closing {rows : List LearningProposal} {opening closing : List (RouterEvent ν)}
    (opens : Opening signal route id opening) (closes : Closing id listed closing)
    (same : noted = notedCommit id listed (given.map (·.addProposal id)))
    (worked : ListedWorked env id listed closing rows) :
    Takes env signal route (opening ++ closing) rows given noted :=
  ⟨⟨id, listed, opening ++ closing⟩, rfl, ⟨opening, closing, rfl, opens, closes⟩,
    same.trans notedCommit_noting, worked.mono (List.subset_append_right _ _)⟩

theorem queue_join_takes {row : LearningProposal} {start searched : σ}
    (lawful : (view start).Lawful) (unrouted : Unrouted past signal route.sink)
    (quiet : (view start).Quiet (view searched)) (present : row ∈ (view start).rows)
    (pending : row.state = statePending)
    (target : row.isFor route.sink route.targetKey route.targetMemoryId)
    (ran : (joinPending env row.id given).run searched = ((code, noted), final, events)) :
    Takes env signal route (.routed signal route :: events) (view final).rows given noted := by
  obtain ⟨again, fetched, late, rfl, front, -, decided⟩ :=
    queue_join_cases acts unrouted quiet present pending target ran
  have unsettled : ∀ other ∈ (view fetched).rows, other.id = row.id →
      other.state ≠ stateCommitted := by
    refine fun other => path_unmarked front lawful (fun former member named => ?_) (by simp)
    rw [lawful.same present member named, pending]
    decide
  suffices ended : Takes env signal route
      ([.routed signal route, .bumped row.id, .archivedExpired] ++ late) (view final).rows given noted
    from ended
  cases again with
  | none =>
      obtain ⟨-, rfl, rfl, rfl⟩ := run_pure_pair_iff.mp decided
      exact .of_closing .raised .waits rfl nofun
  | some proposal =>
      obtain ⟨listed, closes, same, worked⟩ :=
        commitIf_outcome acts observed sure any (path_lawful front lawful) unsettled decided
      exact .of_closing .raised closes same worked

theorem queue_open_takes {evidenceRefs : Option Bytes} {start searched : σ}
    (lawful : (view start).Lawful) (unrouted : Unrouted past signal route.sink)
    (quiet : (view start).Quiet (view searched))
    (ran : (insertProposal env signal route evidenceRefs given).run searched =
      ((code, noted), final, events)) :
    Takes env signal route (.routed signal route :: events) (view final).rows given noted := by
  obtain ⟨id, noting, late, rfl, fresh, step, finished⟩ :=
    (queue_open_cases acts unrouted quiet ran).resolve_left fun lost => sure lost.1
  have unsettled : ∀ other ∈ (view noting).rows, other.id = id →
      other.state ≠ stateCommitted := by
    refine fun other => path_unmarked (.single step) lawful (fun former member named => ?_) (by simp)
    exact absurd (List.mem_map.mpr ⟨former, member, named⟩) fresh
  obtain ⟨listed, closes, same, worked⟩ :=
    commitIf_outcome acts observed sure any (step.lawful lawful) unsettled finished
  exact .of_closing .inserted closes same worked

theorem learningQueueSink_takes {evidenceRefs : Option Bytes} (lawful : (view state).Lawful)
    (unrouted : Unrouted past signal route.sink)
    (ran : (learningQueueSink env signal route evidenceRefs given).run state =
      ((code, noted), final, events)) :
    Takes env signal route events (view final).rows given noted := by
  unfold learningQueueSink at ran
  obtain ⟨_, emitted, _, _, announced, search, rfl⟩ := run_bind_iff.mp ran
  obtain ⟨rfl, rfl⟩ := run_emit_iff.mp announced
  obtain ⟨found, searched, _, _, looked, branched, rfl⟩ := run_bind_iff.mp search
  obtain ⟨answer, rfl⟩ := run_call_iff.mp looked
  obtain ⟨quiet, hit, -⟩ := acts.findPending emitted route.sink route.targetKey
    route.targetMemoryId
  rw [answer] at quiet hit
  split at branched
  · rename_i positive
    obtain ⟨row, present, rfl, pending, target⟩ := hit positive
    exact queue_join_takes acts observed sure any lawful unrouted quiet present pending target branched
  · exact queue_open_takes acts observed sure any lawful unrouted quiet branched

end Outcomes

section Calls

/-- A sink that was served, with its proposal among the rows. -/
structure Served (env : RouterEnv σ ν) (signal : Int) (rows : List LearningProposal)
    (outcome : SinkOutcome ν) (route : Route) : Prop where
  trace : QueueTrace signal route outcome.id outcome.listed outcome.trace
  row : ∃ row ∈ rows, row.id = outcome.id ∧ row.sink = route.sink
  worked : ListedWorked env outcome.id outcome.listed outcome.trace rows

variable {signal : Int} {outcome : SinkOutcome ν} {outcomes : List (SinkOutcome ν)}

theorem Served.later {route : Route} {before after : StoreView}
    (served : Served env signal before.rows outcome route)
    (path : Path (Evolution law) past before events after) (lawful : before.Lawful) :
    Served env signal after.rows outcome route where
  trace := served.trace
  row := by
    obtain ⟨row, present, named, sent⟩ := served.row
    obtain ⟨next, there, moved⟩ := path_forward path lawful present
    exact ⟨next, there, moved.id.trans named, moved.target.1.trans sent⟩
  worked := fun marked => by
    obtain ⟨row, present, named, work⟩ := served.worked marked
    obtain ⟨next, there, moved⟩ := path_forward path lawful present
    exact ⟨next, there, moved.id.trans named, work.moved moved⟩

theorem foldl_noting (result : LearningDispatchResult)
    (room : result.proposalIds.length + outcomes.length ≤ learningMaxProposalIds)
    (space : result.committedIds.length + outcomes.length ≤ learningMaxProposalIds) :
    outcomes.foldl LearningDispatchResult.noting result =
      ⟨result.signalId, result.proposalIds ++ outcomes.map (·.id),
        result.committedIds ++ (outcomes.filter (·.listed)).map (·.id)⟩ := by
  induction outcomes generalizing result with
  | nil => simp
  | cons outcome rest ih =>
      rw [List.length_cons] at room space
      have first : result.noting outcome = ⟨result.signalId, result.proposalIds ++ [outcome.id],
          result.committedIds ++ ([outcome].filter (·.listed)).map (·.id)⟩ := by
        have here : result.proposalIds.length < learningMaxProposalIds := by omega
        have there : result.committedIds.length < learningMaxProposalIds := by omega
        unfold LearningDispatchResult.noting
        cases marked : outcome.listed <;>
          simp [LearningDispatchResult.addProposal, LearningDispatchResult.addCommitted, here, there,
            marked]
      rw [List.foldl_cons, first, ih]
      · cases marked : outcome.listed <;> simp [marked]
      · simp only [List.length_append, List.length_singleton]
        omega
      · have few := List.length_filter_le (·.listed) [outcome]
        simp only [List.length_append, List.length_map, List.length_singleton] at few ⊢
        omega

variable (acts : ActsAsNamed env view law.instant law.fails) (observed : CapObserved env view law)
  (sure : ¬ law.fails) (any : ∀ history rows id, law.reason history rows id)
  {given noted : Option LearningDispatchResult} {state final : σ} {code : Int}

include acts observed sure any

theorem queueRoutes_served {evidenceRefs : Option Bytes} {targets : List Route}
    (lawful : (view state).Lawful) (unrouted : ∀ route ∈ targets, Unrouted past signal route.sink)
    (distinct : (targets.map (·.sink)).Nodup)
    (ran : (queueRoutes env signal evidenceRefs targets given).run state =
      (noted, final, events)) :
    ∃ outcomes : List (SinkOutcome ν), events = (outcomes.map (·.trace)).flatten ∧
      List.Forall₂ (Served env signal (view final).rows) outcomes targets ∧
      noted = given.map (outcomes.foldl LearningDispatchResult.noting) := by
  induction targets generalizing past given state events with
  | nil =>
      obtain ⟨rfl, rfl, rfl⟩ := run_pure_iff.mp ran
      exact ⟨[], rfl, .nil, by simp⟩
  | cons route rest ih =>
      obtain ⟨fresh, distinct⟩ := List.nodup_cons.mp distinct
      obtain ⟨⟨code, between⟩, queued, early, late, queueing, remaining, rfl⟩ :=
        run_bind_iff.mp ran
      have here := unrouted route List.mem_cons_self
      have front := learningQueueSink_spec acts observed lawful here (fun _ _ _ _ => any _ _ _) queueing
      obtain ⟨outcome, rfl, shown, rfl, worked⟩ :=
        learningQueueSink_takes acts observed sure any lawful here queueing
      have still : ∀ other ∈ rest, Unrouted (past ++ outcome.trace) signal other.sink :=
        fun other member => (unrouted other (List.mem_cons_of_mem _ member)).append
          fun signal taken sent => by
            rw [shown.routed sent]
            exact fun same => fresh (List.mem_map.mpr ⟨other, member, same.symm⟩)
      have settled := path_lawful front.path lawful
      obtain ⟨outcomes, rfl, served, rfl⟩ := ih settled still distinct remaining
      obtain ⟨back, -⟩ := queueRoutes_spec acts observed settled still distinct
        (fun _ _ _ _ => any _ _ _) remaining
      obtain ⟨_, target, routed, row, present, named, sent⟩ :=
        path_touched front.path lawful (shown.touched.mpr rfl)
      have first : Served env signal (view queued).rows outcome route :=
        ⟨shown, ⟨row, present, named, shown.routed routed ▸ sent⟩, worked⟩
      exact ⟨outcome :: outcomes, rfl, .cons (first.later back settled) served, by simp [Function.comp_def]⟩

theorem dispatchSignal_served {raw : LearningSignalInput} {mask : UInt32}
    (lawful : (view state).Lawful) (positive : 0 < code)
    (ran : (dispatchSignal env raw mask given).run state = ((code, noted), final, events)) :
    ∃ (input : LearningSignalInput) (outcomes : List (SinkOutcome ν)),
      events = [.archivedExpired, .signalInserted code] ++ (outcomes.map (·.trace)).flatten ∧
      List.Forall₂ (Served env code (view final).rows) outcomes (routes env input mask) ∧
      noted = (given.map fun result => { result with signalId := code }).map
        (outcomes.foldl LearningDispatchResult.noting) := by
  rcases dispatchSignal_cases acts [] ran with
    ⟨rfl, -⟩ | ⟨logged, body, rfl, -, -, -, front, queues⟩
  · exact absurd positive (by decide)
  · have unrouted : ∀ route ∈ routes env (filledSignal env raw state) mask,
        Unrouted [RouterEvent.archivedExpired (ν := ν), .signalInserted code] code route.sink :=
      fun route _ => ⟨[.archivedExpired], [], rfl, nofun⟩
    obtain ⟨outcomes, rfl, served, same⟩ := queueRoutes_served acts observed sure any
      (path_lawful front lawful) unrouted routes_distinct queues
    exact ⟨filledSignal env raw state, outcomes, rfl, served, same⟩

end Calls

end AimeeLearning.Learning
