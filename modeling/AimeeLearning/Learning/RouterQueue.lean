import AimeeLearning.Learning.RouterCommit

/-! learning_queue_sink and the routes of a signal. A signal reaches a sink at
most once, and the proposals it commits there it either inserted or raised to a
second signal. -/

set_option autoImplicit false

namespace AimeeLearning.Learning

open Library Traced

variable {σ ν : Type} {env : RouterEnv σ ν} {view : σ → StoreView} {law : StoreLaw ν}
  {past events done : List (RouterEvent ν)}

section Reasons

/-- The events brought a signal to a proposal that now has at least two. -/
def Corroborated (events : List (RouterEvent ν)) (rows : List LearningProposal) (id : Int) : Prop :=
  ∃ early signal route late, events = early ++ .routed signal route :: .bumped id :: late ∧
    ∃ row ∈ rows, row.id = id ∧ 2 ≤ row.corroborationCount ∧
      row.isFor route.sink route.targetKey route.targetMemoryId

/-- Why a recorded signal commits a proposal, by the events of its call. -/
structure SignalReason (events : List (RouterEvent ν)) (rows : List LearningProposal)
    (id : Int) : Prop where
  swept : .archivedExpired ∈ events
  cause : Corroborated events rows id ∨ .inserted id ∈ events

theorem SignalReason.later {rows : List LearningProposal} {id : Int}
    (reason : SignalReason events rows id) : SignalReason (done ++ events) rows id := by
  refine ⟨List.mem_append_right _ reason.swept, ?_⟩
  rcases reason.cause with ⟨early, signal, route, late, rfl, row⟩ | inserted
  · exact .inl ⟨done ++ early, signal, route, late, by simp, row⟩
  · exact .inr (List.mem_append_right _ inserted)

/-- The law lets a recorded signal commit for its reasons. -/
def Grants (law : StoreLaw ν) (past : List (RouterEvent ν)) : Prop :=
  ∀ events rows id, SignalReason events rows id → law.reason (past ++ events) rows id

theorem Grants.later (grants : Grants law past) : Grants law (past ++ done) := by
  intro events rows id reason
  rw [List.append_assoc]
  exact grants _ _ _ reason.later

theorem Unrouted.append {signal : Int} {sink : Bytes} (unrouted : Unrouted past signal sink)
    (others : ∀ other route, .routed other route ∈ events → route.sink ≠ sink) :
    Unrouted (past ++ events) signal sink := by
  obtain ⟨early, late, rfl, elsewhere⟩ := unrouted
  refine ⟨early, late ++ events, by simp, fun other route member => ?_⟩
  rcases List.mem_append.mp member with before | here
  · exact elsewhere other route before
  · exact others other route here

end Reasons

section Notes

/-- A result that is given notes the commits of the events while it has room. -/
def Noted (room : Nat) (events : List (RouterEvent ν))
    (given noted : Option LearningDispatchResult) : Prop :=
  ∀ former, given = some former → ∃ result, noted = some result ∧
    result.committedIds.length ≤ former.committedIds.length + room ∧
    former.committedIds ⊆ result.committedIds ∧
    (former.committedIds.length + room ≤ learningMaxProposalIds →
      ∀ id, .committed id 0 ∈ events → id ∈ result.committedIds)

variable {given middle noted : Option LearningDispatchResult}

theorem Noted.trans {first second : Nat} (left : Noted first done given middle)
    (right : Noted second events middle noted) :
    Noted (first + second) (done ++ events) given noted := by
  intro former given
  obtain ⟨between, same, grown, kept, early⟩ := left former given
  obtain ⟨result, noted, further, keeps, late⟩ := right between same
  refine ⟨result, noted, by omega, fun _ member => keeps (kept member), fun room id member => ?_⟩
  rcases List.mem_append.mp member with before | after
  · exact keeps (early (by omega) id before)
  · exact late (by omega) id after

theorem Noted.none (uncommitted : ∀ id, .committed id 0 ∉ events)
    (same : ∀ former, given = some former → ∃ result, noted = some result ∧
      result.committedIds = former.committedIds) : Noted 0 events given noted := by
  intro former given
  obtain ⟨result, noted, same⟩ := same former given
  exact ⟨result, noted, by simp [same], by simp [same],
    fun _ id member => absurd member (uncommitted id)⟩

theorem addProposal_noted {id : Int} (uncommitted : ∀ id, .committed id 0 ∉ events) :
    Noted 0 events given (given.map (·.addProposal id)) := by
  refine .none uncommitted fun former given => ⟨former.addProposal id, by rw [given]; rfl, ?_⟩
  unfold LearningDispatchResult.addProposal
  split <;> rfl

theorem addCommitted_noted {id : Int} (own : ∀ other, .committed other 0 ∈ events → other = id) :
    Noted 1 events given (given.map (·.addCommitted id)) := by
  intro former given
  refine ⟨former.addCommitted id, by rw [given]; rfl, ?_⟩
  unfold LearningDispatchResult.addCommitted
  split
  · refine ⟨by simp, by simp, fun _ other member => ?_⟩
    simp [own other member]
  · exact ⟨by simp, by simp, fun room => by omega⟩

theorem Noted.more {few room : Nat} (notes : Noted few events given noted) (enough : few ≤ room) :
    Noted room events given noted := by
  intro former given
  obtain ⟨result, same, grown, kept, notes⟩ := notes former given
  exact ⟨result, same, by omega, kept, fun more => notes (by omega)⟩

end Notes

section Queue

theorem isFor_again {sink targetKey : Bytes} {targetMemoryId : Int} {row next : LearningProposal}
    {before after : StoreView} (path : Path (Evolution law) past before events after)
    (lawful : before.Lawful) (target : row.isFor sink targetKey targetMemoryId)
    (present : row ∈ before.rows) (found : next ∈ after.rows) (named : next.id = row.id) :
    next.isFor sink targetKey targetMemoryId := by
  obtain ⟨same, member, moved⟩ := path_forward path lawful present
  obtain rfl := (path_lawful path lawful).same member found (named.trans moved.id.symm)
  exact ⟨moved.target.1.trans target.1, moved.target.2.1.trans target.2.1,
    moved.target.2.2.trans target.2.2⟩

structure Queued (law : StoreLaw ν) (past : List (RouterEvent ν)) (route : Route)
    (before : StoreView) (events : List (RouterEvent ν)) (after : StoreView)
    (given noted : Option LearningDispatchResult) : Prop where
  path : Path (Evolution law) past before events after
  own : ∀ signal other, .routed signal other ∈ events → other = route
  notes : Noted 1 events given noted

theorem queued_plain {route : Route} {before : StoreView} {id code : Int} {fetched final : σ}
    {given out noted : Option LearningDispatchResult} {late : List (RouterEvent ν)}
    (front : Path (Evolution law) past before events (view fetched))
    (own : ∀ signal other, .routed signal other ∈ events → other = route)
    (added : Noted 0 events given out)
    (ran : (pure (id, out) : RouterM σ ν _).run fetched = ((code, noted), final, late)) :
    Queued law past route before (events ++ late) (view final) given noted := by
  obtain ⟨-, rfl, rfl, rfl⟩ := run_pure_pair_iff.mp ran
  rw [List.append_nil]
  exact ⟨front, own, added.more (Nat.zero_le 1)⟩

variable (acts : ActsAsNamed env view law.instant law.fails) (observed : CapObserved env view law)

include acts observed

theorem commitQueued_spec {id : Int} {given noted : Option LearningDispatchResult}
    {state final : σ} (lawful : (view state).Lawful)
    (justified : ∀ rows row, row ∈ rows → row ∈ (view state).rows → row.id = id →
      row.state = statePending → law.reason (past ++ [.archivedExpired]) rows id)
    (ran : (commitQueued env id given).run state = (noted, final, events)) :
    Path (Evolution law) past (view state) events (view final) ∧
      (∀ signal route, .routed signal route ∉ events) ∧ Noted 1 events given noted := by
  unfold commitQueued at ran
  obtain ⟨result, committed, tries, rest, tried, ended, rfl⟩ := run_bind_iff.mp ran
  obtain ⟨path, report⟩ := learningCommitProposal_spec acts past observed lawful justified tried
  have own : ∀ other, .committed other 0 ∈ tries → other = id := fun other => report.own other 0
  have plain : (∀ proposal, result = some proposal → proposal.state ≠ stateCommitted) →
      Noted 1 tries given given := by
    intro otherwise
    refine (Noted.none (fun other member => ?_) fun former given => ⟨former, given, rfl⟩).more (Nat.zero_le 1)
    obtain rfl := own other member
    obtain ⟨proposal, found, -, committed⟩ := report.reported member
    exact otherwise proposal found committed
  split at ended
  · obtain ⟨rfl, rfl, rfl⟩ := run_pure_iff.mp ended
    rw [List.append_nil]
    exact ⟨path, report.unrouted, plain nofun⟩
  · split at ended
    · obtain ⟨rfl, rfl, rfl⟩ := run_pure_iff.mp ended
      rw [List.append_nil]
      exact ⟨path, report.unrouted, addCommitted_noted own⟩
    · rename_i proposal open'
      obtain ⟨rfl, rfl, rfl⟩ := run_pure_iff.mp ended
      rw [List.append_nil]
      exact ⟨path, report.unrouted, plain fun other same => Option.some.inj same ▸ open'⟩

omit observed in
theorem join_step {signal : Int} {route : Route} {row : LearningProposal}
    {start searched bumped : σ} {value : Int}
    (unrouted : Unrouted past signal route.sink) (quiet : (view start).Quiet (view searched))
    (present : row ∈ (view start).rows) (pending : row.state = statePending)
    (target : row.isFor route.sink route.targetKey route.targetMemoryId)
    (raised : env.proposalBumpCorroboration searched row.id = (value, bumped)) :
    Evolution law past (view start) [.routed signal route, .bumped row.id] (view bumped) := by
  obtain ⟨later, signals, rows⟩ := acts.bump searched row.id
  rw [raised] at later signals rows
  rw [quiet.rows] at rows
  exact .join signal row.id route (quiet.later.trans later) (signals.trans quiet.signals) unrouted
    row present rfl pending target rows

theorem queued_commitIf {route : Route} {before : StoreView} {commits : Bool} {id code : Int}
    {fetched final : σ} {given out noted : Option LearningDispatchResult}
    {late : List (RouterEvent ν)}
    (lawful : before.Lawful) (front : Path (Evolution law) past before events (view fetched))
    (own : ∀ signal other, .routed signal other ∈ events → other = route)
    (added : Noted 0 events given out)
    (justified : commits = true → ∀ rows row, row ∈ rows → row ∈ (view fetched).rows →
      row.id = id → row.state = statePending →
      law.reason (past ++ events ++ [.archivedExpired]) rows id)
    (ran : (commitIf env commits id out).run fetched = ((code, noted), final, late)) :
    Queued law past route before (events ++ late) (view final) given noted := by
  unfold commitIf at ran
  split at ran
  · rename_i asked
    obtain ⟨result, committed, tries, _, committing, ended, rfl⟩ := run_bind_iff.mp ran
    obtain ⟨-, rfl, rfl, rfl⟩ := run_pure_pair_iff.mp ended
    obtain ⟨back, unrouted, notes⟩ :=
      commitQueued_spec acts observed (path_lawful front lawful) (justified asked) committing
    rw [List.append_nil]
    refine ⟨front.append back, fun signal other member => ?_, by simpa using added.trans notes⟩
    rcases List.mem_append.mp member with early | late
    · exact own signal other early
    · exact absurd late (unrouted signal other)
  · exact queued_plain front own added ran

omit observed in
/-- The branch that found a pending proposal raises it and looks at it again. -/
theorem queue_join_cases {signalId code : Int} {route : Route} {row : LearningProposal}
    {given noted : Option LearningDispatchResult} {start searched final : σ}
    (unrouted : Unrouted past signalId route.sink) (quiet : (view start).Quiet (view searched))
    (present : row ∈ (view start).rows) (pending : row.state = statePending)
    (target : row.isFor route.sink route.targetKey route.targetMemoryId)
    (ran : (joinPending env row.id given).run searched = ((code, noted), final, events)) :
    ∃ again fetched late, events = [.bumped row.id, .archivedExpired] ++ late ∧
      Path (Evolution law) past (view start)
        [.routed signalId route, .bumped row.id, .archivedExpired] (view fetched) ∧
      again = (view fetched).rows.find? (·.id = row.id) ∧
      (match again with
        | none => pure (row.id, given.map (·.addProposal row.id))
        | some proposal => commitIf env (proposal.corroborationCount ≥ 2) row.id
            (given.map (·.addProposal row.id)) : RouterM σ ν _).run fetched =
          ((code, noted), final, late) := by
  unfold joinPending at ran
  obtain ⟨_, searchedAgain, _, _, raising, reported, rfl⟩ := run_bind_iff.mp ran
  obtain ⟨raised, rfl⟩ := run_call_iff.mp raising
  obtain ⟨_, bumped, _, _, bumping, looking, rfl⟩ := run_bind_iff.mp reported
  obtain ⟨rfl, rfl⟩ := run_emit_iff.mp bumping
  obtain ⟨again, fetched, _, late, got, decided, rfl⟩ := run_bind_iff.mp looking
  obtain ⟨rfl, swept, same⟩ := learningGetProposal_spec acts got
  refine ⟨again, fetched, late, rfl, ?_, same, decided⟩
  exact (Path.single (join_step acts unrouted quiet present pending target raised)).append
    (.single swept.step)

omit observed in
/-- The branch that found nothing to join inserts a proposal, if the store takes it. -/
theorem queue_open_cases {signalId code : Int} {route : Route} {evidenceRefs : Option Bytes}
    {given noted : Option LearningDispatchResult} {start searched final : σ}
    (unrouted : Unrouted past signalId route.sink) (quiet : (view start).Quiet (view searched))
    (ran : (insertProposal env signalId route evidenceRefs given).run searched =
      ((code, noted), final, events)) :
    (law.fails ∧ noted = given ∧ events = [] ∧
        Evolution law past (view start) [.routed signalId route] (view final)) ∨
      ∃ id noting late, events = .inserted id :: late ∧ id ∉ (view start).rows.map (·.id) ∧
        Evolution law past (view start) [.routed signalId route, .inserted id] (view noting) ∧
        (commitIf env route.highConfidence id (given.map (·.addProposal id))).run noting =
          ((code, noted), final, late) := by
  unfold insertProposal at ran
  obtain ⟨days, _, _, _, configured, timing, rfl⟩ := run_bind_iff.mp ran
  obtain ⟨-, rfl, rfl⟩ := run_read_iff.mp configured
  obtain ⟨expiresAt, timed, _, _, dated, storing, rfl⟩ := run_bind_iff.mp timing
  obtain ⟨-, rfl, rfl⟩ := run_read_iff.mp dated
  obtain ⟨id, opened, _, late, inserting, decided, rfl⟩ := run_bind_iff.mp storing
  obtain ⟨inserted, rfl⟩ := run_call_iff.mp inserting
  obtain ⟨later, signals, rows⟩ := acts.insert timed signalId route evidenceRefs expiresAt
  rw [inserted] at later signals rows
  rw [quiet.rows] at rows
  split at decided
  · rename_i refused
    have lost : law.fails ∧ (view opened).rows = (view start).rows := by
      rcases rows with ⟨positive, -⟩ | ⟨fails, -, same⟩
      · exact absurd refused (not_le.mpr positive)
      · exact ⟨fails, same⟩
    have dropped : (view start).Quiet (view opened) :=
      ⟨quiet.later.trans later, signals.trans quiet.signals, lost.2⟩
    obtain ⟨-, rfl, rfl, rfl⟩ := run_pure_pair_iff.mp decided
    exact .inl ⟨lost.1, rfl, rfl, .drop signalId route lost.1 unrouted dropped⟩
  · rename_i accepted
    obtain ⟨-, fresh, row, stored, grown⟩ := rows.resolve_right fun ⟨_, refused, _⟩ =>
      accepted refused
    obtain rfl := stored.id
    obtain ⟨_, noting, _, rest, reported, finished, rfl⟩ := run_bind_iff.mp decided
    obtain ⟨rfl, rfl⟩ := run_emit_iff.mp reported
    exact .inr ⟨row.id, noting, rest, rfl, fresh,
      .open signalId route row expiresAt (quiet.later.trans later) (signals.trans quiet.signals)
        unrouted fresh stored grown, finished⟩

theorem queue_join {signalId code : Int} {route : Route} {row : LearningProposal}
    {given noted : Option LearningDispatchResult} {start searched final : σ}
    (lawful : (view start).Lawful) (unrouted : Unrouted past signalId route.sink)
    (grants : Grants law past) (quiet : (view start).Quiet (view searched))
    (present : row ∈ (view start).rows) (pending : row.state = statePending)
    (target : row.isFor route.sink route.targetKey route.targetMemoryId)
    (ran : (joinPending env row.id given).run searched = ((code, noted), final, events)) :
    Queued law past route (view start) (.routed signalId route :: events) (view final) given noted := by
  obtain ⟨again, fetched, late, rfl, front, same, decided⟩ :=
    queue_join_cases acts unrouted quiet present pending target ran
  have settled := path_lawful front lawful
  have own : ∀ signal other, RouterEvent.routed (ν := ν) signal other ∈
      [.routed signalId route, .bumped row.id, .archivedExpired] → other = route := by
    simp
  have added : Noted (ν := ν) 0 [.routed signalId route, .bumped row.id, .archivedExpired] given
      (given.map (·.addProposal row.id)) := addProposal_noted (by simp)
  suffices ended : Queued law past route (view start)
      ([.routed signalId route, .bumped row.id, .archivedExpired] ++ late) (view final) given noted
    from ended
  cases again with
  | none => exact queued_plain front own added decided
  | some proposal =>
      obtain ⟨member, named⟩ := (find?_eq_some_iff_mem settled.unique).mp same.symm
      have isFor := isFor_again front lawful target present member named
      refine queued_commitIf acts observed lawful front own added
        (fun enough rows other here was named' _ => ?_) decided
      rw [List.append_assoc]
      refine grants _ _ _ ⟨by simp, .inl ⟨[], signalId, route, _, rfl, other, here, named', ?_⟩⟩
      rw [settled.same member was (named'.trans named.symm)]
      exact ⟨of_decide_eq_true enough, isFor⟩

theorem queue_open {signalId code : Int} {route : Route} {evidenceRefs : Option Bytes}
    {given noted : Option LearningDispatchResult} {start searched final : σ}
    (lawful : (view start).Lawful) (unrouted : Unrouted past signalId route.sink)
    (grants : Grants law past) (quiet : (view start).Quiet (view searched))
    (ran : (insertProposal env signalId route evidenceRefs given).run searched =
      ((code, noted), final, events)) :
    Queued law past route (view start) (.routed signalId route :: events) (view final) given noted := by
  rcases queue_open_cases acts unrouted quiet ran with
    ⟨-, rfl, rfl, step⟩ | ⟨id, noting, late, rfl, -, step, finished⟩
  · exact ⟨.single step, by simp,
      (Noted.none (by simp) fun former given => ⟨former, given, rfl⟩).more (Nat.zero_le 1)⟩
  · have own : ∀ signal other, RouterEvent.routed (ν := ν) signal other ∈
        [.routed signalId route, .inserted id] → other = route := by
      simp
    have added : Noted (ν := ν) 0 [.routed signalId route, .inserted id] given
        (given.map (·.addProposal id)) := addProposal_noted (by simp)
    suffices ended : Queued law past route (view start)
        ([.routed signalId route, .inserted id] ++ late) (view final) given noted from ended
    refine queued_commitIf acts observed lawful (.single step) own added
      (fun _ rows other here was named _ => ?_) finished
    rw [List.append_assoc]
    exact grants _ _ _ ⟨by simp, .inr (by simp)⟩

theorem learningQueueSink_spec {signalId code : Int} {route : Route} {evidenceRefs : Option Bytes}
    {given noted : Option LearningDispatchResult} {state final : σ}
    (lawful : (view state).Lawful) (unrouted : Unrouted past signalId route.sink)
    (grants : Grants law past)
    (ran : (learningQueueSink env signalId route evidenceRefs given).run state =
      ((code, noted), final, events)) :
    Queued law past route (view state) events (view final) given noted := by
  unfold learningQueueSink at ran
  obtain ⟨_, emitted, _, _, announced, search, rfl⟩ := run_bind_iff.mp ran
  obtain ⟨rfl, rfl⟩ := run_emit_iff.mp announced
  obtain ⟨found, searched, _, _, looked, branched, rfl⟩ := run_bind_iff.mp search
  obtain ⟨answer, rfl⟩ := run_call_iff.mp looked
  obtain ⟨quiet, hit, -⟩ := acts.findPending emitted route.sink route.targetKey
    route.targetMemoryId
  rw [answer] at quiet hit
  split at branched
  · rename_i positive
    obtain ⟨row, present, rfl, pending, target⟩ := hit positive
    exact queue_join acts observed lawful unrouted grants quiet present pending target branched
  · exact queue_open acts observed lawful unrouted grants quiet branched

end Queue

end AimeeLearning.Learning
