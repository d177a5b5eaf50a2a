import AimeeLearning.Learning.RouterPaths

/-! learning_commit_proposal. The row it commits is the pending one that its own
sweep left unexpired, and nothing but its own effect comes between. -/

set_option autoImplicit false

namespace AimeeLearning.Learning

open Library Traced

variable {σ ν : Type} {env : RouterEnv σ ν} {view : σ → StoreView} {law : StoreLaw ν}
  {past : List (RouterEvent ν)}

/-- A look at the weekly cap that finds room shows what the law says of the rows. -/
def CapObserved (env : RouterEnv σ ν) (view : σ → StoreView) (law : StoreLaw ν) : Prop :=
  ∀ state sink,
    let looked := env.commitsInLast7Days state sink
    looked.1 < learningMaxCommitsPerWeek env looked.2 →
      ∃ counted, (view state).now ≤ counted ∧ counted ≤ (view looked.2).now ∧
        law.under sink counted (view state).rows

/-- What the caller of a commit learns: the commit is of the proposal it named,
and once the row is marked the proposal comes back committed. -/
structure CommitReport (id : Int) (events : List (RouterEvent ν))
    (result : Option LearningProposal) : Prop where
  own : ∀ other rc, .committed other rc ∈ events → other = id
  unrouted : ∀ signal route, .routed signal route ∉ events
  reported : .committed id 0 ∈ events →
    ∃ proposal, result = some proposal ∧ proposal.id = id ∧ proposal.state = stateCommitted

theorem CommitReport.of_sweeps {id : Int} {events : List (RouterEvent ν)}
    {result : Option LearningProposal}
    (plain : ∀ event ∈ events, event = .archivedExpired ∨
      (∃ effect rc, event = .applied id effect rc) ∨ ∃ reason, event = .archived id reason) :
    CommitReport id events result := by
  constructor
  · intro other rc member
    rcases plain _ member with same | ⟨_, _, same⟩ | ⟨_, same⟩ <;> cases same
  · intro signal route member
    rcases plain _ member with same | ⟨_, _, same⟩ | ⟨_, same⟩ <;> cases same
  · intro member
    rcases plain _ member with same | ⟨_, _, same⟩ | ⟨_, same⟩ <;> cases same

section Steps

variable (acts : ActsAsNamed env view law.instant law.fails)

include acts

theorem learningApplySink_spec {proposal : LearningProposal} {state final : σ} {rc : Int}
    {events : List (RouterEvent ν)}
    (ran : (learningApplySink env proposal).run state = (rc, final, events)) :
    (view state).Quiet (view final) ∧
      (events = [] ∨ ∃ effect, events = [.applied proposal.id effect rc]) := by
  unfold learningApplySink at ran
  split at ran
  · obtain ⟨rfl, rfl, rfl⟩ := run_pure_iff.mp ran
    exact ⟨⟨le_refl _, rfl, rfl⟩, .inl rfl⟩
  · obtain ⟨session, middle, early, late, began, rest, rfl⟩ := run_bind_iff.mp ran
    obtain ⟨rfl, rfl, rfl⟩ := run_read_iff.mp began
    split at rest
    · obtain ⟨rfl, rfl, rfl⟩ := run_pure_iff.mp rest
      exact ⟨⟨le_refl _, rfl, rfl⟩, .inl rfl⟩
    · obtain ⟨rfl, rfl, rfl⟩ := run_pure_iff.mp rest
      exact ⟨⟨le_refl _, rfl, rfl⟩, .inl rfl⟩
    · rename_i effect planned
      obtain ⟨code, worked, _, _, performed, ended, rfl⟩ := run_bind_iff.mp rest
      obtain ⟨changed, rfl⟩ := run_call_iff.mp performed
      obtain ⟨_, same, _, _, reported, returned, rfl⟩ := run_bind_iff.mp ended
      obtain ⟨rfl, rfl⟩ := run_emit_iff.mp reported
      obtain ⟨rfl, rfl, rfl⟩ := run_pure_iff.mp returned
      have quiet := acts.perform middle effect
      rw [changed] at quiet
      exact ⟨quiet, .inr ⟨effect, rfl⟩⟩

theorem archiveProposal_spec (past : List (RouterEvent ν)) {id : Int} {reason : String} {state final : σ} {value : Unit}
    {events : List (RouterEvent ν)} (pending : PendingId (view state).rows id)
    (ran : (archiveProposal env id reason).run state = (value, final, events)) :
    events = [.archived id (cstr reason)] ∧
      Evolution law past (view state) [.archived id (cstr reason)] (view final) := by
  unfold archiveProposal at ran
  obtain ⟨_, middle, early, late, began, ended, rfl⟩ := run_bind_iff.mp ran
  obtain ⟨changed, rfl⟩ := run_call_iff.mp began
  obtain ⟨rfl, rfl⟩ := run_emit_iff.mp ended
  obtain ⟨later, signals, rows⟩ := acts.archive state id (cstr reason)
  rw [changed] at later signals rows
  exact ⟨rfl, .archive id (cstr reason) later signals pending rows⟩

theorem found_pending {id : Int} {state final : σ} {events : List (RouterEvent ν)}
    {proposal : LearningProposal} (lawful : (view state).Lawful)
    (ran : (learningGetProposal env id).run state = (some proposal, final, events))
    (pending : proposal.state = statePending) :
    proposal.id = id ∧ proposal ∈ (view final).rows ∧ proposal ∈ (view state).rows ∧
      PendingId (view final).rows id := by
  obtain ⟨-, swept, answer⟩ := learningGetProposal_spec acts ran
  have settled := swept.lawful lawful
  obtain ⟨member, same⟩ := (find?_eq_some_iff_mem settled.unique).mp answer.symm
  exact ⟨same, member, swept.pending member pending, same ▸ settled.pendingId member pending⟩

theorem mark_step {id rc counted : Int} {applied : List (RouterEvent ν)}
    {row : LearningProposal} {start worked final : σ}
    (quiet : (view start).Quiet (view worked)) (began : (view start).now ≤ counted)
    (ahead : counted ≤ (view worked).now) (present : row ∈ (view start).rows)
    (named : row.id = id) (pending : PendingId (view start).rows id)
    (allowed : law.under row.sink counted (view start).rows)
    (reason : law.reason past (view start).rows id)
    (effects : applied = [] ∨ ∃ effect, applied = [.applied id effect 0])
    (marked : env.proposalMarkCommitted worked id = (rc, final)) :
    Evolution law past (view start) (applied ++ [.committed id rc]) (view final) := by
  obtain ⟨time, later, act⟩ := acts.markCommitted worked id
  rw [marked] at act
  obtain ⟨ended, signals, rows⟩ := act
  rw [quiet.rows] at rows
  exact .commit id rc counted time began (ahead.trans later) ended (signals.trans quiet.signals)
    row present named pending allowed reason effects rows

theorem marked_found {id : Int} {worked marked final : σ} {found : Option LearningProposal}
    {events : List (RouterEvent ν)} (lawful : (view marked).Lawful)
    (present : ∃ row ∈ (view worked).rows, row.id = id)
    (done : env.proposalMarkCommitted worked id = (0, marked))
    (ran : (learningGetProposal env id).run marked = (found, final, events)) :
    ∃ proposal, found = some proposal ∧ proposal.id = id ∧ proposal.state = stateCommitted := by
  obtain ⟨time, -, act⟩ := acts.markCommitted worked id
  rw [done] at act
  obtain ⟨-, -, rows⟩ := act
  obtain ⟨-, swept, answer⟩ := learningGetProposal_spec acts ran
  have settled := swept.lawful lawful
  rcases rows with ⟨-, written⟩ | ⟨-, failed, -⟩
  · obtain ⟨row, member, rfl⟩ := present
    obtain ⟨next, here, change⟩ := forall₂_forward written member
    rw [if_pos rfl] at change
    have committed : next.state = stateCommitted := by rw [change.2]
    have same : next.id = row.id := by rw [change.2]
    have closed : next.state ≠ statePending := by
      rw [committed]
      decide
    refine ⟨next, answer.trans ?_, same, committed⟩
    exact (find?_eq_some_iff_mem settled.unique).mpr ⟨swept.settled here closed, same⟩
  · exact absurd rfl failed

theorem refuse_spec (past : List (RouterEvent ν)) {id : Int} {reason : String} {state final : σ}
    {result : Option LearningProposal} {events : List (RouterEvent ν)}
    (pending : PendingId (view state).rows id)
    (ran : (archiveAndGet env id reason).run state = (result, final, events)) :
    Path (Evolution law) past (view state) events (view final) ∧
      events = [.archived id (cstr reason), .archivedExpired] := by
  obtain ⟨_, archived, _, _, refused, got, rfl⟩ := run_bind_iff.mp ran
  obtain ⟨rfl, step⟩ := archiveProposal_spec acts past pending refused
  obtain ⟨rfl, swept, -⟩ := learningGetProposal_spec acts got
  exact ⟨(Path.single step).append (.single swept.step), rfl⟩

theorem apply_spec (past : List (RouterEvent ν)) {proposal : LearningProposal} {counted : Int} {start state final : σ}
    {result : Option LearningProposal} {events : List (RouterEvent ν)}
    (lawful : (view start).Lawful) (quiet : (view start).Quiet (view state))
    (began : (view start).now ≤ counted) (ahead : counted ≤ (view state).now)
    (present : proposal ∈ (view start).rows) (pending : PendingId (view start).rows proposal.id)
    (allowed : law.under proposal.sink counted (view start).rows)
    (reason : law.reason past (view start).rows proposal.id)
    (ran : (applyAndMark env proposal.id proposal).run state = (result, final, events)) :
    Path (Evolution law) past (view start) events (view final) ∧
      CommitReport proposal.id events result := by
  obtain ⟨rc, worked, applied, _, performed, ended, rfl⟩ := run_bind_iff.mp ran
  obtain ⟨working, effects⟩ := learningApplySink_spec acts performed
  have through := quiet.trans working
  split at ended
  · rename_i wrong
    obtain ⟨rfl, rfl, rfl⟩ := run_pure_iff.mp ended
    rcases effects with rfl | ⟨effect, rfl⟩
    · exact ⟨.single (.quiet through), .of_sweeps (by simp)⟩
    · exact ⟨.single (.refuse proposal.id effect rc through wrong pending), .of_sweeps (by simp)⟩
  · rename_i right
    obtain rfl := not_not.mp right
    obtain ⟨code, marked, _, _, marking, noted, rfl⟩ := run_bind_iff.mp ended
    obtain ⟨done, rfl⟩ := run_call_iff.mp marking
    obtain ⟨_, _, _, looking, reported, got, rfl⟩ := run_bind_iff.mp noted
    obtain ⟨rfl, rfl⟩ := run_emit_iff.mp reported
    have effects : applied = [] ∨ ∃ effect, applied = [.applied proposal.id effect 0] := effects
    have step := mark_step acts through began (ahead.trans working.later) present rfl pending
      allowed reason effects done
    obtain ⟨rfl, swept, -⟩ := learningGetProposal_spec acts got
    refine ⟨by simpa using (Path.single step).append (.single swept.step), ?_, ?_, ?_⟩
    · intro other otherCode member
      rcases effects with rfl | ⟨effect, rfl⟩ <;> simp_all
    · intro signal route member
      rcases effects with rfl | ⟨effect, rfl⟩ <;> simp_all
    · intro member
      obtain rfl : code = 0 := by
        rcases effects with rfl | ⟨effect, rfl⟩ <;> simp_all
      exact marked_found acts (step.lawful lawful)
        ⟨proposal, through.rows ▸ present, rfl⟩ done got

/-- A try to commit answers with a settled proposal, or goes on with the pending one
it found, by what the look at the weekly cap showed. -/
theorem learningCommitProposal_cases {id : Int} {state final : σ}
    {result : Option LearningProposal} {events : List (RouterEvent ν)}
    (ran : (learningCommitProposal env id).run state = (result, final, events)) :
    ∃ found fetched rest,
      (learningGetProposal env id).run state = (found, fetched, [.archivedExpired]) ∧
      events = [.archivedExpired] ++ rest ∧
      ((result = found ∧ final = fetched ∧ rest = [] ∧
          ∀ proposal, found = some proposal → proposal.state ≠ statePending) ∨
        ∃ proposal, found = some proposal ∧ proposal.state = statePending ∧
          ((env.commitsInLast7Days fetched proposal.sink).1 ≥
              learningMaxCommitsPerWeek env (env.commitsInLast7Days fetched proposal.sink).2 ∧
            (archiveAndGet env id "weekly_cap").run
              (env.commitsInLast7Days fetched proposal.sink).2 = (result, final, rest) ∨
          (env.commitsInLast7Days fetched proposal.sink).1 <
              learningMaxCommitsPerWeek env (env.commitsInLast7Days fetched proposal.sink).2 ∧
            (applyAndMark env id proposal).run
              (env.commitsInLast7Days fetched proposal.sink).2 = (result, final, rest))) := by
  unfold learningCommitProposal at ran
  obtain ⟨found, fetched, _, rest, got, decided, rfl⟩ := run_bind_iff.mp ran
  obtain ⟨rfl, -⟩ := learningGetProposal_spec acts got
  refine ⟨found, fetched, rest, got, rfl, ?_⟩
  cases found with
  | none =>
      obtain ⟨rfl, rfl, rfl⟩ := run_pure_iff.mp decided
      exact .inl ⟨rfl, rfl, rfl, nofun⟩
  | some proposal =>
      dsimp only at decided
      split at decided
      · rename_i done
        obtain ⟨rfl, rfl, rfl⟩ := run_pure_iff.mp decided
        refine .inl ⟨rfl, rfl, rfl, fun other same pending => ?_⟩
        rw [← Option.some.inj same, done] at pending
        exact absurd pending (by decide)
      · split at decided
        · rename_i other
          obtain ⟨rfl, rfl, rfl⟩ := run_pure_iff.mp decided
          exact .inl ⟨rfl, rfl, rfl, fun _ same => Option.some.inj same ▸ other⟩
        · rename_i pending
          obtain ⟨commits, looked, _, _, counts, limited, rfl⟩ := run_bind_iff.mp decided
          obtain ⟨count, rfl⟩ := run_call_iff.mp counts
          obtain ⟨limit, bounded, _, _, cap, branched, rfl⟩ := run_bind_iff.mp limited
          obtain ⟨rfl, rfl, rfl⟩ := run_read_iff.mp cap
          refine .inr ⟨proposal, rfl, not_not.mp pending, ?_⟩
          rw [count]
          split at branched
          · rename_i full
            exact .inl ⟨full, branched⟩
          · rename_i room
            exact .inr ⟨not_le.mp room, branched⟩

theorem learningCommitProposal_spec (past : List (RouterEvent ν)) (observed : CapObserved env view law) {id : Int}
    {state final : σ} {result : Option LearningProposal} {events : List (RouterEvent ν)}
    (lawful : (view state).Lawful)
    (justified : ∀ rows row, row ∈ rows → row ∈ (view state).rows → row.id = id →
      row.state = statePending → law.reason (past ++ [.archivedExpired]) rows id)
    (ran : (learningCommitProposal env id).run state = (result, final, events)) :
    Path (Evolution law) past (view state) events (view final) ∧
      CommitReport id events result := by
  obtain ⟨found, fetched, rest, got, rfl, ways⟩ := learningCommitProposal_cases acts ran
  obtain ⟨-, swept, -⟩ := learningGetProposal_spec acts got
  have front : Path (Evolution law) past (view state) [.archivedExpired] (view fetched) :=
    .single swept.step
  have settled := swept.lawful lawful
  rcases ways with ⟨rfl, rfl, rfl, -⟩ | ⟨proposal, rfl, pending, branches⟩
  · exact ⟨front, .of_sweeps (by simp)⟩
  · obtain ⟨rfl, here, before, alone⟩ := found_pending acts lawful got pending
    have look := acts.commits fetched proposal.sink
    rcases branches with ⟨-, branched⟩ | ⟨room, branched⟩
    · obtain ⟨back, rfl⟩ := refuse_spec acts (past ++ [.archivedExpired] ++ [])
        (look.rows ▸ alone) branched
      exact ⟨(front.append (.single (.quiet look))).append (by simpa using back),
        .of_sweeps (by simp)⟩
    · obtain ⟨counted, began, ahead, allowed⟩ := observed fetched proposal.sink room
      obtain ⟨back, report⟩ := apply_spec acts (past ++ [.archivedExpired]) settled
        look began ahead here alone allowed (justified _ _ here before rfl pending) branched
      refine ⟨front.append back, ?_, ?_, ?_⟩
      · intro other code member
        exact report.own other code (by simpa using member)
      · intro signal route member
        exact report.unrouted signal route (by simpa using member)
      · intro member
        exact report.reported (by simpa using member)

end Steps

end AimeeLearning.Learning
