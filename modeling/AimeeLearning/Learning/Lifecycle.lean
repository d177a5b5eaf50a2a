import AimeeLearning.Learning.MemoryStore
import AimeeLearning.Learning.RouterRuns

/-! The life of a proposal under the router's calls, with a store whose writes
succeed. -/

set_option autoImplicit false

namespace AimeeLearning.Learning

open Library Observe

variable {σ ν : Type} {env : RouterEnv σ ν} {view : σ → StoreView} {instant : Bytes → Int}

/-- The law of one call after a past: what it commits it has grounds for. -/
def callLaw (instant : Bytes → Int) (past : List (RouterEvent ν)) (op : RouterOp) : StoreLaw ν where
  instant := instant
  fails := False
  under _ _ _ := True
  reason history rows id := ∃ events, history = past ++ events ∧ Grounds op events rows id

/-- What one call does to the proposals; the moments in it are views of the
store along the path it takes. -/
structure LifecycleStep (instant : Bytes → Int) (past : List (RouterEvent ν)) (op : RouterOp)
    (before : StoreView) (events : List (RouterEvent ν)) (after : StoreView) : Prop where
  moves : ∀ row ∈ before.rows, ∃ next ∈ after.rows, next.id = row.id ∧
    (next.state = row.state ∨ row.state = statePending ∧
      (next.state = stateCommitted ∧ .committed row.id 0 ∈ events ∨ next.state = stateArchived))
  opens : ∀ next ∈ after.rows, (∃ row ∈ before.rows, row.id = next.id) ∨
    .inserted next.id ∈ events ∧ (next.state = stateCommitted → .committed next.id 0 ∈ events)
  expired : ∀ row ∈ before.rows, Expired instant before.now row →
    (∀ rc, .committed row.id rc ∉ events) ∧
      ∀ next ∈ after.rows, next.id = row.id → next.state ≠ stateCommitted
  effects : ∀ id effect, .applied id effect 0 ∈ events → ∃ early late moment settled,
    events = early ++ [.applied id effect 0, .committed id 0] ++ late ∧
      Path (Evolution (callLaw instant past op)) past before early moment ∧
      PendingId moment.rows id ∧ SettledId settled.rows id stateCommitted ∧
      Path (Evolution (callLaw instant past op))
        (past ++ early ++ [.applied id effect 0, .committed id 0]) settled late after
  ways : ∀ id rc, .committed id rc ∈ events → ∃ early committing late moment,
    events = early ++ committing ++ late ∧ .committed id rc ∈ committing ∧
      Path (Evolution (callLaw instant past op)) past before early moment ∧
      Grounds op early moment.rows id

section Path

variable {past events : List (RouterEvent ν)} {op : RouterOp} {before after : StoreView}

theorem call_moves (path : Path (Evolution (callLaw instant past op)) past before events after)
    (lawful : before.Lawful) {row : LearningProposal} (member : row ∈ before.rows) :
    ∃ next ∈ after.rows, next.id = row.id ∧
      (next.state = row.state ∨ row.state = statePending ∧
        (next.state = stateCommitted ∧ .committed row.id 0 ∈ events ∨
          next.state = stateArchived)) := by
  obtain ⟨next, present, moved⟩ := path_forward path lawful member
  refine ⟨next, present, moved.id, ?_⟩
  rcases lawful.states row member with pending | settled
  · rcases moved.state with same | done | gone
    · exact .inl same
    · refine .inr ⟨pending, .inl ⟨done, (moved.committed done).resolve_left fun before => ?_⟩⟩
      rw [pending] at before
      exact absurd before (by decide)
    · exact .inr ⟨pending, .inr gone⟩
  · refine .inl (congrArg _ (moved.settled fun pending => ?_))
    rcases settled with same | same <;>
      · rw [pending] at same
        exact absurd same (by decide)

theorem call_opens (path : Path (Evolution (callLaw instant past op)) past before events after)
    (lawful : before.Lawful) {next : LearningProposal} (member : next ∈ after.rows) :
    (∃ row ∈ before.rows, row.id = next.id) ∨
      .inserted next.id ∈ events ∧ (next.state = stateCommitted → .committed next.id 0 ∈ events) := by
  rcases path_backward path lawful member with ⟨row, present, moved⟩ |
    ⟨row, signal, route, expiresAt, early, late, rfl, inserted, moved⟩
  · exact .inl ⟨row, present, moved.id.symm⟩
  · refine .inr ⟨by simp, fun done => ?_⟩
    rcases moved.committed done with committed | reported
    · rw [inserted.state] at committed
      exact absurd committed (by decide)
    · rw [moved.id]
      exact List.mem_append_right _ reported

theorem call_expired (path : Path (Evolution (callLaw instant past op)) past before events after)
    (lawful : before.Lawful) {row : LearningProposal} (member : row ∈ before.rows)
    (expired : Expired instant before.now row) (rc : Int) : .committed row.id rc ∉ events := by
  intro reported
  obtain ⟨early, emitted, late, moment, settled, rfl, here, front, step, -⟩ := path.split reported
  have commit := step.of_commit here
  obtain ⟨seen, same, grounds⟩ := commit.reason
  obtain rfl := List.append_cancel_left same
  have swept : .archivedExpired ∈ early := by
    cases op with
    | recordSignal => exact grounds.swept
    | acceptProposal => exact grounds.1
    | _ => exact grounds.elim
  obtain ⟨first, sweeping, rest, start, cleared, rfl, ran, began, sweep, onward⟩ := front.split swept
  have startLawful := path_lawful began lawful
  obtain ⟨here, present, came⟩ := path_forward began lawful member
  obtain ⟨time, later, -, -, rows⟩ := sweep.of_sweep ran
  obtain ⟨next, there, moved⟩ := forall₂_forward (rows.resolve_right (·.1)) present
  have closed : next.state ≠ statePending := by
    intro pending
    have same := moved.pending pending
    subst same
    have passed : Expired instant time next := by
      refine ⟨pending, ?_⟩
      rw [came.expires]
      exact expired.2.trans ((path_later began).trans later)
    rw [moved.1 passed] at pending
    have clash : stateArchived = statePending := pending
    exact absurd clash (by decide)
  obtain ⟨last, lasting, went⟩ := path_forward onward (sweep.lawful startLawful) there
  have swept : RowStep (ν := ν) [] here next := moved.step
  have named : last.id = row.id := went.id.trans (swept.id.trans came.id)
  exact closed (went.settled closed ▸ commit.pending.2 last lasting named)

theorem call_effect (path : Path (Evolution (callLaw instant past op)) past before events after)
    {id : Int} {effect : SinkEffect ν} (applied : .applied id effect 0 ∈ events) :
    ∃ early late moment settled, events = early ++ [.applied id effect 0, .committed id 0] ++ late ∧
      Path (Evolution (callLaw instant past op)) past before early moment ∧
      PendingId moment.rows id ∧ SettledId settled.rows id stateCommitted ∧
      Path (Evolution (callLaw instant past op))
        (past ++ early ++ [.applied id effect 0, .committed id 0]) settled late after := by
  obtain ⟨early, emitted, late, moment, settled, rfl, here, front, step, back⟩ := path.split applied
  obtain ⟨rc, rfl⟩ := step.of_effect here
  have commit : CommitStep _ _ id rc _ _ _ := step.of_commit (by simp)
  obtain ⟨_, -, -, _, _, -, -, -, -, rows⟩ := commit.allowed
  obtain rfl := (rows.resolve_right (·.1)).1
  exact ⟨early, late, moment, settled, rfl, front, commit.pending, commit.settles, back⟩

theorem call_ways (path : Path (Evolution (callLaw instant past op)) past before events after)
    {id rc : Int} (committed : .committed id rc ∈ events) :
    ∃ early committing late moment, events = early ++ committing ++ late ∧
      .committed id rc ∈ committing ∧
      Path (Evolution (callLaw instant past op)) past before early moment ∧
      Grounds op early moment.rows id := by
  obtain ⟨early, emitted, late, moment, settled, rfl, here, front, step, -⟩ := path.split committed
  obtain ⟨seen, same, grounds⟩ := (step.of_commit here).reason
  obtain rfl := List.append_cancel_left same
  exact ⟨early, emitted, late, moment, rfl, here, front, grounds⟩

end Path

/-- In every state a run of calls reaches, whatever its order, the next call
moves proposals only as their life allows. -/
theorem proposal_lifecycle (acts : ActsAsNamed env view instant False) {start state final : σ}
    (lawful : (view start).Lawful) {actions : List RouterOp} {outputs : List (RouterEvent ν)}
    (run : (routerMachine env).Run start actions state outputs) (op : RouterOp)
    {events : List (RouterEvent ν)} (ran : (runRouterOp env op).run state = ((), final, events)) :
    LifecycleStep instant outputs op (view state) events (view final) := by
  have reached := run_lawful acts lawful run
  have path : Path (Evolution (callLaw instant outputs op)) outputs (view state) events (view final) :=
    runRouterOp_path acts (capObserved_trivial acts fun _ _ _ => trivial) reached
      (fun events rows id grounds => ⟨events, rfl, grounds⟩) ran
  refine ⟨fun _ => call_moves path reached, fun _ => call_opens path reached, ?_,
    fun _ _ => call_effect path, fun _ _ => call_ways path⟩
  intro row member expired
  refine ⟨call_expired path reached member expired, fun next present named done => ?_⟩
  obtain ⟨other, there, moved, states⟩ := call_moves path reached member
  obtain rfl := (path_lawful path reached).same there present (named.trans moved.symm)
  rcases states with same | ⟨-, ⟨-, reported⟩ | gone⟩
  · rw [expired.1, done] at same
    exact absurd same (by decide)
  · exact call_expired path reached member expired 0 reported
  · rw [done] at gone
    exact absurd gone (by decide)

/-- A recorded preference is accepted. -/
theorem proposal_lifecycle_accept :
    let before := memoryRun afternoon [.recordSignal (some (preference "tabs")) none]
    let accepted := (runRouterOp (memoryEnv afternoon) (.acceptProposal 1)).run before.1
    .committed 1 0 ∈ accepted.2.2 ∧
      LifecycleStep readTimestamp before.2 (.acceptProposal 1) (memoryView afternoon before.1)
        accepted.2.2 (memoryView afternoon accepted.2.1) :=
  ⟨by decide +kernel, proposal_lifecycle (memoryEnv_actsSurely fun _ => rfl) memoryView_empty
    (memoryRun_run _ _) _ (runRouterOp_run _ _ _)⟩

end AimeeLearning.Learning
