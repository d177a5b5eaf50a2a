import AimeeLearning.Learning.RouterPaths

/-! The rows a path of store steps took and marked, read off its two ends: a
proposal was taken when it is new or its count was raised, and marked when it
went from pending to committed. -/

set_option autoImplicit false

namespace AimeeLearning.Learning

open Library Traced

variable {ν : Type} {law : StoreLaw ν} {past events : List (RouterEvent ν)}

/-- A sink took the proposal of an id: it inserted it or raised it. -/
def Touched (events : List (RouterEvent ν)) (id : Int) : Prop :=
  .inserted id ∈ events ∨ .bumped id ∈ events

/-- How often the proposal of an id was raised. -/
def timesBumped (id : Int) (events : List (RouterEvent ν)) : Nat :=
  events.countP fun
    | .bumped other => other = id
    | _ => false

theorem timesBumped_append {id : Int} :
    timesBumped id (past ++ events) = timesBumped id past + timesBumped id events :=
  List.countP_append

theorem timesBumped_eq_zero {id : Int} : timesBumped id events = 0 ↔ .bumped id ∉ events := by
  rw [timesBumped, List.countP_eq_zero]
  constructor
  · intro none member
    simpa using none _ member
  · intro none event member
    cases event with
    | bumped other =>
        simp only [decide_eq_true_eq]
        rintro rfl
        exact none member
    | _ => simp

variable {before after : StoreView} {row : LearningProposal}

theorem Evolution.raises (sure : ¬ law.fails) (step : Evolution law past before events after)
    (lawful : before.Lawful) (member : row ∈ before.rows) :
    ∃ next ∈ after.rows, RowStep events row next ∧
      next.corroborationCount = row.corroborationCount + timesBumped row.id events := by
  by_cases raised : .bumped row.id ∈ events
  · obtain ⟨signal, route, rfl⟩ := step.of_bump raised
    obtain ⟨-, joins⟩ := step.of_routed List.mem_cons_self
    rcases joins with ⟨other, present, -, pending, same, rows⟩ | ⟨_, _, _, same, -⟩ | ⟨_, same⟩
    · obtain rfl := lawful.same member present (by simpa using same.symm)
      obtain ⟨next, there, change⟩ := forall₂_forward
        (rows.resolve_right fun lost => sure lost.1) member
      rw [if_pos rfl] at change
      have more : next.corroborationCount = other.corroborationCount + 1 := by rw [change]
      refine ⟨next, there, Bumped.step change pending (by simp), ?_⟩
      rw [more]
      simp [timesBumped]
    · simp at same
    · simp at same
  · obtain ⟨next, there, moved⟩ := step.forward lawful member
    refine ⟨next, there, moved, ?_⟩
    rw [moved.count raised, timesBumped_eq_zero.mpr raised]
    simp

theorem path_raises (sure : ¬ law.fails) (path : Path (Evolution law) past before events after)
    (lawful : before.Lawful) (member : row ∈ before.rows) :
    ∃ next ∈ after.rows, RowStep events row next ∧
      next.corroborationCount = row.corroborationCount + timesBumped row.id events := by
  induction path with
  | nil => exact ⟨row, member, .refl row, by simp [timesBumped]⟩
  | snoc front step ih =>
      obtain ⟨middle, here, came, early⟩ := ih
      obtain ⟨next, there, went, late⟩ := step.raises sure (path_lawful front lawful) here
      refine ⟨next, there, came.trans went, ?_⟩
      rw [late, early, came.id, timesBumped_append]
      omega

theorem path_touched (path : Path (Evolution law) past before events after)
    (lawful : before.Lawful) {id : Int} (touched : Touched events id) :
    ∃ signal route, .routed signal route ∈ events ∧
      ∃ row ∈ after.rows, row.id = id ∧ row.sink = route.sink := by
  have onward : ∀ {early emitted late : List (RouterEvent ν)} {next : StoreView} {signal : Int}
      {route : Route} {row : LearningProposal}, next.Lawful →
      Path (Evolution law) (past ++ early ++ emitted) next late after →
      .routed signal route ∈ emitted → row ∈ next.rows → row.id = id → row.sink = route.sink →
      ∃ signal route, .routed signal route ∈ early ++ emitted ++ late ∧
        ∃ row ∈ after.rows, row.id = id ∧ row.sink = route.sink := by
    intro early emitted late next signal route row settled rest routed present named sent
    obtain ⟨last, there, moved⟩ := path_forward rest settled present
    exact ⟨signal, route, by simp [routed], last, there, moved.id.trans named,
      moved.target.1.trans sent⟩
  rcases touched with inserted | bumped
  · obtain ⟨early, emitted, late, middle, next, rfl, fired, front, step, rest⟩ := path.split inserted
    have settled := step.lawful (path_lawful front lawful)
    cases step with
    | «open» signal route row expiresAt later signals unrouted fresh stored rows =>
        obtain rfl : id = row.id := by simpa using fired
        refine onward settled rest List.mem_cons_self ?_ rfl stored.sink
        rw [rows]
        simp
    | commit _ _ _ _ _ _ _ _ _ _ _ _ _ _ effects =>
        rcases effects with rfl | ⟨_, rfl⟩ <;> simp at fired
    | _ => simp at fired
  · obtain ⟨early, emitted, late, middle, next, rfl, fired, front, step, rest⟩ := path.split bumped
    have settled := step.lawful (path_lawful front lawful)
    obtain ⟨signal, route, rfl⟩ := step.of_bump fired
    obtain ⟨-, joins⟩ := step.of_routed List.mem_cons_self
    rcases joins with ⟨other, present, target, -, same, -⟩ | ⟨_, _, _, same, -⟩ | ⟨_, same⟩
    · obtain rfl : id = other.id := by simpa using same
      obtain ⟨moved, there, went⟩ := step.forward (path_lawful front lawful) present
      exact onward settled rest List.mem_cons_self there went.id (went.target.1.trans target.1)
    · simp at same
    · simp at same

theorem path_inserted_new (path : Path (Evolution law) past before events after)
    (lawful : before.Lawful) {id : Int} (inserted : .inserted id ∈ events) :
    id ∉ before.rows.map (·.id) := by
  obtain ⟨early, emitted, late, middle, next, rfl, fired, front, step, -⟩ := path.split inserted
  intro there
  obtain ⟨row, member, rfl⟩ := List.mem_map.mp there
  obtain ⟨moved, present, went⟩ := path_forward front lawful member
  cases step with
  | «open» signal route fresh expiresAt later signals unrouted new =>
      have same : row.id = fresh.id := by simpa using fired
      exact new (List.mem_map.mpr ⟨moved, present, went.id.trans same⟩)
  | commit _ _ _ _ _ _ _ _ _ _ _ _ _ _ effects =>
      rcases effects with rfl | ⟨_, rfl⟩ <;> simp at fired
  | _ => simp at fired

theorem path_touched_iff (sure : ¬ law.fails) (path : Path (Evolution law) past before events after)
    (lawful : before.Lawful) {id : Int} :
    Touched events id ↔ ∃ row ∈ after.rows, row.id = id ∧ ∀ former ∈ before.rows,
      former.id = id → former.corroborationCount < row.corroborationCount := by
  constructor
  · intro touched
    obtain ⟨-, -, -, row, present, rfl, -⟩ := path_touched path lawful touched
    refine ⟨row, present, rfl, fun former member named => ?_⟩
    rcases touched with inserted | bumped
    · exact absurd (List.mem_map.mpr ⟨former, member, named⟩) (path_inserted_new path lawful inserted)
    · obtain ⟨next, there, moved, raised⟩ := path_raises sure path lawful member
      obtain rfl := (path_lawful path lawful).same present there (moved.id.trans named)
      have some : timesBumped former.id events ≠ 0 := fun none =>
        timesBumped_eq_zero.mp none (named ▸ bumped)
      omega
  · rintro ⟨row, present, rfl, grown⟩
    rcases path_backward path lawful present with
      ⟨former, member, moved⟩ | ⟨former, signal, route, expiresAt, early, late, rfl, -, -⟩
    · by_contra untouched
      have same := moved.count fun bumped => untouched (.inr (moved.id ▸ bumped))
      have more := grown former member moved.id.symm
      omega
    · exact .inl (by simp)

/-- The proposals that were marked are those that went from pending to committed,
the new ones among them. -/
theorem path_marked_iff (path : Path (Evolution law) past before events after)
    (lawful : before.Lawful) {id : Int} :
    .committed id 0 ∈ events ↔ SettledId after.rows id stateCommitted ∧
      ∀ former ∈ before.rows, former.id = id → former.state = statePending := by
  constructor
  · intro marked
    obtain ⟨early, emitted, late, middle, next, rfl, fired, front, step, rest⟩ := path.split marked
    have commit := step.of_commit fired
    have settled := path_lawful front lawful
    refine ⟨commit.settles.later (by decide) rest (step.lawful settled), ?_⟩
    intro former member named
    obtain ⟨moved, there, went⟩ := path_forward front lawful member
    by_contra closed
    obtain rfl := went.settled closed
    exact closed (commit.pending.2 moved there named)
  · rintro ⟨⟨row, present, rfl, done⟩, pending⟩
    rcases path_backward path lawful present with
      ⟨former, member, moved⟩ | ⟨former, signal, route, expiresAt, early, late, rfl, stored, moved⟩
    · have closed : former.state ≠ stateCommitted := by
        rw [pending former member moved.id.symm]
        decide
      exact moved.id ▸ (moved.committed done).resolve_left closed
    · have closed : former.state ≠ stateCommitted := by
        rw [stored.state]
        decide
      have reported := (moved.committed done).resolve_left closed
      rw [← moved.id] at reported
      exact List.mem_append_right _ reported

theorem path_unmarked (path : Path (Evolution law) past before events after) (lawful : before.Lawful)
    {id : Int} (unsettled : ∀ former ∈ before.rows, former.id = id → former.state ≠ stateCommitted)
    (unmarked : .committed id 0 ∉ events) (present : row ∈ after.rows) (named : row.id = id) :
    row.state ≠ stateCommitted := by
  intro done
  rcases path_backward path lawful present with
    ⟨former, member, moved⟩ | ⟨former, signal, route, expiresAt, early, late, rfl, stored, moved⟩
  · have same : former.id = id := moved.id.symm.trans named
    exact unmarked (same ▸ (moved.committed done).resolve_left (unsettled former member same))
  · have closed : former.state ≠ stateCommitted := by
      rw [stored.state]
      decide
    have reported := (moved.committed done).resolve_left closed
    rw [← moved.id, named] at reported
    exact unmarked (List.mem_append_right _ reported)

end AimeeLearning.Learning
