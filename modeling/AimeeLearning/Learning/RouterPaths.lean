import AimeeLearning.Learning.Store

/-! Every call of the router takes the rows along a path of store steps. The
rows a step finds settled stay as they are, so what a program learnt of the
store before it called again is still so. -/

set_option autoImplicit false

namespace AimeeLearning.Learning

open Library Traced

variable {σ ν α β : Type} {env : RouterEnv σ ν} {view : σ → StoreView} {law : StoreLaw ν}
  {past : List (RouterEvent ν)}

theorem StoreView.Quiet.trans {first second third : StoreView} (left : first.Quiet second)
    (right : second.Quiet third) : first.Quiet third :=
  ⟨left.later.trans right.later, right.signals.trans left.signals, right.rows.trans left.rows⟩

theorem StoreView.Lawful.quiet {before after : StoreView} (lawful : before.Lawful)
    (quiet : before.Quiet after) : after.Lawful := by
  constructor
  · rw [quiet.rows]
    exact lawful.unique
  · rw [quiet.rows]
    exact lawful.states

section Rows

/-- What events may do to a row: it keeps its target and action, only a pending
row moves its state, and a commit is reported. -/
structure RowStep (events : List (RouterEvent ν)) (row next : LearningProposal) : Prop where
  id : next.id = row.id
  target : next.sink = row.sink ∧ next.targetKey = row.targetKey ∧
    next.targetMemoryId = row.targetMemoryId
  action : next.actionJson = row.actionJson
  expires : next.expiresAt = row.expiresAt
  state : next.state = row.state ∨ next.state = stateCommitted ∨ next.state = stateArchived
  settled : row.state ≠ statePending → next = row
  committed : next.state = stateCommitted → row.state = stateCommitted ∨
    .committed row.id 0 ∈ events
  count : .bumped row.id ∉ events → next.corroborationCount = row.corroborationCount

variable {events further : List (RouterEvent ν)}

theorem RowStep.refl (row : LearningProposal) : RowStep events row row :=
  ⟨rfl, ⟨rfl, rfl, rfl⟩, rfl, rfl, .inl rfl, fun _ => rfl, .inl, fun _ => rfl⟩

theorem RowStep.trans {first second third : LearningProposal} (left : RowStep events first second)
    (right : RowStep further second third) : RowStep (events ++ further) first third where
  id := right.id.trans left.id
  target := ⟨right.target.1.trans left.target.1, right.target.2.1.trans left.target.2.1,
    right.target.2.2.trans left.target.2.2⟩
  action := right.action.trans left.action
  expires := right.expires.trans left.expires
  state := by
    rcases right.state with same | moved
    · exact same ▸ left.state
    · exact .inr moved
  settled := fun closed => by
    have same := left.settled closed
    subst same
    exact right.settled closed
  committed := fun done => by
    rcases right.committed done with before | reported
    · exact (left.committed before).imp_right (List.mem_append_left _)
    · exact .inr (List.mem_append_right _ (left.id ▸ reported))
  count := fun quiet => by
    rw [List.mem_append, not_or] at quiet
    exact (right.count (left.id ▸ quiet.2)).trans (left.count quiet.1)

variable {row next : LearningProposal} {time : Int}

theorem Bumped.step (bumped : Bumped row next) (pending : row.state = statePending)
    (reported : .bumped row.id ∈ events) : RowStep events row next := by
  rw [bumped]
  exact ⟨rfl, ⟨rfl, rfl, rfl⟩, rfl, rfl, .inl rfl, fun closed => absurd pending closed, .inl,
    fun quiet => absurd reported quiet⟩

theorem Archived.step (archived : Archived row next) (pending : row.state = statePending) :
    RowStep events row next := by
  rw [archived]
  refine ⟨rfl, ⟨rfl, rfl, rfl⟩, rfl, rfl, .inr (.inr rfl), fun closed => absurd pending closed, ?_,
    fun _ => rfl⟩
  intro done
  have same : stateArchived = stateCommitted := done
  exact absurd same (by decide)

theorem Committed.step (committed : Committed law.instant time row next)
    (pending : row.state = statePending) (reported : .committed row.id 0 ∈ events) :
    RowStep events row next := by
  rw [committed.2]
  exact ⟨rfl, ⟨rfl, rfl, rfl⟩, rfl, rfl, .inr (.inl rfl), fun closed => absurd pending closed,
    fun _ => .inr reported, fun _ => rfl⟩

theorem Swept.step (swept : Swept law.instant time row next) : RowStep events row next := by
  by_cases expired : Expired law.instant time row
  · exact (swept.1 expired).step expired.1
  · rw [swept.2 expired]
    exact .refl row

theorem Swept.pending (swept : Swept law.instant time row next)
    (pending : next.state = statePending) : next = row := by
  by_cases expired : Expired law.instant time row
  · rw [swept.1 expired] at pending
    have same : stateArchived = statePending := pending
    exact absurd same (by decide)
  · exact swept.2 expired

theorem rewrites_steps {id : Int} {Change : LearningProposal → LearningProposal → Prop}
    {before after : List LearningProposal} (rewritten : Rewrites (·.id) id Change before after)
    (pending : ∀ row ∈ before, row.id = id → row.state = statePending)
    (change : ∀ row next, Change row next → row.id = id → row.state = statePending →
      RowStep events row next) :
    List.Forall₂ (RowStep events) before after :=
  rewritten.imp (fun row next member named changed =>
    change row next changed named (pending row member named)) RowStep.refl

theorem StoreView.Lawful.same {view : StoreView} (lawful : view.Lawful) {other : LearningProposal}
    (member : row ∈ view.rows) (present : other ∈ view.rows) (named : other.id = row.id) :
    other = row := by
  have first := (find?_eq_some_iff_mem lawful.unique).mpr ⟨member, rfl⟩
  have second := (find?_eq_some_iff_mem lawful.unique).mpr ⟨present, named⟩
  exact Option.some.inj (second.symm.trans first)

theorem StoreView.Lawful.pendingId {view : StoreView} (lawful : view.Lawful)
    (member : row ∈ view.rows) (pending : row.state = statePending) :
    PendingId view.rows row.id :=
  ⟨⟨row, member, rfl⟩, fun _ present named => lawful.same member present named ▸ pending⟩

/-- The rows of a step are those there were, each moved by a row step, and at
most one inserted row. -/
theorem Evolution.rowSteps {before after : StoreView} {events : List (RouterEvent ν)}
    (step : Evolution law past before events after) (lawful : before.Lawful) :
    ∃ kept added, after.rows = kept ++ added ∧ List.Forall₂ (RowStep events) before.rows kept ∧
      (added = [] ∨ ∃ row signal route expiresAt, added = [row] ∧
        row.id ∉ before.rows.map (·.id) ∧ Inserted row.id signal route expiresAt row ∧
        events = [.routed signal route, .inserted row.id]) := by
  have kept : ∀ {rows : List LearningProposal}, after.rows = rows →
      List.Forall₂ (RowStep events) before.rows rows → ∃ kept added, after.rows = kept ++ added ∧
        List.Forall₂ (RowStep events) before.rows kept ∧
        (added = [] ∨ ∃ row signal route expiresAt, added = [row] ∧
          row.id ∉ before.rows.map (·.id) ∧ Inserted row.id signal route expiresAt row ∧
          events = [.routed signal route, .inserted row.id]) :=
    fun {rows} same steps => ⟨rows, [], by rw [same, List.append_nil], steps, .inl rfl⟩
  have same : List.Forall₂ (RowStep events) before.rows before.rows :=
    List.forall₂_same.mpr fun row _ => .refl row
  cases step with
  | quiet quiet => exact kept quiet.rows same
  | signal id later fresh signals rows => exact kept rows same
  | sweep time began ended signals rows =>
      rcases rows with swept | ⟨-, lost⟩
      · exact kept rfl (swept.imp fun _ _ => Swept.step)
      · exact kept lost same
  | join signal id route later signals unrouted row present named pending target rows =>
      rcases rows with bumped | ⟨-, lost⟩
      · exact kept rfl (rewrites_steps bumped (named ▸ (lawful.pendingId present pending).2)
          fun row _ bumped named pending =>
          bumped.step pending (by simp [named]))
      · exact kept lost same
  | «open» signal route row expiresAt later signals unrouted fresh inserted rows =>
      exact ⟨before.rows, [row], rows, same,
        .inr ⟨row, signal, route, expiresAt, rfl, fresh, inserted, rfl⟩⟩
  | drop signal route lost unrouted quiet => exact kept quiet.rows same
  | archive id reason later signals pending rows =>
      rcases rows with archived | ⟨-, lost⟩
      · exact kept rfl (rewrites_steps archived pending.2 fun _ _ archived _ => archived.step)
      · exact kept lost same
  | refuse id effect rc quiet wrong pending => exact kept quiet.rows same
  | commit id rc counted time began ahead ended signals row present named pending allowed reason
      effects rows =>
      rcases rows with ⟨rfl, committed⟩ | ⟨-, -, lost⟩
      · exact kept rfl (rewrites_steps committed pending.2 fun _ _ committed named pending =>
          committed.step pending (by simp [named]))
      · exact kept lost same

theorem Evolution.later {before after : StoreView} {events : List (RouterEvent ν)}
    (step : Evolution law past before events after) : before.now ≤ after.now := by
  cases step with
  | quiet quiet => exact quiet.later
  | signal _ later => exact later
  | sweep _ began ended => exact began.trans ended
  | join _ _ _ later => exact later
  | «open» _ _ _ _ later => exact later
  | drop _ _ _ _ quiet => exact quiet.later
  | archive _ _ later => exact later
  | refuse _ _ _ quiet => exact quiet.later
  | commit _ _ _ _ began ahead ended => exact (began.trans ahead).trans ended

theorem Evolution.backward {before after : StoreView} {events : List (RouterEvent ν)}
    (step : Evolution law past before events after) (lawful : before.Lawful) {next : LearningProposal}
    (member : next ∈ after.rows) :
    (∃ row ∈ before.rows, RowStep events row next) ∨
      ∃ signal route expiresAt, next.id ∉ before.rows.map (·.id) ∧
        Inserted next.id signal route expiresAt next ∧
        events = [.routed signal route, .inserted next.id] := by
  obtain ⟨kept, added, rows, steps, grown⟩ := step.rowSteps lawful
  rw [rows] at member
  rcases List.mem_append.mp member with old | new
  · exact .inl (forall₂_backward steps old)
  · rcases grown with rfl | ⟨row, signal, route, expiresAt, rfl, fresh, inserted, reported⟩
    · cases new
    · obtain rfl := List.mem_singleton.mp new
      exact .inr ⟨signal, route, expiresAt, fresh, inserted, reported⟩

theorem Evolution.forward {before after : StoreView} {events : List (RouterEvent ν)}
    (step : Evolution law past before events after) (lawful : before.Lawful) {row : LearningProposal}
    (member : row ∈ before.rows) : ∃ next ∈ after.rows, RowStep events row next := by
  obtain ⟨kept, added, rows, steps, -⟩ := step.rowSteps lawful
  obtain ⟨next, present, moved⟩ := forall₂_forward steps member
  exact ⟨next, rows ▸ List.mem_append_left _ present, moved⟩

theorem Evolution.lawful {before after : StoreView} {events : List (RouterEvent ν)}
    (step : Evolution law past before events after) (lawful : before.Lawful) : after.Lawful := by
  constructor
  · obtain ⟨kept, added, rows, steps, grown⟩ := step.rowSteps lawful
    have ids : kept.map (·.id) = before.rows.map (·.id) := forall₂_keys (fun _ _ => RowStep.id) steps
    rw [rows, List.map_append, ids]
    rcases grown with rfl | ⟨row, signal, route, expiresAt, rfl, fresh, -⟩
    · simpa using lawful.unique
    · rw [List.map_singleton, List.nodup_append]
      refine ⟨lawful.unique, List.nodup_singleton _, ?_⟩
      intro id member other single
      rw [List.mem_singleton.mp single]
      exact fun same => fresh (same ▸ member)
  · intro next member
    rcases step.backward lawful member with ⟨row, present, moved⟩ | ⟨_, _, _, -, inserted, -⟩
    · rcases moved.state with same | settled
      · exact same ▸ lawful.states row present
      · exact .inr settled
    · exact .inl inserted.state

theorem path_lawful {before after : StoreView} {events : List (RouterEvent ν)}
    (path : Path (Evolution law) past before events after) (lawful : before.Lawful) :
    after.Lawful :=
  path.invariant (fun _ view => view.Lawful) lawful
    fun _ _ _ _ lawful step => step.lawful lawful

theorem path_forward {before after : StoreView} {events : List (RouterEvent ν)}
    (path : Path (Evolution law) past before events after) (lawful : before.Lawful)
    (member : row ∈ before.rows) : ∃ next ∈ after.rows, RowStep events row next := by
  induction path with
  | nil => exact ⟨row, member, .refl row⟩
  | snoc front step ih =>
      obtain ⟨middle, here, came⟩ := ih
      obtain ⟨next, there, went⟩ := step.forward (path_lawful front lawful) here
      exact ⟨next, there, came.trans went⟩

theorem path_backward {before after : StoreView} {events : List (RouterEvent ν)}
    (path : Path (Evolution law) past before events after) (lawful : before.Lawful)
    (member : next ∈ after.rows) :
    (∃ row ∈ before.rows, RowStep events row next) ∨
      ∃ row signal route expiresAt early late,
        events = early ++ [.routed signal route, .inserted next.id] ++ late ∧
        Inserted next.id signal route expiresAt row ∧ RowStep late row next := by
  induction path generalizing next with
  | nil => exact .inl ⟨next, member, .refl next⟩
  | snoc front step ih =>
      rename_i seen emitted state final
      rcases step.backward (path_lawful front lawful) member with
        ⟨row, here, went⟩ | ⟨signal, route, expiresAt, -, inserted, rfl⟩
      · rcases ih here with ⟨first, there, came⟩ |
          ⟨first, signal, route, expiresAt, early, late, rfl, inserted, came⟩
        · exact .inl ⟨first, there, came.trans went⟩
        · rw [← went.id] at inserted ⊢
          exact .inr ⟨first, signal, route, expiresAt, early, late ++ emitted, by simp, inserted,
            came.trans went⟩
      · exact .inr ⟨next, signal, route, expiresAt, seen, [], by simp, inserted, .refl next⟩

theorem path_later {before after : StoreView} {events : List (RouterEvent ν)}
    (path : Path (Evolution law) past before events after) : before.now ≤ after.now :=
  path.invariant (fun _ view => before.now ≤ view.now) (le_refl _)
    fun _ _ _ _ later step => later.trans step.later

/-- An expiry sweep, with quiet calls around it. -/
def SweptTo (law : StoreLaw ν) (before after : StoreView) : Prop :=
  ∃ time, before.now ≤ time ∧ time ≤ after.now ∧ after.signals = before.signals ∧
    (List.Forall₂ (Swept law.instant time) before.rows after.rows ∨
      law.fails ∧ after.rows = before.rows)

variable {before middle after : StoreView}

theorem SweptTo.step (swept : SweptTo law before after) :
    Evolution law past before [.archivedExpired] after := by
  obtain ⟨time, began, ended, signals, rows⟩ := swept
  exact .sweep time began ended signals rows

theorem SweptTo.lawful (swept : SweptTo law before after) (lawful : before.Lawful) :
    after.Lawful := by
  have step : Evolution law [] before [.archivedExpired] after := swept.step
  exact step.lawful lawful

theorem SweptTo.quiet (swept : SweptTo law before middle) (quiet : middle.Quiet after) :
    SweptTo law before after := by
  obtain ⟨time, began, ended, signals, rows⟩ := swept
  refine ⟨time, began, ended.trans quiet.later, quiet.signals.trans signals, ?_⟩
  rw [quiet.rows]
  exact rows

theorem SweptTo.from_quiet (swept : SweptTo law middle after) (quiet : before.Quiet middle) :
    SweptTo law before after := by
  obtain ⟨time, began, ended, signals, rows⟩ := swept
  refine ⟨time, quiet.later.trans began, ended, signals.trans quiet.signals, ?_⟩
  rw [← quiet.rows]
  exact rows

theorem SweptTo.signals (swept : SweptTo law before after) : after.signals = before.signals := by
  obtain ⟨time, -, -, signals, -⟩ := swept
  exact signals

theorem SweptTo.pending (swept : SweptTo law before after) (member : next ∈ after.rows)
    (pending : next.state = statePending) : next ∈ before.rows := by
  obtain ⟨time, -, -, -, rows⟩ := swept
  rcases rows with moved | ⟨-, lost⟩
  · obtain ⟨row, present, here⟩ := forall₂_backward moved member
    exact here.pending pending ▸ present
  · exact lost ▸ member

theorem SweptTo.settled (swept : SweptTo law before after) (member : row ∈ before.rows)
    (closed : row.state ≠ statePending) : row ∈ after.rows := by
  obtain ⟨time, -, -, -, rows⟩ := swept
  rcases rows with moved | ⟨-, lost⟩
  · obtain ⟨next, present, here⟩ := forall₂_forward moved member
    have step : RowStep (ν := ν) [] row next := here.step
    exact step.settled closed ▸ present
  · exact lost ▸ member

end Rows

section Inversion

variable {before after : StoreView} {events : List (RouterEvent ν)}

theorem Evolution.of_sweep (step : Evolution law past before events after)
    (swept : .archivedExpired ∈ events) : SweptTo law before after := by
  cases step with
  | sweep time began ended signals rows => exact ⟨time, began, ended, signals, rows⟩
  | commit _ _ _ _ _ _ _ _ _ _ _ _ _ _ effects =>
      rcases effects with rfl | ⟨_, rfl⟩ <;> simp at swept
  | _ => simp at swept

/-- A signal that reaches a sink joins a pending proposal there or opens its own,
unless that write was lost. -/
theorem Evolution.of_routed {signal : Int} {route : Route}
    (step : Evolution law past before events after) (routed : .routed signal route ∈ events) :
    Unrouted past signal route.sink ∧
      ((∃ row ∈ before.rows, row.isFor route.sink route.targetKey route.targetMemoryId ∧
          row.state = statePending ∧ events = [.routed signal route, .bumped row.id] ∧
          (Rewrites (·.id) row.id Bumped before.rows after.rows ∨
            law.fails ∧ after.rows = before.rows)) ∨
        (∃ row expiresAt, Inserted row.id signal route expiresAt row ∧
          events = [.routed signal route, .inserted row.id] ∧ after.rows = before.rows ++ [row]) ∨
        law.fails ∧ events = [.routed signal route]) := by
  cases step with
  | join other id target later signals unrouted row present named pending isFor rows =>
      obtain ⟨rfl, rfl⟩ : signal = other ∧ route = target := by simpa using routed
      subst named
      exact ⟨unrouted, .inl ⟨row, present, isFor, pending, rfl, rows⟩⟩
  | «open» other target row expiresAt later signals unrouted fresh inserted rows =>
      obtain ⟨rfl, rfl⟩ : signal = other ∧ route = target := by simpa using routed
      exact ⟨unrouted, .inr (.inl ⟨row, expiresAt, inserted, rfl, rows⟩)⟩
  | drop other target lost unrouted quiet =>
      obtain ⟨rfl, rfl⟩ : signal = other ∧ route = target := by simpa using routed
      exact ⟨unrouted, .inr (.inr ⟨lost, rfl⟩)⟩
  | commit _ _ _ _ _ _ _ _ _ _ _ _ _ _ effects =>
      rcases effects with rfl | ⟨_, rfl⟩ <;> simp at routed
  | _ => simp at routed

theorem Evolution.of_bump {id : Int} (step : Evolution law past before events after)
    (bumped : .bumped id ∈ events) : ∃ signal route, events = [.routed signal route, .bumped id] := by
  cases step with
  | join signal other route =>
      obtain rfl : id = other := by simpa using bumped
      exact ⟨signal, route, rfl⟩
  | commit _ _ _ _ _ _ _ _ _ _ _ _ _ _ effects =>
      rcases effects with rfl | ⟨_, rfl⟩ <;> simp at bumped
  | _ => simp at bumped

theorem Evolution.signals (step : Evolution law past before events after) :
    (∃ id, events = [.signalInserted id] ∧ id ∉ before.signals ∧
        after.signals = before.signals ++ [id]) ∨
      (∀ id, .signalInserted id ∉ events) ∧ after.signals = before.signals := by
  cases step with
  | signal id later fresh signals rows => exact .inl ⟨id, rfl, fresh, signals⟩
  | quiet quiet => exact .inr ⟨by simp, quiet.signals⟩
  | sweep _ _ _ signals => exact .inr ⟨by simp, signals⟩
  | join _ _ _ _ signals => exact .inr ⟨by simp, signals⟩
  | «open» _ _ _ _ _ signals => exact .inr ⟨by simp, signals⟩
  | drop _ _ _ _ quiet => exact .inr ⟨by simp, quiet.signals⟩
  | archive _ _ _ signals => exact .inr ⟨by simp, signals⟩
  | refuse _ _ _ quiet => exact .inr ⟨by simp, quiet.signals⟩
  | commit _ _ _ _ _ _ _ signals _ _ _ _ _ _ effects =>
      refine .inr ⟨?_, signals⟩
      rcases effects with rfl | ⟨_, rfl⟩ <;> simp

/-- A commit as the rows see it. -/
structure CommitStep (law : StoreLaw ν) (history : List (RouterEvent ν)) (id rc : Int)
    (before : StoreView) (events : List (RouterEvent ν)) (after : StoreView) : Prop where
  pending : PendingId before.rows id
  reason : law.reason history before.rows id
  effects : events = [.committed id rc] ∨ ∃ effect, events = [.applied id effect 0, .committed id rc]
  allowed : ∃ row ∈ before.rows, row.id = id ∧ ∃ counted time, before.now ≤ counted ∧
    counted ≤ time ∧ time ≤ after.now ∧ law.under row.sink counted before.rows ∧
    (rc = 0 ∧ Rewrites (·.id) id (Committed law.instant time) before.rows after.rows ∨
      law.fails ∧ rc ≠ 0 ∧ after.rows = before.rows)

theorem Evolution.of_commit {id rc : Int} (step : Evolution law past before events after)
    (committed : .committed id rc ∈ events) : CommitStep law past id rc before events after := by
  cases step with
  | commit other code counted time began ahead ended signals row present named pending allowed
      reason effects rows =>
      obtain ⟨rfl, rfl⟩ : id = other ∧ rc = code := by
        rcases effects with rfl | ⟨_, rfl⟩ <;> simpa using committed
      exact ⟨pending, reason, effects.imp (by rintro rfl; rfl) (by rintro ⟨effect, rfl⟩; exact ⟨effect, rfl⟩),
        row, present, named, counted, time, began, ahead, ended, allowed, rows⟩
  | _ => simp at committed

theorem Evolution.of_effect {id : Int} {effect : SinkEffect ν}
    (step : Evolution law past before events after) (applied : .applied id effect 0 ∈ events) :
    ∃ rc, events = [.applied id effect 0, .committed id rc] := by
  cases step with
  | refuse other work rc quiet wrong =>
      simp only [List.mem_singleton, RouterEvent.applied.injEq] at applied
      exact absurd applied.2.2.symm wrong
  | commit other code _ _ _ _ _ _ _ _ _ _ _ _ effects =>
      rcases effects with rfl | ⟨work, rfl⟩
      · simp at applied
      · obtain ⟨rfl, rfl⟩ : id = other ∧ effect = work := by simpa using applied
        exact ⟨code, rfl⟩
  | _ => simp at applied

theorem Evolution.of_archive {id : Int} {reason : Bytes}
    (step : Evolution law past before events after) (archived : .archived id reason ∈ events) :
    events = [.archived id reason] ∧ PendingId before.rows id ∧
      (Rewrites (·.id) id Archived before.rows after.rows ∨
        law.fails ∧ after.rows = before.rows) := by
  cases step with
  | archive other why later signals pending rows =>
      obtain ⟨rfl, rfl⟩ : id = other ∧ reason = why := by simpa using archived
      exact ⟨rfl, pending, rows⟩
  | commit _ _ _ _ _ _ _ _ _ _ _ _ _ _ effects =>
      rcases effects with rfl | ⟨_, rfl⟩ <;> simp at archived
  | _ => simp at archived

/-- The proposal of an id is there and settled in a state. -/
def SettledId (rows : List LearningProposal) (id : Int) (state : Bytes) : Prop :=
  ∃ row ∈ rows, row.id = id ∧ row.state = state

theorem SettledId.later {id : Int} {state : Bytes} (settled : SettledId before.rows id state)
    (closed : state ≠ statePending) (path : Path (Evolution law) past before events after)
    (lawful : before.Lawful) : SettledId after.rows id state := by
  obtain ⟨row, present, named, rfl⟩ := settled
  obtain ⟨next, there, moved⟩ := path_forward path lawful present
  obtain rfl := moved.settled closed
  exact ⟨next, there, named, rfl⟩

theorem SettledId.not_pending {id : Int} {state : Bytes} {rows : List LearningProposal}
    (settled : SettledId rows id state) (closed : state ≠ statePending) : ¬ PendingId rows id := by
  obtain ⟨row, present, named, rfl⟩ := settled
  exact fun pending => closed (pending.2 row present named)

theorem CommitStep.settles {id : Int} (commit : CommitStep law past id 0 before events after) :
    SettledId after.rows id stateCommitted := by
  obtain ⟨row, present, rfl, _, _, -, -, -, -, rows⟩ := commit.allowed
  obtain ⟨-, rewritten⟩ := rows.resolve_right fun lost => lost.2.1 rfl
  obtain ⟨next, there, change⟩ := forall₂_forward rewritten present
  rw [if_pos rfl] at change
  exact ⟨next, there, by rw [change.2], by rw [change.2]⟩

theorem archived_settles {id : Int} (pending : PendingId before.rows id)
    (rewritten : Rewrites (·.id) id Archived before.rows after.rows) :
    SettledId after.rows id stateArchived := by
  obtain ⟨row, present, rfl⟩ := pending.1
  obtain ⟨next, there, change⟩ := forall₂_forward rewritten present
  rw [if_pos rfl] at change
  exact ⟨next, there, by rw [change], by rw [change]⟩

end Inversion

section Calls

/-- The program only lets time pass. -/
def Calm (view : σ → StoreView) (program : RouterM σ ν α) : Prop :=
  ∀ state value final events, program.run state = (value, final, events) →
    (view state).Quiet (view final) ∧ events = []

theorem calm_pure (value : α) : Calm view (pure value : RouterM σ ν α) := by
  intro state result final events ran
  obtain ⟨-, rfl, rfl⟩ := run_pure_iff.mp ran
  exact ⟨⟨le_refl _, rfl, rfl⟩, rfl⟩

theorem calm_call {change : σ → α × σ}
    (quiet : ∀ state, (view state).Quiet (view (change state).2)) :
    Calm view (call change : RouterM σ ν α) := by
  intro state result final events ran
  obtain ⟨changed, rfl⟩ := run_call_iff.mp ran
  have step := quiet state
  rw [changed] at step
  exact ⟨step, rfl⟩

theorem Calm.bind {first : RouterM σ ν α} {next : α → RouterM σ ν β} (begins : Calm view first)
    (continues : ∀ value, Calm view (next value)) : Calm view (first >>= next) := by
  intro state result final events ran
  obtain ⟨value, middle, early, late, began, ended, rfl⟩ := run_bind_iff.mp ran
  obtain ⟨front, rfl⟩ := begins _ _ _ _ began
  obtain ⟨back, rfl⟩ := continues value _ _ _ _ ended
  exact ⟨front.trans back, rfl⟩

variable (acts : ActsAsNamed env view law.instant law.fails)

include acts

theorem learningClassifySignal_calm (signal : Bytes) :
    Calm view (learningClassifySignal env signal) := by
  unfold learningClassifySignal
  split
  · exact calm_pure _
  · rename_i classify registered
    exact calm_call fun state => acts.classifier classify registered state signal

theorem learningLogDogfood_calm (input : LearningSignalInput) :
    Calm view (learningLogDogfood env input) := by
  have logs : ∀ moment : DogfoodMoment, Calm (ν := ν) view
      (call fun state => ((), env.dogfoodLogMoment state moment)) :=
    fun moment => calm_call fun state => acts.dogfoodLog state moment
  unfold learningLogDogfood
  dsimp only
  split_ifs <;> first | exact logs _ | exact calm_pure _

theorem learningFillTargetKey_calm (input : LearningSignalInput) :
    Calm view (learningFillTargetKey env input) := by
  unfold learningFillTargetKey
  split
  · exact calm_pure _
  · refine (calm_call fun state => acts.memoryGet state _).bind fun key => ?_
    split <;> exact calm_pure _

theorem archiveExpired_spec {state final : σ} {value : Unit} {events : List (RouterEvent ν)}
    (ran : (archiveExpired env).run state = (value, final, events)) :
    events = [.archivedExpired] ∧ SweptTo law (view state) (view final) := by
  unfold archiveExpired at ran
  obtain ⟨_, middle, early, late, began, ended, rfl⟩ := run_bind_iff.mp ran
  obtain ⟨changed, rfl⟩ := run_call_iff.mp began
  obtain ⟨rfl, rfl⟩ := run_emit_iff.mp ended
  obtain ⟨time, later, swept⟩ := acts.archiveExpired state
  have same := congrArg Prod.snd changed
  rw [show env.proposalsArchiveExpired state = final from same] at swept
  exact ⟨rfl, time, later, swept⟩

theorem learningGetProposal_spec {id : Int} {state final : σ} {found : Option LearningProposal}
    {events : List (RouterEvent ν)}
    (ran : (learningGetProposal env id).run state = (found, final, events)) :
    events = [.archivedExpired] ∧ SweptTo law (view state) (view final) ∧
      found = (view final).rows.find? (·.id = id) := by
  unfold learningGetProposal at ran
  obtain ⟨_, middle, early, late, began, ended, rfl⟩ := run_bind_iff.mp ran
  obtain ⟨rfl, swept⟩ := archiveExpired_spec acts began
  obtain ⟨fetched, rfl⟩ := run_call_iff.mp ended
  obtain ⟨quiet, answer⟩ := acts.get middle id
  rw [fetched] at quiet answer
  refine ⟨rfl, swept.quiet quiet, ?_⟩
  rw [quiet.rows]
  exact answer

end Calls

end AimeeLearning.Learning
