import AimeeLearning.Learning.CallEvents
import AimeeLearning.Learning.MemoryStore
import AimeeLearning.Learning.RouterRuns

/-! Who stands behind a corroboration count. The store matches a signal to a
pending proposal by sink and target only, so the count speaks for the proposal's
action exactly where the signals that joined it asked for that action. -/

set_option autoImplicit false

namespace AimeeLearning.Learning

open Library Observe Traced

variable {σ ν : Type} {env : RouterEnv σ ν} {view : σ → StoreView} {instant : Bytes → Int}
  {law : StoreLaw ν} {past events : List (RouterEvent ν)} {before after : StoreView}

/-- The signals that asked a sink for an action, in order. -/
def supporters (sink actionJson : Bytes) (events : List (RouterEvent ν)) : List Int :=
  events.filterMap fun
    | .routed signal route =>
        if route.sink = sink ∧ route.actionJson = actionJson then some signal else none
    | _ => none

/-- What a recorded signal asks of the sinks: its routes, with the key of its target
filled in, unless it is refused before. -/
def askedRoutes (env : RouterEnv σ ν) (raw : LearningSignalInput) (state : σ) : List Route :=
  if raw.signalType = [] ∨ integrityRefuses env raw state = true then []
  else
    let classify : RouterM σ ν (Option UInt32) := learningClassifySignal env raw.signalType
    match classify.run state with
    | (some mask, classified, _) => routes env (filledSignal env raw classified) mask
    | (none, _, _) => []

instance {row : LearningProposal} {sink targetKey : Bytes} {targetMemoryId : Int} :
    Decidable (row.isFor sink targetKey targetMemoryId) :=
  inferInstanceAs (Decidable (_ ∧ _ ∧ _))

/-- A signal with this route finds the proposal: it is pending, its time has not
passed, and it is for the same sink and target. -/
def Joins (instant : Bytes → Int) (now : Int) (route : Route) (row : LearningProposal) : Prop :=
  row.state = statePending ∧ now < instant row.expiresAt ∧
    row.isFor route.sink route.targetKey route.targetMemoryId

instance {now : Int} {route : Route} : DecidablePred (Joins instant now route) :=
  fun _ => inferInstanceAs (Decidable (_ ∧ _ ∧ _))

/-- Before a call, the proposals that its routes can join ask for what the routes ask. -/
def joinsAgree (env : RouterEnv σ ν) (view : σ → StoreView) (instant : Bytes → Int) (state : σ) :
    RouterOp → Bool
  | .recordSignal (some raw) _ => (askedRoutes env raw state).all fun route =>
      (view state).rows.all fun row =>
        decide (Joins instant (view state).now route row → row.actionJson = route.actionJson)
  | _ => true

/-- A step of the rows in which a signal only joins a proposal with its own action. -/
def Agreeing (law : StoreLaw ν) (history : List (RouterEvent ν)) (before : StoreView)
    (events : List (RouterEvent ν)) (after : StoreView) : Prop :=
  Evolution law history before events after ∧
    ∀ signal route id, events = [.routed signal route, .bumped id] →
      ∀ row ∈ before.rows, row.id = id → row.actionJson = route.actionJson

theorem mem_supporters {sink actionJson : Bytes} {signal : Int} :
    signal ∈ supporters sink actionJson events ↔
      ∃ route, .routed signal route ∈ events ∧ route.sink = sink ∧ route.actionJson = actionJson := by
  rw [supporters, List.mem_filterMap]
  constructor
  · rintro ⟨event, member, found⟩
    cases event with
    | routed other route =>
        simp only [Option.ite_none_right_eq_some, Option.some.injEq] at found
        obtain ⟨same, rfl⟩ := found
        exact ⟨route, member, same⟩
    | _ => cases found
  · rintro ⟨route, member, same⟩
    exact ⟨_, member, if_pos same⟩

theorem supporters_append {sink actionJson : Bytes} :
    supporters sink actionJson (past ++ events) =
      supporters sink actionJson past ++ supporters sink actionJson events :=
  List.filterMap_append

section Joins

theorem Agreeing.path (path : Path (Agreeing law) past before events after) :
    Path (Evolution law) past before events after :=
  path.refine_steps fun _ _ _ _ _ _ _ step => step.1

/-- A proposal still pending behind a sweep had time left before it. -/
theorem path_unexpired (path : Path (Evolution law) past before events after)
    (lawful : before.Lawful) (kept : ¬ law.fails) (swept : .archivedExpired ∈ events)
    {row next : LearningProposal} (present : row ∈ before.rows) (there : next ∈ after.rows)
    (named : next.id = row.id) (pending : next.state = statePending) :
    before.now < law.instant row.expiresAt := by
  obtain ⟨early, emitted, late, moment, settled, rfl, here, front, step, back⟩ := path.split swept
  obtain ⟨time, began, -, -, rows⟩ := step.of_sweep here
  obtain ⟨first, met, came⟩ := path_forward front lawful present
  obtain ⟨second, left, change⟩ := forall₂_forward (rows.resolve_right fun lost => kept lost.1) met
  have settledLawful := step.lawful (path_lawful front lawful)
  have swept : RowStep emitted first second := change.step
  obtain ⟨last, lasting, went⟩ := path_forward back settledLawful left
  obtain rfl := (path_lawful back settledLawful).same there lasting
    (went.id.trans (swept.id.trans (came.id.trans named.symm)))
  have waiting : second.state = statePending := by
    by_contra closed
    exact closed (went.settled closed ▸ pending)
  obtain rfl := change.pending waiting
  have open_ : ¬ Expired law.instant time second := fun expired => by
    rw [change.1 expired] at waiting
    have same : stateArchived = statePending := waiting
    exact absurd same (by decide)
  have time_left : time < law.instant second.expiresAt :=
    not_le.mp fun passed => open_ ⟨waiting, passed⟩
  rw [← came.expires]
  exact lt_of_le_of_lt ((path_later front).trans began) time_left

/-- What a route finds behind the sweep and the other routes of its call was there
before, and waited. -/
theorem joined_before {route : Route} {row : LearningProposal}
    (path : Path (Evolution law) past before events after) (lawful : before.Lawful)
    (kept : ¬ law.fails) (swept : .archivedExpired ∈ events)
    (first : ∀ taken ∈ routesOf events, taken.sink ≠ route.sink)
    (present : row ∈ after.rows) (pending : row.state = statePending)
    (target : row.isFor route.sink route.targetKey route.targetMemoryId) :
    ∃ former ∈ before.rows, Joins law.instant before.now route former ∧
      former.actionJson = row.actionJson := by
  rcases path_backward path lawful present with
    ⟨former, there, moved⟩ | ⟨opened, signal, taken, expiresAt, early, late, rfl, inserted, moved⟩
  · have waiting : former.state = statePending := by
      by_contra closed
      exact closed (moved.settled closed ▸ pending)
    refine ⟨former, there, ⟨waiting, ?_, ?_⟩, moved.action.symm⟩
    · exact path_unexpired path lawful kept swept there present moved.id pending
    · exact ⟨moved.target.1.symm.trans target.1, moved.target.2.1.symm.trans target.2.1,
        moved.target.2.2.symm.trans target.2.2⟩
  · -- one that an earlier route of the call opened is for another sink
    have brought : .routed signal taken ∈ early ++ [.routed signal taken, .inserted row.id] ++ late := by
      simp
    have same : taken.sink = route.sink :=
      inserted.sink.symm.trans (moved.target.1.symm.trans target.1)
    exact absurd same (first taken (mem_routesOf brought))

variable {raw : LearningSignalInput} {state final : σ} {code : Int}
  {out noted : Option LearningDispatchResult}

theorem askedRoutes_distinct : ((askedRoutes env raw state).map (·.sink)).Nodup := by
  unfold askedRoutes
  split
  · exact List.nodup_nil
  · dsimp only
    split
    · exact routes_distinct
    · exact List.nodup_nil

/-- A recorded signal takes no route, or sweeps and then takes those it asks for. -/
theorem recordSignal_asked (acts : ActsAsNamed env view law.instant law.fails)
    (ran : (learningRouterRecordSignal env (some raw) out).run state =
      ((code, noted), final, events)) :
    routesOf events = [] ∨
      ∃ rest, events = .archivedExpired :: rest ∧ routesOf events = askedRoutes env raw state := by
  rcases learningRouterRecordSignal_cases acts ran with
    ⟨-, rfl, -⟩ | ⟨_, mask, classified, same, named, open_, classify, -, dispatch⟩
  · exact .inl rfl
  obtain rfl := Option.some.inj same
  have asked : askedRoutes env raw state = routes env (filledSignal env raw classified) mask := by
    unfold askedRoutes
    rw [if_neg (by simp [named, open_])]
    simp only [classify]
  rcases dispatchSignal_cases acts [] dispatch with
    ⟨-, -, rfl, -⟩ | ⟨logged, body, rfl, -, -, -, -, queues⟩
  · exact .inl rfl
  · refine .inr ⟨.signalInserted code :: body, rfl, ?_⟩
    have taken := (queueRoutes_events queues).routesOf_eq
    rw [asked, ← taken, routesOf_append]
    rfl

theorem recordSignal_agreeing (acts : ActsAsNamed env view law.instant law.fails)
    (kept : ¬ law.fails) (lawful : (view state).Lawful)
    (agree : joinsAgree env view law.instant state (.recordSignal (some raw) out) = true)
    (ran : (learningRouterRecordSignal env (some raw) out).run state =
      ((code, noted), final, events))
    (path : Path (Evolution law) past (view state) events (view final)) :
    Path (Agreeing law) past (view state) events (view final) := by
  refine path.refine_steps fun early before emitted after late same front step => ⟨step, ?_⟩
  rintro signal route _ rfl row member rfl
  obtain ⟨joined, here, target, pending, named⟩ : ∃ joined ∈ before.rows,
      joined.isFor route.sink route.targetKey route.targetMemoryId ∧
        joined.state = statePending ∧ joined.id = row.id := by
    rcases (step.of_routed List.mem_cons_self).2 with
      ⟨joined, here, target, pending, named, -⟩ | ⟨_, _, -, named, -⟩ | ⟨lost, -⟩
    · exact ⟨joined, here, target, pending, by simpa using named.symm⟩
    · simp at named
    · exact absurd lost kept
  obtain rfl := (path_lawful front lawful).same member here named
  have taken : routesOf events = routesOf early ++ route :: routesOf late := by
    rw [same, routesOf_append, routesOf_append, List.append_assoc]
    rfl
  rcases recordSignal_asked acts ran with none | ⟨rest, swept, asked⟩
  · rw [none] at taken
    simp at taken
  have first : .archivedExpired ∈ early := by
    rw [swept] at same
    cases early with
    | nil => simp at same
    | cons event more =>
        obtain ⟨rfl, -⟩ := List.cons.inj same
        exact List.mem_cons_self
  have distinct : ((routesOf early ++ route :: routesOf late).map (·.sink)).Nodup := by
    rw [← taken, asked]
    exact askedRoutes_distinct
  obtain ⟨former, there, joins, action⟩ := joined_before front lawful kept first
    (fun other earlier same => by
      rw [List.map_append, List.map_cons, List.nodup_append] at distinct
      exact distinct.2.2 _ (List.mem_map_of_mem earlier) _ List.mem_cons_self same) here pending target
  have wanted : route ∈ askedRoutes env raw state := by
    rw [← asked, taken]
    simp
  rw [← action]
  exact of_decide_eq_true (List.all_eq_true.mp (List.all_eq_true.mp agree route wanted) former there)
    joins

/-- A run whose signals only join proposals that ask for the same is a path of such joins. -/
theorem run_agreeing (acts : ActsAsNamed env view instant False) {start state : σ}
    (lawful : (view start).Lawful) {actions : List RouterOp} {outputs : List (RouterEvent ν)}
    (run : ((routerMachine env).restrict (joinsAgree env view instant)).Run start actions state
      outputs) :
    Path (Agreeing (freeLaw instant False)) [] (view start) outputs (view state) := by
  have acts' : ActsAsNamed env view (freeLaw (ν := ν) instant False).instant
    (freeLaw (ν := ν) instant False).fails := acts
  refine Path.of_run (fun history state op next emitted before taken => ?_) run
  obtain ⟨agree, stepped⟩ := Machine.restrict_step.mp taken
  have ran := routerMachine_step.mp stepped
  have settled := path_lawful (Agreeing.path before) lawful
  have path : Path (Evolution (freeLaw instant False)) history (view state) emitted (view next) :=
    runRouterOp_path acts' (capObserved_trivial acts' fun _ _ _ => trivial) settled
      (fun _ _ _ _ => trivial) ran
  by_cases records : ∃ raw out, op = .recordSignal (some raw) out
  · obtain ⟨raw, out, rfl⟩ := records
    obtain ⟨⟨code, noted⟩, _, _, _, recorded, ended, rfl⟩ := run_bind_iff.mp ran
    obtain ⟨-, rfl, rfl⟩ := run_pure_iff.mp ended
    rw [List.append_nil] at path ⊢
    exact recordSignal_agreeing acts' (fun lost => lost) settled agree recorded path
  · -- the other calls route no signal
    have unrouted : routesOf emitted = [] :=
      runRouterOp_unrouted env (fun raw out same => records ⟨raw, out, same⟩) ran
    refine path.refine_steps fun early before own after late same _ step => ⟨step, ?_⟩
    rintro signal route _ rfl
    have routed : .routed signal route ∈ emitted := by rw [same]; simp
    have here := mem_routesOf routed
    rw [unrouted] at here
    cases here

end Joins

section Signals

/-- What the events tell of signals: one that was routed was stored before, and
one that was stored had not been routed. -/
structure SignalsTold (history : List (RouterEvent ν)) (view : StoreView) : Prop where
  stored : ∀ signal, .signalInserted signal ∈ history → signal ∈ view.signals
  routed : ∀ signal route, .routed signal route ∈ history → .signalInserted signal ∈ history
  first : ∀ early signal late, history = early ++ .signalInserted signal :: late →
    ∀ route, .routed signal route ∉ early

theorem SignalsTold.start (view : StoreView) : SignalsTold ([] : List (RouterEvent ν)) view :=
  ⟨nofun, nofun, fun early _ _ same => by simp at same⟩

theorem SignalsTold.step (told : SignalsTold past before)
    (step : Evolution law past before events after) : SignalsTold (past ++ events) after := by
  constructor
  · intro signal member
    rcases step.signals with ⟨id, rfl, -, signals⟩ | ⟨none, signals⟩
    · rw [signals]
      rcases List.mem_append.mp member with earlier | here
      · exact List.mem_append_left _ (told.stored signal earlier)
      · obtain rfl : signal = id := by simpa using here
        exact List.mem_append_right _ (List.mem_singleton_self _)
    · rw [signals]
      exact told.stored signal ((List.mem_append.mp member).resolve_right (none signal))
  · intro signal route member
    rcases List.mem_append.mp member with earlier | here
    · exact List.mem_append_left _ (told.routed signal route earlier)
    · obtain ⟨early, late, rfl, -⟩ := (step.of_routed here).1
      simp
  · intro early signal late same route earlier
    rcases append_eq_append_event same with ⟨more, rfl⟩ | ⟨rest, rfl, tail⟩
    · exact told.first early signal more rfl route earlier
    · -- the storing is among the new events, and the signal was fresh
      rcases step.signals with ⟨id, rfl, fresh, -⟩ | ⟨none, -⟩
      · cases rest with
        | nil =>
            obtain ⟨rfl, -⟩ : id = signal ∧ late = [] := by simpa using tail
            rw [List.append_nil] at earlier
            exact fresh (told.stored id (told.routed id route earlier))
        | cons other more => simp at tail
      · exact none signal (tail ▸ List.mem_append_right _ List.mem_cons_self)

/-- A signal that was stored and not routed to a sink since stands behind no
action there. -/
theorem SignalsTold.not_supporter {signal : Int} {sink actionJson : Bytes}
    (told : SignalsTold past before) (unrouted : Unrouted past signal sink) :
    signal ∉ supporters sink actionJson past := by
  obtain ⟨early, late, rfl, elsewhere⟩ := unrouted
  intro member
  obtain ⟨route, routed, toSink, -⟩ := mem_supporters.mp member
  rcases List.mem_append.mp routed with sooner | later
  · exact told.first early signal late rfl route sooner
  · rcases List.mem_cons.mp later with same | later
    · cases same
    · exact elsewhere signal route later toSink

end Signals

section Counts

/-- As many distinct signals asked for the action of a proposal as it counts. -/
structure Corroborates (history : List (RouterEvent ν)) (row : LearningProposal) : Prop where
  distinct : (supporters row.sink row.actionJson history).Nodup
  enough : row.corroborationCount ≤ (supporters row.sink row.actionJson history).length
  recorded : ∀ signal ∈ supporters row.sink row.actionJson history, .signalInserted signal ∈ history

theorem supporters_step {sink actionJson : Bytes} (told : SignalsTold past before)
    (step : Evolution law past before events after)
    (distinct : (supporters sink actionJson past).Nodup) :
    (supporters sink actionJson (past ++ events)).Nodup := by
  rw [supporters_append]
  by_cases routed : ∃ signal route, .routed signal route ∈ events ∧ route.sink = sink ∧
      route.actionJson = actionJson
  · obtain ⟨signal, route, here, rfl, rfl⟩ := routed
    obtain ⟨unrouted, shapes⟩ := step.of_routed here
    have one : supporters route.sink route.actionJson events = [signal] := by
      rcases shapes with ⟨_, -, -, -, rfl, -⟩ | ⟨_, _, -, rfl, -⟩ | ⟨-, rfl⟩ <;> simp [supporters]
    rw [one, List.nodup_append]
    refine ⟨distinct, List.nodup_singleton _, fun other member new single same => ?_⟩
    rw [List.mem_singleton.mp single] at same
    exact told.not_supporter unrouted (same ▸ member)
  · have none : supporters sink actionJson events = [] := by
      refine List.eq_nil_iff_forall_not_mem.mpr fun signal member => ?_
      obtain ⟨route, found⟩ := mem_supporters.mp member
      exact routed ⟨signal, route, found⟩
    rw [none, List.append_nil]
    exact distinct

theorem counts_step (lawful : before.Lawful)
    (kept : ¬ law.fails) (agreeing : Agreeing law past before events after)
    (counted : ∀ row ∈ before.rows,
      row.corroborationCount ≤ (supporters row.sink row.actionJson past).length) :
    ∀ row ∈ after.rows,
      row.corroborationCount ≤ (supporters row.sink row.actionJson (past ++ events)).length := by
  intro next member
  obtain ⟨step, agree⟩ := agreeing
  have grown : ∀ row, row ∈ before.rows → RowStep events row next →
      next.corroborationCount ≤ row.corroborationCount + (supporters next.sink next.actionJson events).length →
      next.corroborationCount ≤ (supporters next.sink next.actionJson (past ++ events)).length := by
    intro row present moved more
    have old := counted row present
    rw [supporters_append, List.length_append]
    rw [← moved.target.1, ← moved.action] at old
    omega
  rcases step.backward lawful member with ⟨row, present, moved⟩ | ⟨signal, route, _, -, inserted, rfl⟩
  · by_cases bumped : .bumped row.id ∈ events
    · obtain ⟨signal, route, rfl⟩ := step.of_bump bumped
      obtain ⟨-, shapes⟩ := step.of_routed List.mem_cons_self
      rcases shapes with ⟨joined, here, target, -, same, rows⟩ | ⟨_, _, -, same, -⟩ | ⟨lost, -⟩
      · have named : row.id = joined.id := by simpa using same
        obtain rfl := lawful.same here present named
        obtain ⟨other, there, change⟩ :=
          forall₂_backward (rows.resolve_right fun lost => kept lost.1) member
        have asked : next.actionJson = route.actionJson :=
          moved.action.trans (agree signal route row.id rfl row present rfl)
        have behind : supporters next.sink next.actionJson
            [.routed signal route, RouterEvent.bumped (ν := ν) row.id] = [signal] := by
          simp [supporters, asked, moved.target.1, target.1]
        refine grown row present moved ?_
        rw [behind]
        split at change
        · rename_i mine
          obtain rfl := lawful.same present there mine
          rw [change]
          exact le_refl _
        · rename_i others
          subst change
          exact absurd moved.id others
      · simp at same
      · exact absurd lost kept
    · refine grown row present moved ?_
      rw [moved.count bumped]
      omega
  · rw [inserted.corroboration, supporters_append, List.length_append, inserted.sink, inserted.action]
    have one : supporters route.sink route.actionJson
        [.routed signal route, RouterEvent.inserted (ν := ν) next.id] = [signal] := by
      simp [supporters]
    rw [one]
    simp

theorem path_corroborates (path : Path (Agreeing law) past before events after)
    (lawful : before.Lawful) (kept : ¬ law.fails) (told : SignalsTold past before)
    (distinct : ∀ sink actionJson, (supporters sink actionJson past).Nodup)
    (counted : ∀ row ∈ before.rows,
      row.corroborationCount ≤ (supporters row.sink row.actionJson past).length) :
    ∀ row ∈ after.rows, Corroborates (past ++ events) row := by
  have held := path.invariant
    (fun history view => view.Lawful ∧ SignalsTold history view ∧
      (∀ sink actionJson, (supporters sink actionJson history).Nodup) ∧
      ∀ row ∈ view.rows,
        row.corroborationCount ≤ (supporters row.sink row.actionJson history).length)
    ⟨lawful, told, distinct, counted⟩
    fun history state emitted next ⟨lawful, told, distinct, counted⟩ step =>
      ⟨step.1.lawful lawful, told.step step.1,
        fun sink actionJson => supporters_step told step.1 (distinct sink actionJson),
        counts_step lawful kept step counted⟩
  refine fun row member => ⟨held.2.2.1 _ _, held.2.2.2 row member, fun signal behind => ?_⟩
  obtain ⟨route, routed, -⟩ := mem_supporters.mp behind
  exact held.2.1.routed signal route routed

theorem path_routed (path : Path (Agreeing law) past before events after) (lawful : before.Lawful)
    (kept : ¬ law.fails) {signal : Int} {route : Route} (routed : .routed signal route ∈ events) : ∃ early id late,
      (events = early ++ .routed signal route :: .bumped id :: late ∨
        events = early ++ .routed signal route :: .inserted id :: late) ∧
      ∃ row ∈ after.rows, row.id = id ∧ row.sink = route.sink ∧ row.actionJson = route.actionJson := by
  obtain ⟨early, emitted, late, moment, settled, rfl, here, agreed, ⟨step, agree⟩, further⟩ :=
    path.split routed
  have front := Agreeing.path agreed
  have back := Agreeing.path further
  have settledLawful := step.lawful (path_lawful front lawful)
  rcases (step.of_routed here).2 with ⟨row, present, target, -, rfl, -⟩ |
    ⟨row, _, inserted, rfl, rows⟩ | ⟨lost, -⟩
  · obtain ⟨next, there, moved⟩ := step.forward (path_lawful front lawful) present
    obtain ⟨last, lasting, went⟩ := path_forward back settledLawful there
    have named : last.id = row.id := went.id.trans moved.id
    refine ⟨early, row.id, late, .inl (by simp), last, lasting, named,
      went.target.1.trans (moved.target.1.trans target.1), ?_⟩
    exact went.action.trans (moved.action.trans (agree signal route row.id rfl row present rfl))
  · have there : row ∈ settled.rows := rows ▸ List.mem_append_right _ (List.mem_singleton_self _)
    obtain ⟨last, lasting, went⟩ := path_forward back settledLawful there
    exact ⟨early, row.id, late, .inr (by simp), last, lasting, went.id,
      went.target.1.trans inserted.sink, went.action.trans inserted.action⟩
  · exact absurd lost kept

end Counts

end AimeeLearning.Learning
