import AimeeLearning.Learning.RouterQueue

/-! Every call of the router's API, and so every run of calls, is a path of
store steps. What a call commits it commits for the reasons of its kind. -/

set_option autoImplicit false

namespace AimeeLearning.Learning

open Library Traced Observe

variable {σ ν α : Type} {env : RouterEnv σ ν} {view : σ → StoreView} {law : StoreLaw ν}
  {past events : List (RouterEvent ν)}

section Routes

variable {input : LearningSignalInput} {mask : UInt32}

theorem ifMasked_sinks {sink : UInt32} {name : Bytes} {route : Option Route}
    (named : ∀ taken, route = some taken → taken.sink = name) :
    (((ifMasked mask sink route).toList).map (·.sink)).Sublist [name] := by
  unfold ifMasked
  split
  · cases route with
    | none => exact List.nil_sublist _
    | some taken => simp [named taken rfl]
  · exact List.nil_sublist _

theorem rerankerRoute_sink {taken : Route} (built : rerankerRoute env input = some taken) :
    taken.sink = cstr "reranker" := by
  unfold rerankerRoute at built
  dsimp only at built
  split at built
  · obtain ⟨action, -, rfl⟩ := Option.map_eq_some_iff.mp built
    rfl
  · cases built

theorem supersedeRoute_sink {taken : Route} (built : supersedeRoute env input = some taken) :
    taken.sink = cstr "supersede" := by
  unfold supersedeRoute at built
  split at built
  · obtain ⟨action, -, rfl⟩ := Option.map_eq_some_iff.mp built
    rfl
  · cases built

theorem ruleRoute_sink {taken : Route} (built : ruleRoute env input = some taken) :
    taken.sink = cstr "rule" := by
  unfold ruleRoute at built
  dsimp only at built
  split at built
  · obtain ⟨action, -, rfl⟩ := Option.map_eq_some_iff.mp built
    rfl
  · split at built
    · obtain ⟨action, -, rfl⟩ := Option.map_eq_some_iff.mp built
      rfl
    · cases built

theorem workflowRoute_sink {taken : Route} (built : workflowRoute env input = some taken) :
    taken.sink = cstr "workflow" := by
  unfold workflowRoute at built
  split at built
  · obtain ⟨action, -, rfl⟩ := Option.map_eq_some_iff.mp built
    rfl
  · cases built

theorem routes_sinks (env : RouterEnv σ ν) (input : LearningSignalInput) (mask : UInt32) :
    ((routes env input mask).map (·.sink)).Sublist
      [cstr "reranker", cstr "supersede", cstr "rule", cstr "workflow"] := by
  unfold routes
  simp only [List.map_append]
  exact (((ifMasked_sinks fun _ => rerankerRoute_sink).append
    (ifMasked_sinks fun _ => supersedeRoute_sink)).append
    (ifMasked_sinks fun _ => ruleRoute_sink)).append (ifMasked_sinks fun _ => workflowRoute_sink)

theorem routes_distinct : ((routes env input mask).map (·.sink)).Nodup :=
  (routes_sinks env input mask).nodup (by decide)

theorem routes_length : (routes env input mask).length ≤ 4 := by
  simpa using (routes_sinks env input mask).length_le

end Routes

section Calls

variable (acts : ActsAsNamed env view law.instant law.fails) (observed : CapObserved env view law)

include acts observed

theorem queueRoutes_spec {signalId : Int} {evidenceRefs : Option Bytes} {targets : List Route}
    {given noted : Option LearningDispatchResult} {state final : σ}
    (lawful : (view state).Lawful)
    (unrouted : ∀ route ∈ targets, Unrouted past signalId route.sink)
    (distinct : (targets.map (·.sink)).Nodup) (grants : Grants law past)
    (ran : (queueRoutes env signalId evidenceRefs targets given).run state =
      (noted, final, events)) :
    Path (Evolution law) past (view state) events (view final) ∧
      Noted targets.length events given noted := by
  induction targets generalizing past given state events with
  | nil =>
      obtain ⟨rfl, rfl, rfl⟩ := run_pure_iff.mp ran
      exact ⟨.nil, .none (by simp) fun former given => ⟨former, given, rfl⟩⟩
  | cons route rest ih =>
      obtain ⟨fresh, distinct⟩ := List.nodup_cons.mp distinct
      obtain ⟨⟨code, between⟩, queued, early, late, queueing, remaining, rfl⟩ :=
        run_bind_iff.mp ran
      obtain ⟨front, own, notes⟩ := learningQueueSink_spec acts observed lawful
        (unrouted route List.mem_cons_self) grants queueing
      have still : ∀ other ∈ rest, Unrouted (past ++ early) signalId other.sink :=
        fun other member => (unrouted other (List.mem_cons_of_mem _ member)).append
          fun signal taken sent => by
            rw [own signal taken sent]
            exact fun same => fresh (List.mem_map.mpr ⟨other, member, same.symm⟩)
      obtain ⟨back, further⟩ := ih (path_lawful front lawful) still distinct grants.later remaining
      refine ⟨front.append back, ?_⟩
      rw [List.length_cons, Nat.add_comm]
      exact notes.trans further

omit observed in
/-- A classified signal is refused after the sweep, or stored and queued. -/
theorem dispatchSignal_cases (past : List (RouterEvent ν)) {raw : LearningSignalInput}
    {mask : UInt32} {code : Int} {given noted : Option LearningDispatchResult} {state final : σ}
    (ran : (dispatchSignal env raw mask given).run state = ((code, noted), final, events)) :
    (code = -1 ∧ noted = given ∧ events = [.archivedExpired] ∧
        SweptTo law (view state) (view final)) ∨
      ∃ logged body, events = [.archivedExpired, .signalInserted code] ++ body ∧ 0 < code ∧
        code ∉ (view state).signals ∧ (view logged).signals = (view state).signals ++ [code] ∧
        Path (Evolution law) past (view state) [.archivedExpired, .signalInserted code]
          (view logged) ∧
        (queueRoutes env code (filledSignal env raw state).evidenceRefsJson
          (routes env (filledSignal env raw state) mask)
          (given.map fun result => { result with signalId := code })).run logged =
            (noted, final, body) := by
  unfold dispatchSignal at ran
  obtain ⟨input, filled, _, _, filling, sweeping, rfl⟩ := run_bind_iff.mp ran
  obtain ⟨quiet, rfl⟩ := learningFillTargetKey_calm acts raw _ _ _ _ filling
  have same : filledSignal env raw state = input := congrArg Prod.fst filling
  rw [same]
  obtain ⟨_, _, _, _, archiving, reading, rfl⟩ := run_bind_iff.mp sweeping
  obtain ⟨rfl, sweep⟩ := archiveExpired_spec acts archiving
  obtain ⟨session, swept, _, _, asked, storing, rfl⟩ := run_bind_iff.mp reading
  obtain ⟨-, rfl, rfl⟩ := run_read_iff.mp asked
  obtain ⟨signalId, stored, _, late, inserting, decided, rfl⟩ := run_bind_iff.mp storing
  obtain ⟨inserted, rfl⟩ := run_call_iff.mp inserting
  obtain ⟨later, rows, signals⟩ := acts.signalInsert swept input session
  rw [inserted] at later rows signals
  have sweep := sweep.from_quiet quiet
  split at decided
  · rename_i refused
    have lost : (view stored).signals = (view swept).signals := by
      rcases signals with ⟨positive, -⟩ | ⟨-, -, same⟩
      · exact absurd refused (not_le.mpr positive)
      · exact same
    obtain ⟨rfl, rfl, rfl, rfl⟩ := run_pure_pair_iff.mp decided
    exact .inl ⟨rfl, rfl, by simp, sweep.quiet ⟨later, lost, rows⟩⟩
  · rename_i accepted
    obtain ⟨positive, fresh, grown⟩ := signals.resolve_right fun ⟨_, refused, _⟩ => accepted refused
    obtain ⟨_, announced, _, rest, reported, logging, rfl⟩ := run_bind_iff.mp decided
    obtain ⟨rfl, rfl⟩ := run_emit_iff.mp reported
    obtain ⟨_, logged, _, tail, logs, queueing, rfl⟩ := run_bind_iff.mp logging
    obtain ⟨silent, rfl⟩ := learningLogDogfood_calm acts input _ _ _ _ logs
    obtain ⟨result, queued, body, _, queues, finished, rfl⟩ := run_bind_iff.mp queueing
    obtain ⟨rfl, rfl, rfl, rfl⟩ := run_pure_pair_iff.mp finished
    have unmoved : (view swept).signals = (view state).signals := sweep.signals
    refine .inr ⟨logged, body, by simp, positive, unmoved ▸ fresh, ?_, ?_, queues⟩
    · rw [silent.signals, grown, unmoved]
    · have front : Path (Evolution law) past (view state) [.archivedExpired] (view swept) :=
        .single sweep.step
      exact (front.append (.single (.signal code later fresh grown rows))).append
        (.single (.quiet silent))

theorem dispatchSignal_spec (past : List (RouterEvent ν)) {raw : LearningSignalInput} {mask : UInt32} {code : Int}
    {given noted : Option LearningDispatchResult} {state final : σ} (lawful : (view state).Lawful)
    (grants : Grants law past)
    (ran : (dispatchSignal env raw mask given).run state = ((code, noted), final, events)) :
    Path (Evolution law) past (view state) events (view final) ∧ Noted 4 events given noted := by
  rcases dispatchSignal_cases acts past ran with
    ⟨rfl, rfl, rfl, sweep⟩ | ⟨logged, body, rfl, -, -, -, front, queues⟩
  · exact ⟨.single sweep.step, (Noted.none (by simp) fun former given => ⟨former, given, rfl⟩).more
      (Nat.zero_le 4)⟩
  · have unrouted : ∀ route ∈ routes env (filledSignal env raw state) mask,
        Unrouted (past ++ [.archivedExpired, .signalInserted code]) code route.sink :=
      fun route _ => ⟨past ++ [.archivedExpired], [], by simp, nofun⟩
    obtain ⟨back, notes⟩ := queueRoutes_spec acts observed (path_lawful front lawful) unrouted
      routes_distinct grants.later queues
    have named : Noted (ν := ν) 0 [.archivedExpired, .signalInserted code] given
        (given.map fun result => { result with signalId := code }) :=
      .none (by simp) fun former given => ⟨{ former with signalId := code }, by rw [given]; rfl, rfl⟩
    have few : 0 + (routes env (filledSignal env raw state) mask).length ≤ 4 := by
      rw [Nat.zero_add]
      exact routes_length
    exact ⟨front.append back, (named.trans notes).more few⟩

omit observed in
/-- A signal is refused before anything is called for good, or dispatched. -/
theorem learningRouterRecordSignal_cases {rawInput : Option LearningSignalInput} {code : Int}
    {out noted : Option LearningDispatchResult} {state final : σ}
    (ran : (learningRouterRecordSignal env rawInput out).run state =
      ((code, noted), final, events)) :
    (code = -1 ∧ events = [] ∧ (view state).Quiet (view final) ∧
        ((∃ raw, rawInput = some raw ∧ raw.signalType ≠ []) →
          noted = out.map fun _ => LearningDispatchResult.zero)) ∨
      ∃ raw mask classified, rawInput = some raw ∧ raw.signalType ≠ [] ∧
        integrityRefuses env raw state = false ∧
        (learningClassifySignal env raw.signalType : RouterM σ ν _).run state =
          (some mask, classified, []) ∧ (view state).Quiet (view classified) ∧
        (dispatchSignal env raw mask (out.map fun _ => LearningDispatchResult.zero)).run classified =
          ((code, noted), final, events) := by
  unfold learningRouterRecordSignal at ran
  have here : (view state).Quiet (view state) := ⟨le_refl _, rfl, rfl⟩
  split at ran
  · obtain ⟨rfl, -, rfl, rfl⟩ := run_pure_pair_iff.mp ran
    exact .inl ⟨rfl, rfl, here, by rintro ⟨_, missing, -⟩; cases missing⟩
  · rename_i raw
    split at ran
    · rename_i empty
      obtain ⟨rfl, -, rfl, rfl⟩ := run_pure_pair_iff.mp ran
      refine .inl ⟨rfl, rfl, here, ?_⟩
      rintro ⟨_, same, named⟩
      exact absurd (Option.some.inj same ▸ empty) named
    · rename_i named
      obtain ⟨refused, _, _, _, gate, gated, rfl⟩ := run_bind_iff.mp ran
      obtain ⟨rfl, rfl, rfl⟩ := run_read_iff.mp gate
      split at gated
      · obtain ⟨rfl, rfl, rfl, rfl⟩ := run_pure_pair_iff.mp gated
        exact .inl ⟨rfl, rfl, here, fun _ => rfl⟩
      · rename_i open_
        obtain ⟨mask, classified, _, _, classify, dispatch, rfl⟩ := run_bind_iff.mp gated
        obtain ⟨quiet, rfl⟩ := learningClassifySignal_calm acts _ _ _ _ _ classify
        cases mask with
        | none =>
            obtain ⟨rfl, rfl, rfl, rfl⟩ := run_pure_pair_iff.mp dispatch
            exact .inl ⟨rfl, rfl, quiet, fun _ => rfl⟩
        | some mask =>
            exact .inr ⟨raw, mask, classified, rfl, named, Bool.eq_false_iff.mpr open_, classify, quiet,
              by simpa using dispatch⟩

theorem learningRouterRecordSignal_spec (past : List (RouterEvent ν))
    {rawInput : Option LearningSignalInput} {code : Int}
    {out noted : Option LearningDispatchResult} {state final : σ} (lawful : (view state).Lawful)
    (grants : Grants law past)
    (ran : (learningRouterRecordSignal env rawInput out).run state =
      ((code, noted), final, events)) :
    Path (Evolution law) past (view state) events (view final) ∧
      ∀ id, .committed id 0 ∈ events → ∀ given, out = some given →
        ∃ result, noted = some result ∧ id ∈ result.committedIds := by
  rcases learningRouterRecordSignal_cases acts ran with
    ⟨-, rfl, quiet, -⟩ | ⟨raw, mask, classified, -, -, -, -, quiet, dispatch⟩
  · exact ⟨.single (.quiet quiet), by simp⟩
  · obtain ⟨path, notes⟩ := dispatchSignal_spec acts observed past (lawful.quiet quiet) grants
      dispatch
    have front : Path (Evolution law) past (view state) [] (view classified) :=
      .single (.quiet quiet)
    have back : Path (Evolution law) (past ++ []) (view classified) events (view final) := by
      simpa using path
    refine ⟨front.append back, fun id committed given same => ?_⟩
    obtain ⟨result, answered, -, -, noted⟩ := notes .zero (by rw [same]; rfl)
    exact ⟨result, answered, noted (by decide) id committed⟩

theorem learningAcceptProposal_spec (past : List (RouterEvent ν)) {id : Int} {result : Option LearningProposal}
    {state final : σ} (lawful : (view state).Lawful)
    (justified : ∀ rows, law.reason (past ++ [.archivedExpired, .archivedExpired]) rows id)
    (ran : (learningAcceptProposal env id).run state = (result, final, events)) :
    Path (Evolution law) past (view state) events (view final) ∧
      ∀ other, .committed other 0 ∈ events →
        other = id ∧ ∃ proposal, result = some proposal ∧ proposal.id = id ∧
          proposal.state = stateCommitted := by
  unfold learningAcceptProposal at ran
  split at ran
  · obtain ⟨-, rfl, rfl⟩ := run_pure_iff.mp ran
    exact ⟨.nil, by simp⟩
  · obtain ⟨_, swept, _, late, archiving, committing, rfl⟩ := run_bind_iff.mp ran
    obtain ⟨rfl, sweep⟩ := archiveExpired_spec acts archiving
    have front : Path (Evolution law) past (view state) [.archivedExpired] (view swept) :=
      .single sweep.step
    obtain ⟨back, report⟩ := learningCommitProposal_spec acts (past ++ [.archivedExpired])
      observed (path_lawful front lawful)
      (fun rows _ _ _ _ _ => by simpa using justified rows) committing
    refine ⟨front.append back, fun other member => ?_⟩
    have member : .committed other 0 ∈ late := by simpa using member
    obtain rfl := report.own other 0 member
    exact ⟨rfl, report.reported member⟩

omit observed in
theorem learningRejectProposal_path {id : Int} {result : Option LearningProposal}
    {state final : σ} (lawful : (view state).Lawful)
    (ran : (learningRejectProposal env id).run state = (result, final, events)) :
    Path (Evolution law) past (view state) events (view final) := by
  unfold learningRejectProposal at ran
  split at ran
  · obtain ⟨-, rfl, rfl⟩ := run_pure_iff.mp ran
    exact .nil
  · obtain ⟨found, fetched, _, _, got, decided, rfl⟩ := run_bind_iff.mp ran
    obtain ⟨rfl, swept, answer⟩ := learningGetProposal_spec acts got
    have front : Path (Evolution law) past (view state) [.archivedExpired] (view fetched) :=
      .single swept.step
    have settled := path_lawful front lawful
    split at decided
    · obtain ⟨-, rfl, rfl⟩ := run_pure_iff.mp decided
      exact front
    · rename_i proposal
      obtain ⟨member, rfl⟩ := (find?_eq_some_iff_mem settled.unique).mp answer.symm
      split at decided
      · rename_i unsettled
        have pending : proposal.state = statePending :=
          (settled.states proposal member).resolve_right fun closed =>
            closed.elim unsettled.1 unsettled.2
        obtain ⟨back, -⟩ := refuse_spec acts (past ++ [.archivedExpired])
          (settled.pendingId member pending) decided
        exact front.append back
      · obtain ⟨rfl, again, -⟩ := learningGetProposal_spec acts decided
        exact front.append (.single again.step)

omit observed in
theorem learningListProposals_path {stateFilter sink : Option Bytes} {limit max : Int}
    {result : Int × List LearningProposal} {state final : σ}
    (ran : (learningListProposals env stateFilter sink limit max).run state =
      (result, final, events)) :
    Path (Evolution law) past (view state) events (view final) := by
  unfold learningListProposals at ran
  obtain ⟨_, swept, _, _, archiving, listing, rfl⟩ := run_bind_iff.mp ran
  obtain ⟨rfl, sweep⟩ := archiveExpired_spec acts archiving
  obtain ⟨listed, rfl⟩ := run_call_iff.mp listing
  have quiet := acts.list swept stateFilter sink limit max
  rw [listed] at quiet
  exact .single (sweep.quiet quiet).step

/-- Why a call commits a proposal, by its own events. -/
def Grounds (op : RouterOp) (events : List (RouterEvent ν)) (rows : List LearningProposal)
    (id : Int) : Prop :=
  match op with
  | .recordSignal _ _ => SignalReason events rows id
  | .acceptProposal other => .archivedExpired ∈ events ∧ other = id
  | _ => False

theorem runRouterOp_path {op : RouterOp} {state final : σ} (lawful : (view state).Lawful)
    (granted : ∀ events rows id, Grounds op events rows id → law.reason (past ++ events) rows id)
    (ran : (runRouterOp env op).run state = ((), final, events)) :
    Path (Evolution law) past (view state) events (view final) := by
  cases op with
  | recordSignal rawInput out =>
      obtain ⟨⟨code, noted⟩, _, _, _, recorded, ended, rfl⟩ := run_bind_iff.mp ran
      obtain ⟨-, rfl, rfl⟩ := run_pure_iff.mp ended
      rw [List.append_nil]
      exact (learningRouterRecordSignal_spec acts observed past lawful granted recorded).1
  | acceptProposal id =>
      obtain ⟨result, _, _, _, accepted, ended, rfl⟩ := run_bind_iff.mp ran
      obtain ⟨-, rfl, rfl⟩ := run_pure_iff.mp ended
      rw [List.append_nil]
      exact (learningAcceptProposal_spec acts observed past lawful
        (fun rows => granted _ rows id ⟨by simp, rfl⟩) accepted).1
  | rejectProposal id =>
      obtain ⟨result, _, _, _, rejected, ended, rfl⟩ := run_bind_iff.mp ran
      obtain ⟨-, rfl, rfl⟩ := run_pure_iff.mp ended
      rw [List.append_nil]
      exact learningRejectProposal_path acts lawful rejected
  | getProposal id =>
      obtain ⟨result, _, _, _, got, ended, rfl⟩ := run_bind_iff.mp ran
      obtain ⟨-, rfl, rfl⟩ := run_pure_iff.mp ended
      obtain ⟨rfl, swept, -⟩ := learningGetProposal_spec acts got
      exact .single swept.step
  | listProposals stateFilter sink limit max =>
      obtain ⟨result, _, _, _, listed, ended, rfl⟩ := run_bind_iff.mp ran
      obtain ⟨-, rfl, rfl⟩ := run_pure_iff.mp ended
      rw [List.append_nil]
      exact learningListProposals_path acts listed

omit acts observed in
theorem runRouterOp_run (env : RouterEnv σ ν) (op : RouterOp) (state : σ) :
    (runRouterOp env op).run state =
      ((), ((runRouterOp env op).run state).2.1, ((runRouterOp env op).run state).2.2) := rfl

omit acts observed in
theorem routerMachine_step {op : RouterOp} {state next : σ} {emitted : List (RouterEvent ν)} :
    (routerMachine env).step state op = some (next, emitted) ↔
      (runRouterOp env op).run state = ((), next, emitted) := by
  simp only [routerMachine, Option.some.injEq, Prod.ext_iff, true_and]

theorem run_path (any : ∀ history rows id, law.reason history rows id) {start state : σ}
    {actions : List RouterOp} (lawful : (view start).Lawful)
    (run : (routerMachine env).Run start actions state events) :
    Path (Evolution law) [] (view start) events (view state) :=
  Path.of_run (fun _ _ _ _ _ before taken =>
    runRouterOp_path acts observed (path_lawful before lawful)
      (fun _ rows id _ => any _ rows id) (routerMachine_step.mp taken)) run

end Calls

section Free

/-- The law that asks nothing of a commit. -/
def freeLaw (instant : Bytes → Int) (fails : Prop) : StoreLaw ν :=
  ⟨instant, fails, fun _ _ _ => True, fun _ _ _ => True⟩

theorem capObserved_trivial (acts : ActsAsNamed env view law.instant law.fails)
    (any : ∀ sink counted rows, law.under sink counted rows) : CapObserved env view law :=
  fun state sink _ => ⟨(view state).now, le_refl _, (acts.commits state sink).later, any _ _ _⟩

variable {instant : Bytes → Int} {fails : Prop} {start state : σ} {actions : List RouterOp}

theorem run_freePath (acts : ActsAsNamed env view instant fails) (lawful : (view start).Lawful)
    (run : (routerMachine env).Run start actions state events) :
    Path (Evolution (freeLaw instant fails)) [] (view start) events (view state) :=
  run_path acts (capObserved_trivial acts fun _ _ _ => trivial) (fun _ _ _ => trivial) lawful run

theorem run_lawful (acts : ActsAsNamed env view instant fails) (lawful : (view start).Lawful)
    (run : (routerMachine env).Run start actions state events) : (view state).Lawful :=
  path_lawful (run_freePath acts lawful run) lawful

end Free

end AimeeLearning.Learning
