import AimeeLearning.Bus.ModuleRuntimeInvariants
import AimeeLearning.Bus.RequestAtomicity
import AimeeLearning.Library.Assoc

/-! The job table of the module runtime. Every job is followed as its work from
the step that starts it to the step that takes its result, so the table, the
goroutines and the buffered results always hold the same works. -/

set_option autoImplicit false

namespace AimeeLearning.Bus

open Library

/-- The works in the job table. -/
def RuntimeState.works (state : RuntimeState) : List ModuleWork := tableValues state.jobs

/-- The works that a goroutine or an undelivered result holds. -/
def RuntimeState.heldWorks (state : RuntimeState) : List ModuleWork :=
  state.tickets.map (·.work)

/-- What a step can do to the jobs. -/
inductive JobChange (state next : RuntimeState) : Prop where
  | kept (jobs : next.jobs = state.jobs) (held : next.heldWorks.Perm state.heldWorks)
      (buffered : state.done.length ≤ next.done.length)
      (flags : state.flags.length = next.flags.length)
  | started (work : ModuleWork) (fresh : state.jobs.lookup work.correlationID = none)
      (room : state.jobs.keys.length < moduleMaxInFlight)
      (jobs : next.jobs = state.jobs.insert work.correlationID work)
      (held : next.heldWorks.Perm (work :: state.heldWorks)) (buffered : next.done = state.done)
      (flag : work.cancelled = state.flags.length)
      (flags : next.flags.length = state.flags.length + 1)
  | taken (result : ModuleResult) (buffered : state.done = result :: next.done)
      (jobs : next.jobs = state.jobs.erase result.work.correlationID)
      (held : state.heldWorks.Perm (result.work :: next.heldWorks))
      (flags : next.flags = state.flags)

section Changes

variable {config : RuntimeConfig} {state next : RuntimeState} {action : RuntimeAction}
  {emitted : List RuntimeOutput}

theorem heldWorks_eq (state : RuntimeState) :
    state.heldWorks = state.running.map (·.work) ++ state.done.map (·.work) := by
  simp [RuntimeState.heldWorks, RuntimeState.tickets, ModuleResult.ticket, Function.comp_def]

theorem RuntimeEffect.jobChange (effect : RuntimeEffect config state action next emitted) :
    JobChange state next := by
  cases effect with
  | quiet pc => exact .kept rfl (.refl _) (le_refl _) rfl
  | interrupted epochChanged now => exact .kept rfl (.refl _) (le_refl _) (by simp)
  | moved located same move =>
      refine .kept rfl ?_ (le_refl _) rfl
      simp only [heldWorks_eq, located, List.map_append, List.map_cons, same]
      exact .refl _
  | delivered located room =>
      refine .kept rfl ?_ (by simp) rfl
      simp only [heldWorks_eq, located, List.map_append, List.map_cons, List.map_nil,
        ModuleResult.ticket, List.append_assoc]
      refine List.Perm.append_left _ ?_
      rw [← List.append_assoc]
      exact List.perm_append_singleton _ _
  | finished pc buffered answered =>
      refine .taken _ buffered rfl ?_ rfl
      simp only [heldWorks_eq, buffered, List.map_cons]
      exact List.perm_middle
  | collected stopping buffered =>
      refine .taken _ buffered rfl ?_ rfl
      simp only [heldWorks_eq, buffered, List.map_cons]
      exact List.perm_middle
  | consumed pc handled answered silent =>
      rename_i now event attempts middle disposition sent
      cases consumeEvent_cases handled with
      | cancelled flags cancel flagged =>
          refine .kept rfl (.refl _) (le_refl _) ?_
          rw [flagged]
          cases state.jobs.lookup _ <;> simp
      | started kept request message assembly admitted opened holds last room =>
          refine .started (startedWork config state event message)
            (admitRequest_some admitted).2.2.2.2.1 room rfl ?_ rfl rfl (by simp)
          simp only [heldWorks_eq, List.map_append, List.map_cons, List.map_nil, List.append_assoc,
            List.cons_append, List.nil_append]
          exact List.perm_middle
      | _ => exact .kept rfl (.refl _) (le_refl _) rfl

end Changes

/-- Every job has one goroutine or one undelivered result, and the other way round. -/
structure JobsPaired (state : RuntimeState) : Prop where
  bounded : state.jobs.keys.length ≤ moduleMaxInFlight
  keyed : ∀ correlation work, state.jobs.lookup correlation = some work →
    work.correlationID = correlation
  paired : state.heldWorks.Perm state.works

section Paired

variable {state next : RuntimeState}

theorem JobsPaired.own (pairs : JobsPaired state) {result : ModuleResult}
    (buffered : result ∈ state.done) :
    state.jobs.lookup result.work.correlationID = some result.work := by
  have held : result.work ∈ state.heldWorks := by
    rw [heldWorks_eq]
    exact List.mem_append_right _ (List.mem_map_of_mem buffered)
  obtain ⟨key, found⟩ := mem_tableValues.mp (pairs.paired.mem_iff.mp held)
  rwa [pairs.keyed key _ found]

theorem JobsPaired.step (pairs : JobsPaired state) (change : JobChange state next) :
    JobsPaired next := by
  cases change with
  | kept jobs held buffered flags =>
      refine ⟨by rw [jobs]; exact pairs.bounded, by rw [jobs]; exact pairs.keyed, ?_⟩
      rw [RuntimeState.works, jobs]
      exact held.trans pairs.paired
  | started work fresh room jobs held buffered flag flags =>
      refine ⟨?_, ?_, ?_⟩
      · rw [jobs, length_keys_insert, fresh]
        exact room
      · intro correlation other found
        rw [jobs] at found
        by_cases same : correlation = work.correlationID
        · subst same
          rw [Option.some.inj ((AList.lookup_insert _).symm.trans found)]
        · exact pairs.keyed _ _ ((AList.lookup_insert_ne same).symm.trans found)
      · rw [RuntimeState.works, jobs, tableValues_insert fresh]
        exact held.trans (pairs.paired.cons work)
  | taken result buffered jobs held flags =>
      have found := pairs.own (show result ∈ _ by rw [buffered]; exact List.mem_cons_self)
      refine ⟨?_, ?_, ?_⟩
      · rw [jobs]
        exact (length_keys_erase _ _).trans pairs.bounded
      · intro correlation other later
        rw [jobs] at later
        exact pairs.keyed _ _ (lookup_erase_some later)
      · rw [RuntimeState.works, jobs]
        refine (List.perm_cons result.work).mp ?_
        exact (held.symm.trans pairs.paired).trans (tableValues_erase found)

theorem JobsPaired.capacity (pairs : JobsPaired state) :
    state.running.length + state.done.length ≤ moduleMaxInFlight := by
  have same := pairs.paired.length_eq
  rw [heldWorks_eq, RuntimeState.works, length_tableValues] at same
  simp only [List.length_append, List.length_map] at same
  exact same.trans_le pairs.bounded

theorem JobsPaired.distinct (pairs : JobsPaired state) : state.works.Nodup := by
  have named : state.works.map (·.correlationID) = state.jobs.keys := by
    rw [RuntimeState.works, tableValues, AList.keys, List.keys, List.map_map]
    refine List.map_congr_left fun entry member => ?_
    exact pairs.keyed entry.1 entry.2 (AList.mem_lookup_iff.mpr member)
  exact List.Nodup.of_map _ (named ▸ state.jobs.keys_nodup)

end Paired

/-- The assemblies are few, small and apart from the jobs. -/
structure AssembliesBounded (state : RuntimeState) : Prop where
  few : state.assemblies.keys.length ≤ moduleMaxInFlight
  bodies : ∀ correlation assembly, state.assemblies.lookup correlation = some assembly →
    assembly.body.length ≤ moduleMessageMaxBody.toNat
  apart : ∀ correlation assembly, state.assemblies.lookup correlation = some assembly →
    state.jobs.lookup correlation = none

section Assemblies

variable {config : RuntimeConfig} {state next : RuntimeState} {action : RuntimeAction}
  {emitted : List RuntimeOutput}

theorem AssembliesBounded.mono (bounds : AssembliesBounded state)
    (fewer : next.assemblies.keys.length ≤ state.assemblies.keys.length)
    (assemblies : ∀ correlation assembly, next.assemblies.lookup correlation = some assembly →
      state.assemblies.lookup correlation = some assembly)
    (jobs : ∀ correlation work, next.jobs.lookup correlation = some work →
      state.jobs.lookup correlation = some work) : AssembliesBounded next where
  few := fewer.trans bounds.few
  bodies correlation assembly found := bounds.bodies _ _ (assemblies _ _ found)
  apart correlation assembly found := by
    have absent := bounds.apart _ _ (assemblies _ _ found)
    by_contra present
    obtain ⟨work, here⟩ := Option.ne_none_iff_exists'.mp present
    rw [jobs _ _ here] at absent
    cases absent

theorem AssembliesBounded.step (bounds : AssembliesBounded state)
    (effect : RuntimeEffect config state action next emitted) : AssembliesBounded next := by
  cases effect with
  | quiet pc => exact bounds.mono (le_refl _) (fun _ _ found => found) fun _ _ found => found
  | interrupted epochChanged now =>
      exact bounds.mono (le_refl _) (fun _ _ found => found) fun _ _ found => found
  | moved located same move =>
      exact bounds.mono (le_refl _) (fun _ _ found => found) fun _ _ found => found
  | delivered located room =>
      exact bounds.mono (le_refl _) (fun _ _ found => found) fun _ _ found => found
  | finished pc buffered answered =>
      exact bounds.mono (le_refl _) (fun _ _ found => found) fun _ _ => lookup_erase_some
  | collected stopping buffered =>
      exact bounds.mono (le_refl _) (fun _ _ found => found) fun _ _ => lookup_erase_some
  | consumed pc handled answered silent =>
      rename_i now event attempts middle disposition sent
      cases consumeEvent_cases handled with
      | ignored kept other =>
          exact bounds.mono (le_refl _) (fun _ _ found => found) fun _ _ found => found
      | full kept request message admitted fresh crowded =>
          exact bounds.mono (le_refl _) (fun _ _ found => found) fun _ _ found => found
      | extended kept request message assembly admitted opened holds more =>
          have idle := (admitRequest_some admitted).2.2.2.2.1
          refine ⟨?_, fun correlation other found => ?_, fun correlation other found => ?_⟩
          · change (state.assemblies.insert _ _).keys.length ≤ _
            rw [length_keys_insert]
            rcases opened with known | ⟨fresh, room, -⟩
            · rw [known]
              exact bounds.few
            · rw [fresh]
              exact room
          · by_cases same : correlation = event.frame.correlationId
            · subst same
              obtain rfl := Option.some.inj ((AList.lookup_insert _).symm.trans found)
              rw [List.length_append]
              exact holds
            · exact bounds.bodies _ _ ((AList.lookup_insert_ne same).symm.trans found)
          · by_cases same : correlation = event.frame.correlationId
            · rw [same]
              exact idle
            · exact bounds.apart _ _ ((AList.lookup_insert_ne same).symm.trans found)
      | started kept request message assembly admitted opened holds last room =>
          refine ⟨(length_keys_erase _ _).trans bounds.few,
            fun correlation other found => bounds.bodies _ _ (lookup_erase_some found),
            fun correlation other found => ?_⟩
          have apart : correlation ≠ event.frame.correlationId := by
            rintro rfl
            exact absurd ((AList.lookup_erase _ _).symm.trans found) (by simp)
          exact (AList.lookup_insert_ne apart).trans (bounds.apart _ _ (lookup_erase_some found))
      | cancelled flags cancel flagged =>
          exact bounds.mono (length_keys_erase _ _) (fun _ _ => lookup_erase_some)
            fun _ _ found => found
      | invalid kept request inadmissible =>
          exact bounds.mono (length_keys_erase _ _) (fun _ _ => lookup_erase_some)
            fun _ _ found => found
      | oversized kept request message assembly admitted opened tooLong =>
          exact bounds.mono (length_keys_erase _ _) (fun _ _ => lookup_erase_some)
            fun _ _ found => found
      | refused kept request message assembly status admitted opened last reason =>
          exact bounds.mono (length_keys_erase _ _) (fun _ _ => lookup_erase_some)
            fun _ _ found => found

end Assemblies

/-- What happens to jobs: they start, they are removed, their results are taken. -/
inductive JobEvent where
  | started (work : ModuleWork)
  | removed (work : ModuleWork)
  | taken (result : ModuleResult)

/-- What a step did to the jobs, read off the tables around it. -/
def jobEvents (before after : RuntimeState) : List JobEvent :=
  (after.works.filter (· ∉ before.works)).map .started ++
    ((before.works.filter (· ∉ after.works)).map .removed ++
      if after.done.length < before.done.length then before.done.head?.toList.map .taken else [])

section Histories

/-- The works started so far. -/
def startedOf (history : List JobEvent) : List ModuleWork :=
  history.filterMap fun
    | .started work => some work
    | _ => none

/-- The works removed from the table so far. -/
def removedOf (history : List JobEvent) : List ModuleWork :=
  history.filterMap fun
    | .removed work => some work
    | _ => none

/-- The results the loop took from the channel so far. -/
def takenOf (history : List JobEvent) : List ModuleResult :=
  history.filterMap fun
    | .taken result => some result
    | _ => none

variable {state next : RuntimeState}

inductive JobStep (state next : RuntimeState) : List JobEvent → Prop where
  | kept (works : next.works = state.works) (flags : state.flags.length = next.flags.length) :
      JobStep state next []
  | started (work : ModuleWork) (works : next.works = work :: state.works)
      (flag : work.cancelled = state.flags.length)
      (flags : next.flags.length = state.flags.length + 1) :
      JobStep state next [.started work]
  | taken (result : ModuleResult) (works : state.works.Perm (result.work :: next.works))
      (flags : next.flags = state.flags) :
      JobStep state next [.removed result.work, .taken result]

theorem JobsPaired.jobStep (pairs : JobsPaired state) (change : JobChange state next) :
    JobStep state next (jobEvents state next) := by
  have outside : ∀ works : List ModuleWork, works.filter (· ∉ works) = [] := by
    intro works
    simp
  cases change with
  | kept jobs held buffered flags =>
      have works : next.works = state.works := by rw [RuntimeState.works, jobs]; rfl
      have nothing : jobEvents state next = [] := by
        rw [jobEvents, works, outside, if_neg (not_lt.mpr buffered)]
        rfl
      rw [nothing]
      exact .kept works flags
  | started work fresh room jobs held buffered flag flags =>
      have works : next.works = work :: state.works := by
        rw [RuntimeState.works, jobs, tableValues_insert fresh]
        rfl
      have new : work ∉ state.works := by
        intro member
        obtain ⟨key, found⟩ := mem_tableValues.mp member
        rw [pairs.keyed key work found, found] at fresh
        cases fresh
      have only : jobEvents state next = [.started work] := by
        have gone : state.works.filter (· ∉ work :: state.works) = [] := by
          simp only [List.filter_eq_nil_iff, decide_eq_true_eq, not_not]
          exact fun other member => List.mem_cons_of_mem _ member
        rw [jobEvents, works, gone, List.filter_cons_of_pos (by simpa using new), outside,
          if_neg (by rw [buffered]; exact lt_irrefl _)]
        rfl
      rw [only]
      exact .started work works flag flags
  | taken result buffered jobs held flags =>
      have found := pairs.own (show result ∈ _ by rw [buffered]; exact List.mem_cons_self)
      have works : state.works.Perm (result.work :: next.works) := by
        rw [RuntimeState.works, RuntimeState.works, jobs]
        exact tableValues_erase found
      have new : next.works.filter (· ∉ state.works) = [] := by
        simp only [List.filter_eq_nil_iff, decide_eq_true_eq, not_not]
        exact fun other member => works.mem_iff.mpr (List.mem_cons_of_mem _ member)
      have distinct := works.nodup_iff.mp pairs.distinct
      have gone : state.works.filter (· ∉ next.works) = [result.work] := by
        have permuted := works.filter (· ∉ next.works)
        rw [List.filter_cons_of_pos (by simpa using (List.nodup_cons.mp distinct).1), outside]
          at permuted
        exact List.perm_singleton.mp permuted
      have only : jobEvents state next = [.removed result.work, .taken result] := by
        rw [jobEvents, new, gone, buffered, if_pos (by simp)]
        rfl
      rw [only]
      exact .taken result works flags

end Histories

/-- A history of jobs from a table: what was there or started was removed, each
by its own result, or is still there. -/
structure JobLedger (start : RuntimeState) (history : List JobEvent) (state : RuntimeState) :
    Prop where
  balance : (startedOf history ++ start.works).Perm (removedOf history ++ state.works)
  own : removedOf history = (takenOf history).map (·.work)
  flags : start.flags.length ≤ state.flags.length
  recent : ∀ work ∈ startedOf history,
    start.flags.length ≤ work.cancelled ∧ work.cancelled < state.flags.length
  once : (startedOf history).Nodup

section Ledger

variable {config : RuntimeConfig} {start state : RuntimeState} {actions : List RuntimeAction}
  {history : List JobEvent}

theorem JobLedger.step {next : RuntimeState} {added : List JobEvent}
    (ledger : JobLedger start history state) (step : JobStep state next added) :
    JobLedger start (history ++ added) next := by
  obtain ⟨balance, own, flags, recent, once⟩ := ledger
  cases step with
  | kept works longer =>
      rw [List.append_nil]
      exact ⟨works ▸ balance, own, longer ▸ flags, longer ▸ recent, once⟩
  | started work works flag longer =>
      have startedNow : startedOf (history ++ [.started work]) = startedOf history ++ [work] := by
        simp [startedOf]
      have removedNow : removedOf (history ++ [.started work]) = removedOf history := by
        simp [removedOf]
      have takenNow : takenOf (history ++ [.started work]) = takenOf history := by
        simp [takenOf]
      refine ⟨?_, ?_, by omega, fun other member => ?_, ?_⟩
      · rw [startedNow, removedNow, works, List.append_assoc]
        exact (List.perm_middle.trans (balance.cons work)).trans List.perm_middle.symm
      · rw [removedNow, takenNow]
        exact own
      · rw [startedNow] at member
        rcases List.mem_append.mp member with earlier | here
        · have := recent other earlier
          omega
        · rw [List.mem_singleton.mp here]
          omega
      · rw [startedNow, List.nodup_append]
        refine ⟨once, by simp, fun other member fresh single => ?_⟩
        rw [List.mem_singleton.mp single]
        rintro rfl
        have := (recent other member).2
        omega
  | taken result works longer =>
      have startedNow : startedOf (history ++ [.removed result.work, .taken result]) =
          startedOf history := by simp [startedOf]
      have removedNow : removedOf (history ++ [.removed result.work, .taken result]) =
          removedOf history ++ [result.work] := by simp [removedOf]
      have takenNow : takenOf (history ++ [.removed result.work, .taken result]) =
          takenOf history ++ [result] := by simp [takenOf]
      rw [longer.symm] at recent flags
      refine ⟨?_, ?_, flags, ?_, ?_⟩
      · rw [startedNow, removedNow, List.append_assoc]
        exact balance.trans (works.append_left _)
      · rw [removedNow, takenNow, own, List.map_append]
        rfl
      · rw [startedNow]
        exact recent
      · rw [startedNow]
        exact once

theorem jobLedger_run (pairs : JobsPaired start)
    (run : ((runtimeMachine config).observe jobEvents).Run start actions state history) :
    JobsPaired state ∧ JobLedger start history state := by
  induction run with
  | nil =>
      exact ⟨pairs, ⟨.refl _, rfl, le_refl _, nofun, List.nodup_nil⟩⟩
  | snoc _ taken ih =>
      obtain ⟨paired, ledger⟩ := ih
      obtain ⟨emitted, moved, rfl⟩ := Machine.observe_step.mp taken
      have change := (runtimeStep_effect moved).jobChange
      exact ⟨paired.step change, ledger.step (paired.jobStep change)⟩

end Ledger

section Drain

/-- The steps a goroutine still takes, and the collection of its result. -/
def HandlerPhase.stepsLeft : HandlerPhase → Nat
  | .ready _ => 5
  | .calling => 4
  | .answered _ _ => 3
  | .checked _ _ => 2

def RuntimeState.drainSteps (state : RuntimeState) : Nat :=
  (state.running.map (·.phase.stepsLeft)).sum + state.done.length +
    match state.pc with
    | .stopping => 1
    | _ => 0

variable {config : RuntimeConfig} {state next : RuntimeState} {action : RuntimeAction}
  {emitted : List RuntimeOutput}

theorem handlerStep_left {flags : List Bool} {run moved : HandlerRun}
    (taken : handlerStep flags run action = some (moved, emitted)) :
    moved.phase.stepsLeft + 1 = run.phase.stepsLeft := by
  obtain ⟨-, move⟩ := handlerStep_move taken
  generalize run.phase = before at move
  generalize moved.phase = after at move
  cases move <;> rfl

/-- One step of a drain: it stays one step closer to its end, or ends it. -/
structure DrainStep (state next : RuntimeState) : Prop where
  closer : next.drainSteps + 1 = state.drainSteps
  flags : next.flags = state.flags
  pc : next.pc = .stopping ∨ next.pc = .returned (.ok ()) ∧ next.jobs.keys = []

theorem advance_drain (stopping : state.pc = .stopping) {position : Nat}
    (taken : state.advance position (handlerStep state.flags · action) = some (next, emitted)) :
    DrainStep state next := by
  unfold RuntimeState.advance at taken
  split at taken
  · cases taken
  · rename_i run rest located
    obtain ⟨⟨moved, sent⟩, stepped, same⟩ := Option.map_eq_some_iff.mp taken
    simp only [Prod.mk.injEq] at same
    obtain ⟨rfl, rfl⟩ := same
    have left := handlerStep_left stepped
    have split := List.take_append_drop position state.running
    rw [located] at split
    refine ⟨?_, rfl, .inl stopping⟩
    conv_rhs => rw [RuntimeState.drainSteps, ← split]
    simp only [RuntimeState.drainSteps, stopping, List.map_append, List.map_cons, List.sum_append,
      List.sum_cons]
    omega

theorem drain_step (stopping : state.pc = .stopping)
    (taken : runtimeStep config state action = some (next, emitted)) : DrainStep state next := by
  unfold runtimeStep at taken
  rw [stopping] at taken
  cases action with
  | receive attempts => cases taken
  | drained ctxDone epochChanged now => cases taken
  | poll outcome attempts => cases taken
  | invoke position => exact advance_drain stopping taken
  | handlerReturns position response status => exact advance_drain stopping taken
  | checkCancelled position now => exact advance_drain stopping taken
  | deliver position =>
      simp only [deliverStep] at taken
      split at taken
      · cases taken
      · rename_i run rest located
        split at taken
        · rename_i body status checked
          split at taken
          · simp only [Option.some.injEq, Prod.mk.injEq] at taken
            obtain ⟨rfl, rfl⟩ := taken
            have split := List.take_append_drop position state.running
            rw [located] at split
            refine ⟨?_, rfl, .inl stopping⟩
            conv_rhs => rw [RuntimeState.drainSteps, ← split]
            simp only [RuntimeState.drainSteps, stopping, List.map_append, List.map_cons,
              List.sum_append, List.sum_cons, checked, HandlerPhase.stepsLeft, List.length_append,
              List.length_singleton]
            omega
          · cases taken
        · cases taken
  | collect =>
      simp only at taken
      split at taken
      · cases taken
      · rename_i result rest buffered
        split at taken
        · simp only [Option.some.injEq, Prod.mk.injEq] at taken
          obtain ⟨rfl, rfl⟩ := taken
          refine ⟨?_, rfl, .inl rfl⟩
          simp only [RuntimeState.drainSteps, stopping, buffered, List.length_cons]
          omega
        · cases taken
  | stopped =>
      simp only at taken
      split at taken
      · cases taken
      · rename_i empty
        simp only [Option.some.injEq, Prod.mk.injEq] at taken
        obtain ⟨rfl, rfl⟩ := taken
        refine ⟨?_, rfl, .inr ⟨rfl, by simpa using empty⟩⟩
        simp only [RuntimeState.drainSteps, stopping]

theorem JobsPaired.sends (pairs : JobsPaired state) {position : Nat} {run : HandlerRun}
    {rest : List HandlerRun} {body : Bytes} {status : ModuleStatus}
    (located : state.running.drop position = run :: rest)
    (checked : run.phase = .checked body status) :
    (runtimeStep config state (.deliver position)).isSome = true := by
  have room : state.done.length < moduleMaxInFlight := by
    have bound := pairs.capacity
    have present : 0 < state.running.length := by
      have shorter := congrArg List.length located
      rw [List.length_drop, List.length_cons] at shorter
      omega
    omega
  simp only [runtimeStep, deliverStep, located, checked, if_pos room, Option.isSome_some]

theorem JobsPaired.drains (pairs : JobsPaired state) (stopping : state.pc = .stopping) :
    ∃ action, (runtimeStep config state action).isSome = true := by
  cases located : state.running with
  | cons run rest =>
      have here : state.running.drop 0 = run :: rest := by rw [List.drop_zero, located]
      cases phase : run.phase with
      | ready body =>
          exact ⟨.invoke 0, by simp [runtimeStep, RuntimeState.advance, here, handlerStep, phase]⟩
      | calling =>
          exact ⟨.handlerReturns 0 [] 0, by
            simp [runtimeStep, RuntimeState.advance, here, handlerStep, phase]⟩
      | answered body status =>
          exact ⟨.checkCancelled 0 0, by
            simp [runtimeStep, RuntimeState.advance, here, handlerStep, phase]⟩
      | checked body status => exact ⟨.deliver 0, pairs.sends here phase⟩
  | nil =>
      have held : state.works.length = state.done.length := by
        rw [← pairs.paired.length_eq, heldWorks_eq, located]
        simp
      rw [RuntimeState.works, length_tableValues] at held
      cases buffered : state.done with
      | nil =>
          have empty : ¬ 0 < state.jobs.keys.length := by simp [held, buffered]
          exact ⟨.stopped, by simp only [runtimeStep, stopping, gt_iff_lt, if_neg empty,
            Option.isSome_some]⟩
      | cons result later =>
          have present : 0 < state.jobs.keys.length := by simp [held, buffered]
          exact ⟨.collect, by simp only [runtimeStep, stopping, buffered, gt_iff_lt,
            if_pos present, Option.isSome_some]⟩

/-- What holds at the end of a run that begins when the context has ended. -/
structure Drains (config : RuntimeConfig) (start : RuntimeState) (actions : List RuntimeAction)
    (history : List JobEvent) (final : RuntimeState) : Prop where
  flagged : ∀ work ∈ start.works, flagOf final.flags work = true
  finite : actions.length ≤ start.drainSteps
  unstarted : startedOf history = []
  proceeds : final.pc = .returned (.ok ()) ∨
    final.pc = .stopping ∧ ∃ action, (runtimeStep config final action).isSome = true
  clean : final.pc = .returned (.ok ()) → final.running = [] ∧ final.done = [] ∧
    final.works = [] ∧ ((takenOf history).map (·.work)).Perm start.works

variable {start final : RuntimeState} {actions : List RuntimeAction} {history : List JobEvent}

theorem JobsPaired.rests (pairs : JobsPaired state) (returned : state.pc = .returned (.ok ()))
    (empty : state.jobs.keys = []) : runtimeStep config state action = none := by
  have none_ : state.running = [] := by
    have held := pairs.paired.length_eq
    rw [RuntimeState.works, length_tableValues, empty, heldWorks_eq] at held
    have both : state.running = [] ∧ state.done = [] := by simpa using held
    exact both.1
  unfold runtimeStep
  rw [returned]
  cases action <;> simp [RuntimeState.advance, deliverStep, none_]

theorem drain_run (pairs : JobsPaired start) (stopping : start.pc = .stopping)
    (run : ((runtimeMachine config).observe jobEvents).Run start actions final history) :
    actions.length + final.drainSteps = start.drainSteps ∧ final.flags = start.flags ∧
      (final.pc = .stopping ∨ final.pc = .returned (.ok ()) ∧ final.jobs.keys = []) := by
  induction run with
  | nil => exact ⟨by simp, rfl, .inl stopping⟩
  | snoc before taken ih =>
      obtain ⟨count, flags, pc⟩ := ih
      have paired := (jobLedger_run pairs before).1
      obtain ⟨emitted, moved, -⟩ := Machine.observe_step.mp taken
      rcases pc with going | ⟨returned, empty⟩
      · have step := drain_step going moved
        have closer := step.closer
        refine ⟨?_, step.flags.trans flags, step.pc⟩
        rw [List.length_append, List.length_singleton]
        omega
      · exact absurd (moved.symm.trans (paired.rests returned empty)) (by simp)

theorem drains_of_run (pairs : JobsPaired start) (stopping : start.pc = .stopping)
    (flagged : ∀ work ∈ start.works, flagOf start.flags work = true)
    (run : ((runtimeMachine config).observe jobEvents).Run start actions final history) :
    Drains config start actions history final := by
  obtain ⟨paired, ledger⟩ := jobLedger_run pairs run
  obtain ⟨count, flags, pc⟩ := drain_run pairs stopping run
  have unstarted : startedOf history = [] := by
    refine List.eq_nil_iff_forall_not_mem.mpr fun work member => ?_
    have := ledger.recent work member
    rw [flags] at this
    omega
  refine ⟨fun work member => flags ▸ flagged work member, by omega, unstarted, ?_,
    fun returned => ?_⟩
  · rcases pc with going | ⟨returned, -⟩
    · exact .inr ⟨going, paired.drains going⟩
    · exact .inl returned
  · have empty : final.jobs.keys = [] := by
      rcases pc with going | ⟨-, empty⟩
      · rw [going] at returned
        cases returned
      · exact empty
    have works : final.works = [] := by
      rw [← List.length_eq_zero_iff, RuntimeState.works, length_tableValues, empty]
      rfl
    have held := paired.paired
    rw [works, heldWorks_eq] at held
    have nothing := List.append_eq_nil_iff.mp held.eq_nil
    have balance := ledger.balance
    rw [unstarted, works, ledger.own, List.nil_append, List.append_nil] at balance
    exact ⟨List.map_eq_nil_iff.mp nothing.1, List.map_eq_nil_iff.mp nothing.2, works,
      balance.symm⟩

theorem drained_stopping {epochChanged : Bool} {now : UInt64}
    (taken : runtimeStep config state (.drained true epochChanged now) = some (next, emitted)) :
    next = { state with pc := .stopping, flags := cancelAll state } := by
  cases place : state.pc <;> simp only [runtimeStep, place] at taken
  case draining =>
    split at taken
    · cases taken
    · exact (Prod.mk.inj (Option.some.inj taken)).1.symm
  all_goals cases taken

theorem flagOf_setFlags (entries : List (Sigma fun _ : UInt64 => ModuleWork)) (flags : List Bool)
    {work : ModuleWork} (inside : work.cancelled < flags.length)
    (due : flagOf flags work = true ∨ work ∈ entries.map Sigma.snd) :
    flagOf (entries.foldl (fun flags entry => setFlag flags entry.2) flags) work = true := by
  induction entries generalizing flags with
  | nil => simpa using due
  | cons entry rest ih =>
      refine ih _ (by simpa using inside) ?_
      rcases due with already | member
      · left
        by_cases same : entry.2.cancelled = work.cancelled
        · simp [flagOf, setFlag, same, inside]
        · simpa [flagOf, setFlag, List.getElem?_set_ne same] using already
      · rcases List.mem_cons.mp member with rfl | later
        · left
          simp [flagOf, setFlag, inside]
        · exact .inr later

end Drain

structure JobTable (config : RuntimeConfig) (state : RuntimeState) : Prop
    extends JobsPaired state, AssembliesBounded state where
  distinct : state.works.Nodup
  capacity : state.running.length + state.done.length ≤ moduleMaxInFlight
  sends : ∀ (position : Nat) (run : HandlerRun) (rest : List HandlerRun) (body : Bytes)
    (status : ModuleStatus), state.running.drop position = run :: rest →
    run.phase = .checked body status →
      (runtimeStep config state (.deliver position)).isSome = true

section Runs

variable {config : RuntimeConfig} {state : RuntimeState} {actions : List RuntimeAction}
  {outputs : List RuntimeOutput}

theorem runtime_tables_initial :
    JobsPaired .initial ∧ AssembliesBounded .initial ∧ FlagsOwned .initial := by
  refine ⟨⟨Nat.zero_le _, ?_, .refl _⟩, ⟨Nat.zero_le _, ?_, ?_⟩, ⟨?_, ?_⟩⟩ <;>
    simp [RuntimeState.initial]

theorem runtime_tables (run : (runtimeMachine config).Run .initial actions state outputs) :
    JobsPaired state ∧ AssembliesBounded state ∧ FlagsOwned state := by
  induction run with
  | nil => exact runtime_tables_initial
  | snoc _ taken ih =>
      obtain ⟨pairs, bounds, owned⟩ := ih
      have effect := runtimeStep_effect taken
      exact ⟨pairs.step effect.jobChange, bounds.step effect, owned.step effect⟩

/-- In every reachable state the tables are bounded and the jobs are exactly
the works under way; each started job was removed once, by its own result, or
is in the table; and a drain takes every result and leaves nothing behind. -/
theorem job_table (run : (runtimeMachine config).Run .initial actions state outputs) :
    JobTable config state ∧
    (∃ history, ((runtimeMachine config).observe jobEvents).Run .initial actions state history ∧
      JobLedger .initial history state) ∧
    ∀ (epochChanged : Bool) (now : UInt64) (start : RuntimeState) (emitted : List RuntimeOutput),
      runtimeStep config state (.drained true epochChanged now) = some (start, emitted) →
        start.works = state.works ∧
        ∀ (later : List RuntimeAction) (history : List JobEvent) (final : RuntimeState),
          ((runtimeMachine config).observe jobEvents).Run start later final history →
            Drains config start later history final := by
  obtain ⟨pairs, bounds, owned⟩ := runtime_tables run
  refine ⟨⟨pairs, bounds, pairs.distinct, pairs.capacity,
    fun position run rest body status => pairs.sends⟩, ?_, ?_⟩
  · obtain ⟨history, seen⟩ := run.observed jobEvents
    exact ⟨history, seen, (jobLedger_run runtime_tables_initial.1 seen).2⟩
  · intro epochChanged now start emitted taken
    obtain rfl := drained_stopping taken
    refine ⟨rfl, fun later history final going => ?_⟩
    refine drains_of_run (pairs.step (.kept rfl (.refl _) (le_refl _) (by simp))) rfl ?_ going
    intro work member
    obtain ⟨correlation, found⟩ := mem_tableValues.mp member
    exact flagOf_setFlags _ _ (owned.owner correlation work found).2 (.inr member)

/-- A request in one fragment is one job, and a drain that begins then takes
its result. -/
theorem job_table_started :
    ∃ state outputs, (runtimeMachine servingConfig).Run .initial
        (iteration (invokeEvent 1 [7] false) []) state outputs ∧
      state.works.length = 1 ∧ JobTable servingConfig state ∧
      ∃ start emitted, runtimeStep servingConfig state (.drained true false 0) =
          some (start, emitted) ∧ start.works = state.works := by
  have executed : ((runtimeMachine servingConfig).execute .initial
      (iteration (invokeEvent 1 [7] false) [])).any (fun result => result.1.works.length == 1 &&
        (runtimeStep servingConfig result.1 (.drained true false 0)).isSome) = true := by
    decide +kernel
  obtain ⟨⟨state, outputs⟩, ran, seen⟩ := (Option.any_eq_true _ _).mp executed
  simp only [Bool.and_eq_true, beq_iff_eq] at seen
  obtain ⟨one, stops⟩ := seen
  obtain ⟨⟨start, emitted⟩, stopped⟩ := Option.isSome_iff_exists.mp stops
  have run := Machine.run_of_execute ran
  obtain ⟨table, -, drains⟩ := job_table run
  exact ⟨state, outputs, run, one, table, start, emitted, stopped,
    (drains false 0 start emitted stopped).1⟩

end Runs

end AimeeLearning.Bus
