import AimeeLearning.Bus.JobTable
import AimeeLearning.Bus.StageService

/-! Cancellation of a job. The loop sets the flag of a job that is in the table,
and the goroutine of the job looks at its flag once, before its result waits in
the channel. A cancel that arrives in that wait is lost. -/

set_option autoImplicit false

namespace AimeeLearning.Bus

open Library

def ModuleWork.cancelledReply (work : ModuleWork) : ModuleReply where
  kind := work.eventKind
  correlation := work.correlationID
  stageID := work.invocation.stageID
  traceID := work.invocation.traceID
  status := moduleStatusCancelled
  body := []

/-- A run that consumed a cancel for a work at a point where the work was a job. -/
inductive CancelledAt (config : RuntimeConfig) (work : ModuleWork) (point : RuntimeState) :
    List RuntimeAction → RuntimeState → Prop
  | here {actions : List RuntimeAction} {outputs : List RuntimeOutput} {event : Event}
      {attempts : List Attempt} {next : RuntimeState} {emitted : List RuntimeOutput}
      (before : (runtimeMachine config).Run .initial actions point outputs)
      (cancel : event.frame.has fCancel = true)
      (job : point.jobs.lookup event.frame.correlationId = some work)
      (consumed : runtimeStep config point (.poll (.received event) attempts) =
        some (next, emitted)) :
      CancelledAt config work point (actions ++ [.poll (.received event) attempts]) next
  | later {actions : List RuntimeAction} {state next : RuntimeState} {action : RuntimeAction}
      {emitted : List RuntimeOutput} (since : CancelledAt config work point actions state)
      (taken : runtimeStep config state action = some (next, emitted)) :
      CancelledAt config work point (actions ++ [action]) next

/-- The goroutine of the work has not looked at its flag, or was to answer
Cancelled anyway. -/
def TimelyCancel (state : RuntimeState) (work : ModuleWork) : Prop :=
  ∀ ticket ∈ state.tickets, ticket.work = work →
    ∀ body status, ticket.phase = .checked body status → status = moduleStatusCancelled

section Flags

variable {config : RuntimeConfig} {state next : RuntimeState} {action : RuntimeAction}
  {emitted : List RuntimeOutput} {work : ModuleWork}

theorem flagOf_setFlag (flags : List Bool) (other : ModuleWork)
    (inside : work.cancelled < flags.length) :
    flagOf (setFlag flags other) work = true ↔
      other.cancelled = work.cancelled ∨ flagOf flags work = true := by
  by_cases same : other.cancelled = work.cancelled
  · simp [flagOf, setFlag, same, inside]
  · simp [flagOf, setFlag, List.getElem?_set_ne same, same]

theorem runtimeStep_alive (taken : runtimeStep config state action = some (next, emitted))
    (alive : next.pc.Alive) : state.pc.Alive := by
  unfold runtimeStep at taken
  split at taken
  · rename_i at_
    exact at_ ▸ trivial
  · rename_i at_
    exact at_ ▸ trivial
  · rename_i at_
    exact at_ ▸ trivial
  · rwa [advance_pc taken] at alive
  · rwa [advance_pc taken] at alive
  · rwa [advance_pc taken] at alive
  · rwa [deliverStep_pc taken] at alive
  · split at taken
    · cases taken
    · split at taken
      · obtain ⟨rfl, -⟩ := Prod.mk.inj (Option.some.inj taken)
        exact alive
      · cases taken
  · split at taken
    · cases taken
    · obtain ⟨rfl, -⟩ := Prod.mk.inj (Option.some.inj taken)
      exact alive.elim
  · cases taken

/-- A flag that is set stays set, and only a cancel for a job sets one while the
loop is alive. -/
inductive FlagChange (state next : RuntimeState) (action : RuntimeAction) (work : ModuleWork) :
    Prop
  | kept (same : flagOf next.flags work = flagOf state.flags work)
  | drained (ended : ¬ next.pc.Alive) (set : flagOf state.flags work = true →
      flagOf next.flags work = true)
  | cancelled {event : Event} {attempts : List Attempt} {other : ModuleWork}
      (polled : action = .poll (.received event) attempts)
      (cancel : event.frame.has fCancel = true)
      (job : state.jobs.lookup event.frame.correlationId = some other)
      (shared : other.cancelled = work.cancelled) (set : flagOf next.flags work = true)

theorem RuntimeEffect.flag (effect : RuntimeEffect config state action next emitted)
    (inside : work.cancelled < state.flags.length) : FlagChange state next action work := by
  cases effect with
  | interrupted epochChanged now =>
      exact .drained id fun set => flagOf_setFlags _ _ inside (.inl set)
  | consumed pc handled answered silent =>
      cases consumeEvent_cases handled with
      | cancelled flags cancel flagged =>
          rename_i event attempts sent
          cases job : state.jobs.lookup event.frame.correlationId with
          | none =>
              rw [job] at flagged
              exact .kept (congrArg (flagOf · work) flagged)
          | some other =>
              rw [job] at flagged
              have set := flagOf_setFlag state.flags other inside
              change flags = setFlag state.flags other at flagged
              by_cases shared : other.cancelled = work.cancelled
              · refine .cancelled rfl cancel job shared ?_
                rw [show flagOf flags work = true from flagged ▸ set.mpr (.inl shared)]
              · refine .kept (Bool.eq_iff_iff.mpr ?_)
                change flagOf flags work = true ↔ _
                rw [flagged, set]
                exact or_iff_right shared
      | started kept request message assembly admitted opened holds last room =>
          refine .kept ?_
          simp only [flagOf]
          rw [List.getElem?_append_left inside]
      | _ => exact .kept rfl
  | _ => exact .kept rfl

theorem FlagChange.set (change : FlagChange state next action work)
    (before : flagOf state.flags work = true) : flagOf next.flags work = true := by
  cases change with
  | kept same => rw [same, before]
  | drained ended set => exact set before
  | cancelled polled cancel job shared set => exact set

end Flags

section Tickets

variable {config : RuntimeConfig} {state next : RuntimeState} {action : RuntimeAction}
  {emitted : List RuntimeOutput} {work : ModuleWork}

theorem JobsPaired.held (pairs : JobsPaired state) {ticket : HandlerRun}
    (member : ticket ∈ state.tickets) :
    state.jobs.lookup ticket.work.correlationID = some ticket.work := by
  have held : ticket.work ∈ state.heldWorks := List.mem_map_of_mem member
  obtain ⟨key, found⟩ := mem_tableValues.mp (pairs.paired.mem_iff.mp held)
  rwa [pairs.keyed key _ found]

theorem JobsPaired.unique (pairs : JobsPaired state) {ticket other : HandlerRun}
    (member : ticket ∈ state.tickets) (present : other ∈ state.tickets)
    (same : ticket.work = other.work) : ticket = other := by
  have distinct : (state.tickets.map (·.work)).Nodup :=
    pairs.paired.nodup_iff.mpr pairs.distinct
  exact List.inj_on_of_nodup_map distinct member present same

theorem FlagsOwned.inside (owned : FlagsOwned state) (pairs : JobsPaired state)
    {ticket : HandlerRun} (member : ticket ∈ state.tickets) :
    ticket.work.cancelled < state.flags.length :=
  (owned.owner _ _ (pairs.held member)).2

theorem JobChange.flags_le (change : JobChange state next) :
    state.flags.length ≤ next.flags.length := by
  cases change with
  | kept jobs held buffered flags => exact flags.le
  | started work fresh room jobs held buffered flag flags => exact flags ▸ Nat.le_succ _
  | taken result buffered jobs held flags => exact (congrArg List.length flags).ge

/-- A result that is settled already. -/
def HandlerPhase.Settled : HandlerPhase → Prop
  | .answered body status => settleResult status body = (status, body)
  | .checked body status => settleResult status body = (status, body)
  | _ => True

def RuntimeState.Settled (state : RuntimeState) : Prop :=
  ∀ ticket ∈ state.tickets, ticket.phase.Settled

theorem overrideResult_settled {cancelled : Bool} {now : UInt64} {status : ModuleStatus}
    {body : Bytes} (settled : settleResult status body = (status, body)) :
    settleResult (overrideResult work cancelled now status body).1
        (overrideResult work cancelled now status body).2 =
      overrideResult work cancelled now status body := by
  unfold overrideResult
  split
  · decide
  · split
    · decide
    · exact settled

theorem RuntimeState.Settled.step (settled : state.Settled)
    (effect : RuntimeEffect config state action next emitted) : next.Settled := by
  intro ticket member
  cases effect.origin member with
  | kept present => exact settled ticket present
  | moved present same move =>
      rename_i run
      have before := settled run present
      generalize run.phase = phase at before move
      generalize ticket.phase = after at move ⊢
      cases move with
      | invoke body => trivial
      | handlerReturns response status => exact settleResult_idempotent status response
      | checkCancelled now body status => exact overrideResult_settled before
  | started body polled request admitted flags => trivial

theorem settleResult_cancelled {status : ModuleStatus} {body : Bytes}
    (cancelled : (settleResult status body).1 = moduleStatusCancelled) :
    status = moduleStatusCancelled ∧ (settleResult status body).2 = [] := by
  unfold settleResult at cancelled ⊢
  split at cancelled
  · exact absurd cancelled (by decide)
  · rename_i sound
    rw [if_neg sound]
    split at cancelled
    · rename_i failed
      exact ⟨cancelled, by rw [if_pos failed]⟩
    · rename_i fine
      rw [show status = moduleStatusCancelled from cancelled] at fine
      exact absurd fine (by decide)

theorem overrideResult_cancelled {cancelled : Bool} {now : UInt64} {status : ModuleStatus}
    {body : Bytes}
    (overridden : (overrideResult work cancelled now status body).1 = moduleStatusCancelled) :
    cancelled = true ∨ status = moduleStatusCancelled := by
  unfold overrideResult at overridden
  split at overridden
  · exact .inl ‹_›
  · split at overridden
    · exact absurd overridden (by decide)
    · exact .inr overridden

theorem HandlerMove.says {flags : List Bool} {phase : HandlerPhase} {body : Bytes}
    (move : HandlerMove flags work phase (.answered body moduleStatusCancelled) emitted) :
    ∃ response, emitted = [.answered work response moduleStatusCancelled] := by
  generalize made : HandlerPhase.answered body moduleStatusCancelled = after at move
  cases move with
  | handlerReturns response status =>
      have settled := (HandlerPhase.answered.inj made).2.symm
      exact ⟨response, by rw [(settleResult_cancelled settled).1]⟩
  | _ => cases made

theorem HandlerMove.looks {flags : List Bool} {phase : HandlerPhase} {body : Bytes}
    (move : HandlerMove flags work phase (.checked body moduleStatusCancelled) emitted) :
    flagOf flags work = true ∨ ∃ body, phase = .answered body moduleStatusCancelled := by
  generalize made : HandlerPhase.checked body moduleStatusCancelled = after at move
  cases move with
  | checkCancelled now body status =>
      have overridden := (HandlerPhase.checked.inj made).2.symm
      rcases overrideResult_cancelled overridden with flagged | rfl
      · exact .inl flagged
      · exact .inr ⟨body, rfl⟩
  | _ => cases made

end Tickets

section Cancels

variable {config : RuntimeConfig} {point state next : RuntimeState} {action : RuntimeAction}
  {actions : List RuntimeAction} {emitted outputs : List RuntimeOutput} {work : ModuleWork}

theorem CancelledAt.run (since : CancelledAt config work point actions state) :
    ∃ outputs, (runtimeMachine config).Run .initial actions state outputs := by
  induction since with
  | here before cancel job consumed => exact ⟨_, .snoc before consumed⟩
  | later since taken ih =>
      obtain ⟨outputs, before⟩ := ih
      exact ⟨_, .snoc before taken⟩

theorem cancel_consumed {event : Event} {attempts : List Attempt}
    (cancel : event.frame.has fCancel = true)
    (job : state.jobs.lookup event.frame.correlationId = some work)
    (taken : runtimeStep config state (.poll (.received event) attempts) = some (next, emitted)) :
    next.tickets = state.tickets ∧ next.flags = setFlag state.flags work := by
  cases place : state.pc with
  | polling now =>
      simp only [runtimeStep, place, pollStep, consumeEvent, cancel, if_true, job, Option.map_some,
        Option.getD_some, Option.some.injEq, Prod.mk.injEq] at taken
      obtain ⟨rfl, -⟩ := taken
      exact ⟨rfl, rfl⟩
  | _ => simp [runtimeStep, place] at taken

theorem CancelledAt.flagged (since : CancelledAt config work point actions state) :
    work.cancelled < state.flags.length ∧ flagOf state.flags work = true := by
  induction since with
  | here before cancel job consumed =>
      obtain ⟨-, flags⟩ := cancel_consumed cancel job consumed
      obtain ⟨-, -, owned⟩ := runtime_tables before
      have inside := (owned.owner _ _ job).2
      rw [flags, length_setFlag]
      exact ⟨inside, (flagOf_setFlag _ _ inside).mpr (.inl rfl)⟩
  | later since taken ih =>
      have effect := runtimeStep_effect taken
      exact ⟨ih.1.trans_le effect.jobChange.flags_le, (effect.flag ih.1).set ih.2⟩

theorem TimelyCancel.step (timely : TimelyCancel state work)
    (flagged : flagOf state.flags work = true)
    (effect : RuntimeEffect config state action next emitted) : TimelyCancel next work := by
  intro ticket member own body status checked
  cases effect.origin member with
  | kept present => exact timely ticket present own body status checked
  | moved present same move =>
      rename_i run
      rw [← same, own, checked] at move
      generalize run.phase = phase at move
      cases move with
      | checkCancelled now body status => rw [flagged]; rfl
  | started => cases checked

theorem checked_step {body : Bytes} {status : ModuleStatus}
    (settled : ∀ ticket ∈ state.tickets, ticket.work = work → ticket.phase = .checked body status)
    (inside : work.cancelled < state.flags.length)
    (effect : RuntimeEffect config state action next emitted) :
    ∀ ticket ∈ next.tickets, ticket.work = work → ticket.phase = .checked body status := by
  intro ticket member own
  cases effect.origin member with
  | kept present => exact settled ticket present own
  | moved present same move =>
      rw [settled _ present (same.symm.trans own)] at move
      cases move
  | started body polled request admitted flags =>
      have index := congrArg ModuleWork.cancelled own
      simp only [startedWork] at index
      exact absurd index inside.ne'

theorem CancelledAt.timely (since : CancelledAt config work point actions state)
    (timely : TimelyCancel point work) : TimelyCancel state work := by
  induction since with
  | here before cancel job consumed =>
      intro ticket member
      rw [(cancel_consumed cancel job consumed).1] at member
      exact timely ticket member
  | later since taken ih => exact ih.step since.flagged.2 (runtimeStep_effect taken)

theorem CancelledAt.late (since : CancelledAt config work point actions state)
    {ticket : HandlerRun} (member : ticket ∈ point.tickets) (own : ticket.work = work)
    {body : Bytes} {status : ModuleStatus} (checked : ticket.phase = .checked body status) :
    ∀ other ∈ state.tickets, other.work = work → other.phase = .checked body status := by
  induction since with
  | here before cancel job consumed =>
      intro other present same
      rw [(cancel_consumed cancel job consumed).1] at present
      obtain ⟨pairs, -, -⟩ := runtime_tables before
      rw [pairs.unique present member (same.trans own.symm), checked]
  | later since taken ih => exact checked_step ih since.flagged.1 (runtimeStep_effect taken)

/-- Why a job is answered with Cancelled. -/
def CancelReason (config : RuntimeConfig) (work : ModuleWork) (actions : List RuntimeAction)
    (state : RuntimeState) (outputs : List RuntimeOutput) : Prop :=
  (∃ point, CancelledAt config work point actions state) ∨
    ∃ response, .answered work response moduleStatusCancelled ∈ outputs

theorem CancelReason.later (reason : CancelReason config work actions state outputs)
    (taken : runtimeStep config state action = some (next, emitted)) :
    CancelReason config work (actions ++ [action]) next (outputs ++ emitted) := by
  rcases reason with ⟨point, since⟩ | ⟨response, said⟩
  · exact .inl ⟨point, since.later taken⟩
  · exact .inr ⟨response, List.mem_append_left _ said⟩

/-- Every set flag and every Cancelled result has its reason while the loop is alive. -/
structure CancelReasons (config : RuntimeConfig) (actions : List RuntimeAction)
    (state : RuntimeState) (outputs : List RuntimeOutput) : Prop where
  flags : state.pc.Alive → ∀ ticket ∈ state.tickets, flagOf state.flags ticket.work = true →
    ∃ point, CancelledAt config ticket.work point actions state
  answered : ∀ ticket ∈ state.tickets, ∀ body,
    ticket.phase = .answered body moduleStatusCancelled →
      ∃ response, .answered ticket.work response moduleStatusCancelled ∈ outputs
  checked : state.pc.Alive → ∀ ticket ∈ state.tickets, ∀ body,
    ticket.phase = .checked body moduleStatusCancelled →
      CancelReason config ticket.work actions state outputs

theorem CancelReasons.flagged (reasons : CancelReasons config actions state outputs)
    (before : (runtimeMachine config).Run .initial actions state outputs)
    (taken : runtimeStep config state action = some (next, emitted)) (alive : next.pc.Alive)
    {ticket : HandlerRun} (member : ticket ∈ state.tickets)
    (flagged : flagOf next.flags ticket.work = true) :
    ∃ point, CancelledAt config ticket.work point (actions ++ [action]) next := by
  obtain ⟨pairs, -, owned⟩ := runtime_tables before
  cases (runtimeStep_effect taken).flag (owned.inside pairs member) with
  | kept same =>
      obtain ⟨point, since⟩ := reasons.flags (runtimeStep_alive taken alive) ticket member
        (same.symm.trans flagged)
      exact ⟨point, since.later taken⟩
  | drained ended set => exact absurd alive ended
  | cancelled polled cancel job shared set =>
      subst polled
      have own := pairs.held member
      have same := owned.apart _ _ _ _ job own shared
      exact ⟨state, .here before cancel (same ▸ own) taken⟩

theorem CancelReasons.step (reasons : CancelReasons config actions state outputs)
    (before : (runtimeMachine config).Run .initial actions state outputs)
    (taken : runtimeStep config state action = some (next, emitted)) :
    CancelReasons config (actions ++ [action]) next (outputs ++ emitted) := by
  have effect := runtimeStep_effect taken
  refine ⟨fun alive ticket member flagged => ?_, fun ticket member body answered => ?_,
    fun alive ticket member body checked => ?_⟩
  · cases effect.origin member with
    | kept present => exact reasons.flagged before taken alive present flagged
    | moved present same move =>
        rw [same] at flagged ⊢
        exact reasons.flagged before taken alive present flagged
    | started body polled request admitted flags =>
        rw [flags] at flagged
        simp [flagOf, startedWork] at flagged
  · cases effect.origin member with
    | kept present =>
        obtain ⟨response, said⟩ := reasons.answered ticket present body answered
        exact ⟨response, List.mem_append_left _ said⟩
    | moved present same move =>
        rw [answered] at move
        obtain ⟨response, rfl⟩ := move.says
        exact ⟨response, by simp [same]⟩
    | started => cases answered
  · cases effect.origin member with
    | kept present =>
        exact (reasons.checked (runtimeStep_alive taken alive) ticket present body checked).later
          taken
    | moved present same move =>
        rename_i run
        rw [checked] at move
        rcases move.looks with flagged | ⟨body, answered⟩
        · obtain ⟨point, since⟩ :=
            reasons.flags (runtimeStep_alive taken alive) run present flagged
          rw [same]
          exact .inl ⟨point, since.later taken⟩
        · obtain ⟨response, said⟩ := reasons.answered run present body answered
          rw [same]
          exact .inr ⟨response, List.mem_append_left _ said⟩
    | started => cases checked

theorem cancelReasons_run (run : (runtimeMachine config).Run .initial actions state outputs) :
    CancelReasons config actions state outputs := by
  induction run with
  | nil => exact ⟨fun _ => nofun, nofun, fun _ => nofun⟩
  | snoc before taken ih => exact ih.step before taken

theorem settled_run (run : (runtimeMachine config).Run .initial actions state outputs) :
    state.Settled := by
  induction run with
  | nil => exact nofun
  | snoc before taken ih => exact ih.step (runtimeStep_effect taken)

/-- A job that was cancelled is answered with Cancelled exactly when its goroutine
could still see it; and nothing else but its handler makes a job reply Cancelled. -/
theorem cancel_wins_iff {result : ModuleResult} {rest : List ModuleResult}
    {attempts : List Attempt} (run : (runtimeMachine config).Run .initial actions state outputs)
    (buffered : state.done = result :: rest)
    (taken : runtimeStep config state (.receive attempts) = some (next, emitted)) :
    (∀ point, CancelledAt config result.work point actions state →
      (result.reply = result.work.cancelledReply ↔ TimelyCancel point result.work)) ∧
    (result.reply = result.work.cancelledReply → ∀ fragment, .replied fragment ∈ emitted →
      fragment = result.work.cancelledReply.fragment ([], false)) ∧
    ((settleResult result.reply.status result.reply.body).1 = moduleStatusCancelled →
      CancelReason config result.work actions state outputs) := by
  have present : result.ticket ∈ state.tickets := by simp [RuntimeState.tickets, buffered]
  have settled : settleResult result.status result.body = (result.status, result.body) :=
    settled_run run result.ticket present
  have draining : state.pc = .draining := by
    cases place : state.pc with
    | draining => rfl
    | _ => simp [runtimeStep, place] at taken
  refine ⟨fun point since => ⟨fun same => ?_, fun timely => ?_⟩, fun same fragment member => ?_,
    fun cancelled => ?_⟩
  · intro ticket member own body status checked
    have waiting := since.late member own checked result.ticket present rfl
    rw [← (HandlerPhase.checked.inj waiting).2]
    exact congrArg ModuleReply.status same
  · have cancelled := since.timely timely result.ticket present rfl result.body result.status rfl
    have bare : result.body = [] := by
      have emptied := (settleResult_cancelled ((congrArg Prod.fst settled).trans cancelled)).2
      rwa [settled] at emptied
    rw [ModuleResult.reply, ModuleWork.cancelledReply, cancelled, bare]
  · simp only [runtimeStep, draining, buffered] at taken
    obtain ⟨pc, sent, rfl, rfl, answered⟩ := answer_sent taken
    simp only [List.mem_map, RuntimeOutput.replied.injEq, exists_eq_right] at member
    have planned := answered.front.subset member
    have bare : (settleResult result.work.cancelledReply.status
        result.work.cancelledReply.body).2 = [] := rfl
    rw [same, ModuleReply.plan, bare, pieces_nil] at planned
    exact List.mem_singleton.mp planned
  · rw [ModuleResult.reply, settled] at cancelled
    exact (cancelReasons_run run).checked (draining ▸ trivial) result.ticket present result.body
      (congrArg (HandlerPhase.checked result.body) cancelled)

theorem CancelledAt.onward {final : RuntimeState} {later : List RuntimeAction}
    (since : CancelledAt config work point actions state)
    (run : (runtimeMachine config).Run state later final outputs) :
    CancelledAt config work point (actions ++ later) final := by
  induction run with
  | nil => rwa [List.append_nil]
  | snoc before taken ih =>
      rw [← List.append_assoc]
      exact ih.later taken

end Cancels

section Orders

/-- What Cancel publishes for a correlation. -/
def cancelEvent (correlation : UInt64) : Event where
  frame :=
    { hdrFlags := fCancel, wireVersion := wireVersion, eventKind := kindModuleBase
      correlationId := correlation }
  payload := []

/-- A job of correlation 1 that is started, does `early` and reaches the poll
that receives a cancel. -/
def untilCancel (early : List RuntimeAction) : List RuntimeAction :=
  iteration (invokeEvent 1 [7] false) [] ++ early ++ [.drained false false 0]

/-- The run around a cancel, up to the reply, with what it shows of the job. -/
def cancelOrder (early late : List RuntimeAction) :
    Option (Option ModuleWork × List HandlerRun × List ModuleResult × List RuntimeOutput) := do
  let (point, _) ← (runtimeMachine servingConfig).execute .initial (untilCancel early)
  let (next, _) ← runtimeStep servingConfig point (.poll (.received (cancelEvent 1)) [])
  let (state, _) ← (runtimeMachine servingConfig).execute next late
  let (_, emitted) ← runtimeStep servingConfig state (.receive [{ result := .ok () }])
  return (point.jobs.lookup 1, point.tickets, state.done, emitted)

def orderedWork : ModuleWork := ⟨kindModuleBase, 1, ⟨1, 0, 0, 0⟩, 0⟩

theorem cancelOrder_run {early late : List RuntimeAction} {tickets : List HandlerRun}
    {waiting : List ModuleResult} {emitted : List RuntimeOutput}
    (computed : cancelOrder early late = some (some orderedWork, tickets, waiting, emitted)) :
    ∃ (point state next : RuntimeState) (actions : List RuntimeAction)
      (outputs : List RuntimeOutput), CancelledAt servingConfig orderedWork point actions state ∧
      (runtimeMachine servingConfig).Run .initial actions state outputs ∧
      point.jobs.lookup 1 = some orderedWork ∧ point.tickets = tickets ∧ state.done = waiting ∧
      runtimeStep servingConfig state (.receive [{ result := .ok () }]) =
        some (next, emitted) := by
  simp only [cancelOrder, Option.bind_eq_bind, Option.bind_eq_some_iff, Option.pure_def,
    Option.some.injEq, Prod.mk.injEq, Prod.exists] at computed
  obtain ⟨point, first, before, middle, second, consumed, state, third, after, next, emitted,
    replied, job, rfl, rfl, rfl⟩ := computed
  have since := CancelledAt.here (Machine.run_of_execute before) (by decide) job consumed
  have onward := since.onward (Machine.run_of_execute after)
  obtain ⟨outputs, run⟩ := onward.run
  exact ⟨point, state, next, _, outputs, onward, run, job, rfl, rfl, replied⟩

/-- A cancel that arrives before the goroutine looks at its flag decides the reply. -/
theorem cancel_wins_in_time :
    ∃ (point state next : RuntimeState) (actions : List RuntimeAction) (fragment : SentFragment)
      (result : ModuleResult), CancelledAt servingConfig orderedWork point actions state ∧
      TimelyCancel point orderedWork ∧ result.reply = orderedWork.cancelledReply ∧
      runtimeStep servingConfig state (.receive [{ result := .ok () }]) =
        some (next, [.replied fragment]) ∧
      fragment = orderedWork.cancelledReply.fragment ([], false) := by
  have computed : cancelOrder [.invoke 0, .handlerReturns 0 [9] moduleStatusOK]
      [.checkCancelled 0 0, .deliver 0] =
      some (some orderedWork, [⟨orderedWork, .answered [9] moduleStatusOK⟩],
        [⟨orderedWork, [], moduleStatusCancelled⟩],
        [.replied (orderedWork.cancelledReply.fragment ([], false))]) := by decide +kernel
  obtain ⟨point, state, next, actions, outputs, since, run, -, tickets, buffered, taken⟩ :=
    cancelOrder_run computed
  obtain ⟨decided, wire, -⟩ := cancel_wins_iff run buffered taken
  have timely : TimelyCancel point orderedWork := by
    intro ticket member own body status checked
    rw [tickets, List.mem_singleton] at member
    subst member
    cases checked
  have replied := (decided point since).mpr timely
  exact ⟨point, state, next, actions, _, _, since, timely, replied, taken,
    wire replied _ List.mem_cons_self⟩

/-- A cancel that is consumed while the result waits in the channel is lost: the
job is still in the table and its reply carries OK and a body. -/
theorem cancel_lost_late :
    ∃ (point state next : RuntimeState) (actions : List RuntimeAction) (fragment : SentFragment)
      (message : ModuleMessage), CancelledAt servingConfig orderedWork point actions state ∧
      point.jobs.lookup 1 = some orderedWork ∧
      runtimeStep servingConfig state (.receive [{ result := .ok () }]) =
        some (next, [.replied fragment]) ∧
      fragment.correlation = 1 ∧ decodeModuleMessage fragment.payload = .ok message ∧
      message.status = moduleStatusOK ∧ message.body fragment.payload = [9] := by
  have computed : cancelOrder
      [.invoke 0, .handlerReturns 0 [9] moduleStatusOK, .checkCancelled 0 0] [.deliver 0] =
      some (some orderedWork, [⟨orderedWork, .checked [9] moduleStatusOK⟩],
        [⟨orderedWork, [9], moduleStatusOK⟩],
        [.replied (ModuleReply.fragment ⟨kindModuleBase, 1, 1, 0, moduleStatusOK, [9]⟩
          ([9], false))]) := by decide +kernel
  obtain ⟨point, state, next, actions, outputs, since, run, job, -, -, taken⟩ :=
    cancelOrder_run computed
  exact ⟨point, state, next, actions, _, _, since, job, taken, rfl,
    ModuleMessage.decode_header (by decide) (by decide), rfl, by decide +kernel⟩

end Orders

end AimeeLearning.Bus
