import AimeeLearning.Bus.Attach
import AimeeLearning.Bus.JobTable
import AimeeLearning.Bus.ModuleFrames
import AimeeLearning.Bus.StageService

/-! How a module process ends. The end of the context and a new host epoch are a
normal stop where the event loop looks for them; a reply that meets one of them
while it is sent hands it on as an error. -/

set_option autoImplicit false

namespace AimeeLearning.Bus

open Library

section Process

/-- One round of connectModule. -/
inductive Dial where
  | socketFailed
  | connectFailed
  /-- ECONNREFUSED, and whether the context had ended in the wait after it. -/
  | refused (ctxDone : Bool)
  | connected (attached : Except AttachError Client)

inductive ConnectError where
  | system
  | attach (error : AttachError)
  | context
  deriving DecidableEq, Repr

/-- The connect loop; `none` while it still waits for a listener. -/
def connectModule : List Dial → Option (Except ConnectError Client)
  | [] => none
  | .socketFailed :: _ => some (.error .system)
  | .connectFailed :: _ => some (.error .system)
  | .refused ctxDone :: rest => if ctxDone then some (.error .context) else connectModule rest
  | .connected (.ok client) :: _ => some (.ok client)
  | .connected (.error failure) :: _ => some (.error (.attach failure))

inductive ProcessError where
  | config (error : BusError)
  | attach (moduleName : String) (error : ConnectError)
  | runtime (error : RuntimeError)
  deriving DecidableEq, Repr

/-- RunModuleProcess, given what runModuleClient returns and whether the context
has ended when the connection fails. -/
def runModuleProcess (process : ModuleProcessConfig) (dials : List Dial) (ctxErr : Bool)
    (runModuleClient : RuntimeConfig → Except RuntimeError Unit) :
    Option (Except ProcessError Unit) :=
  match validateModuleConfig process with
  | .error failure => some (.error (.config failure))
  | .ok stages =>
      match connectModule dials with
      | none => none
      | some (.error failure) =>
          if ctxErr then some (.ok ()) else some (.error (.attach process.moduleName failure))
      | some (.ok client) =>
          match runModuleClient (process.runtime stages client) with
          | .ok () => some (.ok ())
          | .error failure => some (.error (.runtime failure))

def exitStatus : Except ProcessError Unit → Nat
  | .ok () => 0
  | .error _ => 1

theorem runModuleProcess_unconnected {process : ModuleProcessConfig} {stages : StageTable}
    (valid : validateModuleConfig process = .ok stages) {dials : List Dial}
    {failure : ConnectError} (stopped : connectModule dials = some (.error failure))
    (serve : RuntimeConfig → Except RuntimeError Unit) :
    (runModuleProcess process dials true serve).map exitStatus = some 0 := by
  simp [runModuleProcess, valid, stopped, exitStatus]

theorem runModuleProcess_connected {process : ModuleProcessConfig} {stages : StageTable}
    (valid : validateModuleConfig process = .ok stages) {dials : List Dial} {client : Client}
    (connected : connectModule dials = some (.ok client)) (ctxErr : Bool)
    (serve : RuntimeConfig → Except RuntimeError Unit) :
    (runModuleProcess process dials ctxErr serve).map exitStatus = some 0 ↔
      serve (process.runtime stages client) = .ok () := by
  simp only [runModuleProcess, valid, connected]
  split
  · rename_i fine
    simp [fine, exitStatus]
  · rename_i failure failed
    simp [failed, exitStatus]

end Process

section Stops

/-- The try sees a stop: the context or the epoch while it waits for room, or the
epoch in ReplyFragment itself. -/
def Attempt.stops (attempt : Attempt) : Bool :=
  match attempt.result with
  | .error .errWouldBlock => attempt.ctxDone || attempt.epochChanged
  | .error .errEpoch => true
  | _ => false

/-- The try fails for want of room or through a stop, if at all. -/
def Attempt.onlyStops (attempt : Attempt) : Bool :=
  match attempt.result with
  | .ok () => true
  | .error .errWouldBlock => true
  | .error .errEpoch => true
  | _ => false

/-- The bus fails an action through a stop, if at all. -/
def RuntimeAction.onlyStops : RuntimeAction → Bool
  | .receive attempts => attempts.all (·.onlyStops)
  | .poll outcome attempts =>
      attempts.all (·.onlyStops) &&
        match outcome with
        | .received _ => true
        | .empty => true
        | .failed .errEpoch => true
        | _ => false
  | _ => true

/-- A try to send one of the next fragments sees a stop. -/
def seesStop : Nat → List Attempt → Bool
  | 0, _ => false
  | _, [] => false
  | fragments + 1, attempt :: rest =>
      attempt.stops ||
        match attempt.result with
        | .ok () => seesStop fragments rest
        | .error _ => seesStop (fragments + 1) rest

/-- The reply an action sends. -/
def replyMade (config : RuntimeConfig) (state : RuntimeState) : RuntimeAction → Option ModuleReply
  | .receive _ => state.done.head?.map (·.reply)
  | .poll (.received event) _ =>
      match state.pc with
      | .polling now =>
          match (consumeEvent config state now event).2 with
          | .reply reply => some reply
          | _ => none
      | _ => none
  | _ => none

/-- A reply meets the stop while it is being sent. -/
def stopSeen (config : RuntimeConfig) (state : RuntimeState) (action : RuntimeAction) : Bool :=
  match replyMade config state action with
  | some reply => seesStop (reply.plan config.inlineBudget).length action.attempts
  | none => false

theorem sendFragment_stops {attempts : List Attempt} {outcome : Except RuntimeError (List Attempt)}
    (tried : sendFragment attempts = some outcome)
    (calm : attempts.all (·.onlyStops) = true) :
    (∃ remaining, outcome = .ok remaining ∧ remaining.all (·.onlyStops) = true ∧
      ∀ fragments, seesStop (fragments + 1) attempts = seesStop fragments remaining) ∨
    ∃ failure, outcome = .error failure ∧
      ∀ fragments, seesStop (fragments + 1) attempts = true := by
  induction attempts with
  | nil => cases tried
  | cons attempt rest ih =>
      rw [List.all_cons, Bool.and_eq_true] at calm
      obtain ⟨here, later⟩ := calm
      obtain ⟨result, ctxDone, epochChanged, now⟩ := attempt
      simp only [sendFragment] at tried
      split at tried
      · obtain rfl := Option.some.inj tried
        exact .inl ⟨rest, rfl, later, fun fragments => rfl⟩
      · split at tried
        · rename_i ended
          obtain rfl := Option.some.inj tried
          exact .inr ⟨_, rfl, fun fragments => by simp [seesStop, Attempt.stops, ended]⟩
        · rename_i going
          split at tried
          · rename_i changed
            obtain rfl := Option.some.inj tried
            exact .inr ⟨_, rfl, fun fragments => by simp [seesStop, Attempt.stops, changed]⟩
          · rename_i unchanged
            have onward : ∀ fragments,
                seesStop (fragments + 1) (⟨.error .errWouldBlock, ctxDone, epochChanged, now⟩ :: rest) =
                  seesStop (fragments + 1) rest := by
              intro fragments
              simp [seesStop, Attempt.stops, going, unchanged]
            simp only [onward]
            exact ih tried later
      · rename_i failure other
        obtain rfl := Option.some.inj tried
        refine .inr ⟨_, rfl, fun fragments => ?_⟩
        cases failure <;> simp_all [Attempt.onlyStops, seesStop, Attempt.stops]

theorem replyPieces_stops {reply : ModuleReply} {parts : List (Bytes × Bool)}
    {attempts : List Attempt} {sent : List SentFragment} {result : Except RuntimeError Unit}
    (replied : replyPieces reply parts attempts = some (sent, result))
    (calm : attempts.all (·.onlyStops) = true) (staged : reply.stageID ≠ 0)
    (small : ∀ piece ∈ parts, piece.1.length ≤ moduleMessageMaxBody.toNat) :
    (∃ failure, result = .error failure) ↔ seesStop parts.length attempts = true := by
  induction parts generalizing attempts sent with
  | nil =>
      simp only [replyPieces, Option.some.injEq, Prod.mk.injEq] at replied
      simp [← replied.2, seesStop]
  | cons piece rest ih =>
      obtain ⟨part, more⟩ := piece
      have valid := reply.message_valid staged (small (part, more) List.mem_cons_self)
      simp only [replyPieces, ModuleMessage.encode, valid] at replied
      simp only [List.length_replicate, Bool.not_true, Bool.or_false, decide_eq_true_eq] at replied
      rw [if_neg (by omega)] at replied
      cases tried : sendFragment attempts with
      | none => simp [tried] at replied
      | some outcome =>
          rw [List.length_cons]
          rcases sendFragment_stops tried calm with
            ⟨remaining, rfl, later, same⟩ | ⟨failure, rfl, seen⟩
          · simp only [tried, Option.map_eq_some_iff, Prod.mk.injEq] at replied
            obtain ⟨⟨final, last⟩, again, -, rfl⟩ := replied
            rw [same]
            exact ih again later fun other member => small other (List.mem_cons_of_mem _ member)
          · simp only [tried, Option.some.injEq, Prod.mk.injEq] at replied
            simp [← replied.2, seen]

/-- A reply fails exactly when one of its tries sees a stop. -/
theorem replyModuleResult_stops {inlineBudget : UInt32} {reply : ModuleReply}
    {attempts : List Attempt} {sent : List SentFragment} {result : Except RuntimeError Unit}
    (replied : replyModuleResult inlineBudget reply attempts = some (sent, result))
    (calm : attempts.all (·.onlyStops) = true) (staged : reply.stageID ≠ 0)
    (room : moduleMessageHeaderLen < inlineBudget.toNat) :
    (∃ failure, result = .error failure) ↔
      seesStop (reply.plan inlineBudget).length attempts = true := by
  rw [replyModuleResult, if_neg (by omega)] at replied
  rw [ModuleReply.plan, List.length_map]
  refine replyPieces_stops replied calm staged fun piece member => ?_
  have bound := (settleResult_sound reply.status reply.body).2
  exact (pieces_length _ (by omega) piece member).2.1.trans bound

end Stops

section Loop

variable {config : RuntimeConfig} {state next : RuntimeState} {action : RuntimeAction}
  {emitted : List RuntimeOutput}

/-- A step sends one reply and goes where its result says, or sends none. -/
inductive ReplyMove (config : RuntimeConfig) (state next : RuntimeState) (action : RuntimeAction) :
    Prop
  | replied (reply : ModuleReply) (sent : List SentFragment) (result : Except RuntimeError Unit)
      (made : replyMade config state action = some reply)
      (answered : replyModuleResult config.inlineBudget reply action.attempts = some (sent, result))
      (running : ∀ ended, state.pc ≠ .returned ended)
      (landed : ∀ failure, next.pc = .returned (.error failure) ↔ result = .error failure)
  | silent (made : replyMade config state action = none)
      (kept : action.onlyStops = true → ∀ failure,
        next.pc = .returned (.error failure) ↔ state.pc = .returned (.error failure))

theorem answer_replies {middle : RuntimeState} {reply : ModuleReply} {attempts : List Attempt}
    (made : replyMade config state action = some reply) (tries : action.attempts = attempts)
    (running : ∀ ended, state.pc ≠ .returned ended)
    (answered : answer config middle reply attempts = some (next, emitted)) :
    ReplyMove config state next action := by
  obtain ⟨⟨sent, result⟩, replied, same⟩ := Option.map_eq_some_iff.mp answered
  obtain ⟨rfl, -⟩ := Prod.mk.inj same
  refine .replied reply sent result made (tries ▸ replied) running fun failure => ?_
  cases result <;> simp

theorem runtimeStep_replies (taken : runtimeStep config state action = some (next, emitted)) :
    ReplyMove config state next action := by
  have calm : next.pc = state.pc → replyMade config state action = none →
      ReplyMove config state next action := by
    intro same made
    exact .silent made fun _ failure => by rw [same]
  unfold runtimeStep at taken
  split at taken
  · rename_i here
    split at taken
    · cases taken
    · rename_i result rest buffered
      exact answer_replies (by rw [replyMade, buffered]; rfl) rfl (by simp [here]) taken
  · rename_i here
    split at taken
    · cases taken
    · refine .silent rfl fun _ failure => ?_
      split at taken
      · obtain ⟨rfl, -⟩ := Prod.mk.inj (Option.some.inj taken)
        simp [here]
      · split at taken <;>
          (obtain ⟨rfl, -⟩ := Prod.mk.inj (Option.some.inj taken)
           simp [here])
  · rename_i outcome attempts now here
    cases outcome with
    | panicked =>
        refine .silent rfl fun calm => ?_
        simp [RuntimeAction.onlyStops] at calm
    | failed failure =>
        refine .silent rfl fun calm other => ?_
        have restarted : failure = .errEpoch := by
          cases failure <;> simp_all [RuntimeAction.onlyStops]
        subst restarted
        obtain ⟨rfl, -⟩ := Prod.mk.inj (Option.some.inj taken)
        simp [here]
    | empty =>
        obtain ⟨rfl, -⟩ := Prod.mk.inj (Option.some.inj taken)
        exact .silent rfl fun _ failure => by simp [here]
    | received event =>
        simp only [pollStep] at taken
        split at taken
        · rename_i middle reply handled
          obtain ⟨⟨final, sent⟩, answered, same⟩ := Option.map_eq_some_iff.mp taken
          obtain ⟨rfl, -⟩ := Prod.mk.inj same
          exact answer_replies (by simp only [replyMade, here, handled]) rfl (by simp [here])
            answered
        · rename_i middle disposition other handled
          obtain ⟨rfl, -⟩ := Prod.mk.inj (Option.some.inj taken)
          refine .silent ?_ fun _ failure => by simp [here]
          simp only [replyMade, here, handled]
  · exact calm (advance_pc taken) rfl
  · exact calm (advance_pc taken) rfl
  · exact calm (advance_pc taken) rfl
  · exact calm (deliverStep_pc taken) rfl
  · split at taken
    · cases taken
    · split at taken
      · obtain ⟨rfl, -⟩ := Prod.mk.inj (Option.some.inj taken)
        exact calm rfl rfl
      · cases taken
  · rename_i here
    split at taken
    · cases taken
    · obtain ⟨rfl, -⟩ := Prod.mk.inj (Option.some.inj taken)
      exact .silent rfl fun _ failure => by simp [here]
  · cases taken

theorem replyMade_staged {reply : ModuleReply} (staged : state.Staged)
    (made : replyMade config state action = some reply) : reply.stageID ≠ 0 := by
  cases action with
  | receive attempts =>
      obtain ⟨result, first, rfl⟩ := Option.map_eq_some_iff.mp made
      have buffered : result ∈ state.done := List.mem_of_mem_head? first
      exact staged result.ticket (List.mem_append_right _ (List.mem_map_of_mem buffered))
  | poll outcome attempts =>
      cases outcome with
      | received event =>
          simp only [replyMade] at made
          split at made
          · rename_i now here
            generalize handled : consumeEvent config state now event = outcome at made
            obtain ⟨middle, disposition⟩ := outcome
            cases disposition with
            | reply answered =>
                obtain rfl := Option.some.inj made
                exact (consumeEvent_cases handled).reply_staged
            | _ => cases made
          · cases made
      | _ => cases made
  | _ => cases made

/-- One step ends the loop with an error exactly when its reply sees a stop. -/
theorem stop_step (staged : state.Staged)
    (room : moduleMessageHeaderLen < config.inlineBudget.toNat)
    (calm : action.onlyStops = true)
    (taken : runtimeStep config state action = some (next, emitted)) :
    (∃ failure, next.pc = .returned (.error failure)) ↔
      (∃ failure, state.pc = .returned (.error failure)) ∨ stopSeen config state action = true := by
  cases runtimeStep_replies taken with
  | replied reply sent result made answered running landed =>
      have tries : action.attempts.all (·.onlyStops) = true := by
        cases action with
        | receive attempts => exact calm
        | poll outcome attempts => exact (Bool.and_eq_true_iff.mp calm).1
        | _ => rfl
      simp only [landed, stopSeen, made]
      rw [replyModuleResult_stops answered tries (replyMade_staged staged made) room]
      exact (or_iff_right fun ⟨failure, ended⟩ => running _ ended).symm
  | silent made kept =>
      simp only [kept calm, stopSeen, made, Bool.false_eq_true, or_false]

end Loop

section Runs

variable {config : RuntimeConfig} {state next : RuntimeState} {action : RuntimeAction}
  {actions : List RuntimeAction} {history : List JobEvent}

/-- The loop, seen through its jobs. -/
def jobMachine (config : RuntimeConfig) : Machine RuntimeState RuntimeAction JobEvent :=
  (runtimeMachine config).observe jobEvents

/-- A step whose reply, if it sends one, sees no stop. -/
def unstopped (config : RuntimeConfig) (state : RuntimeState) (action : RuntimeAction) : Bool :=
  !stopSeen config state action

theorem staged_run (run : (jobMachine config).Run .initial actions state history) :
    state.Staged := by
  induction run with
  | nil => exact nofun
  | snoc before taken ih =>
      obtain ⟨emitted, moved, -⟩ := Machine.observe_step.mp taken
      exact ih.step (runtimeStep_effect moved)

/-- A run has returned no error exactly when no reply of it saw a stop. -/
theorem unstopped_run (run : (jobMachine config).Run .initial actions state history)
    (room : moduleMessageHeaderLen < config.inlineBudget.toNat)
    (calm : ∀ action ∈ actions, action.onlyStops = true) :
    (∀ failure, state.pc ≠ .returned (.error failure)) ↔
      ((jobMachine config).restrict (unstopped config)).Run .initial actions state history := by
  induction run with
  | nil => exact iff_of_true nofun .nil
  | snoc before taken ih =>
      rename_i actions state history action next added
      obtain ⟨emitted, moved, rfl⟩ := Machine.observe_step.mp taken
      have step := stop_step (staged_run before) room (calm action (by simp)) moved
      have ih := ih fun other member => calm other (List.mem_append_left _ member)
      constructor
      · intro live
        have unended : ¬ ∃ failure, next.pc = .returned (.error failure) :=
          fun ⟨failure, ended⟩ => live failure ended
        rw [step, not_or] at unended
        refine .snoc (ih.mp fun failure ended => unended.1 ⟨failure, ended⟩) ?_
        exact Machine.restrict_step.mpr ⟨by simpa [unstopped] using unended.2, taken⟩
      · intro again failure ended
        obtain ⟨middle, earlier, later, first, second, -⟩ := again.last
        obtain ⟨rfl, rfl⟩ := before.unique first.unrestricted
        rcases step.mp ⟨failure, ended⟩ with ⟨failure, already⟩ | seen
        · exact ih.mpr first failure already
        · have unseen := (Machine.restrict_step.mp second).1
          rw [unstopped, seen] at unseen
          cases unseen

/-- The loop found the context ended between two events. -/
def ContextSeen (actions : List RuntimeAction) : Prop :=
  ∃ epochChanged now, .drained true epochChanged now ∈ actions

/-- Where a run stands after the loop found the context ended. -/
structure Stopping (state : RuntimeState) : Prop where
  pc : state.pc = .stopping ∨ state.pc = .returned (.ok ()) ∧ state.jobs.keys = []
  flagged : ∀ work ∈ state.works, flagOf state.flags work = true

theorem Stopping.begins (owned : FlagsOwned state)
    {epochChanged : Bool} {now : UInt64} {emitted : List RuntimeOutput}
    (taken : runtimeStep config state (.drained true epochChanged now) = some (next, emitted)) :
    Stopping next := by
  obtain rfl := drained_stopping taken
  refine ⟨.inl rfl, fun work member => ?_⟩
  obtain ⟨key, found⟩ := mem_tableValues.mp member
  exact flagOf_setFlags _ _ (owned.owner key work found).2 (.inr member)

theorem Stopping.step (stopping : Stopping state) (pairs : JobsPaired state)
    {emitted : List RuntimeOutput}
    (taken : runtimeStep config state action = some (next, emitted)) : Stopping next := by
  rcases stopping.pc with here | ⟨returned, empty⟩
  · have step := drain_step here taken
    have works : ∀ work ∈ next.works, work ∈ state.works := by
      intro work member
      cases (runtimeStep_effect taken).jobChange with
      | kept jobs held buffered flags => rwa [RuntimeState.works, jobs] at member
      | started other fresh room jobs held buffered flag flags =>
          rw [step.flags] at flags
          exact absurd flags (Nat.succ_ne_self _).symm
      | taken result buffered jobs held flags =>
          have found := pairs.own (show result ∈ _ by rw [buffered]; exact List.mem_cons_self)
          rw [RuntimeState.works, jobs] at member
          exact (tableValues_erase found).mem_iff.mpr (List.mem_cons_of_mem _ member)
    exact ⟨step.pc, fun work member => step.flags ▸ stopping.flagged work (works work member)⟩
  · exact absurd (taken.symm.trans (pairs.rests returned empty)) (by simp)

theorem stopping_run (run : (jobMachine config).Run .initial actions state history)
    (seen : ContextSeen actions) : Stopping state := by
  induction run with
  | nil =>
      obtain ⟨epochChanged, now, member⟩ := seen
      cases member
  | snoc before taken ih =>
      obtain ⟨epochChanged, now, member⟩ := seen
      obtain ⟨emitted, moved, -⟩ := Machine.observe_step.mp taken
      obtain ⟨outputs, run⟩ := before.unobserved
      obtain ⟨pairs, -, owned⟩ := runtime_tables run
      rcases List.mem_append.mp member with earlier | last
      · exact (ih ⟨epochChanged, now, earlier⟩).step pairs moved
      · obtain rfl := List.mem_singleton.mp last
        exact .begins owned moved

/-- A run that ends, or will end, as a normal stop. -/
structure OrderlyStop (process : ModuleProcessConfig) (dials : List Dial) (config : RuntimeConfig)
    (actions : List RuntimeAction) (state : RuntimeState) (history : List JobEvent) : Prop where
  returns : ∀ result, state.pc = .returned result → result = .ok () ∧
    ∀ ctxErr, (runModuleProcess process dials ctxErr fun _ => result).map exitStatus = some 0
  jobs : ContextSeen actions → ∀ work ∈ startedOf history,
    flagOf state.flags work = true ∨ ∃ result ∈ takenOf history, result.work = work
  drains : state.pc = .stopping →
    (∃ action, (runtimeStep config state action).isSome = true) ∧
      ∀ later final added, (jobMachine config).Run state later final added →
        later.length ≤ state.drainSteps

theorem stopping_jobs (run : (jobMachine config).Run .initial actions state history)
    (seen : ContextSeen actions) {work : ModuleWork} (started : work ∈ startedOf history) :
    flagOf state.flags work = true ∨ ∃ result ∈ takenOf history, result.work = work := by
  have ledger := (jobLedger_run runtime_tables_initial.1 run).2
  have balanced := ledger.balance.subset (List.mem_append_left _ started)
  rcases List.mem_append.mp balanced with removed | held
  · rw [ledger.own] at removed
    obtain ⟨result, taken, own⟩ := List.mem_map.mp removed
    exact .inr ⟨result, taken, own⟩
  · exact .inl ((stopping_run run seen).flagged work held)

end Runs

section Orderly

variable {process : ModuleProcessConfig} {stages : StageTable} {client : Client}
  {dials : List Dial} {actions : List RuntimeAction} {state : RuntimeState}
  {history : List JobEvent}

/-- With no other bus failure, a run of an attached module is an orderly stop
exactly when no reply of it saw the stop while it was being sent. -/
theorem orderly_stop_iff (valid : validateModuleConfig process = .ok stages)
    (connected : connectModule dials = some (.ok client))
    (room : moduleMessageHeaderLen < client.inlineBudget.toNat)
    (run : (jobMachine (process.runtime stages client)).Run .initial actions state history)
    (calm : ∀ action ∈ actions, action.onlyStops = true) :
    OrderlyStop process dials (process.runtime stages client) actions state history ↔
      ((jobMachine (process.runtime stages client)).restrict
        (unstopped (process.runtime stages client))).Run .initial actions state history := by
  rw [← unstopped_run run room calm]
  constructor
  · intro orderly failure ended
    cases (orderly.returns _ ended).1
  · intro live
    refine ⟨fun result ended => ?_, fun seen work => stopping_jobs run seen, fun stopping => ?_⟩
    · cases result with
      | ok fine =>
          exact ⟨rfl, fun ctxErr => (runModuleProcess_connected valid connected ctxErr _).mpr rfl⟩
      | error failure => exact absurd ended (live failure)
    · have pairs := (jobLedger_run runtime_tables_initial.1 run).1
      refine ⟨pairs.drains stopping, fun later final added onward => ?_⟩
      exact (Nat.le_add_right _ _).trans (drain_run pairs stopping onward).1.le

/-- The result a loop returned, if it has. -/
def LoopPc.ended : LoopPc → Option (Except RuntimeError Unit)
  | .returned result => some result
  | _ => none

theorem LoopPc.ended_eq {pc : LoopPc} {result : Except RuntimeError Unit} :
    pc.ended = some result ↔ pc = .returned result := by
  cases pc <;> simp [LoopPc.ended]

/-- The second try to connect finds the listener. -/
def servingDials : List Dial := [.refused false, .connected (.ok servingClient)]

/-- A goroutine that answers its request. -/
def answering (position : Nat) : List RuntimeAction :=
  [.handlerReturns position [9] moduleStatusOK, .checkCancelled position 0, .deliver position]

/-- The context ends while a handler runs: the loop cancels the job, collects its
result and returns. -/
theorem orderly_stop_collects :
    ∃ state history, (jobMachine servingConfig).Run .initial
        (iteration (invokeEvent 1 [7] false) [] ++ [.invoke 0, .drained true false 0] ++
          answering 0 ++ [.collect, .stopped]) state history ∧
      state.pc = .returned (.ok ()) ∧
      OrderlyStop servingProcess servingDials servingConfig
        (iteration (invokeEvent 1 [7] false) [] ++ [.invoke 0, .drained true false 0] ++
          answering 0 ++ [.collect, .stopped]) state history := by
  have executed : (((jobMachine servingConfig).restrict (unstopped servingConfig)).execute .initial
        (iteration (invokeEvent 1 [7] false) [] ++ [.invoke 0, .drained true false 0] ++
          answering 0 ++ [.collect, .stopped])).map (·.1.pc.ended) =
      some (some (.ok ())) := by decide +kernel
  obtain ⟨⟨state, history⟩, ran, ended⟩ := Option.map_eq_some_iff.mp executed
  have configured : validateModuleConfig servingProcess = .ok servingConfig.stages := rfl
  have run := Machine.run_of_execute ran
  exact ⟨state, history, run.unrestricted, LoopPc.ended_eq.mp ended,
    (@orderly_stop_iff servingProcess servingConfig.stages servingClient servingDials _ state
      history configured rfl (by decide) run.unrestricted (by decide)).mpr run⟩

/-- The context ends while a reply waits for ring space: the loop returns an
error, the process ends as a crash, and the other job is neither cancelled nor
collected. -/
theorem blocked_reply_stop_crashes :
    ∃ (actions : List RuntimeAction) (state : RuntimeState) (history : List JobEvent)
      (work : ModuleWork), (jobMachine servingConfig).Run .initial actions state history ∧
      (∀ action ∈ actions, action.onlyStops = true) ∧
      state.pc = .returned (.error .context) ∧
      (runModuleProcess servingProcess servingDials true fun _ => .error .context).map exitStatus =
        some 1 ∧
      work ∈ startedOf history ∧ flagOf state.flags work = false ∧
      ∀ result ∈ takenOf history, result.work ≠ work := by
  let actions := iteration (invokeEvent 1 [7] false) [] ++ iteration (invokeEvent 2 [7] false) [] ++
    [.invoke 0] ++ answering 0 ++ [.receive [{ result := .error .errWouldBlock, ctxDone := true }]]
  let work : ModuleWork := ⟨kindModuleBase, 2, ⟨1, 0, 0, 1⟩, 1⟩
  have executed : ((jobMachine servingConfig).execute .initial actions).map
      (fun (state, history) => (state.pc.ended, startedOf history, state.flags, takenOf history)) =
      some (some (.error .context), [⟨kindModuleBase, 1, ⟨1, 0, 0, 0⟩, 0⟩, work], [false, false],
        [⟨⟨kindModuleBase, 1, ⟨1, 0, 0, 0⟩, 0⟩, [9], moduleStatusOK⟩]) := by decide +kernel
  obtain ⟨⟨state, history⟩, ran, shown⟩ := Option.map_eq_some_iff.mp executed
  obtain ⟨ended, started, flags, taken⟩ : state.pc.ended = _ ∧ startedOf history = _ ∧
    state.flags = _ ∧ takenOf history = _ := by simpa only [Prod.mk.injEq] using shown
  refine ⟨actions, state, history, work, Machine.run_of_execute ran, by decide,
    LoopPc.ended_eq.mp ended, by decide +kernel, by simp [started], by rw [flags]; rfl, ?_⟩
  simp [taken, work]

end Orderly

end AimeeLearning.Bus
