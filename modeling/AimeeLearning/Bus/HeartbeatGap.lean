import AimeeLearning.Bus.OrderlyStop
import AimeeLearning.Library.Spacing

/-! The heartbeat of a serving module. The host reaps a slot whose heartbeat
stops, so what matters is how much the loop can do between two of them: one
poll, one refusal or one pause, and the results that were waiting. A clock that
cannot be read leaves a heartbeat out. -/

set_option autoImplicit false

namespace AimeeLearning.Bus

open Library

/-- What the loop asks of its bus and of the clock. -/
inductive BusCall where
  | poll
  | replyFragment
  | epochChanged
  /-- A pause of moduleIdle. -/
  | idle
  /-- The heartbeat is written with the clock just read. -/
  | heartbeat
  /-- The clock reads zero and no heartbeat is written. -/
  | clockFailed
  deriving DecidableEq, Repr

/-- What follows a look at the epoch: a heartbeat, unless the clock fails. -/
def heartbeatCall (now : UInt64) : BusCall := if now != 0 then .heartbeat else .clockFailed

/-- The calls of one pass of the retry loop around ReplyFragment. -/
def Attempt.calls (attempt : Attempt) : List BusCall :=
  match attempt.result with
  | .error .errWouldBlock =>
      if attempt.ctxDone then [.replyFragment]
      else if attempt.epochChanged then [.replyFragment, .idle, .epochChanged]
      else [.replyFragment, .idle, .epochChanged, heartbeatCall attempt.now]
  | _ => [.replyFragment]

def sendFragmentCalls : List Attempt → List BusCall
  | [] => []
  | attempt :: rest =>
      match attempt.result with
      | .error .errWouldBlock =>
          if attempt.ctxDone || attempt.epochChanged then attempt.calls
          else attempt.calls ++ sendFragmentCalls rest
      | _ => attempt.calls

def replyPiecesCalls (reply : ModuleReply) : List (Bytes × Bool) → List Attempt → List BusCall
  | [], _ => []
  | (part, _) :: rest, attempts =>
      let buffer := List.replicate (moduleMessageHeaderLen + part.length) 0
      match (reply.message part.length).encode buffer with
      | .error _ => []
      | .ok _ =>
          match sendFragment attempts with
          | some (.ok remaining) =>
              sendFragmentCalls attempts ++ replyPiecesCalls reply rest remaining
          | _ => sendFragmentCalls attempts

def replyModuleResultCalls (inlineBudget : UInt32) (reply : ModuleReply)
    (attempts : List Attempt) : List BusCall :=
  if inlineBudget.toNat ≤ moduleMessageHeaderLen then []
  else
    replyPiecesCalls reply (pieces (inlineBudget.toNat - moduleMessageHeaderLen)
      (settleResult reply.status reply.body).2) attempts

/-- The calls of the reply an action sends, if it sends one. -/
def replyMadeCalls (config : RuntimeConfig) (state : RuntimeState) (action : RuntimeAction) :
    List BusCall :=
  match replyMade config state action with
  | some reply => replyModuleResultCalls config.inlineBudget reply action.attempts
  | none => []

/-- The calls of one action of the loop. -/
def busCalls (config : RuntimeConfig) (state : RuntimeState) : RuntimeAction → List BusCall
  | .drained ctxDone epochChanged now =>
      if ctxDone then []
      else if epochChanged then [.epochChanged]
      else [.epochChanged, heartbeatCall now]
  | .poll .empty _ => [.poll, .idle]
  | .poll outcome attempts => .poll :: replyMadeCalls config state (.poll outcome attempts)
  | action => replyMadeCalls config state action

/-- The runtime, seen through the calls of its loop. -/
def callMachine (config : RuntimeConfig) : Machine RuntimeState RuntimeAction BusCall where
  step state action :=
    (runtimeStep config state action).map fun (next, _) => (next, busCalls config state action)

/-- Where the clock is read for a heartbeat. -/
def BusCall.readsClock (call : BusCall) : Bool := call == .heartbeat || call == .clockFailed

theorem heartbeatCall_readsClock (now : UInt64) : (heartbeatCall now).readsClock = true := by
  unfold heartbeatCall
  split <;> rfl

/-- The most fragments a reply has. -/
def fragmentLimit (config : RuntimeConfig) : Nat :=
  moduleMessageMaxBody.toNat / (config.inlineBudget.toNat - moduleMessageHeaderLen) + 1

/-- What a call that waits for room costs beyond the call itself. -/
def waitPrice (price : BusCall → Nat) : Nat := price .idle + price .epochChanged

/-- What the calls between two reads of the clock cost at most. -/
def heartbeatLimit (config : RuntimeConfig) (price : BusCall → Nat) : Nat :=
  price .poll + max (price .idle) (price .replyFragment) +
    moduleMaxInFlight * (fragmentLimit config * price .replyFragment) + waitPrice price

section Replies

variable {price : BusCall → Nat} {limit spent : Nat}

/-- Calls that begin `spent` after the last read of the clock and end `final` after it. -/
abbrev Beats (price : BusCall → Nat) (limit spent : Nat) (calls : List BusCall) (final : Nat) :
    Prop :=
  Spaced BusCall.readsClock price limit spent calls final

theorem sendFragmentCalls_beats {attempts : List Attempt}
    {outcome : Except RuntimeError (List Attempt)} (tried : sendFragment attempts = some outcome)
    (room : spent + price .replyFragment + waitPrice price ≤ limit) :
    Beats price limit spent (sendFragmentCalls attempts)
        (spent + price .replyFragment + waitPrice price) ∧
      ∀ remaining, outcome = .ok remaining →
        Beats price limit spent (sendFragmentCalls attempts) (spent + price .replyFragment) := by
  have sent : Beats price limit spent [.replyFragment] (spent + price .replyFragment) :=
    .charge BusCall.replyFragment (by omega)
  have paused := sent.append (.charge .idle (by unfold waitPrice at room; omega))
  have looked := paused.append
    (.charge .epochChanged (by unfold waitPrice at room; omega))
  induction attempts with
  | nil => cases tried
  | cons attempt rest ih =>
      obtain ⟨result, ctxDone, epochChanged, now⟩ := attempt
      cases result with
      | ok done => exact ⟨sent.ends (by omega), fun _ _ => sent⟩
      | error failure =>
          by_cases full : failure = .errWouldBlock
          · subst full
            simp only [sendFragment] at tried
            simp only [sendFragmentCalls, Attempt.calls]
            cases ctxDone with
            | true =>
                obtain rfl := Option.some.inj tried
                exact ⟨sent.ends (by omega), fun _ stuck => by cases stuck⟩
            | false =>
                cases epochChanged with
                | true =>
                    obtain rfl := Option.some.inj tried
                    exact ⟨looked.ends (by unfold waitPrice; omega), fun _ stuck => by cases stuck⟩
                | false =>
                    -- the read of the clock clears what the blocked call has cost
                    have beaten := looked.append (.mark (heartbeatCall now)
                      (heartbeatCall_readsClock now) (by unfold waitPrice at room; omega))
                    obtain ⟨whole, going⟩ := ih tried
                    exact ⟨beaten.append (whole.begins (Nat.zero_le _)), fun remaining sentOn =>
                      beaten.append ((going remaining sentOn).begins (Nat.zero_le _))⟩
          · have stopped : outcome = .error (.bus failure) := by
              cases failure <;> first
                | exact absurd rfl full
                | exact (Option.some.inj tried).symm
            have alone : sendFragmentCalls (⟨.error failure, ctxDone, epochChanged, now⟩ :: rest) =
                [.replyFragment] := by
              cases failure <;> first
                | exact absurd rfl full
                | rfl
            rw [alone, stopped]
            exact ⟨sent.ends (by omega), fun _ stuck => by cases stuck⟩

theorem replyPiecesCalls_beats {reply : ModuleReply} {parts : List (Bytes × Bool)}
    {attempts : List Attempt} {sent : List SentFragment} {result : Except RuntimeError Unit}
    (replied : replyPieces reply parts attempts = some (sent, result))
    (room : spent + parts.length * price .replyFragment + waitPrice price ≤ limit) :
    Beats price limit spent (replyPiecesCalls reply parts attempts)
        (spent + parts.length * price .replyFragment + waitPrice price) ∧
      (result = .ok () → Beats price limit spent (replyPiecesCalls reply parts attempts)
        (spent + parts.length * price .replyFragment)) := by
  induction parts generalizing attempts sent spent with
  | nil => exact ⟨.done (by omega) (by omega), fun _ => .done (by omega) (by omega)⟩
  | cons piece rest ih =>
      obtain ⟨part, more⟩ := piece
      have total : (((part, more) :: rest).length) * price .replyFragment =
          price .replyFragment + rest.length * price .replyFragment := by
        rw [List.length_cons, Nat.succ_mul, Nat.add_comm]
      rw [total] at room ⊢
      simp only [replyPieces] at replied
      simp only [replyPiecesCalls]
      split at replied
      · rename_i failure refused
        obtain ⟨-, rfl⟩ := Prod.mk.inj (Option.some.inj replied)
        simp only [refused]
        exact ⟨.done (by omega) (by omega), fun _ => .done (by omega) (by omega)⟩
      · rename_i written header encoded
        simp only [encoded]
        cases tried : sendFragment attempts with
        | none => simp [tried] at replied
        | some outcome =>
            obtain ⟨whole, going⟩ := sendFragmentCalls_beats tried
              (show spent + price .replyFragment + waitPrice price ≤ limit by omega)
            cases outcome with
            | error failure =>
                simp only [tried, Option.some.injEq, Prod.mk.injEq] at replied
                obtain ⟨-, rfl⟩ := replied
                exact ⟨whole.ends (by omega), fun fine => by cases fine⟩
            | ok remaining =>
                simp only [tried, Option.map_eq_some_iff, Prod.mk.injEq] at replied
                obtain ⟨⟨later, last⟩, again, -, rfl⟩ := replied
                have first := going remaining rfl
                obtain ⟨rests, finishes⟩ := ih again
                  (show spent + price .replyFragment + rest.length * price .replyFragment +
                    waitPrice price ≤ limit by omega)
                exact ⟨(first.append rests).ends (by omega), fun fine =>
                  (first.append (finishes fine)).ends (by omega)⟩

theorem ModuleReply.plan_limit {config : RuntimeConfig} (reply : ModuleReply)
    (wide : moduleMessageHeaderLen < config.inlineBudget.toNat) :
    (reply.plan config.inlineBudget).length ≤ fragmentLimit config := by
  have small := (settleResult_sound reply.status reply.body).2
  have count := pieces_count (settleResult reply.status reply.body).2
    (show 0 < config.inlineBudget.toNat - moduleMessageHeaderLen by omega)
  rw [ModuleReply.plan, List.length_map]
  exact count.trans (Nat.succ_le_succ (Nat.div_le_div_right small))

/-- A reply without a body is one fragment. -/
theorem ModuleReply.plan_bare (inlineBudget : UInt32) {reply : ModuleReply}
    (bare : reply.body = []) : (reply.plan inlineBudget).length = 1 := by
  have empty : (settleResult reply.status reply.body).2 = [] := by
    rw [bare]
    unfold settleResult
    split
    · rfl
    · split <;> rfl
  rw [ModuleReply.plan, empty, pieces_nil]
  rfl

theorem replyModuleResultCalls_beats {inlineBudget : UInt32} {reply : ModuleReply}
    {attempts : List Attempt} {sent : List SentFragment} {result : Except RuntimeError Unit}
    (replied : replyModuleResult inlineBudget reply attempts = some (sent, result)) {most : Nat}
    (few : moduleMessageHeaderLen < inlineBudget.toNat → (reply.plan inlineBudget).length ≤ most)
    (room : spent + most * price .replyFragment + waitPrice price ≤ limit) :
    Beats price limit spent (replyModuleResultCalls inlineBudget reply attempts)
        (spent + most * price .replyFragment + waitPrice price) ∧
      (result = .ok () → Beats price limit spent (replyModuleResultCalls inlineBudget reply attempts)
        (spent + most * price .replyFragment)) := by
  simp only [replyModuleResult] at replied
  unfold replyModuleResultCalls
  split at replied
  · rename_i narrow
    rw [if_pos narrow]
    exact ⟨.done (by omega) (by omega), fun _ => .done (by omega) (by omega)⟩
  · rename_i wide
    rw [if_neg wide]
    have charged := Nat.mul_le_mul_right (price .replyFragment) (few (not_le.mp wide))
    rw [ModuleReply.plan, List.length_map] at charged
    obtain ⟨whole, finishes⟩ := replyPiecesCalls_beats replied
      ((Nat.add_le_add_right (Nat.add_le_add_left charged spent) _).trans room)
    exact ⟨whole.ends (by omega), fun fine => (finishes fine).ends (by omega)⟩

end Replies

section Steps

variable {config : RuntimeConfig} {price : BusCall → Nat} {state next : RuntimeState}
  {action : RuntimeAction} {emitted : List RuntimeOutput} {spent : Nat}

theorem Consumption.reply_bare {now : UInt64} {event : Event} {middle : RuntimeState}
    {reply : ModuleReply} (handled : Consumption config state now event middle (.reply reply)) :
    reply.body = [] := by
  cases handled <;> rfl

/-- The price of the results that can still be waiting. -/
def waitingPrice (config : RuntimeConfig) (price : BusCall → Nat) (state : RuntimeState) : Nat :=
  state.jobs.keys.length * (fragmentLimit config * price .replyFragment)

/-- What the loop has spent since it last read the clock, by where it is: fresh from
that it may poll; while it drains it may still send the waiting results. -/
structure Beating (config : RuntimeConfig) (price : BusCall → Nat) (state : RuntimeState)
    (spent : Nat) : Prop where
  polling : ∀ now, state.pc = .polling now → spent = 0
  draining : state.pc = .draining →
    spent + waitingPrice config price state + waitPrice price ≤ heartbeatLimit config price
  within : spent ≤ heartbeatLimit config price

/-- One step, from one count to the next. -/
def StepBeats (config : RuntimeConfig) (price : BusCall → Nat) (state next : RuntimeState)
    (action : RuntimeAction) (spent : Nat) : Prop :=
  ∃ final, Beats price (heartbeatLimit config price) spent (busCalls config state action) final ∧
    Beating config price next final

theorem waitingPrice_full (pairs : JobsPaired state) : waitingPrice config price state ≤
    moduleMaxInFlight * (fragmentLimit config * price .replyFragment) :=
  Nat.mul_le_mul_right _ pairs.bounded

theorem advance_jobs {position : Nat}
    {move : HandlerRun → Option (HandlerRun × List RuntimeOutput)}
    (taken : state.advance position move = some (next, emitted)) : next.jobs = state.jobs := by
  unfold RuntimeState.advance at taken
  split at taken
  · cases taken
  · obtain ⟨moved, _, same⟩ := Option.map_eq_some_iff.mp taken
    exact (congrArg (·.1.jobs) same).symm

theorem deliverStep_jobs {position : Nat}
    (taken : deliverStep state position = some (next, emitted)) : next.jobs = state.jobs := by
  unfold deliverStep at taken
  split at taken
  · cases taken
  · split at taken
    · split at taken
      · exact (congrArg (·.1.jobs) (Option.some.inj taken)).symm
      · cases taken
    · cases taken

/-- A step of a goroutine makes no call. -/
theorem Beating.silent (beating : Beating config price state spent)
    (calls : busCalls config state action = []) (pc : next.pc = state.pc)
    (jobs : next.jobs = state.jobs) : StepBeats config price state next action spent := by
  refine ⟨spent, calls ▸ .done beating.within (Nat.le_refl _), ?_, ?_, beating.within⟩
  · rw [pc]
    exact beating.polling
  · rw [pc, waitingPrice, jobs]
    exact beating.draining

/-- A loop that left its cycle beats no more. -/
theorem StepBeats.left (calls : Beats price (heartbeatLimit config price) spent
      (busCalls config state action) (heartbeatLimit config price))
    (polls : ∀ now, next.pc ≠ .polling now) (drains : next.pc ≠ .draining) :
    StepBeats config price state next action spent :=
  ⟨_, calls, fun now here => absurd here (polls now), fun here => absurd here drains, Nat.le_refl _⟩

theorem receive_beats (beating : Beating config price state spent) (pairs : JobsPaired state)
    (here : state.pc = .draining) {attempts : List Attempt} {result : ModuleResult}
    {rest : List ModuleResult} (buffered : state.done = result :: rest)
    (taken : answer config { state with
      done := rest, jobs := state.jobs.erase result.work.correlationID } result.reply attempts =
        some (next, emitted)) :
    StepBeats config price state next (.receive attempts) spent := by
  obtain ⟨⟨sent, outcome⟩, replied, same⟩ := Option.map_eq_some_iff.mp taken
  obtain ⟨rfl, -⟩ := Prod.mk.inj same
  have calls : busCalls config state (.receive attempts) =
      replyModuleResultCalls config.inlineBudget result.reply attempts := by
    simp [busCalls, replyMadeCalls, replyMade, buffered, RuntimeAction.attempts]
  have found := pairs.own (show result ∈ state.done by rw [buffered]; exact List.mem_cons_self)
  have fewer := (tableValues_erase found).length_eq
  rw [List.length_cons, length_tableValues, length_tableValues] at fewer
  have room := beating.draining here
  rw [waitingPrice, fewer, Nat.succ_mul] at room
  obtain ⟨whole, finishes⟩ := replyModuleResultCalls_beats replied result.reply.plan_limit
    (show spent + fragmentLimit config * price .replyFragment + waitPrice price ≤
      heartbeatLimit config price by omega)
  cases outcome with
  | error failure =>
      refine StepBeats.left (calls ▸ whole.ends (by omega)) ?_ ?_ <;> simp
  | ok done =>
      refine ⟨_, calls ▸ finishes rfl, ?_, fun _ => ?_, ?_⟩
      · simp
      · simp only [waitingPrice]
        omega
      · omega

theorem drained_beats (beating : Beating config price state spent) (here : state.pc = .draining)
    {ctxDone epochChanged : Bool} {now : UInt64}
    (taken : runtimeStep config state (.drained ctxDone epochChanged now) = some (next, emitted)) :
    StepBeats config price state next (.drained ctxDone epochChanged now) spent := by
  have room := beating.draining here
  unfold waitPrice at room
  have looked : Beats price (heartbeatLimit config price) spent [.epochChanged]
      (spent + price .epochChanged) := .charge BusCall.epochChanged (by omega)
  simp only [runtimeStep, here] at taken
  split at taken
  · cases taken
  · cases ctxDone with
    | true =>
        obtain ⟨rfl, -⟩ := Prod.mk.inj (Option.some.inj taken)
        exact .left (.done beating.within beating.within) (by simp) (by simp)
    | false =>
        cases epochChanged with
        | true =>
            obtain ⟨rfl, -⟩ := Prod.mk.inj (Option.some.inj taken)
            exact .left (looked.ends (by omega)) (by simp) (by simp)
        | false =>
            obtain ⟨rfl, -⟩ := Prod.mk.inj (Option.some.inj taken)
            have beaten := looked.append
              (.mark (heartbeatCall now) (heartbeatCall_readsClock now) (by omega))
            exact ⟨0, beaten, fun _ _ => rfl, by simp, Nat.zero_le _⟩

/-- After a poll the loop drains again, with the table at most full. -/
theorem StepBeats.polled (pairs : JobsPaired next) (drains : next.pc = .draining) {final : Nat}
    (calls : Beats price (heartbeatLimit config price) spent (busCalls config state action) final)
    (cheap : final ≤ price .poll + max (price .idle) (price .replyFragment)) :
    StepBeats config price state next action spent := by
  have full : waitingPrice config price next ≤ _ := waitingPrice_full pairs
  have room : final + waitingPrice config price next + waitPrice price ≤
      heartbeatLimit config price := by
    unfold heartbeatLimit
    omega
  exact ⟨final, calls, by simp [drains], fun _ => room, by omega⟩

theorem poll_beats (beating : Beating config price state spent) (pairs : JobsPaired next)
    {now : UInt64} (here : state.pc = .polling now) {attempts : List Attempt}
    {outcome : Client.PollOutcome}
    (taken : pollStep config state now attempts outcome = some (next, emitted)) :
    StepBeats config price state next (.poll outcome attempts) spent := by
  obtain rfl := beating.polling now here
  have limit : price .poll + max (price .idle) (price .replyFragment) + waitPrice price ≤
      heartbeatLimit config price := by
    unfold heartbeatLimit
    omega
  have polled : Beats price (heartbeatLimit config price) 0 [.poll] (price .poll) :=
    (Spaced.charge BusCall.poll (by omega)).ends (by omega)
  cases outcome with
  | panicked =>
      obtain ⟨rfl, -⟩ := Prod.mk.inj (Option.some.inj taken)
      exact .left (polled.ends (by omega)) (by simp) (by simp)
  | failed failure =>
      have ended : ∃ result, next.pc = .returned result := by
        cases failure <;>
          (obtain ⟨rfl, -⟩ := Prod.mk.inj (Option.some.inj taken)
           exact ⟨_, rfl⟩)
      obtain ⟨result, ended⟩ := ended
      exact .left (polled.ends (by omega)) (by simp [ended]) (by simp [ended])
  | empty =>
      obtain ⟨rfl, -⟩ := Prod.mk.inj (Option.some.inj taken)
      have paused := polled.append (.charge .idle (by omega))
      exact .polled pairs rfl paused (by omega)
  | received event =>
      simp only [pollStep] at taken
      split at taken
      · rename_i middle reply handled
        obtain ⟨⟨final, fragments⟩, answered, same⟩ := Option.map_eq_some_iff.mp taken
        obtain ⟨rfl, -⟩ := Prod.mk.inj same
        obtain ⟨⟨sent, result⟩, replied, same⟩ := Option.map_eq_some_iff.mp answered
        obtain ⟨rfl, -⟩ := Prod.mk.inj same
        have calls : busCalls config state (.poll (.received event) attempts) =
            .poll :: replyModuleResultCalls config.inlineBudget reply attempts := by
          simp [busCalls, replyMadeCalls, replyMade, here, handled, RuntimeAction.attempts]
        have bare := (consumeEvent_cases handled).reply_bare
        obtain ⟨whole, finishes⟩ := replyModuleResultCalls_beats replied
          (fun _ => (ModuleReply.plan_bare _ bare).le)
          (show price .poll + 1 * price .replyFragment + waitPrice price ≤
            heartbeatLimit config price by omega)
        cases result with
        | error failure =>
            refine StepBeats.left (calls ▸ (polled.append whole).ends (by omega)) ?_ ?_ <;> simp
        | ok done =>
            have through : Beats price (heartbeatLimit config price) 0
                (busCalls config state (.poll (.received event) attempts))
                (price .poll + 1 * price .replyFragment) := by
              rw [calls]
              exact polled.append (finishes rfl)
            exact .polled pairs rfl through (by omega)
      · rename_i middle disposition other handled
        obtain ⟨rfl, -⟩ := Prod.mk.inj (Option.some.inj taken)
        have calls : busCalls config state (.poll (.received event) attempts) = [.poll] := by
          simp [busCalls, replyMadeCalls, replyMade, here, handled]
        exact .polled pairs rfl (calls ▸ polled) (by omega)

theorem runtimeStep_beats (beating : Beating config price state spent) (pairs : JobsPaired state)
    (taken : runtimeStep config state action = some (next, emitted)) :
    StepBeats config price state next action spent := by
  have after := pairs.step (runtimeStep_effect taken).jobChange
  have whole := taken
  unfold runtimeStep at taken
  split at taken
  · rename_i here
    split at taken
    · cases taken
    · rename_i result rest buffered
      exact receive_beats beating pairs here buffered taken
  · rename_i here
    exact drained_beats beating here whole
  · rename_i here
    exact poll_beats beating after here taken
  · exact beating.silent rfl (advance_pc taken) (advance_jobs taken)
  · exact beating.silent rfl (advance_pc taken) (advance_jobs taken)
  · exact beating.silent rfl (advance_pc taken) (advance_jobs taken)
  · exact beating.silent rfl (deliverStep_pc taken) (deliverStep_jobs taken)
  · rename_i here
    split at taken
    · cases taken
    · split at taken
      · obtain ⟨rfl, -⟩ := Prod.mk.inj (Option.some.inj taken)
        exact .left (.done beating.within beating.within) (by simp [here]) (by simp [here])
      · cases taken
  · split at taken
    · cases taken
    · obtain ⟨rfl, -⟩ := Prod.mk.inj (Option.some.inj taken)
      exact .left (.done beating.within beating.within) (by simp) (by simp)
  · cases taken

end Steps

section Runs

variable {config : RuntimeConfig} {state : RuntimeState} {actions : List RuntimeAction}
  {calls : List BusCall}

theorem beating_initial (config : RuntimeConfig) (price : BusCall → Nat) :
    Beating config price .initial 0 where
  polling _ here := by cases here
  draining _ := by
    have none : waitingPrice config price .initial = 0 := Nat.zero_mul _
    rw [none]
    unfold heartbeatLimit
    omega
  within := Nat.zero_le _

theorem callMachine_beats (price : BusCall → Nat)
    (run : (callMachine config).Run .initial actions state calls) :
    JobsPaired state ∧ ∃ spent, Beats price (heartbeatLimit config price) 0 calls spent ∧
      Beating config price state spent := by
  induction run with
  | nil =>
      exact ⟨runtime_tables_initial.1, 0, .done (Nat.zero_le _) (Nat.le_refl _),
        beating_initial config price⟩
  | snoc before taken ih =>
      obtain ⟨pairs, spent, earlier, beating⟩ := ih
      obtain ⟨⟨next, emitted⟩, moved, same⟩ := Option.map_eq_some_iff.mp taken
      obtain ⟨rfl, rfl⟩ := Prod.mk.inj same
      obtain ⟨final, here, onward⟩ := runtimeStep_beats beating pairs moved
      exact ⟨pairs.step (runtimeStep_effect moved).jobChange, final, earlier.append here, onward⟩

/-- Whatever its bus calls and pauses cost, a serving module spends at most the
limit on them from one heartbeat to the next, and once more the limit for each read
of the clock that fails between them. -/
theorem heartbeat_gap (price : BusCall → Nat)
    (run : (callMachine config).Run .initial actions state calls) {stretch : List BusCall}
    (inside : stretch <:+: calls) (silent : .heartbeat ∉ stretch) :
    (stretch.map price).sum ≤ heartbeatLimit config price +
      stretch.count .clockFailed * (heartbeatLimit config price + price .clockFailed) := by
  obtain ⟨-, spent, spaced, -⟩ := callMachine_beats price run
  have total := spaced.stretch_total inside
  have failures : stretch.filter BusCall.readsClock =
      List.replicate (stretch.count .clockFailed) .clockFailed := by
    rw [← List.filter_beq]
    refine List.filter_congr fun call member => ?_
    have other : call ≠ .heartbeat := fun same => silent (same ▸ member)
    simp [BusCall.readsClock, other]
  rwa [failures, List.map_replicate, List.sum_replicate, Nat.nsmul_eq_mul] at total

/-- A request comes in, is answered and finds the ring full twice, the first time with a
clock that fails. -/
theorem heartbeat_gap_blocked :
    let blocked : List Attempt := [{ result := .error .errWouldBlock },
      { result := .error .errWouldBlock, now := 7 }, { result := .ok () }]
    let stretch : List BusCall := [.poll, .replyFragment, .idle, .epochChanged, .clockFailed,
      .replyFragment, .idle, .epochChanged]
    ∃ state calls, (callMachine servingConfig).Run .initial
        ([.drained false false 3, .poll (.received (invokeEvent 1 [7] false)) [], .invoke 0] ++
          answering 0 ++ [.receive blocked]) state calls ∧
      stretch <:+: calls ∧
      (stretch.map fun _ => 1).sum ≤ heartbeatLimit servingConfig (fun _ => 1) +
        stretch.count .clockFailed * (heartbeatLimit servingConfig (fun _ => 1) + 1) := by
  intro blocked stretch
  have executed : ((callMachine servingConfig).execute .initial
      ([.drained false false 3, .poll (.received (invokeEvent 1 [7] false)) [], .invoke 0] ++
        answering 0 ++ [.receive blocked])).any (fun result => result.2 ==
          [.epochChanged, .heartbeat] ++ stretch ++ [.heartbeat, .replyFragment]) = true := by
    decide +kernel
  obtain ⟨⟨state, calls⟩, ran, seen⟩ := (Option.any_eq_true _ _).mp executed
  obtain rfl := beq_iff_eq.mp seen
  have run := Machine.run_of_execute ran
  have inside : stretch <:+: [.epochChanged, .heartbeat] ++ stretch ++ [.heartbeat, .replyFragment] :=
    ⟨_, _, rfl⟩
  exact ⟨state, _, run, inside, heartbeat_gap (fun _ => 1) run inside (by decide)⟩

end Runs

end AimeeLearning.Bus
