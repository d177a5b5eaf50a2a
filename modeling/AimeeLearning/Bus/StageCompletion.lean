import AimeeLearning.Bus.StageService

/-! A calm run can always go on until the request is answered: the loop drains
its results, consumes the fragments that are still to come and waits for the
handler, whatever the handler returns. -/

set_option autoImplicit false

namespace AimeeLearning.Bus

open Library

section Sending

variable {inlineBudget : UInt32} {reply : ModuleReply}

/-- A ring that takes every fragment at once. -/
def freely (count : Nat) : List Attempt := List.replicate count { result := .ok () }

theorem freely_patient (count : Nat) : patient (freely count) = true := by
  simp [patient, freely]

theorem replyPieces_sends (staged : reply.stageID ≠ 0) {parts : List (Bytes × Bool)}
    (small : ∀ piece ∈ parts, piece.1.length ≤ moduleMessageMaxBody.toNat) :
    ∃ sent, replyPieces reply parts (freely parts.length) = some (sent, .ok ()) := by
  induction parts with
  | nil => exact ⟨[], rfl⟩
  | cons piece rest ih =>
      obtain ⟨part, more⟩ := piece
      obtain ⟨sent, replied⟩ := ih fun other member => small other (List.mem_cons_of_mem _ member)
      have valid := reply.message_valid staged (small (part, more) List.mem_cons_self)
      have tried : sendFragment (freely ((part, more) :: rest).length) =
          some (.ok (freely rest.length)) := rfl
      have long : ¬ moduleMessageHeaderLen + part.length < moduleMessageHeaderLen := by omega
      simp only [replyPieces, ModuleMessage.encode, valid, List.length_replicate, long, tried,
        replied]
      exact ⟨_, rfl⟩

theorem replyModuleResult_sends (staged : reply.stageID ≠ 0)
    (room : moduleMessageHeaderLen < inlineBudget.toNat) :
    ∃ attempts sent, patient attempts = true ∧
      replyModuleResult inlineBudget reply attempts = some (sent, .ok ()) := by
  have bound := (settleResult_sound reply.status reply.body).2
  have small : ∀ piece ∈ pieces (inlineBudget.toNat - moduleMessageHeaderLen)
      (settleResult reply.status reply.body).2, piece.1.length ≤ moduleMessageMaxBody.toNat :=
    fun piece member => (pieces_length _ (by omega) piece member).2.1.trans bound
  obtain ⟨sent, replied⟩ := replyPieces_sends staged small
  have sends : replyModuleResult inlineBudget reply (freely (pieces
      (inlineBudget.toNat - moduleMessageHeaderLen)
        (settleResult reply.status reply.body).2).length) = some (sent, .ok ()) := by
    rw [replyModuleResult, if_neg (by omega)]
    exact replied
  exact ⟨_, sent, freely_patient _, sends⟩

end Sending

theorem receivedOf_unconsumed {correlation : UInt64} {outputs : List RuntimeOutput}
    (unconsumed : ∀ event, .consumed event ∉ outputs) : receivedOf correlation outputs = [] := by
  refine List.filterMap_eq_nil_iff.mpr fun output member => ?_
  cases output with
  | consumed event => exact absurd member (unconsumed event)
  | _ => rfl

theorem receivedOf_all {correlation : UInt64} {events : List Event}
    (mine : ∀ event ∈ events,
      event.frame.has fRequest = true ∧ event.frame.correlationId = correlation) :
    receivedOf correlation (events.map .consumed) = events := by
  induction events with
  | nil => rfl
  | cons event rest ih =>
      rw [List.map_cons, receivedOf_consumed, if_pos (mine event List.mem_cons_self),
        ih fun other member => mine other (List.mem_cons_of_mem _ member)]
      rfl

section Draining

variable (config : RuntimeConfig) (correlation : UInt64) {state : RuntimeState}

theorem returns_to_channel (alive : state.pc.Alive) :
    ∃ actions, ((runtimeMachine config).restrict (calm correlation)).Run state actions
      { state with pc := .draining } [] := by
  obtain ⟨pc, assemblies, jobs, flags, running, done⟩ := state
  cases pc with
  | draining => exact ⟨[], .nil⟩
  | polling now =>
      exact ⟨[.poll .empty []], .single (Machine.restrict_step.mpr ⟨rfl, rfl⟩)⟩
  | stopping => exact alive.elim
  | returned result => exact alive.elim
  | panicked => exact alive.elim

theorem receives (room : moduleMessageHeaderLen < config.inlineBudget.toNat)
    (staged : state.Staged) (here : state.pc = .draining) {result : ModuleResult}
    {rest : List ModuleResult} (buffered : state.done = result :: rest) :
    ∃ (attempts : List Attempt) (sent : List SentFragment),
      ((runtimeMachine config).restrict (calm correlation)).Run state
      [.receive attempts]
      { state with
        pc := .draining, done := rest, jobs := state.jobs.erase result.work.correlationID }
      (sent.map .replied) := by
  have named : result.reply.stageID ≠ 0 :=
    staged result.ticket (by simp [RuntimeState.tickets, buffered])
  obtain ⟨attempts, sent, waits, replied⟩ := replyModuleResult_sends named room
  refine ⟨attempts, sent, .single (Machine.restrict_step.mpr ⟨waits, ?_⟩)⟩
  simp only [runtimeMachine, runtimeStep, here, buffered, answer, replied, Option.map_some]

theorem drains (room : moduleMessageHeaderLen < config.inlineBudget.toNat)
    (staged : state.Staged) (here : state.pc = .draining) :
    ∃ actions emitted jobs,
      ((runtimeMachine config).restrict (calm correlation)).Run state actions
        { state with pc := .draining, done := [], jobs } emitted ∧
      jobs.keys.length ≤ state.jobs.keys.length ∧
      (∀ event, .consumed event ∉ emitted) ∧ answersOf correlation emitted = [] := by
  generalize buffered : state.done = done
  induction done generalizing state with
  | nil =>
      obtain ⟨pc, assemblies, jobs, flags, running, done⟩ := state
      obtain rfl : pc = .draining := here
      obtain rfl : done = [] := buffered
      exact ⟨[], [], jobs, .nil, le_refl _, by simp, rfl⟩
  | cons result rest ih =>
      obtain ⟨attempts, sent, received⟩ :=
        receives config correlation room staged here buffered
      have staged : ({ state with
          pc := .draining, done := rest, jobs := state.jobs.erase result.work.correlationID } :
            RuntimeState).Staged := by
        intro ticket member
        refine staged ticket ?_
        simp only [RuntimeState.tickets, buffered, List.mem_append, List.map_cons,
          List.mem_cons] at member ⊢
        tauto
      obtain ⟨actions, emitted, jobs, drained, fewer, unconsumed, unanswered⟩ :=
        ih staged rfl rfl
      refine ⟨_, _, jobs, received.append drained, ?_, ?_, ?_⟩
      · refine fewer.trans ?_
        simpa [AList.keys_erase] using List.length_erase_le
      · intro event member
        rcases List.mem_append.mp member with here | later
        · simp at here
        · exact unconsumed event later
      · simp [unanswered]

end Draining

section Goroutine

variable (config : RuntimeConfig) (correlation : UInt64) {state : RuntimeState}

theorem advances {front back : List HandlerRun} {run next : HandlerRun}
    {action : RuntimeAction} {emitted : List RuntimeOutput}
    (goroutine : runtimeStep config state action =
      state.advance front.length (handlerStep state.flags · action))
    (allowed : calm correlation state action = true)
    (located : state.running = front ++ run :: back)
    (moved : handlerStep state.flags run action = some (next, emitted)) :
    ((runtimeMachine config).restrict (calm correlation)).Run state [action]
      { state with running := front ++ next :: back } emitted := by
  refine .single (Machine.restrict_step.mpr ⟨allowed, goroutine.trans ?_⟩)
  simp [RuntimeState.advance, located, moved]

/-- The goroutine of a job can go on until its result is ready to be sent,
whatever the handler returns. -/
theorem checks (response : Bytes) (status : ModuleStatus) {front back : List HandlerRun}
    {run : HandlerRun} (located : state.running = front ++ run :: back) :
    ∃ actions emitted body final,
      ((runtimeMachine config).restrict (calm correlation)).Run state actions
        { state with running := front ++ ⟨run.work, .checked body final⟩ :: back } emitted ∧
      (∀ event, .consumed event ∉ emitted) ∧
      (run.work.correlationID = correlation →
        (∃ body, run.phase = .ready body) ∨ run.phase = .calling →
          answersOf correlation emitted = [(response, status)]) := by
  have fromAnswered : ∀ (state : RuntimeState) (body : Bytes) (given : ModuleStatus),
      state.running = front ++ ⟨run.work, .answered body given⟩ :: back →
      ∃ actions body final, ((runtimeMachine config).restrict (calm correlation)).Run state actions
        { state with running := front ++ ⟨run.work, .checked body final⟩ :: back } [] := by
    intro state body given located
    exact ⟨[.checkCancelled front.length 0], _, _, advances config correlation rfl rfl located rfl⟩
  have fromCalling : ∀ state : RuntimeState,
      state.running = front ++ ⟨run.work, .calling⟩ :: back →
      ∃ actions body final, ((runtimeMachine config).restrict (calm correlation)).Run state actions
        { state with running := front ++ ⟨run.work, .checked body final⟩ :: back }
        [.answered run.work response status] := by
    intro state located
    obtain ⟨actions, body, final, later⟩ := fromAnswered
      { state with running := front ++ ⟨run.work, .answered (settleResult status response).2
        (settleResult status response).1⟩ :: back } _ _ rfl
    have returned : ((runtimeMachine config).restrict (calm correlation)).Run state
        [.handlerReturns front.length response status] _ [.answered run.work response status] :=
      advances config correlation rfl rfl located rfl
    exact ⟨_, body, final, returned.append later⟩
  obtain ⟨work, phase⟩ := run
  cases phase with
  | ready body =>
      obtain ⟨actions, result, final, later⟩ := fromCalling
        { state with running := front ++ ⟨work, .calling⟩ :: back } rfl
      have invoked : ((runtimeMachine config).restrict (calm correlation)).Run state
          [.invoke front.length] _ [.invoked work body] := advances config correlation rfl rfl located rfl
      refine ⟨_, _, result, final, invoked.append later, by simp, fun owned _ => ?_⟩
      simp [answersOf_answered, show work.correlationID = correlation from owned]
  | calling =>
      obtain ⟨actions, result, final, later⟩ := fromCalling state located
      refine ⟨actions, _, result, final, later, by simp, fun owned _ => ?_⟩
      rw [answersOf_answered, if_pos owned]
  | answered body given =>
      obtain ⟨actions, result, final, later⟩ := fromAnswered state body given located
      exact ⟨actions, [], result, final, later, by simp, by simp⟩
  | checked body given =>
      refine ⟨[], [], body, given, ?_, by simp, by simp⟩
      rw [← located]
      exact .nil

theorem delivers {front back : List HandlerRun} {result : ModuleResult}
    (located : state.running = front ++ result.ticket :: back) (empty : state.done = []) :
    ((runtimeMachine config).restrict (calm correlation)).Run state [.deliver front.length]
      { state with running := front ++ back, done := [result] } [] := by
  refine .single (Machine.restrict_step.mpr ⟨rfl, ?_⟩)
  simp [runtimeMachine, runtimeStep, deliverStep, located, ModuleResult.ticket, empty,
    moduleMaxInFlight]

end Goroutine

section Completion

variable {config : RuntimeConfig} {request : StageRequest} {state : RuntimeState}
  {outputs : List RuntimeOutput}

/-- The tables have room for a fragment of the correlation. -/
def RuntimeState.Room (state : RuntimeState) (correlation : UInt64) : Prop :=
  (state.assemblies.erase correlation).keys.length < moduleMaxInFlight ∧
    state.jobs.keys.length < moduleMaxInFlight

theorem Serving.takes (serving : Serving config request state outputs)
    (serves : Serves config request) (formed : request.Formed) (here : state.pc = .draining)
    (empty : state.done = []) {event : Event}
    (within : receivedOf request.correlation outputs ++ [event] <+: request.fragments)
    (room : state.Room request.correlation) :
    ∃ actions next, ((runtimeMachine config).restrict (calm request.correlation)).Run state actions
        next [.consumed event] ∧
      next.pc = .draining ∧ next.done = [] ∧
      (event.frame.has fMore = true → next.Room request.correlation) := by
  have member : event ∈ request.fragments := within.subset (by simp)
  obtain ⟨asked, addressed⟩ := formed.addressed event member
  have polling : ((runtimeMachine config).restrict (calm request.correlation)).Run state
      [.drained false false 0] { state with pc := .polling 0 } [] := by
    refine .single (Machine.restrict_step.mpr ⟨rfl, ?_⟩)
    simp [runtimeMachine, runtimeStep, here, empty]
  have polled := serving.run serves formed polling
    (by simpa using (List.prefix_append _ _).trans within) (by simp)
  have allowed : calm request.correlation { state with pc := .polling 0 }
      (.poll (.received event) []) = true := by
    simpa [calm, addressed, patient, RuntimeState.Room] using room
  rw [List.append_nil] at polled
  generalize handled : consumeEvent config { state with pc := .polling 0 } 0 event = outcome
  obtain ⟨middle, disposition⟩ := outcome
  have proceeds : (∀ reply, disposition ≠ .reply reply) →
      ((runtimeMachine config).restrict (calm request.correlation)).Run state
        ([.drained false false 0] ++ [.poll (.received event) []]) { middle with pc := .draining }
        ([] ++ [.consumed event]) := by
    intro silent
    refine polling.append (.single (Machine.restrict_step.mpr ⟨allowed, ?_⟩))
    simp only [runtimeMachine, runtimeStep, pollStep, handled]
  obtain ⟨message, assembly, -, ⟨more, rfl, rfl⟩ | ⟨last, rfl, rfl⟩⟩ :=
    (polled.phase.partly within).takes serves formed polled.idle (consumeEvent_cases handled)
      within (formed.kept event member) room.1 room.2
  · refine ⟨_, _, proceeds (by simp), rfl, empty, fun _ => ⟨?_, room.2⟩⟩
    have same : ((state.assemblies.insert event.frame.correlationId
        { assembly with body := assembly.body ++ message.body event.payload }).erase
          request.correlation).keys.length =
        (state.assemblies.erase request.correlation).keys.length := by
      simp [AList.keys_erase, AList.keys_insert, addressed]
    exact same.trans_lt room.1
  · refine ⟨_, _, proceeds (by simp), rfl, empty, fun more => ?_⟩
    simp [last] at more

theorem Serving.gathers (serving : Serving config request state outputs)
    (serves : Serves config request) (formed : request.Formed) (here : state.pc = .draining)
    (empty : state.done = []) {remaining : List Event}
    (whole : receivedOf request.correlation outputs ++ remaining = request.fragments)
    (room : remaining ≠ [] → state.Room request.correlation) :
    ∃ actions next, ((runtimeMachine config).restrict (calm request.correlation)).Run state actions
        next (remaining.map .consumed) ∧ next.pc = .draining ∧ next.done = [] := by
  induction remaining generalizing state outputs with
  | nil => exact ⟨[], state, .nil, here, empty⟩
  | cons event rest ih =>
      have member : event ∈ request.fragments := by simp [← whole]
      have within : receivedOf request.correlation outputs ++ [event] <+: request.fragments :=
        ⟨rest, by simpa using whole⟩
      have seen : receivedOf request.correlation (outputs ++ [.consumed event]) =
          receivedOf request.correlation outputs ++ [event] := by
        rw [receivedOf_append, receivedOf_consumed, if_pos (formed.addressed event member)]
        rfl
      obtain ⟨actions, next, took, here, empty, still⟩ :=
        serving.takes serves formed here empty within (room (by simp))
      have after := serving.run serves formed took (seen ▸ within) fun other consumed _ => by
        obtain rfl : other = event := by simpa using consumed
        exact formed.kept other member
      have further : rest ≠ [] → next.Room request.correlation := by
        intro nonempty
        refine still ?_
        by_contra last
        have all := (formed.wellFormed.last_iff within).mp (by simpa using last)
        rw [← all] at whole
        simp [nonempty] at whole
      obtain ⟨more, final, gathered, done⟩ :=
        ih after here empty (by rw [seen]; simpa using whole) further
      exact ⟨_, final, took.append gathered, done⟩

theorem ticketsOf_taken {correlation : UInt64} {front back : List HandlerRun} {run : HandlerRun}
    (located : state.running = front ++ run :: back) (empty : state.done = [])
    (flown : state.ticketsOf correlation = [run]) :
    (front ++ back).filter (fun ticket => ticket.work.correlationID == correlation) = [] := by
  have owned : (run.work.correlationID == correlation) = true :=
    (List.mem_filter.mp (show run ∈ state.ticketsOf correlation by simp [flown])).2
  simp only [RuntimeState.ticketsOf, RuntimeState.tickets, located, empty, List.map_nil,
    List.append_nil, List.filter_append, List.filter_cons, owned, if_true] at flown
  rw [List.filter_append]
  cases before : front.filter fun ticket => ticket.work.correlationID == correlation with
  | nil => simpa [before] using flown
  | cons head tail => simp [before] at flown

theorem Serving.lands (serving : Serving config request state outputs)
    (serves : Serves config request) (here : state.pc = .draining) (empty : state.done = [])
    (whole : receivedOf request.correlation outputs = request.fragments) (response : Bytes)
    (status : ModuleStatus) :
    ∃ actions next emitted,
      ((runtimeMachine config).restrict (calm request.correlation)).Run state actions next emitted ∧
      (∀ event, .consumed event ∉ emitted) ∧ next.ticketsOf request.correlation = [] ∧
      (answersOf request.correlation outputs = [] →
        answersOf request.correlation emitted = [(response, status)]) := by
  cases flown : state.ticketsOf request.correlation with
  | nil =>
      obtain ⟨-, given, final, answered, -⟩ := serving.served.landed whole flown
      exact ⟨[], state, [], .nil, by simp, flown, by simp [answered]⟩
  | cons ticket more =>
      have member : ticket ∈ state.ticketsOf request.correlation := by simp [flown]
      have alone := (serving.phase.flown member).1
      have flies := serving.served.flying ticket member
      have owned : ticket.work.correlationID = request.correlation := by
        simpa using (List.mem_filter.mp member).2
      have runs : ticket ∈ state.running := by
        simpa [RuntimeState.tickets, empty] using (List.mem_filter.mp member).1
      obtain ⟨front, back, located⟩ := List.append_of_mem runs
      obtain ⟨first, said, body, final, checked, unconsumed, answers⟩ :=
        checks config request.correlation response status located
      let result : ModuleResult := ⟨ticket.work, body, final⟩
      let ready : RuntimeState := { state with running := front ++ result.ticket :: back }
      have delivered := delivers config request.correlation (show ready.running = _ from rfl) empty
      let sent : RuntimeState := { ready with running := front ++ back, done := [result] }
      have staged : sent.Staged := by
        intro other held
        have kept : other ∈ front ∨ other ∈ back ∨ other = result.ticket := by
          simpa [sent, RuntimeState.tickets] using held
        rcases kept with before | behind | rfl
        · exact serving.staged other (by simp [RuntimeState.tickets, located, before])
        · exact serving.staged other (by simp [RuntimeState.tickets, located, behind])
        · exact serving.staged ticket (List.mem_append_left _ runs)
      obtain ⟨attempts, replies, received⟩ := receives config request.correlation serves.room
        staged here (show sent.done = result :: [] from rfl)
      refine ⟨_, _, _, (checked.append delivered).append received, ?_, ?_, ?_⟩
      · intro event said
        rcases List.mem_append.mp said with earlier | later
        · exact unconsumed event (by simpa using earlier)
        · simp at later
      · simpa [RuntimeState.ticketsOf, RuntimeState.tickets, sent, ready] using
          ticketsOf_taken located empty alone
      · intro unanswered
        have pending : (∃ body, ticket.phase = .ready body) ∨ ticket.phase = .calling := by
          cases phase : ticket.phase with
          | ready body => exact .inl ⟨body, rfl⟩
          | calling => exact .inr rfl
          | answered body final =>
              obtain ⟨_, _, answered, -⟩ := flies.answered body final (.inl phase)
              simp [unanswered] at answered
          | checked body final =>
              obtain ⟨_, _, answered, -⟩ := flies.answered body final (.inr phase)
              simp [unanswered] at answered
        simp [answers owned pending]

/-- From every state of a calm run the request comes to its answer, whatever
the handler returns. -/
theorem Serving.completes (serving : Serving config request state outputs)
    (serves : Serves config request) (formed : request.Formed) {remaining : List Event}
    (whole : receivedOf request.correlation outputs ++ remaining = request.fragments)
    (room : remaining ≠ [] → state.Room request.correlation) (response : Bytes)
    (status : ModuleStatus) :
    ∃ actions next emitted,
      ((runtimeMachine config).restrict (calm request.correlation)).Run state actions next emitted ∧
      receivedOf request.correlation (outputs ++ emitted) = request.fragments ∧
      (∀ event, .consumed event ∈ emitted → event ∈ request.fragments) ∧
      next.ticketsOf request.correlation = [] ∧
      (answersOf request.correlation outputs = [] →
        answersOf request.correlation emitted = [(response, status)]) := by
  obtain ⟨first, returned⟩ := returns_to_channel config request.correlation serving.alive
  obtain ⟨second, replies, jobs, drained, fewer, unconsumed, unanswered⟩ :=
    @drains config request.correlation { state with pc := .draining } serves.room serving.staged rfl
  have empty := serving.run serves formed (returned.append drained)
    (by simp [receivedOf_unconsumed unconsumed, ← whole]) fun event said =>
      absurd said (by simpa using unconsumed event)
  obtain ⟨third, middle, gathered, here, still⟩ := empty.gathers serves formed rfl rfl
    (by simpa [receivedOf_unconsumed unconsumed] using whole)
    fun nonempty => ⟨(room nonempty).1, fewer.trans_lt (room nonempty).2⟩
  have member : ∀ event ∈ remaining, event ∈ request.fragments := by
    intro event later
    simp [← whole, later]
  have taken : receivedOf request.correlation (remaining.map .consumed) = remaining :=
    receivedOf_all fun event later => formed.addressed event (member event later)
  have seen : receivedOf request.correlation
      (outputs ++ ([] ++ replies) ++ remaining.map .consumed) = request.fragments := by
    simp [receivedOf_unconsumed unconsumed, taken, whole]
  have full := empty.run serves formed gathered (seen ▸ List.prefix_refl _) fun event said _ =>
    formed.kept event (member event (by simpa using said))
  obtain ⟨fourth, final, said, landed, quiet, nothing, answers⟩ :=
    full.lands serves here still seen response status
  have silent : answersOf request.correlation (remaining.map .consumed) = [] := by
    simp [answersOf]
  refine ⟨_, final, _, (returned.append drained).append (gathered.append landed), ?_, ?_, nothing,
    fun none_ => ?_⟩
  · simpa [receivedOf_unconsumed quiet] using seen
  · intro event found
    simp only [List.nil_append, List.mem_append, List.mem_map, RuntimeOutput.consumed.injEq,
      exists_eq_right] at found
    rcases found with earlier | later | last
    · exact absurd earlier (unconsumed event)
    · exact member event later
    · exact absurd last (quiet event)
  · simpa [unanswered, silent] using answers (by simp [none_, unanswered, silent])

end Completion

end AimeeLearning.Bus
