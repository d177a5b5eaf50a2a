import AimeeLearning.Bus.CallerWait
import AimeeLearning.Bus.ModuleFrames

/-! The deadline of a stage call. The wait looks at the clock and at the context
only when a poll finds nothing, so traffic that does not end the call keeps it
polling past both. -/

set_option autoImplicit false

namespace AimeeLearning.Bus

open Library

/-- The context has ended or the clock has passed the expiry. -/
def PollStep.overdue (expiry : Option Int) (step : PollStep) : Bool :=
  step.ctxDone || expiry.any (step.now > ·)

def PollStep.delivers (step : PollStep) : Bool :=
  match step.outcome with
  | .received _ => true
  | _ => false

/-- The result message that an event carries for a call. -/
def resultFor (kind : UInt32) (correlation : UInt64) (event : Event) : Option ModuleMessage :=
  if event.frame.eventKind = kind ∧ event.frame.correlationId = correlation then
    match decodeModuleMessage event.payload with
    | .ok message => if message.operation = moduleOpResult then some message else none
    | .error _ => none
  else none

/-- The events that end a call which has `had` bytes of its reply: a refusal of
the host, and a result that is not OK, longer than its payload, over the limit
or the last one. -/
inductive EndsCall (limit kind : UInt32) (correlation : UInt64) (had : Nat) (event : Event) : Prop
  | refused (own : event.frame.correlationId = correlation)
      (verdict : event.frame.eventKind = kindCapabilityAbsent ∨
        event.frame.eventKind = kindError)
  | unsuccessful (message : ModuleMessage)
      (result : resultFor kind correlation event = some message)
      (status : message.status ≠ moduleStatusOK)
  | short (message : ModuleMessage) (result : resultFor kind correlation event = some message)
      (past : event.payload.length < moduleMessageHeaderLen + message.bodyLen.toNat)
  | oversized (message : ModuleMessage)
      (result : resultFor kind correlation event = some message)
      (beyond : limit < UInt32.ofNat had + message.bodyLen)
  | last (message : ModuleMessage) (result : resultFor kind correlation event = some message)
      (closed : event.frame.has fMore = false)

/-- The bytes of a reply that a poll brings. -/
def PollStep.brings (kind : UInt32) (correlation : UInt64) (step : PollStep) : Nat :=
  match step.outcome with
  | .received event => ((resultFor kind correlation event).map (·.bodyLen.toNat)).getD 0
  | _ => 0

def PollStep.Ends (limit kind : UInt32) (correlation : UInt64) (had : Nat) (step : PollStep) :
    Prop :=
  match step.outcome with
  | .panicked => True
  | .failed _ => True
  | .empty => False
  | .received event => EndsCall limit kind correlation had event

/-- None of the polls fails or brings an event that ends the call. -/
def Unended (limit kind : UInt32) (correlation : UInt64) : Nat → List PollStep → Prop
  | _, [] => True
  | had, step :: rest =>
      ¬ step.Ends limit kind correlation had ∧
        Unended limit kind correlation (had + step.brings kind correlation) rest

/-- Time does not run backwards, and an ended context stays ended. -/
def PollStep.Before (first second : PollStep) : Prop :=
  first.now ≤ second.now ∧ (first.ctxDone = true → second.ctxDone = true)

theorem PollStep.Before.overdue {expiry : Option Int} {first second : PollStep}
    (before : first.Before second) (late : first.overdue expiry = true) :
    second.overdue expiry = true := by
  simp only [PollStep.overdue, Bool.or_eq_true, Option.any_eq_true, decide_eq_true_eq] at late ⊢
  rcases late with ended | ⟨bound, same, passed⟩
  · exact .inl (before.2 ended)
  · exact .inr ⟨bound, same, passed.trans_le before.1⟩

namespace ModuleCaller

section Polled

variable (caller : ModuleCaller) (kind : UInt32) (correlation : UInt64) (expiry : Option Int)

/-- The body after a poll that neither fails nor ends the call. -/
def gather (body : Bytes) (step : PollStep) : Option Bytes :=
  match step.outcome with
  | .empty => some body
  | .received event => (caller.acceptEvent kind correlation body event).toOption
  | _ => none

/-- The polls of one wait, up to the one it returns after. -/
def polled : Bytes → List PollStep → List PollStep
  | _, [] => []
  | body, step :: rest =>
      step :: if step.delivers || !step.overdue expiry then
        match caller.gather kind correlation body step with
        | some next => polled next rest
        | none => []
      else []

/-- After the deadline the wait takes at most one more event. -/
def DeadlineBinds (body : Bytes) (polls : List PollStep) : Prop :=
  (caller.polled kind correlation expiry body polls).countP
    (fun step => step.overdue expiry && step.delivers) ≤ 1

/-- The first two polls after the deadline both deliver an event, and nothing up
to the first of them ends the call, of which `had` bytes are there before. -/
def Flooded (had : Nat) (polls : List PollStep) : Prop :=
  ∃ earlier first second rest, polls = earlier ++ first :: second :: rest ∧
    (∀ step ∈ earlier, step.overdue expiry = false) ∧ first.overdue expiry = true ∧
    first.delivers = true ∧ second.delivers = true ∧
    Unended caller.responseLimit kind correlation had (earlier ++ [first])

variable {caller kind correlation expiry}

theorem hostVerdict_isSome {event : Event} : (hostVerdict event correlation).isSome = true ↔
    event.frame.correlationId = correlation ∧ (event.frame.eventKind = kindCapabilityAbsent ∨
      event.frame.eventKind = kindError) := by
  unfold hostVerdict
  by_cases own : event.frame.correlationId = correlation
  · by_cases absent : event.frame.eventKind = kindCapabilityAbsent
    · simp [own, absent]
    · by_cases rejected : event.frame.eventKind = kindError
      · simp [own, rejected, show kindError ≠ kindCapabilityAbsent by decide]
      · simp [own, absent, rejected]
  · simp [own]

theorem acceptEvent_other {event : Event} (unheard : hostVerdict event correlation = none)
    (other : resultFor kind correlation event = none) (body : Bytes) :
    caller.acceptEvent kind correlation body event = .ok body := by
  simp only [acceptEvent, unheard]
  by_cases mine : event.frame.eventKind = kind ∧ event.frame.correlationId = correlation
  · rw [resultFor, if_pos mine] at other
    cases decoded : decodeModuleMessage event.payload with
    | error failure => simp
    | ok message =>
        have operation : message.operation ≠ moduleOpResult := by simpa [decoded] using other
        simp [operation]
  · rw [if_pos]
    simpa [imp_iff_not_or] using mine

theorem acceptEvent_result {event : Event} {message : ModuleMessage}
    (unheard : hostVerdict event correlation = none)
    (result : resultFor kind correlation event = some message) (body : Bytes) :
    caller.acceptEvent kind correlation body event =
      if message.status ≠ moduleStatusOK then .error (.error (.status message.status))
      else if event.payload.length < moduleMessageHeaderLen + message.bodyLen.toNat then
        .error (.error (.bus .errModuleRuntime))
      else if caller.responseLimit < UInt32.ofNat body.length + message.bodyLen then
        .error (.error (.bus .errModuleRuntime))
      else if event.frame.has fMore then .ok (body ++ message.body event.payload)
      else .error (.ok (body ++ message.body event.payload)) := by
  simp only [acceptEvent, unheard]
  by_cases mine : event.frame.eventKind = kind ∧ event.frame.correlationId = correlation
  · rw [resultFor, if_pos mine] at result
    cases decoded : decodeModuleMessage event.payload with
    | error failure => simp [decoded] at result
    | ok other =>
        obtain ⟨operation, rfl⟩ : other.operation = moduleOpResult ∧ other = message := by
          simpa [decoded] using result
        simp [mine, operation]
  · rw [resultFor, if_neg mine] at result
    cases result

theorem endsCall_other {limit : UInt32} {had : Nat} {event : Event}
    (unheard : hostVerdict event correlation = none)
    (other : resultFor kind correlation event = none) :
    ¬ EndsCall limit kind correlation had event := by
  intro ends
  cases ends with
  | refused own verdict =>
      have heard := hostVerdict_isSome.mpr ⟨own, verdict⟩
      rw [unheard] at heard
      cases heard
  | unsuccessful message result | short message result | oversized message result
  | last message result =>
      rw [other] at result
      cases result

theorem endsCall_result {limit : UInt32} {had : Nat} {event : Event} {message : ModuleMessage}
    (unheard : hostVerdict event correlation = none)
    (result : resultFor kind correlation event = some message) :
    EndsCall limit kind correlation had event ↔
      message.status ≠ moduleStatusOK ∨
      event.payload.length < moduleMessageHeaderLen + message.bodyLen.toNat ∨
      limit < UInt32.ofNat had + message.bodyLen ∨ event.frame.has fMore = false := by
  constructor
  · intro ends
    cases ends with
    | refused own verdict =>
        have heard := hostVerdict_isSome.mpr ⟨own, verdict⟩
        rw [unheard] at heard
        cases heard
    | unsuccessful other same status =>
        obtain rfl := Option.some.inj (result.symm.trans same)
        exact .inl status
    | short other same past =>
        obtain rfl := Option.some.inj (result.symm.trans same)
        exact .inr (.inl past)
    | oversized other same beyond =>
        obtain rfl := Option.some.inj (result.symm.trans same)
        exact .inr (.inr (.inl beyond))
    | last other same closed => exact .inr (.inr (.inr closed))
  · rintro (status | past | beyond | closed)
    · exact .unsuccessful message result status
    · exact .short message result past
    · exact .oversized message result beyond
    · exact .last message result closed

/-- What an event does to the wait, by its fields. -/
theorem acceptEvent_fields (body : Bytes) (event : Event) :
    (∃ next, caller.acceptEvent kind correlation body event = .ok next ∧
      ¬ EndsCall caller.responseLimit kind correlation body.length event ∧
      next.length = body.length +
        ((resultFor kind correlation event).map (·.bodyLen.toNat)).getD 0) ∨
    (∃ result, caller.acceptEvent kind correlation body event = .error result) ∧
      EndsCall caller.responseLimit kind correlation body.length event := by
  cases heard : hostVerdict event correlation with
  | some failure =>
      obtain ⟨own, verdict⟩ := hostVerdict_isSome.mp (by rw [heard]; rfl)
      exact .inr ⟨⟨.error failure, by simp only [acceptEvent, heard]⟩, .refused own verdict⟩
  | none =>
      cases result : resultFor kind correlation event with
      | none =>
          exact .inl ⟨body, acceptEvent_other heard result body, endsCall_other heard result, rfl⟩
      | some message =>
          rw [acceptEvent_result heard result, endsCall_result heard result]
          by_cases status : message.status ≠ moduleStatusOK
          · exact .inr ⟨⟨_, if_pos status⟩, .inl status⟩
          by_cases past : event.payload.length < moduleMessageHeaderLen + message.bodyLen.toNat
          · exact .inr ⟨⟨_, by rw [if_neg status, if_pos past]⟩, .inr (.inl past)⟩
          by_cases beyond : caller.responseLimit < UInt32.ofNat body.length + message.bodyLen
          · exact .inr ⟨⟨_, by rw [if_neg status, if_neg past, if_pos beyond]⟩,
              .inr (.inr (.inl beyond))⟩
          rw [if_neg status, if_neg past, if_neg beyond]
          cases more : event.frame.has fMore with
          | false => exact .inr ⟨⟨_, if_neg Bool.false_ne_true⟩, .inr (.inr (.inr rfl))⟩
          | true =>
              refine .inl ⟨body ++ message.body event.payload, if_pos rfl, ?_, ?_⟩
              · simp only [status, past, beyond, Bool.true_eq_false, or_self, not_false_eq_true]
              · simp only [List.length_append, ModuleMessage.body, length_window, Option.map_some,
                  Option.getD_some]
                omega

/-- What a poll does to the wait, by its fields. -/
theorem gather_fields (body : Bytes) (step : PollStep) :
    (∃ next, caller.gather kind correlation body step = some next ∧
      ¬ step.Ends caller.responseLimit kind correlation body.length ∧
      next.length = body.length + step.brings kind correlation) ∨
    caller.gather kind correlation body step = none ∧
      step.Ends caller.responseLimit kind correlation body.length := by
  obtain ⟨outcome, ctxDone, now⟩ := step
  cases outcome with
  | panicked => exact .inr ⟨rfl, trivial⟩
  | failed failure => exact .inr ⟨rfl, trivial⟩
  | empty => exact .inl ⟨body, rfl, id, rfl⟩
  | received event =>
      rcases @acceptEvent_fields caller kind correlation body event with
        ⟨next, accepted, goes, length⟩ | ⟨⟨result, accepted⟩, ends⟩
      · refine .inl ⟨next, ?_, goes, length⟩
        simp only [gather, accepted, Except.toOption]
      · refine .inr ⟨?_, ends⟩
        simp only [gather, accepted, Except.toOption]

theorem unended_cons {body next : Bytes} {step : PollStep} {rest : List PollStep}
    (gathered : caller.gather kind correlation body step = some next) :
    Unended caller.responseLimit kind correlation body.length (step :: rest) ↔
      Unended caller.responseLimit kind correlation next.length rest := by
  rcases @gather_fields caller kind correlation body step with
    ⟨other, same, goes, length⟩ | ⟨ended, -⟩
  · obtain rfl := Option.some.inj (same.symm.trans gathered)
    rw [Unended, length]
    exact and_iff_right goes
  · rw [gathered] at ended
    cases ended

theorem unended_ends {body : Bytes} {step : PollStep} {rest : List PollStep}
    (ended : caller.gather kind correlation body step = none) :
    ¬ Unended caller.responseLimit kind correlation body.length (step :: rest) := by
  rcases @gather_fields caller kind correlation body step with
    ⟨next, same, -⟩ | ⟨-, ends⟩
  · rw [ended] at same
    cases same
  · exact fun unended => unended.1 ends

theorem awaitReply_cons (body : Bytes) (step : PollStep) :
    (∃ next, caller.gather kind correlation body step = some next ∧
      (step.delivers || !step.overdue expiry) = true ∧
      ∀ later, caller.awaitReply kind correlation expiry body (step :: later) =
        caller.awaitReply kind correlation expiry next later) ∨
    ((step.delivers || !step.overdue expiry) = true →
      caller.gather kind correlation body step = none) ∧
      ∃ result, ∀ later,
        caller.awaitReply kind correlation expiry body (step :: later) = result := by
  obtain ⟨outcome, ctxDone, now⟩ := step
  cases outcome with
  | panicked => exact .inr ⟨fun _ => rfl, _, fun later => rfl⟩
  | failed failure => exact .inr ⟨fun _ => rfl, _, fun later => rfl⟩
  | empty =>
      by_cases ended : ctxDone = true
      · subst ended
        exact .inr ⟨fun going => absurd going (by simp [PollStep.delivers, PollStep.overdue]), _,
          fun later => by simp [awaitReply]; rfl⟩
      · by_cases late : expiry.any (now > ·) = true
        · refine .inr ⟨fun going => absurd going ?_, some (.error .deadline), fun later => ?_⟩
          · simp [PollStep.delivers, PollStep.overdue, late]
          · simp only [awaitReply, ended, late, Bool.false_eq_true, if_false, if_true]
        · refine .inl ⟨body, rfl, ?_, fun later => ?_⟩
          · simp [PollStep.delivers, PollStep.overdue, late, ended]
          · simp only [awaitReply, ended, late, Bool.false_eq_true, if_false]
  | received event =>
      cases accepted : caller.acceptEvent kind correlation body event with
      | ok next =>
          refine .inl ⟨next, ?_, rfl, fun later => ?_⟩
          · simp only [gather, accepted, Except.toOption]
          · simp only [awaitReply, accepted]
      | error result =>
          refine .inr ⟨fun _ => ?_, some result, fun later => ?_⟩
          · simp only [gather, accepted, Except.toOption]
          · simp only [awaitReply, accepted]

theorem polled_going {body next : Bytes} {step : PollStep}
    (gathered : caller.gather kind correlation body step = some next)
    (going : (step.delivers || !step.overdue expiry) = true) (rest : List PollStep) :
    caller.polled kind correlation expiry body (step :: rest) =
      step :: caller.polled kind correlation expiry next rest := by
  rw [polled, if_pos going, gathered]

theorem polled_ended {body : Bytes} {step : PollStep}
    (stops : (step.delivers || !step.overdue expiry) = true →
      caller.gather kind correlation body step = none) (rest : List PollStep) :
    caller.polled kind correlation expiry body (step :: rest) = [step] := by
  rw [polled]
  split
  · rename_i going
    rw [stops going]
  · rfl

/-- The polls of a wait are a prefix of what Poll would return, long enough for
the result, and the wait still polls before each of them. -/
theorem polled_exact (body : Bytes) (polls : List PollStep) :
    caller.polled kind correlation expiry body polls <+: polls ∧
    caller.awaitReply kind correlation expiry body
        (caller.polled kind correlation expiry body polls) =
      caller.awaitReply kind correlation expiry body polls ∧
    ∀ front step, front ++ [step] <+: caller.polled kind correlation expiry body polls →
      caller.awaitReply kind correlation expiry body front = none := by
  induction polls generalizing body with
  | nil => exact ⟨List.prefix_refl _, rfl, fun front step within => by simp [polled] at within⟩
  | cons step rest ih =>
      rcases awaitReply_cons body step with ⟨next, gathered, going, continues⟩ | ⟨stops, ended⟩
      · obtain ⟨within, same, before⟩ := ih next
        rw [polled_going gathered going, continues, continues]
        refine ⟨List.cons_prefix_cons.mpr ⟨rfl, within⟩, same, fun front last inside => ?_⟩
        cases front with
        | nil => rfl
        | cons first front =>
            obtain ⟨rfl, deeper⟩ := List.cons_prefix_cons.mp inside
            rw [continues]
            exact before front last deeper
      · obtain ⟨result, ended⟩ := ended
        rw [polled_ended stops, ended, ended]
        refine ⟨⟨rest, rfl⟩, rfl, fun front last inside => ?_⟩
        have short := inside.length_le
        rw [List.length_append, List.length_singleton, List.length_singleton] at short
        rw [List.length_eq_zero_iff.mp (Nat.le_zero.mp (Nat.le_of_succ_le_succ short))]
        rfl

theorem flooded_cons {body next : Bytes} {step : PollStep} {rest : List PollStep}
    (early : step.overdue expiry = false)
    (gathered : caller.gather kind correlation body step = some next) :
    caller.Flooded kind correlation expiry body.length (step :: rest) ↔
      caller.Flooded kind correlation expiry next.length rest := by
  constructor
  · rintro ⟨earlier, first, second, later, same, punctual, late, delivers, again, unended⟩
    cases earlier with
    | nil =>
        obtain ⟨rfl, -⟩ := List.cons.inj same
        rw [early] at late
        cases late
    | cons other earlier =>
        obtain ⟨rfl, remains⟩ := List.cons.inj same
        exact ⟨earlier, first, second, later, remains,
          fun step member => punctual step (List.mem_cons_of_mem _ member), late, delivers, again,
          (unended_cons gathered).mp unended⟩
  · rintro ⟨earlier, first, second, later, rfl, punctual, late, delivers, again, unended⟩
    refine ⟨step :: earlier, first, second, later, rfl, ?_, late, delivers, again,
      (unended_cons gathered).mpr unended⟩
    intro other member
    rcases List.mem_cons.mp member with rfl | member
    · exact early
    · exact punctual other member

theorem flooded_late {body next : Bytes} {step : PollStep} {rest : List PollStep}
    (late : step.overdue expiry = true) (delivers : step.delivers = true)
    (gathered : caller.gather kind correlation body step = some next) :
    caller.Flooded kind correlation expiry body.length (step :: rest) ↔
      ∃ second later, rest = second :: later ∧ second.delivers = true := by
  constructor
  · rintro ⟨earlier, first, second, later, same, punctual, -, -, again, -⟩
    cases earlier with
    | nil => exact ⟨second, later, (List.cons.inj same).2, again⟩
    | cons other earlier =>
        obtain ⟨rfl, -⟩ := List.cons.inj same
        rw [punctual step List.mem_cons_self] at late
        cases late
  · rintro ⟨second, later, rfl, again⟩
    exact ⟨[], step, second, later, rfl, nofun, late, delivers, again,
      (unended_cons gathered).mpr trivial⟩

/-- The deadline binds a wait exactly when no flood follows it. -/
theorem deadline_binds_iff {body : Bytes} {polls : List PollStep}
    (clock : polls.Pairwise PollStep.Before) :
    caller.DeadlineBinds kind correlation expiry body polls ↔
      ¬ caller.Flooded kind correlation expiry body.length polls := by
  induction polls generalizing body with
  | nil =>
      refine iff_of_true (Nat.zero_le 1) ?_
      rintro ⟨earlier, first, second, later, same, -⟩
      simp at same
  | cons step rest ih =>
      obtain ⟨after, clock⟩ := List.pairwise_cons.mp clock
      rcases @awaitReply_cons caller kind correlation expiry body step with
        ⟨next, gathered, going, -⟩ | ⟨stops, -⟩
      · rw [DeadlineBinds, polled_going gathered going]
        cases late : step.overdue expiry with
        | false =>
            rw [flooded_cons late gathered, ← ih clock, DeadlineBinds, List.countP_cons, late]
            rfl
        | true =>
            have delivers : step.delivers = true := by simpa [late] using going
            rw [flooded_late late delivers gathered, List.countP_cons, late, delivers]
            cases rest with
            | nil => simp [polled]
            | cons second later =>
                have overdue := (after second List.mem_cons_self).overdue late
                cases again : second.delivers with
                | false =>
                    rw [polled_ended fun going => by simp [again, overdue] at going]
                    simp [again]
                | true => simp [polled, again, overdue]
      · rw [DeadlineBinds, polled_ended stops]
        refine iff_of_true (List.countP_le_length.trans (le_refl 1)) ?_
        rintro ⟨earlier, first, second, later, same, punctual, late, delivers, again, unended⟩
        cases earlier with
        | nil =>
            obtain ⟨rfl, -⟩ := List.cons.inj same
            exact unended_ends (stops (by simp [delivers])) unended
        | cons other earlier =>
            obtain ⟨rfl, -⟩ := List.cons.inj same
            have early := punctual step List.mem_cons_self
            exact unended_ends (stops (by simp [early])) unended

end Polled

section Traffic

/-- A reply to another call. -/
def strayReply : Event :=
  SentFragment.event ⟨kindModuleBase, 8, (ModuleReply.message ⟨kindModuleBase, 8, 1, 0,
    moduleStatusOK, []⟩ 0).header, false⟩ servingClient fReply

/-- A result of this call that does not decode. -/
def garbledReply : Event :=
  SentFragment.event ⟨kindModuleBase, 7, [0], false⟩ servingClient fReply

/-- A fragment of this call's reply that brings no byte and announces more. -/
def emptyPart : Event :=
  SentFragment.event ⟨kindModuleBase, 7, (ModuleReply.message ⟨kindModuleBase, 7, 1, 0,
    moduleStatusOK, []⟩ 0).header, true⟩ servingClient fReply

/-- A caller that waits for the reply to its seventh call. -/
def waitingCaller : ModuleCaller := ⟨64, 7, moduleMessageMaxBody⟩

/-- A poll after the deadline, with the context ended as well. -/
def latePoll (outcome : Client.PollOutcome) : PollStep := ⟨outcome, true, 1⟩

/-- Each of the three streams keeps the wait polling for as long as it lasts,
with the clock past the expiry and the context ended from the first poll on. -/
theorem traffic_outlasts_deadline :
    (∀ event ∈ [strayReply, garbledReply, emptyPart], ∀ count,
      waitingCaller.awaitReply kindModuleBase 7 (some 0) []
        (List.replicate count (latePoll (.received event))) = none) ∧
    ¬ waitingCaller.DeadlineBinds kindModuleBase 7 (some 0) []
      (List.replicate 2 (latePoll (.received strayReply))) := by
  refine ⟨fun event member count => ?_, by rw [DeadlineBinds]; decide⟩
  have skipped : waitingCaller.acceptEvent kindModuleBase 7 [] event = .ok [] := by
    simp only [List.mem_cons, List.not_mem_nil, or_false] at member
    rcases member with rfl | rfl | rfl <;> decide
  induction count with
  | zero => rfl
  | succ count ih =>
      rw [List.replicate_succ, awaitReply]
      simp only [latePoll, skipped]
      exact ih

/-- One stray event after the deadline, then an empty poll: the call ends. -/
theorem deadline_binds_quiet :
    waitingCaller.DeadlineBinds kindModuleBase 7 (some 0) []
      [latePoll (.received strayReply), latePoll .empty] := by
  refine (deadline_binds_iff (by simp [PollStep.Before, latePoll])).mpr ?_
  rintro ⟨earlier, first, second, later, same, punctual, -, -, again, -⟩
  cases earlier with
  | nil =>
      obtain ⟨-, rest⟩ := List.cons.inj same
      obtain ⟨rfl, -⟩ := List.cons.inj rest
      cases again
  | cons other earlier =>
      obtain ⟨rfl, -⟩ := List.cons.inj same
      exact absurd (punctual _ List.mem_cons_self) (by decide)

end Traffic

end ModuleCaller

end AimeeLearning.Bus
