import AimeeLearning.Bus.ModuleCaller
import AimeeLearning.Bus.RequestAtomicity

/-! What a successful wait for a reply stands for. The loop skips every event
that is not a result fragment of its call, also those of its own kind and
correlation, so the body is whole exactly when none of these is damaged. -/

set_option autoImplicit false

namespace AimeeLearning.Bus

open Library

/-- The event has a call's kind and correlation. -/
def belongs (kind : UInt32) (correlation : UInt64) (event : Event) : Bool :=
  event.frame.eventKind == kind && event.frame.correlationId == correlation

/-- The events of a call among its polls. -/
def repliesOf (kind : UInt32) (correlation : UInt64) (polls : List PollStep) : List Event :=
  polls.filterMap fun step =>
    match step.outcome with
    | .received event => if belongs kind correlation event then some event else none
    | _ => none

/-- The event carries a well-formed result message. -/
def isResult (event : Event) : Bool :=
  match decodeModuleMessage event.payload with
  | .ok message => message.operation == moduleOpResult
  | .error _ => false

/-- The last fragment of a reply. -/
def isFinal (event : Event) : Bool := isResult event && !event.frame.has fMore

/-- The polls a wait consumed before it returned. -/
structure ModuleCaller.Consumed (caller : ModuleCaller) (kind : UInt32) (correlation : UInt64)
    (expiry : Option Int) (body : Bytes) (polls consumed : List PollStep) : Prop where
  front : consumed <+: polls
  returned : caller.awaitReply kind correlation expiry body consumed =
    caller.awaitReply kind correlation expiry body polls
  waiting : ∀ earlier, earlier <+: consumed → earlier ≠ consumed →
    caller.awaitReply kind correlation expiry body earlier = none

/-- The consumed events of a call are the fragments of one reply and its body. -/
structure FaithfulReply (kind : UInt32) (correlation : UInt64) (consumed : List PollStep)
    (body : Bytes) : Prop where
  sound : ∀ event ∈ repliesOf kind correlation consumed,
    ∃ message, decodeModuleMessage event.payload = .ok message ∧
      message.operation = moduleOpResult ∧ message.status = moduleStatusOK
  whole : body = ((repliesOf kind correlation consumed).map fragmentBody).flatten
  closed : ClosedBy ((repliesOf kind correlation consumed).map
    fun event => (event.payload, event.frame.has fMore))

/-- No event of the call that comes before its last fragment is damaged. -/
def undamaged (kind : UInt32) (correlation : UInt64) (polls : List PollStep) : Bool :=
  ((repliesOf kind correlation polls).takeWhile fun event => !isFinal event).all isResult

section Accept

variable {caller : ModuleCaller} {kind : UInt32} {correlation : UInt64} {body : Bytes}
  {event : Event}

theorem isResult_iff : isResult event = true ↔
    ∃ message, decodeModuleMessage event.payload = .ok message ∧
      message.operation = moduleOpResult := by
  unfold isResult
  cases decodeModuleMessage event.payload <;> simp

/-- What one event can do to a wait that goes on or ends well. -/
inductive Accepted (kind : UInt32) (correlation : UInt64) (event : Event) :
    Except (Except CallError Bytes) Bytes → Bytes → Prop
  | foreign (body : Bytes)
      (other : belongs kind correlation event = false) :
      Accepted kind correlation event (.ok body) body
  | skipped (body : Bytes)
      (own : belongs kind correlation event = true)
      (damaged : isResult event = false) : Accepted kind correlation event (.ok body) body
  | extended (body : Bytes) (message : ModuleMessage)
      (own : belongs kind correlation event = true)
      (decoded : decodeModuleMessage event.payload = .ok message)
      (result : message.operation = moduleOpResult) (fine : message.status = moduleStatusOK)
      (more : event.frame.has fMore = true) :
      Accepted kind correlation event (.ok (body ++ fragmentBody event)) body
  | completed (body : Bytes) (message : ModuleMessage)
      (own : belongs kind correlation event = true)
      (decoded : decodeModuleMessage event.payload = .ok message)
      (result : message.operation = moduleOpResult) (fine : message.status = moduleStatusOK)
      (last : event.frame.has fMore = false) :
      Accepted kind correlation event (.error (.ok (body ++ fragmentBody event))) body
  | failed (body : Bytes) (failure : CallError) :
      Accepted kind correlation event (.error (.error failure)) body

theorem acceptEvent_accepted :
    Accepted kind correlation event (caller.acceptEvent kind correlation body event) body := by
  unfold ModuleCaller.acceptEvent
  split
  · exact .failed _ _
  · split
    · rename_i other
      refine .foreign _ ?_
      simp only [Bool.or_eq_true, bne_iff_ne, ne_eq] at other
      simpa only [belongs, Bool.and_eq_false_iff, beq_eq_false_iff_ne, ne_eq] using other
    · rename_i own
      have own : belongs kind correlation event = true := by simpa [belongs] using own
      split
      · rename_i failure refused
        exact .skipped _ own (by simp [isResult, refused])
      · rename_i message decoded
        split
        · rename_i other
          exact .skipped _ own (by simpa [isResult, decoded] using other)
        · rename_i result
          have result : message.operation = moduleOpResult := by simpa using result
          split
          · exact .failed _ _
          · rename_i fine
            have fine : message.status = moduleStatusOK := by simpa using fine
            have content : message.body event.payload = fragmentBody event := by
              simp [fragmentBody, decoded]
            split
            · exact .failed _ _
            · split
              · exact .failed _ _
              · rw [content]
                split
                · rename_i more
                  exact .extended _ message own decoded result fine more
                · rename_i last
                  exact .completed _ message own decoded result fine (by simpa using last)

end Accept

section Wait

variable {caller : ModuleCaller} {kind : UInt32} {correlation : UInt64} {expiry : Option Int}
  {body next result : Bytes} {step : PollStep} {polls consumed : List PollStep}

theorem ModuleCaller.Consumed.cons
    (continues : ∀ rest, caller.awaitReply kind correlation expiry body (step :: rest) =
      caller.awaitReply kind correlation expiry next rest)
    (rest : caller.Consumed kind correlation expiry next polls consumed) :
    caller.Consumed kind correlation expiry body (step :: polls) (step :: consumed) where
  front := List.cons_prefix_cons.mpr ⟨rfl, rest.front⟩
  returned := by rw [continues, continues, rest.returned]
  waiting earlier within apart := by
    cases earlier with
    | nil => rfl
    | cons first earlier =>
        obtain ⟨rfl, shorter⟩ := List.cons_prefix_cons.mp within
        rw [continues]
        exact rest.waiting earlier shorter fun same => apart (by rw [same])

theorem ModuleCaller.Consumed.single {outcome : Except CallError Bytes}
    (ends : ∀ rest, caller.awaitReply kind correlation expiry body (step :: rest) = some outcome) :
    caller.Consumed kind correlation expiry body (step :: polls) [step] where
  front := List.cons_prefix_cons.mpr ⟨rfl, List.nil_prefix⟩
  returned := by rw [ends, ends]
  waiting earlier within apart := by
    cases earlier with
    | nil => rfl
    | cons first earlier =>
        obtain ⟨rfl, shorter⟩ := List.cons_prefix_cons.mp within
        exact absurd (congrArg (first :: ·) (List.prefix_nil.mp shorter)) apart

theorem ModuleCaller.Consumed.unique {other : List PollStep} {outcome : Except CallError Bytes}
    (returned : caller.awaitReply kind correlation expiry body polls = some outcome)
    (left : caller.Consumed kind correlation expiry body polls consumed)
    (right : caller.Consumed kind correlation expiry body polls other) : consumed = other := by
  by_contra apart
  rcases List.prefix_or_prefix_of_prefix left.front right.front with shorter | shorter
  · have waits := right.waiting consumed shorter apart
    rw [left.returned, returned] at waits
    cases waits
  · have waits := left.waiting other shorter (Ne.symm apart)
    rw [right.returned, returned] at waits
    cases waits

/-- The events of a call that ended well: fragments that announce more, damaged
events, and one last fragment. -/
structure EndedWell (body result : Bytes) (earlier : List Event) (last : Event) : Prop where
  more : ∀ event ∈ earlier, isFinal event = false
  final : isFinal last = true
  fine : ∀ event ∈ earlier ++ [last], isResult event = true →
    ∃ message, decodeModuleMessage event.payload = .ok message ∧
      message.operation = moduleOpResult ∧ message.status = moduleStatusOK
  gathered : result = body ++ (((earlier ++ [last]).filter isResult).map fragmentBody).flatten

theorem EndedWell.skip {earlier : List Event} {event last : Event}
    (ended : EndedWell body result earlier last) (damaged : isResult event = false) :
    EndedWell body result (event :: earlier) last where
  more other member := by
    rcases List.mem_cons.mp member with rfl | later
    · simp [isFinal, damaged]
    · exact ended.more other later
  final := ended.final
  fine other member sound := by
    rcases List.mem_cons.mp member with rfl | later
    · rw [damaged] at sound
      cases sound
    · exact ended.fine other later sound
  gathered := by
    rw [List.cons_append, List.filter_cons_of_neg (by simp [damaged])]
    exact ended.gathered

theorem EndedWell.extend {earlier : List Event} {event last : Event}
    (ended : EndedWell (body ++ fragmentBody event) result earlier last)
    (sound : ∃ message, decodeModuleMessage event.payload = .ok message ∧
      message.operation = moduleOpResult ∧ message.status = moduleStatusOK)
    (more : event.frame.has fMore = true) : EndedWell body result (event :: earlier) last where
  more other member := by
    rcases List.mem_cons.mp member with rfl | later
    · simp [isFinal, more]
    · exact ended.more other later
  final := ended.final
  fine other member outcome := by
    rcases List.mem_cons.mp member with rfl | later
    · exact sound
    · exact ended.fine other later outcome
  gathered := by
    obtain ⟨message, decoded, outcome, -⟩ := sound
    rw [List.cons_append, List.filter_cons_of_pos (isResult_iff.mpr ⟨message, decoded, outcome⟩),
      List.map_cons, List.flatten_cons, ← List.append_assoc]
    exact ended.gathered

section Replies

variable {event : Event} {ctxDone : Bool} {now : Int}

theorem repliesOf_own (own : belongs kind correlation event = true) (rest : List PollStep) :
    repliesOf kind correlation (⟨.received event, ctxDone, now⟩ :: rest) =
      event :: repliesOf kind correlation rest :=
  List.filterMap_cons_some (by simp [own])

theorem repliesOf_foreign (other : belongs kind correlation event = false)
    (rest : List PollStep) :
    repliesOf kind correlation (⟨.received event, ctxDone, now⟩ :: rest) =
      repliesOf kind correlation rest :=
  List.filterMap_cons_none (by simp [other])

end Replies

theorem awaitReply_ended
    (returned : caller.awaitReply kind correlation expiry body polls = some (.ok result)) :
    ∃ consumed earlier last, caller.Consumed kind correlation expiry body polls consumed ∧
      repliesOf kind correlation consumed = earlier ++ [last] ∧
      EndedWell body result earlier last := by
  induction polls generalizing body with
  | nil => cases returned
  | cons step rest ih =>
      obtain ⟨outcome, ctxDone, now⟩ := step
      cases outcome with
      | panicked => simp [ModuleCaller.awaitReply] at returned
      | failed failure => simp [ModuleCaller.awaitReply] at returned
      | empty =>
          simp only [ModuleCaller.awaitReply] at returned
          split at returned
          · cases returned
          · rename_i running
            split at returned
            · cases returned
            · rename_i early
              obtain ⟨consumed, earlier, last, took, replies, ended⟩ := ih returned
              refine ⟨_, earlier, last, took.cons fun rest => ?_, replies, ended⟩
              rw [ModuleCaller.awaitReply]
              simp only [running, early, if_false, Bool.false_eq_true]
      | received event =>
          have accepted := @acceptEvent_accepted caller kind correlation body event
          simp only [ModuleCaller.awaitReply] at returned
          generalize answered : caller.acceptEvent kind correlation body event = answer at *
          cases accepted with
          | foreign _ other =>
              obtain ⟨consumed, earlier, last, took, replies, ended⟩ := ih returned
              refine ⟨_, earlier, last, took.cons fun rest => ?_, ?_, ended⟩
              · simp only [ModuleCaller.awaitReply, answered]
              · rw [repliesOf_foreign other, replies]
          | skipped _ own damaged =>
              obtain ⟨consumed, earlier, last, took, replies, ended⟩ := ih returned
              refine ⟨_, event :: earlier, last, took.cons fun rest => ?_, ?_, ended.skip damaged⟩
              · simp only [ModuleCaller.awaitReply, answered]
              · rw [repliesOf_own own, replies, List.cons_append]
          | extended _ message own decoded outcome fine more =>
              obtain ⟨consumed, earlier, last, took, replies, ended⟩ := ih returned
              refine ⟨_, event :: earlier, last, took.cons fun rest => ?_, ?_,
                ended.extend ⟨message, decoded, outcome, fine⟩ more⟩
              · simp only [ModuleCaller.awaitReply, answered]
              · rw [repliesOf_own own, replies, List.cons_append]
          | completed _ message own decoded outcome fine last =>
              obtain rfl := Except.ok.inj (Option.some.inj returned)
              have sound : isResult event = true := isResult_iff.mpr ⟨message, decoded, outcome⟩
              have ends : ∀ rest, caller.awaitReply kind correlation expiry body
                  (⟨.received event, ctxDone, now⟩ :: rest) =
                    some (.ok (body ++ fragmentBody event)) := by
                intro rest
                simp only [ModuleCaller.awaitReply, answered]
              refine ⟨_, [], event, .single ends, repliesOf_own own [], nofun,
                by simp [isFinal, sound, last], ?_, ?_⟩
              · intro other member _
                obtain rfl := List.mem_singleton.mp member
                exact ⟨message, decoded, outcome, fine⟩
              · simp [sound]
          | failed _ failure => cases returned

theorem closedBy_marks {earlier : List Event} {last : Event}
    (more : ∀ event ∈ earlier, event.frame.has fMore = true)
    (final : last.frame.has fMore = false) :
    ClosedBy ((earlier ++ [last]).map fun event => (event.payload, event.frame.has fMore)) := by
  induction earlier with
  | nil => exact final
  | cons event earlier ih =>
      refine (closedBy_cons (by simp)).mpr ⟨more event List.mem_cons_self, ?_⟩
      exact ih fun other member => more other (List.mem_cons_of_mem _ member)

/-- A successful wait consumed a whole reply exactly when no event of its call
in front of the last fragment was damaged. -/
theorem await_faithful_iff
    (returned : caller.awaitReply kind correlation expiry [] polls = some (.ok body)) :
    (∃ consumed, caller.Consumed kind correlation expiry [] polls consumed ∧
      FaithfulReply kind correlation consumed body) ↔
        undamaged kind correlation polls = true := by
  obtain ⟨consumed, earlier, last, took, replies, ended⟩ := awaitReply_ended returned
  have front : (repliesOf kind correlation polls).takeWhile (fun event => !isFinal event) =
      earlier := by
    obtain ⟨rest, rfl⟩ := took.front
    have split : repliesOf kind correlation (consumed ++ rest) =
        earlier ++ last :: repliesOf kind correlation rest := by
      rw [repliesOf, List.filterMap_append]
      change repliesOf kind correlation consumed ++ _ = _
      rw [replies, List.append_assoc]
      rfl
    rw [split, List.takeWhile_append_of_pos (by simpa using ended.more)]
    simp [ended.final]
  have sound : undamaged kind correlation polls = true ↔
      ∀ event ∈ earlier ++ [last], isResult event = true := by
    have final := ended.final
    simp only [isFinal, Bool.and_eq_true] at final
    rw [undamaged, front, List.all_eq_true]
    simp [final.1, or_imp, forall_and]
  rw [sound]
  constructor
  · rintro ⟨other, same, faithful⟩ event member
    obtain rfl := took.unique returned same
    obtain ⟨message, decoded, outcome, -⟩ := faithful.sound event (replies ▸ member)
    exact isResult_iff.mpr ⟨message, decoded, outcome⟩
  · intro results
    have final := ended.final
    simp only [isFinal, Bool.and_eq_true, Bool.not_eq_true'] at final
    refine ⟨consumed, took, fun event member => ?_, ?_, ?_⟩
    · rw [replies] at member
      exact ended.fine event member (results event member)
    · rw [replies, ended.gathered, List.filter_eq_self.mpr results, List.nil_append]
    · rw [replies]
      refine closedBy_marks (fun event member => ?_) final.2
      simpa [isFinal, results event (List.mem_append_left _ member)] using ended.more event member

end Wait

section Damage

/-- A result fragment of correlation 1 with one body byte. -/
def resultEvent (byte : UInt8) (more : Bool) : Event where
  frame :=
    { hdrFlags := Client.fragmentFlags fReply more ||| fInline, wireVersion := wireVersion,
      eventKind := kindModuleBase, correlationId := 1, payloadLen := 41,
      payloadRef := UInt64.ofNat hdrLen }
  payload := ({ operation := moduleOpResult, stageID := 1, bodyLen := 1 } : ModuleMessage).header ++
    [byte]

/-- The same fragment with its payload cut to nothing but the magic. -/
def damagedEvent : Event :=
  { frame := { (resultEvent 2 true).frame with payloadLen := 4 }
    payload := uint32Bytes moduleMessageMagic }

/-- A reply of two fragments. -/
def soundPolls : List PollStep :=
  [⟨.received (resultEvent 1 true), false, 0⟩, ⟨.received (resultEvent 3 false), false, 0⟩]

/-- A reply of three fragments whose second one arrives damaged. -/
def damagedPolls : List PollStep :=
  [⟨.received (resultEvent 1 true), false, 0⟩, ⟨.received damagedEvent, false, 0⟩,
    ⟨.received (resultEvent 3 false), false, 0⟩]

/-- The call succeeds without the bytes of the damaged fragment. -/
theorem awaitReply_drops_fragment :
    ∃ caller : ModuleCaller,
      caller.awaitReply kindModuleBase 1 none [] damagedPolls = some (.ok [1, 3]) ∧
      damagedEvent ∈ repliesOf kindModuleBase 1 damagedPolls ∧
      decodeModuleMessage damagedEvent.payload = .error .errModuleMessage ∧
      ¬ ∃ consumed, caller.Consumed kindModuleBase 1 none [] damagedPolls consumed ∧
        FaithfulReply kindModuleBase 1 consumed [1, 3] := by
  have succeeds : (⟨41, 1, moduleMessageMaxBody⟩ : ModuleCaller).awaitReply kindModuleBase 1 none
      [] damagedPolls = some (.ok [1, 3]) := by decide +kernel
  have waits : ∀ count < 3, (⟨41, 1, moduleMessageMaxBody⟩ : ModuleCaller).awaitReply
      kindModuleBase 1 none [] (damagedPolls.take count) = none := by decide +kernel
  have damaged : decodeModuleMessage damagedEvent.payload = .error .errModuleMessage := by
    decide +kernel
  have present : damagedEvent ∈ repliesOf kindModuleBase 1 damagedPolls := by decide +kernel
  refine ⟨_, succeeds, present, damaged, ?_⟩
  rintro ⟨consumed, took, faithful⟩
  have front := List.prefix_iff_eq_take.mp took.front
  have whole : consumed = damagedPolls := by
    by_contra apart
    have short : consumed.length < 3 := by
      by_contra long
      refine apart (front.trans (List.take_of_length_le ?_))
      exact not_lt.mp long
    have returned := took.returned
    rw [front, waits _ short, succeeds] at returned
    cases returned
  subst whole
  obtain ⟨message, decoded, -⟩ := faithful.sound damagedEvent present
  rw [damaged] at decoded
  cases decoded

/-- A reply without damage. -/
theorem await_faithful_sound :
    ∃ consumed, (⟨41, 1, moduleMessageMaxBody⟩ : ModuleCaller).Consumed kindModuleBase 1 none []
        soundPolls consumed ∧
      FaithfulReply kindModuleBase 1 consumed [1, 3] := by
  refine (await_faithful_iff ?_).mpr ?_
  · decide +kernel
  · decide +kernel

end Damage

end AimeeLearning.Bus
