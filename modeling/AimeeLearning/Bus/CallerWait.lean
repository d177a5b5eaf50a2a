import AimeeLearning.Bus.ClientRelay
import AimeeLearning.Bus.ModuleCaller
import AimeeLearning.Bus.ModuleRuntimeSteps

/-! The caller's half of a stage call: however the fragments of one reply are
interleaved with other traffic, the wait ends with what the reply says. -/

set_option autoImplicit false

namespace AimeeLearning.Bus

open Library

/-- The events of a correlation among the polls of a wait. -/
def pollsOf (correlation : UInt64) (polls : List PollStep) : List Event :=
  polls.filterMap fun step =>
    match step.outcome with
    | .received event => if event.frame.correlationId == correlation then some event else none
    | _ => none

/-- A poll that neither fails nor finds the context ended. -/
def PollStep.Undisturbed (step : PollStep) : Prop :=
  match step.outcome with
  | .empty => step.ctxDone = false
  | .received _ => True
  | _ => False

section SentEvents

variable {sender : Client} {pattern : UInt16} {fragment : SentFragment}

theorem SentFragment.event_frame (present : 0 < fragment.payload.length) :
    (fragment.event sender pattern).frame =
      { hdrFlags := Client.fragmentFlags pattern fragment.more ||| fInline
        wireVersion := wireVersion, eventKind := fragment.kind
        correlationId := fragment.correlation, srcHandle := sender.handle
        payloadLen := UInt32.ofNat fragment.payload.length
        payloadRef := UInt64.ofNat hdrLen } := by
  simp only [SentFragment.event, Client.sentEvent, Client.frame, gt_iff_lt, present, if_true]

theorem SentFragment.event_correlation :
    (fragment.event sender pattern).frame.correlationId = fragment.correlation := by
  simp only [SentFragment.event, Client.sentEvent, Client.frame]
  split <;> rfl

theorem SentFragment.event_more (present : 0 < fragment.payload.length)
    (directed : pattern = fRequest ∨ pattern = fReply) :
    (fragment.event sender pattern).frame.has fMore = fragment.more := by
  rw [SentFragment.event_frame present]
  simp only [Frame.has]
  rcases directed with rfl | rfl <;> cases fragment.more <;> decide

theorem SentFragment.event_request (present : 0 < fragment.payload.length) :
    (fragment.event sender fRequest).frame.has fRequest = true ∧
      (fragment.event sender fRequest).frame.has fCancel = false := by
  rw [SentFragment.event_frame present]
  simp only [Frame.has]
  cases fragment.more <;> decide

end SentEvents

section Wait

variable {caller : ModuleCaller} {kind : UInt32} {correlation : UInt64} {sender : Client}
  {reply : ModuleReply}

theorem acceptEvent_foreign {event : Event} (foreign : event.frame.correlationId ≠ correlation)
    (body : Bytes) : caller.acceptEvent kind correlation body event = .ok body := by
  simp [ModuleCaller.acceptEvent, ModuleCaller.hostVerdict, foreign]

/-- What the fragments of a reply say once they are put together. -/
def ModuleReply.verdict (reply : ModuleReply) (body : Bytes) : Except CallError Bytes :=
  if (settleResult reply.status reply.body).1 = moduleStatusOK then .ok body
  else .error (.status (settleResult reply.status reply.body).1)

theorem acceptEvent_reply (staged : reply.stageID ≠ 0) (served : kindModuleBase ≤ reply.kind)
    (limit : caller.responseLimit = moduleMessageMaxBody) {body part : Bytes} {more : Bool}
    (small : body.length + part.length ≤ moduleMessageMaxBody.toNat) :
    caller.acceptEvent reply.kind reply.correlation body
        ((reply.fragment (part, more)).event sender fReply) =
      if (settleResult reply.status reply.body).1 = moduleStatusOK ∧ more = true then
        .ok (body ++ part)
      else .error (reply.verdict (body ++ part)) := by
  have maximum : moduleMessageMaxBody.toNat < 2 ^ 32 := moduleMessageMaxBody.toNat_lt
  have valid := reply.message_valid staged (show part.length ≤ _ by omega)
  have announced : (reply.message part.length).bodyLen.toNat = part.length := by
    rw [ModuleReply.message, UInt32.toNat_ofNat', Nat.mod_eq_of_lt (by omega)]
  have present : 0 < (reply.fragment (part, more)).payload.length := by
    simp [ModuleReply.fragment, moduleMessageHeaderLen]
  have shape := @SentFragment.event_frame sender fReply _ present
  have marked := @SentFragment.event_more sender fReply _ present (.inr rfl)
  have decoded : decodeModuleMessage ((reply.fragment (part, more)).event sender fReply).payload =
      .ok (reply.message part.length) := ModuleMessage.decode_header valid announced.le
  have own : ((reply.fragment (part, more)).event sender fReply).frame.eventKind = reply.kind ∧
      ((reply.fragment (part, more)).event sender fReply).frame.correlationId =
        reply.correlation := by
    rw [shape]
    exact ⟨rfl, rfl⟩
  have unheard : ModuleCaller.hostVerdict ((reply.fragment (part, more)).event sender fReply)
      reply.correlation = none := by
    have apart : reply.kind ≠ kindCapabilityAbsent ∧ reply.kind ≠ kindError := by
      constructor <;> rintro same <;> rw [same] at served <;> exact absurd served (by decide)
    simp [ModuleCaller.hostVerdict, own, apart]
  have piece : (reply.message part.length).body
      ((reply.fragment (part, more)).event sender fReply).payload = part :=
    ModuleMessage.body_header announced
  have whole : ((reply.fragment (part, more)).event sender fReply).payload.length =
      moduleMessageHeaderLen + part.length := by
    simp [SentFragment.event, Client.sentEvent, ModuleReply.fragment]
  have bounded : ¬ UInt32.ofNat body.length + (reply.message part.length).bodyLen >
      caller.responseLimit := by
    rw [limit, gt_iff_lt, UInt32.lt_iff_toNat_lt, UInt32.toNat_add, UInt32.toNat_ofNat', announced,
      Nat.mod_eq_of_lt (show body.length < 2 ^ 32 by omega), Nat.mod_eq_of_lt (by omega)]
    omega
  have status : (reply.message part.length).status = (settleResult reply.status reply.body).1 := rfl
  have result : (reply.message part.length).operation = moduleOpResult := rfl
  simp only [ModuleCaller.acceptEvent, unheard, own, decoded, result, announced, whole, marked,
    piece, if_neg bounded, status, bne_self_eq_false, Bool.or_self, Bool.false_eq_true, if_false,
    lt_irrefl, gt_iff_lt]
  by_cases plain : (settleResult reply.status reply.body).1 = moduleStatusOK
  · cases more <;> simp [plain, ModuleReply.verdict, ModuleReply.fragment]
  · simp [plain, ModuleReply.verdict]

theorem awaitReply_relayed (staged : reply.stageID ≠ 0) (served : kindModuleBase ≤ reply.kind)
    (limit : caller.responseLimit = moduleMessageMaxBody) {polls : List PollStep}
    (undisturbed : ∀ step ∈ polls, step.Undisturbed) {parts : List (Bytes × Bool)} {body : Bytes}
    (closed : ClosedBy parts)
    (small : body.length + (parts.map Prod.fst).flatten.length ≤ moduleMessageMaxBody.toNat)
    (heard : pollsOf reply.correlation polls <+:
      parts.map fun piece => (reply.fragment piece).event sender fReply) :
    (∀ result, caller.awaitReply reply.kind reply.correlation none body polls = some result →
      pollsOf reply.correlation polls ≠ [] ∧
        result = reply.verdict (body ++ (parts.map Prod.fst).flatten)) ∧
    (pollsOf reply.correlation polls =
        parts.map (fun piece => (reply.fragment piece).event sender fReply) →
      caller.awaitReply reply.kind reply.correlation none body polls =
        some (reply.verdict (body ++ (parts.map Prod.fst).flatten))) := by
  induction polls generalizing parts body with
  | nil =>
      refine ⟨nofun, fun complete => ?_⟩
      have empty : parts = [] := by simpa [pollsOf] using complete.symm
      subst empty
      exact closed.elim
  | cons step rest ih =>
      have here := undisturbed step List.mem_cons_self
      have later : ∀ other ∈ rest, other.Undisturbed :=
        fun other member => undisturbed other (List.mem_cons_of_mem _ member)
      obtain ⟨outcome, ctxDone, now⟩ := step
      cases outcome with
      | panicked => exact here.elim
      | failed failure => exact here.elim
      | empty =>
          obtain rfl : ctxDone = false := here
          simpa [ModuleCaller.awaitReply, pollsOf] using ih later closed small heard
      | received event =>
          by_cases mine : event.frame.correlationId = reply.correlation
          · cases parts with
            | nil => exact closed.elim
            | cons piece others =>
                obtain ⟨part, more⟩ := piece
                have head : pollsOf reply.correlation (⟨.received event, ctxDone, now⟩ :: rest) =
                    event :: pollsOf reply.correlation rest := by
                  simp [pollsOf, mine]
                rw [head, List.map_cons] at heard ⊢
                obtain ⟨rfl, heardAfter⟩ := List.cons_prefix_cons.mp heard
                simp only [List.map_cons, List.flatten_cons, List.length_append] at small
                have accepted := @acceptEvent_reply caller sender reply staged served limit body
                  part more (by omega)
                simp only [ModuleCaller.awaitReply, accepted, List.map_cons, List.flatten_cons]
                by_cases plain : (settleResult reply.status reply.body).1 = moduleStatusOK
                · cases others with
                  | nil =>
                      obtain rfl : more = false := closed
                      simp
                  | cons next others =>
                      obtain ⟨marked, closedAfter⟩ := (closedBy_cons (by simp)).mp closed
                      obtain rfl : more = true := marked
                      obtain ⟨ends, complete⟩ := @ih later (next :: others) (body ++ part)
                        closedAfter (by rw [List.length_append]; omega) heardAfter
                      simp only [plain, and_self, if_true, ← List.append_assoc]
                      refine ⟨fun result returned => ⟨by simp, (ends result returned).2⟩,
                        fun same => complete (List.cons.inj same).2⟩
                · have failed : ∀ bytes, reply.verdict bytes =
                      .error (.status (settleResult reply.status reply.body).1) :=
                    fun _ => if_neg plain
                  simp only [plain, false_and, if_false, failed, Option.some.injEq]
                  exact ⟨fun result same => ⟨by simp, same.symm⟩, fun _ => trivial⟩
          · have skipped : pollsOf reply.correlation
                (⟨.received event, ctxDone, now⟩ :: rest) = pollsOf reply.correlation rest := by
              simp [pollsOf, mine]
            rw [skipped] at heard ⊢
            simp only [ModuleCaller.awaitReply, acceptEvent_foreign mine]
            exact ih later closed small heard

end Wait

end AimeeLearning.Bus
