import AimeeLearning.Bus.Attach
import AimeeLearning.Bus.CallCleanup
import AimeeLearning.Bus.RemoteCall

/-! The size limit of a request. The limit is tested on the low 32 bits of the
length, while the loop that cuts the request runs on the 64-bit length. -/

set_option autoImplicit false

namespace AimeeLearning.Bus

open Library

section Loop

/-- `uint32` of an `int`. -/
def goUint32 (value : Int) : UInt32 := UInt32.ofNat (value % 2 ^ 32).toNat

/-- What one turn of the send loop computes, in Go's `int` arithmetic. -/
structure SendTurn where
  offset : Int
  part : Int
  bodyLen : UInt32
  more : Bool
  next : Int

def sendTurn (chunk length offset : Int) : SendTurn :=
  let rest := goInt (length - offset)
  let part := if rest > chunk then chunk else rest
  { offset
    part
    bodyLen := goUint32 part
    more := goInt (offset + part) < length
    next := goInt (offset + part) }

/-- The turns of `for offset := 0; first || offset < len(request)`; none where
the loop is still going when the fuel is spent. -/
def sendTurns (chunk length : Int) : Nat → Int → Option (List SendTurn)
  | 0, _ => none
  | fuel + 1, offset =>
      let turn := sendTurn chunk length offset
      if turn.next < length then (sendTurns chunk length fuel turn.next).map (turn :: ·)
      else some [turn]

/-- The body a turn copies into its frame. -/
def SendTurn.piece (turn : SendTurn) (request : Bytes) : Bytes × Bool :=
  (window request turn.offset.toNat turn.part.toNat, turn.more)

/-- A turn whose difference, sum and length field are the exact ones. -/
structure SendTurn.Exact (turn : SendTurn) (chunk length : Int) : Prop where
  offset : 0 ≤ turn.offset ∧ turn.offset ≤ length
  rest : goInt (length - turn.offset) = length - turn.offset
  part : turn.part = min chunk (length - turn.offset)
  bodyLen : (turn.bodyLen.toNat : Int) = turn.part
  next : turn.next = turn.offset + turn.part ∧ turn.next ≤ length

variable {chunk length offset : Nat} {request : Bytes}

theorem goInt_natCast {value : Nat} (small : value < 2 ^ 63) : goInt (value : Int) = value :=
  goInt_of_small (by omega) (by exact_mod_cast small)

theorem goUint32_natCast (value : Nat) : goUint32 (value : Int) = UInt32.ofNat value := by
  apply UInt32.toNat_inj.mp
  simp only [goUint32, UInt32.toNat_ofNat']
  omega

theorem sendTurn_exact (word : chunk < 2 ^ 32) (long : length < 2 ^ 63) (inside : offset ≤ length) :
    (sendTurn chunk length offset).Exact chunk length ∧
      (sendTurn chunk length offset).next = (offset + min chunk (length - offset) : Nat) ∧
      (sendTurn chunk length offset).piece request =
        ((request.drop offset).take (min chunk (length - offset)),
          decide (offset + min chunk (length - offset) < length)) := by
  have rest : goInt ((length : Int) - offset) = (length - offset : Nat) := by
    rw [← Nat.cast_sub inside]
    exact goInt_natCast (by omega)
  have part : (if (length - offset : Nat) > (chunk : Int) then (chunk : Int)
      else (length - offset : Nat)) = (min chunk (length - offset) : Nat) := by
    split <;> omega
  have next : goInt (offset + (min chunk (length - offset) : Nat)) =
      (offset + min chunk (length - offset) : Nat) := by
    rw [← Nat.cast_add]
    exact goInt_natCast (by omega)
  have turn : sendTurn chunk length offset =
      { offset
        part := (min chunk (length - offset) : Nat)
        bodyLen := UInt32.ofNat (min chunk (length - offset))
        more := offset + min chunk (length - offset) < length
        next := (offset + min chunk (length - offset) : Nat) } := by
    simp only [sendTurn, rest, part, next, goUint32_natCast]
    simp only [Nat.cast_lt]
  rw [turn]
  refine ⟨⟨by dsimp only; omega, by dsimp only; omega, by dsimp only; omega, ?_, ?_⟩, rfl, ?_⟩
  · dsimp only
    rw [UInt32.toNat_ofNat', Nat.mod_eq_of_lt (by omega)]
  · dsimp only
    omega
  · simp only [SendTurn.piece, window, Int.toNat_natCast]

/-- The loop ends, no turn of it wraps, and its bodies are the pieces of the request. -/
theorem sendTurns_exact (word : chunk < 2 ^ 32) (long : request.length < 2 ^ 63) :
    ∀ fuel offset : Nat, offset ≤ request.length → request.length - offset < fuel → 0 < chunk →
      ∃ turns, sendTurns chunk request.length fuel offset = some turns ∧
        (∀ turn ∈ turns, turn.Exact chunk request.length) ∧
        turns.map (·.piece request) = piecesFrom chunk request fuel offset := by
  intro fuel
  induction fuel with
  | zero => intro offset _ short; omega
  | succ fuel ih =>
      intro offset inside short positive
      obtain ⟨exactTurn, next, piece⟩ := @sendTurn_exact _ _ _ request word long inside
      have cut : (if request.length - offset > chunk then chunk else request.length - offset) =
          min chunk (request.length - offset) := by
        split <;> omega
      rw [sendTurns, piecesFrom]
      simp only [next, cut, Nat.cast_lt]
      by_cases continues : offset + min chunk (request.length - offset) < request.length
      · obtain ⟨turns, made, exactTurns, pieces⟩ := ih _ continues.le (by omega) positive
        rw [if_pos continues, if_pos continues, made]
        refine ⟨_, rfl, ?_, ?_⟩
        · intro turn member
          rcases List.mem_cons.mp member with rfl | later
          · exact exactTurn
          · exact exactTurns turn later
        · rw [List.map_cons, piece, pieces]
      · rw [if_neg continues, if_neg continues]
        refine ⟨_, rfl, ?_, ?_⟩
        · intro turn member
          obtain rfl := List.mem_singleton.mp member
          exact exactTurn
        · rw [List.map_singleton, piece]

end Loop

section Limit

variable {caller : ModuleCaller} {call : ModuleCall} {world : CallWorld}

def SentFragment.body (fragment : SentFragment) : Bytes :=
  match decodeModuleMessage fragment.payload with
  | .ok message => message.body fragment.payload
  | .error _ => []

def CallOutcome.published (outcome : CallOutcome) : List SentFragment :=
  outcome.calls.filterMap CallerCall.published

/-- The bodies of the published fragments, put together. -/
def CallOutcome.sentBody (outcome : CallOutcome) : Bytes :=
  (outcome.published.map SentFragment.body).flatten

/-- Go's `int(budget) - ModuleMessageHeaderLen`. -/
def ModuleCaller.chunk (caller : ModuleCaller) : Int :=
  goInt (caller.inlineBudget.toNat - moduleMessageHeaderLen)

/-- A call refuses its request or sends it whole and within the limit, and its
send loop ends without wrapping. -/
structure KeepsLimit (caller : ModuleCaller) (call : ModuleCall) (world : CallWorld) : Prop where
  sent :
    ((caller.call call world).result = some (.error (.bus .errModuleConfig)) ∧
        (caller.call call world).published = []) ∨
      ((caller.call call world).sentBody = call.request ∧
        (caller.call call world).sentBody.length ≤ moduleMessageMaxBody.toNat)
  loop : ∃ fuel turns, sendTurns caller.chunk call.request.length fuel 0 = some turns ∧
    (∀ turn ∈ turns, turn.Exact caller.chunk call.request.length) ∧
    turns.map (·.piece call.request) = caller.parts call

/-- The low 32 bits of the length are over the limit, or the length is within it
and the request, if it has a body, names a stage. -/
def RequestWithinLimit (call : ModuleCall) : Prop :=
  moduleMessageMaxBody.toNat < call.request.length % 2 ^ 32 ∨
    (call.request.length ≤ moduleMessageMaxBody.toNat ∧ (call.stageID ≠ 0 ∨ call.request = []))

theorem send_loop (roomy : moduleMessageHeaderLen < caller.inlineBudget.toNat)
    (long : call.request.length < 2 ^ 63) :
    ∃ fuel turns, sendTurns caller.chunk call.request.length fuel 0 = some turns ∧
      (∀ turn ∈ turns, turn.Exact caller.chunk call.request.length) ∧
      turns.map (·.piece call.request) = caller.parts call := by
  have word : caller.inlineBudget.toNat < 2 ^ 32 := caller.inlineBudget.toNat_lt
  have chunk : caller.chunk = (caller.inlineBudget.toNat - moduleMessageHeaderLen : Nat) := by
    rw [ModuleCaller.chunk, ← Nat.cast_sub roomy.le]
    exact goInt_natCast (by omega)
  have loop := @sendTurns_exact (caller.inlineBudget.toNat - moduleMessageHeaderLen) call.request
    (by omega) long (call.request.length + 1) 0 (Nat.zero_le _) (by omega) (by omega)
  rw [chunk]
  exact ⟨_, loop⟩

theorem oversized_iff : UInt32.ofNat call.request.length > moduleMessageMaxBody ↔
    moduleMessageMaxBody.toNat < call.request.length % 2 ^ 32 := by
  rw [gt_iff_lt, UInt32.lt_iff_toNat_lt, UInt32.toNat_ofNat']

/-- Fragments within the frame limit are within the body limit too. -/
theorem part_small (roomy : moduleMessageHeaderLen < caller.inlineBudget.toNat)
    (framed : caller.inlineBudget ≤ maxPayload) {piece : Bytes × Bool}
    (cut : piece ∈ caller.parts call) :
    piece.1.length ≤ moduleMessageMaxBody.toNat ∧
      moduleMessageHeaderLen + piece.1.length ≤ caller.inlineBudget.toNat := by
  have short := (pieces_length call.request (by omega) piece cut).1
  have limits : maxPayload.toNat ≤ moduleMessageMaxBody.toNat := by decide
  have frame := UInt32.le_iff_toNat_le.mp framed
  omega

theorem call_whole (roomy : moduleMessageHeaderLen < caller.inlineBudget.toNat)
    (framed : caller.inlineBudget ≤ maxPayload)
    (accepting : ∀ index, world.requestFragment index = .ok ())
    (admitted : ¬ UInt32.ofNat call.request.length > moduleMessageMaxBody)
    (named : call.stageID ≠ 0) :
    (caller.call call world).published ≠ [] ∧ (caller.call call world).sentBody = call.request := by
  have sendable : Sendable call (ModuleCaller.deadlineNS call world)
      (List.replicate caller.inlineBudget.toNat (0 : UInt8)).length (caller.parts call) := by
    intro piece cut
    obtain ⟨small, fits⟩ := part_small roomy framed cut
    exact ⟨call.message_valid named small, by simpa using fits⟩
  have published := (RemoteStage.call_publishes admitted (by omega) sendable accepting).1
  refine ⟨?_, ?_⟩
  · rw [CallOutcome.published, published]
    simpa using ModuleCaller.parts_ne_nil roomy
  · have bodies : (caller.call call world).published.map SentFragment.body =
        (caller.parts call).map Prod.fst := by
      rw [CallOutcome.published, published, List.map_map]
      refine List.map_congr_left fun piece cut => ?_
      obtain ⟨decoded, body⟩ := @ModuleCall.payload_decoded call
        (ModuleCaller.deadlineNS call world) named piece.1 (part_small roomy framed cut).1
      simp only [Function.comp_apply, SentFragment.body, decoded, body]
    rw [CallOutcome.sentBody, bodies]
    exact pieces_flatten _ (by omega)

/-- Without a stage the first envelope does not encode. -/
theorem call_unnamed (roomy : moduleMessageHeaderLen < caller.inlineBudget.toNat)
    (admitted : ¬ UInt32.ofNat call.request.length > moduleMessageMaxBody)
    (unnamed : call.stageID = 0) :
    (caller.call call world).result = some (.error (.bus .errModuleMessage)) ∧
      (caller.call call world).sentBody = [] := by
  have invalid : ∀ part, (call.message (ModuleCaller.deadlineNS call world) part).valid = false := by
    intro part
    by_contra valid
    rw [Bool.not_eq_false] at valid
    exact (ModuleMessage.valid_iff.mp valid).2.2.2.1 unnamed
  have unsent : caller.send call caller.next (ModuleCaller.deadlineNS call world)
      world.requestFragment = ([], .error (.bus .errModuleMessage)) := by
    rw [ModuleCaller.send, if_neg (by omega)]
    cases cut : caller.parts call with
    | nil => exact absurd cut (ModuleCaller.parts_ne_nil roomy)
    | cons piece rest => simp [sendPieces, ModuleMessage.encode, invalid]
  have same : ModuleCaller.send { caller with correlation := caller.next } call caller.next
      (ModuleCaller.deadlineNS call world) world.requestFragment = _ := unsent
  have ended : caller.call call world =
      ⟨{ caller with correlation := caller.next }, [], some (.error (.bus .errModuleMessage))⟩ := by
    rw [ModuleCaller.call, if_neg admitted]
    simp only [same]
  rw [ended]
  exact ⟨rfl, rfl⟩

/-- A call keeps the limit exactly where the test on the low 32 bits sees the
whole length. -/
theorem call_keeps_limit_iff (long : call.request.length < 2 ^ 63)
    (roomy : moduleMessageHeaderLen < caller.inlineBudget.toNat)
    (framed : caller.inlineBudget ≤ maxPayload)
    (accepting : ∀ index, world.requestFragment index = .ok ()) :
    KeepsLimit caller call world ↔ RequestWithinLimit call := by
  have loop := @send_loop caller call roomy long
  by_cases oversized : UInt32.ofNat call.request.length > moduleMessageMaxBody
  · refine iff_of_true ⟨.inl ?_, loop⟩ (.inl (oversized_iff.mp oversized))
    rw [CallOutcome.published, ModuleCaller.call, if_pos oversized]
    exact ⟨rfl, rfl⟩
  · have low := (not_congr oversized_iff).mp oversized
    by_cases named : call.stageID = 0
    · obtain ⟨result, nothing⟩ := @call_unnamed caller call world roomy oversized named
      constructor
      · rintro ⟨⟨refused, -⟩ | ⟨whole, -⟩, -⟩
        · rw [result] at refused
          cases refused
        · have empty : call.request = [] := whole.symm.trans nothing
          exact .inr ⟨by simp [empty], .inr empty⟩
      · rintro (beyond | ⟨small, present | empty⟩)
        · exact absurd beyond low
        · exact absurd named present
        · exact ⟨.inr ⟨nothing.trans empty.symm, by simp [nothing]⟩, loop⟩
    · obtain ⟨some, whole⟩ := call_whole roomy framed accepting oversized named
      constructor
      · rintro ⟨⟨-, none⟩ | ⟨-, small⟩, -⟩
        · exact absurd none some
        · exact .inr ⟨whole ▸ small, .inl named⟩
      · rintro (beyond | ⟨small, -⟩)
        · exact absurd beyond low
        · exact ⟨.inr ⟨whole, whole.symm ▸ small⟩, loop⟩

def zeroRequest (length : Nat) : ModuleCall where
  eventKind := kindModuleBase
  stageID := 1
  traceID := 0
  deadline := 0
  request := List.replicate length 0

def acceptingWorld : CallWorld := ⟨0, 0, fun _ => .ok (), []⟩

/-- A request of exactly 2^32 bytes passes the test as an empty one and is sent
in full. -/
theorem call_exceeds_limit :
    ¬ KeepsLimit ⟨4096, 0, moduleMessageMaxBody⟩ (zeroRequest (2 ^ 32)) acceptingWorld := by
  have length : (zeroRequest (2 ^ 32)).request.length = 2 ^ 32 := List.length_replicate
  have admitted : ¬ UInt32.ofNat (zeroRequest (2 ^ 32)).request.length > moduleMessageMaxBody := by
    rw [length]
    decide
  obtain ⟨some, whole⟩ := @call_whole ⟨4096, 0, moduleMessageMaxBody⟩ (zeroRequest (2 ^ 32))
    acceptingWorld (by decide) (by decide) (fun _ => rfl) admitted (by decide)
  rintro ⟨⟨-, none⟩ | ⟨-, small⟩, -⟩
  · exact absurd none some
  · rw [whole, length] at small
    exact absurd small (by decide)

/-- Three bytes in two fragments. -/
theorem call_keeps_limit_short :
    KeepsLimit ⟨42, 0, moduleMessageMaxBody⟩ (zeroRequest 3) acceptingWorld :=
  (call_keeps_limit_iff (by decide) (by decide) (by decide) fun _ => rfl).mpr
    (.inr ⟨by decide, .inl (by decide)⟩)

end Limit

end AimeeLearning.Bus
