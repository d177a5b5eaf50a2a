import AimeeLearning.Bus.AttachCustody
import AimeeLearning.Library.Machine

/-! The life of a requesting client: ConnectClient attaches it and leaves a
goroutine behind that keeps its heartbeat going until the context ends. Detach
unmaps the regions but clears neither the views nor the goroutine. -/

set_option autoImplicit false

namespace AimeeLearning.Bus.System

open Library

inductive ClientError where
  | config (failure : BusError)
  | connect (failure : ConnectError)

/-- `none` while it still retries. -/
def connectClient (socketPath : String) (principalClass principalRef : UInt32) (rounds : Nat) :
    SystemProgram (Option (Except ClientError AttachedClient)) :=
  if socketPath == "" then return some (.error (.config .errModuleConfig))
  else do
    let result ← (connectRound socketPath principalClass principalRef).retried rounds
    return result.map (·.mapError .connect)

section Life

/-- The goroutine of keepAlive. -/
inductive Keeper where
  | waiting
  /-- The clock is read and the heartbeat not yet written. -/
  | ticked (now : UInt64)
  | returned
  deriving DecidableEq

structure ClientLife where
  /-- The fields ctlMem, arena and qpMem. -/
  regions : Regions
  detaching : Bool
  keeper : Keeper
  ctxDone : Bool

/-- A call of the user, up to Detach. -/
inductive ClientMethod where
  | epochChanged
  | heartbeat
  | controlLost
  | emit (tooLong stale : Bool)
  | poll (stale : Bool)
  /-- Look at the payload of the last event. -/
  | payload

/-- Which regions a method reads or writes, through the views AttachAs took. -/
def ClientMethod.touches (views : Regions) : ClientMethod → List Nat
  | .epochChanged => views.ctlMem.toList
  | .heartbeat => views.qpMem.toList
  | .controlLost => views.qpMem.toList
  | .emit tooLong stale =>
      if tooLong then []
      else if stale then views.ctlMem.toList
      else views.ctlMem.toList ++ views.qpMem.toList
  | .poll stale =>
      if stale then views.ctlMem.toList else views.ctlMem.toList ++ views.qpMem.toList
  | .payload => views.qpMem.toList

inductive ClientAction where
  | method (method : ClientMethod)
  /-- Detach is called. -/
  | detach
  /-- Detach comes to the next field. -/
  | unmap (answer : Except Errno Unit)
  /-- The context ends. -/
  | cancel
  /-- The goroutine's select takes the tick, and the clock is read. -/
  | tick (now : UInt64)
  /-- The goroutine writes the heartbeat. -/
  | beat
  /-- The goroutine's select takes the context. -/
  | leave

def touch (address : Nat) : Exchange SystemCall.Answer := ⟨.touch address, ()⟩

/-- The next step of Detach over the fields. -/
def detachStep (answer : Except Errno Unit) (life : ClientLife) :
    ClientLife × List (Exchange SystemCall.Answer) :=
  match life.regions.ctlMem, life.regions.arena, life.regions.qpMem with
  | some address, _, _ =>
      ({ life with regions := { life.regions with ctlMem := none } }, [⟨.munmap address, answer⟩])
  | none, some address, _ =>
      ({ life with regions := { life.regions with arena := none } }, [⟨.munmap address, answer⟩])
  | none, none, some address =>
      ({ life with regions := { life.regions with qpMem := none } }, [⟨.munmap address, answer⟩])
  | none, none, none => ({ life with detaching := false }, [])

/-- The user and the goroutine of one client, in any order. The user is busy while
Detach runs; the goroutine is not. -/
def clientStep (views : Regions) (life : ClientLife) :
    ClientAction → Option (ClientLife × List (Exchange SystemCall.Answer))
  | .method method =>
      if life.detaching then none else some (life, (method.touches views).map touch)
  | .detach => if life.detaching then none else some ({ life with detaching := true }, [])
  | .unmap answer => if life.detaching then some (detachStep answer life) else none
  | .cancel => some ({ life with ctxDone := true }, [])
  | .tick now =>
      if life.keeper = .waiting then
        some (if now ≠ 0 then { life with keeper := .ticked now } else life, [])
      else none
  | .beat =>
      match life.keeper with
      | .ticked _ =>
          some ({ life with keeper := .waiting }, views.qpMem.toList.map touch)
      | _ => none
  | .leave =>
      if life.keeper = .waiting ∧ life.ctxDone then some ({ life with keeper := .returned }, [])
      else none

def clientMachine (views : Regions) :
    Machine ClientLife ClientAction (Exchange SystemCall.Answer) where
  step := clientStep views

/-- A client as ConnectClient returns it. -/
def ClientLife.attached (client : AttachedClient) : ClientLife :=
  ⟨client.regions, false, .waiting, false⟩

end Life

section Connect

/-- The client of a try to connect, if there is one, has all three regions. -/
def WholeRound {ε : Type} (result : Option (Except ε AttachedClient)) : Prop :=
  ∀ outcome, result = some outcome → WholeClient outcome

theorem wholeRound_some {ε : Type} {outcome : Except ε AttachedClient}
    (whole : WholeClient outcome) : WholeRound (some outcome) := by
  intro other same
  obtain rfl := Option.some.inj same
  exact whole

theorem wholeRound_none {ε : Type} :
    WholeRound (none : Option (Except ε AttachedClient)) := by
  intro outcome same
  cases same

theorem connectRound_whole (socketPath : String) (principalClass principalRef : UInt32) :
    (connectRound socketPath principalClass principalRef).Ensures WholeRound := by
  refine .bind fun opened => ?_
  cases opened with
  | error errno => exact .pure (wholeRound_some (wholeClient_error _))
  | ok fd =>
  refine .bind fun connected => ?_
  cases connected with
  | ok _ =>
      refine (attachAs_whole fd principalClass principalRef).map fun result whole => ?_
      exact .bind fun _ => .pure (wholeRound_some (whole.mapError _))
  | error errno =>
      refine .bind fun _ => ?_
      split
      · exact .pure (wholeRound_some (wholeClient_error _))
      refine .bind fun ended => ?_
      split
      · exact .pure (wholeRound_some (wholeClient_error _))
      · exact .pure wholeRound_none

variable {socketPath : String} {principalClass principalRef : UInt32} {rounds : Nat}

theorem connectClient_whole :
    (connectClient socketPath principalClass principalRef rounds).Ensures WholeRound := by
  unfold connectClient
  split
  · exact .pure (wholeRound_some (wholeClient_error _))
  refine ((connectRound_whole _ _ _).retried wholeRound_none rounds).map fun result whole => ?_
  cases result with
  | none => exact .pure wholeRound_none
  | some outcome => exact .pure (wholeRound_some ((whole outcome rfl).mapError _))

/-- What a client that was connected holds. -/
def clientHeld : Option (Except ClientError AttachedClient) → Multiset Handle
  | some (.ok client) => client.regions.handles
  | _ => 0

theorem connectClient_keeps {needs : Multiset Handle} :
    systemCustody.Keeps needs (connectClient socketPath principalClass principalRef rounds)
      fun result => needs + clientHeld result := by
  unfold connectClient
  split
  · exact .pure (add_zero _)
  refine ((connectRound_keeps _ _ _).retried (add_zero _) rounds).bind fun result => ?_
  rcases result with _ | failure | client
  · exact .pure rfl
  · exact .pure rfl
  · exact .pure rfl

end Connect

section Steps

variable {views : Regions} {life next : ClientLife} {action : ClientAction}
  {emitted : List (Exchange SystemCall.Answer)}

theorem released_touches (addresses : List Nat) :
    systemCustody.released (addresses.map touch) = 0 := by
  simp [Custody.released, systemCustody, touch, List.flatMap_map]

theorem acquired_touches (addresses : List Nat) :
    systemCustody.acquired (addresses.map touch) = 0 := by
  simp [Custody.acquired, systemCustody, touch, List.flatMap_map]

theorem ledger_touches {held : Multiset Handle} {addresses : List Nat}
    (mapped : ∀ address ∈ addresses, .mapping address ∈ held) :
    systemCustody.ledger held (addresses.map touch) = some held := by
  induction addresses with
  | nil => rfl
  | cons address rest ih =>
      have here : systemCustody.settle held (touch address) = some held := by
        have present := mapped address List.mem_cons_self
        rw [Custody.settle, if_pos ⟨by simpa [systemCustody, touch] using present,
          Multiset.zero_le held⟩]
        simp [systemCustody, touch]
      rw [List.map_cons, Custody.ledger, here, Option.bind_some]
      exact ih fun other member => mapped other (List.mem_cons_of_mem _ member)

/-- Detach gives back the next mapping that its fields still name. -/
theorem detachStep_cases (answer : Except Errno Unit) (life : ClientLife) :
    (∃ address, (detachStep answer life).2 = [⟨.munmap address, answer⟩] ∧
      (life.regions.handles : Multiset Handle) =
        ↑(detachStep answer life).1.regions.handles + {.mapping address}) ∨
    (detachStep answer life).2 = [] ∧ (detachStep answer life).1.regions = life.regions := by
  have front : ∀ (address : Nat) (rest : List Handle),
      (↑(Handle.mapping address :: rest) : Multiset Handle) = ↑rest + {.mapping address} := by
    intro address rest
    rw [← Multiset.cons_coe, ← Multiset.singleton_add, add_comm]
  obtain ⟨⟨ctlMem, arena, qpMem⟩, detaching, keeper, ctxDone⟩ := life
  cases ctlMem with
  | some address => exact .inl ⟨address, rfl, front address _⟩
  | none =>
      cases arena with
      | some address => exact .inl ⟨address, rfl, front address _⟩
      | none =>
          cases qpMem with
          | some address => exact .inl ⟨address, rfl, front address _⟩
          | none => exact .inr ⟨rfl, rfl⟩

theorem detachStep_keeper (answer : Except Errno Unit) (life : ClientLife) :
    (detachStep answer life).1.keeper = life.keeper := by
  unfold detachStep
  split <;> rfl

/-- What a step does to the regions: it touches them or gives one back. -/
inductive RegionMove (views : Regions) (life next : ClientLife) (action : ClientAction)
    (emitted : List (Exchange SystemCall.Answer)) : Prop where
  | quiet (same : next.regions = life.regions) (silent : emitted = [])
  | called (method : ClientMethod) (named : action = .method method) (same : next = life)
      (free : life.detaching = false) (touched : emitted = (method.touches views).map touch)
  | beaten (named : action = .beat) (ticked : ∃ now, life.keeper = .ticked now)
      (same : next = { life with keeper := .waiting })
      (touched : emitted = views.qpMem.toList.map touch)
  | unmapped (answer : Except Errno Unit) (address : Nat) (named : action = .unmap answer)
      (busy : life.detaching = true) (gone : emitted = [⟨.munmap address, answer⟩])
      (left : (life.regions.handles : Multiset Handle) =
        ↑next.regions.handles + {.mapping address})

theorem clientStep_move (taken : clientStep views life action = some (next, emitted)) :
    RegionMove views life next action emitted := by
  cases action with
  | method method =>
      simp only [clientStep] at taken
      split at taken
      · cases taken
      · rename_i free
        obtain ⟨rfl, rfl⟩ := Prod.mk.inj (Option.some.inj taken)
        exact .called method rfl rfl (by simpa using free) rfl
  | detach =>
      simp only [clientStep] at taken
      split at taken
      · cases taken
      · obtain ⟨rfl, rfl⟩ := Prod.mk.inj (Option.some.inj taken)
        exact .quiet rfl rfl
  | unmap answer =>
      simp only [clientStep] at taken
      split at taken
      · rename_i busy
        obtain ⟨rfl, rfl⟩ := Prod.mk.inj (Option.some.inj taken)
        rcases detachStep_cases answer life with ⟨address, gone, left⟩ | ⟨silent, same⟩
        · exact .unmapped answer address rfl busy gone left
        · exact .quiet same silent
      · cases taken
  | cancel =>
      obtain ⟨rfl, rfl⟩ := Prod.mk.inj (Option.some.inj taken)
      exact .quiet rfl rfl
  | tick now =>
      simp only [clientStep] at taken
      split at taken
      · obtain ⟨rfl, rfl⟩ := Prod.mk.inj (Option.some.inj taken)
        refine .quiet ?_ rfl
        split <;> rfl
      · cases taken
  | beat =>
      simp only [clientStep] at taken
      split at taken
      · rename_i now ticked
        obtain ⟨rfl, rfl⟩ := Prod.mk.inj (Option.some.inj taken)
        exact .beaten rfl ⟨now, ticked⟩ rfl rfl
      · cases taken
  | leave =>
      simp only [clientStep] at taken
      split at taken
      · obtain ⟨rfl, rfl⟩ := Prod.mk.inj (Option.some.inj taken)
        exact .quiet rfl rfl
      · cases taken

/-- Nothing is mapped, and what was given back is what is no longer named. -/
theorem clientStep_balance (taken : clientStep views life action = some (next, emitted)) :
    systemCustody.acquired emitted = 0 ∧
      ↑next.regions.handles + systemCustody.released emitted =
        (life.regions.handles : Multiset Handle) := by
  cases clientStep_move taken with
  | quiet same silent =>
      subst silent
      rw [same]
      exact ⟨rfl, add_zero _⟩
  | called method named same free touched =>
      subst same touched
      exact ⟨acquired_touches _, by rw [released_touches, add_zero]⟩
  | beaten named ticked same touched =>
      subst same touched
      exact ⟨acquired_touches _, by rw [released_touches, add_zero]⟩
  | unmapped answer address named busy gone left =>
      subst gone
      exact ⟨rfl, left.symm⟩

end Steps

section Runs

variable {views : Regions} {life next final : ClientLife} {action : ClientAction}
  {actions : List ClientAction} {emitted trace : List (Exchange SystemCall.Answer)}

/-- A trace over what is held touches or gives back what is not held. -/
def Faults (held : Multiset Handle) (trace : List (Exchange SystemCall.Answer)) : Prop :=
  systemCustody.ledger held trace = none

theorem run_balance (run : (clientMachine views).Run life actions final trace) :
    systemCustody.acquired trace = 0 ∧
      ↑final.regions.handles + systemCustody.released trace =
        (life.regions.handles : Multiset Handle) := by
  induction run with
  | nil => exact ⟨rfl, add_zero _⟩
  | snoc before taken ih =>
      obtain ⟨acquired, kept⟩ := ih
      obtain ⟨none, moved⟩ := clientStep_balance taken
      refine ⟨by rw [Custody.acquired_append, acquired, none, add_zero], ?_⟩
      rw [Custody.released_append, ← kept, ← moved]
      abel

/-- A run that faults nowhere holds what its fields name. -/
theorem run_held (run : (clientMachine views).Run life actions final trace)
    {held : Multiset Handle}
    (settled : systemCustody.ledger life.regions.handles trace = some held) :
    held = final.regions.handles := by
  obtain ⟨acquired, kept⟩ := run_balance run
  have balance := Custody.ledger_balance settled
  rw [acquired, add_zero, ← kept] at balance
  exact (add_right_cancel balance).symm

section Order

/-- Methods are called while everything is mapped, and Detach once the goroutine
has returned. -/
def orderly (views : Regions) (life : ClientLife) : ClientAction → Bool
  | .method _ => life.regions == views
  | .detach => life.keeper == .returned
  | _ => true

/-- The goroutine has returned, or Detach has not begun. -/
def ClientLife.Sheltered (views : Regions) (life : ClientLife) : Prop :=
  life.keeper = .returned ∨ life.regions = views ∧ life.detaching = false

theorem qpMem_held {address : Nat} (named : views.qpMem = some address) :
    Handle.mapping address ∈ (views.handles : Multiset Handle) := by
  simp [Regions.handles, named]

theorem touches_held (method : ClientMethod) {address : Nat}
    (touched : address ∈ method.touches views) :
    Handle.mapping address ∈ (views.handles : Multiset Handle) := by
  have among : address ∈ views.ctlMem.toList ++ views.qpMem.toList := by
    cases method with
    | emit tooLong stale => cases tooLong <;> cases stale <;> simp_all [ClientMethod.touches]
    | poll stale => cases stale <;> simp_all [ClientMethod.touches]
    | _ => simp_all [ClientMethod.touches]
  rcases List.mem_append.mp among with control | queuePair
  · simp [Regions.handles, Option.mem_toList.mp control]
  · exact qpMem_held (Option.mem_toList.mp queuePair)

theorem ClientLife.Sheltered.step (sheltered : life.Sheltered views)
    (allowed : orderly views life action = true)
    (taken : clientStep views life action = some (next, emitted)) : next.Sheltered views := by
  cases action with
  | method method =>
      simp only [clientStep] at taken
      split at taken
      · cases taken
      · obtain ⟨rfl, -⟩ := Prod.mk.inj (Option.some.inj taken)
        exact sheltered
  | detach =>
      have gone : life.keeper = .returned := by simpa [orderly] using allowed
      simp only [clientStep] at taken
      split at taken
      · cases taken
      · obtain ⟨rfl, -⟩ := Prod.mk.inj (Option.some.inj taken)
        exact .inl gone
  | unmap answer =>
      simp only [clientStep] at taken
      split at taken
      · rename_i busy
        obtain ⟨rfl, -⟩ := Prod.mk.inj (Option.some.inj taken)
        have gone := sheltered.resolve_right fun free => by simp [busy] at free
        exact .inl ((detachStep_keeper answer life).trans gone)
      · cases taken
  | cancel =>
      obtain ⟨rfl, -⟩ := Prod.mk.inj (Option.some.inj taken)
      exact sheltered
  | tick now =>
      simp only [clientStep] at taken
      split at taken
      · rename_i waiting
        obtain ⟨rfl, -⟩ := Prod.mk.inj (Option.some.inj taken)
        have free := sheltered.resolve_left (by simp [waiting])
        refine .inr ?_
        split <;> exact free
      · cases taken
  | beat =>
      simp only [clientStep] at taken
      split at taken
      · rename_i now ticked
        obtain ⟨rfl, -⟩ := Prod.mk.inj (Option.some.inj taken)
        exact .inr (sheltered.resolve_left (by simp [ticked]))
      · cases taken
  | leave =>
      simp only [clientStep] at taken
      split at taken
      · obtain ⟨rfl, -⟩ := Prod.mk.inj (Option.some.inj taken)
        exact .inl rfl
      · cases taken

theorem ClientLife.Sheltered.settles (sheltered : life.Sheltered views)
    (allowed : orderly views life action = true)
    (taken : clientStep views life action = some (next, emitted)) :
    systemCustody.ledger life.regions.handles emitted = some ↑next.regions.handles := by
  cases clientStep_move taken with
  | quiet same silent =>
      subst silent
      rw [same]
      rfl
  | called method named same free touched =>
      subst named same touched
      have whole : next.regions = views := by simpa [orderly] using allowed
      exact ledger_touches fun address member => whole ▸ touches_held method member
  | beaten named ticked same touched =>
      subst same touched
      obtain ⟨now, ticked⟩ := ticked
      obtain ⟨whole, -⟩ := sheltered.resolve_left (by simp [ticked])
      refine ledger_touches fun address member => ?_
      exact whole ▸ qpMem_held (Option.mem_toList.mp member)
  | unmapped answer address named busy gone left =>
      subst gone
      have unused : ∀ handle ∈ systemCustody.uses (.munmap address),
          handle ∈ (↑next.regions.handles + {.mapping address} : Multiset Handle) :=
        fun _ used => absurd used List.not_mem_nil
      rw [left, Custody.ledger, Custody.settle, if_pos ⟨unused, Multiset.le_add_left _ _⟩]
      simp [Custody.ledger, systemCustody]

/-- A run in that order faults nowhere. -/
theorem orderly_run (run : ((clientMachine views).restrict (orderly views)).Run life actions final
      trace) (sheltered : life.Sheltered views) :
    final.Sheltered views ∧
      systemCustody.ledger life.regions.handles trace = some ↑final.regions.handles := by
  induction run with
  | nil => exact ⟨sheltered, rfl⟩
  | snoc before taken ih =>
      obtain ⟨still, settled⟩ := ih
      obtain ⟨allowed, moved⟩ := Machine.restrict_step.mp taken
      refine ⟨still.step allowed moved, ?_⟩
      rw [Custody.ledger_append, settled, Option.bind_some]
      exact still.settles allowed moved

end Order

section Background

/-- What goes on without the user. -/
def ClientAction.background : ClientAction → Bool
  | .cancel => true
  | .tick _ => true
  | .beat => true
  | .leave => true
  | _ => false

theorem background_step (aside : action.background = true)
    (taken : clientStep views life action = some (next, emitted)) :
    next.regions = life.regions ∧
      (life.keeper = .returned → next.keeper = .returned ∧ emitted = []) ∧
      (emitted = [] ∨ emitted = views.qpMem.toList.map touch) := by
  cases action with
  | method method => cases aside
  | detach => cases aside
  | unmap answer => cases aside
  | cancel =>
      obtain ⟨rfl, rfl⟩ := Prod.mk.inj (Option.some.inj taken)
      exact ⟨rfl, fun gone => ⟨gone, rfl⟩, .inl rfl⟩
  | tick now =>
      simp only [clientStep] at taken
      split at taken
      · rename_i waiting
        obtain ⟨rfl, rfl⟩ := Prod.mk.inj (Option.some.inj taken)
        refine ⟨?_, fun gone => by simp [waiting] at gone, .inl rfl⟩
        split <;> rfl
      · cases taken
  | beat =>
      simp only [clientStep] at taken
      split at taken
      · rename_i now ticked
        obtain ⟨rfl, rfl⟩ := Prod.mk.inj (Option.some.inj taken)
        exact ⟨rfl, fun gone => by simp [ticked] at gone, .inr rfl⟩
      · cases taken
  | leave =>
      simp only [clientStep] at taken
      split at taken
      · rename_i waiting
        obtain ⟨rfl, rfl⟩ := Prod.mk.inj (Option.some.inj taken)
        exact ⟨rfl, fun gone => by simp [waiting.1] at gone, .inl rfl⟩
      · cases taken

/-- The goroutine can still write its heartbeat into a queue pair that is gone. -/
def ClientLife.Doomed (views : Regions) (life : ClientLife) : Prop :=
  life.keeper ≠ .returned ∧
    ∃ address ∈ views.qpMem, Handle.mapping address ∉ (life.regions.handles : Multiset Handle)

theorem background_safe (run : (clientMachine views).Run life actions final trace)
    (aside : ∀ action ∈ actions, action.background = true) (safe : ¬ life.Doomed views) :
    systemCustody.ledger life.regions.handles trace = some ↑life.regions.handles := by
  have whole : final.regions = life.regions ∧
      (life.keeper = .returned → final.keeper = .returned) ∧
      systemCustody.ledger life.regions.handles trace = some ↑life.regions.handles := by
    induction run with
    | nil => exact ⟨rfl, fun gone => gone, rfl⟩
    | snoc before taken ih =>
        obtain ⟨same, left, settled⟩ := ih fun action member => aside action (by simp [member])
        obtain ⟨kept, quiet, touched⟩ := background_step (aside _ (by simp)) taken
        refine ⟨kept.trans same, fun gone => (quiet (left gone)).1, ?_⟩
        rw [Custody.ledger_append, settled, Option.bind_some]
        by_cases gone : life.keeper = .returned
        · rw [(quiet (left gone)).2]
          rfl
        · rcases touched with rfl | rfl
          · rfl
          · refine ledger_touches fun address member => ?_
            by_contra missing
            exact safe ⟨gone, address, Option.mem_toList.mp member, missing⟩
  exact whole.2.2

theorem touch_faults {held : Multiset Handle} {address : Nat}
    (missing : Handle.mapping address ∉ held) : Faults held [touch address] := by
  have refused : systemCustody.settle held (touch address) = none := by
    simp [Custody.settle, systemCustody, touch, missing]
  rw [Faults, Custody.ledger, refused, Option.bind_none]

theorem doomed_faults (doomed : life.Doomed views) :
    ∃ actions final trace, (∀ action ∈ actions, ClientAction.background action = true) ∧
      (clientMachine views).Run life actions final trace ∧ Faults life.regions.handles trace := by
  obtain ⟨staying, address, mapped, missing⟩ := doomed
  have beats : ∀ from_ : ClientLife, (∃ now, from_.keeper = .ticked now) →
      (clientMachine views).step from_ .beat =
        some ({ from_ with keeper := .waiting }, [touch address]) := by
    rintro from_ ⟨now, ticked⟩
    simp [clientMachine, clientStep, ticked, Option.mem_def.mp mapped]
  cases here : life.keeper with
  | returned => exact absurd here staying
  | ticked now =>
      exact ⟨[.beat], _, _, by simp [ClientAction.background],
        .single (beats life ⟨now, here⟩), touch_faults missing⟩
  | waiting =>
      have ticks : (clientMachine views).step life (.tick 1) =
          some ({ life with keeper := .ticked 1 }, []) := by
        simp [clientMachine, clientStep, here]
      have run := (Machine.Run.single ticks).append
        (.single (beats { life with keeper := .ticked 1 } ⟨1, rfl⟩))
      exact ⟨_, _, _, by simp [ClientAction.background], run, touch_faults missing⟩

end Background

/-- From the connect on, over any answers and any order of the user's calls and the
goroutine's steps. -/
structure Lifetime (views : Regions) (early : List (Exchange SystemCall.Answer))
    (actions : List ClientAction) (life : ClientLife)
    (trace : List (Exchange SystemCall.Answer)) (start : ClientLife) : Prop where
  /-- The connect leaves three mappings behind and no descriptor. -/
  connected : views.Whole ∧ systemCustody.ledger 0 early = some ↑views.handles
  /-- What Detach has unmapped and what the fields still name are these three. -/
  once : ↑life.regions.handles + systemCustody.released trace = (views.handles : Multiset Handle)
  ordered : ((clientMachine views).restrict (orderly views)).Run start actions life trace →
    systemCustody.ledger 0 (early ++ trace) = some ↑life.regions.handles
  /-- The goroutine can only be stopped by its return: as long as it lives and the
  queue pair is gone, the ticks that are left over lead to a fault. -/
  doomed : ∀ held, systemCustody.ledger 0 (early ++ trace) = some held →
    ((∃ later final more, (∀ action ∈ later, ClientAction.background action = true) ∧
        (clientMachine views).Run life later final more ∧
        Faults 0 (early ++ trace ++ more)) ↔ life.Doomed views)

theorem client_lifetime {socketPath : String} {principalClass principalRef : UInt32} {rounds : Nat}
    {early : List (Exchange SystemCall.Answer)} {client : AttachedClient}
    (connected : (connectClient socketPath principalClass principalRef rounds).Ran early
      (some (.ok client)))
    (run : (clientMachine client.regions).Run (.attached client) actions life trace) :
    Lifetime client.regions early actions life trace (.attached client) := by
  have held : systemCustody.ledger 0 early = some ↑client.regions.handles := by
    have kept : systemCustody.ledger (0 + 0) early =
        some (0 + (0 + (client.regions.handles : Multiset Handle))) :=
      connectClient_keeps 0 early _ connected
    simpa using kept
  have onward : ∀ rest, systemCustody.ledger 0 (early ++ rest) =
      systemCustody.ledger client.regions.handles rest := by
    intro rest
    rw [Custody.ledger_append, held, Option.bind_some]
  refine ⟨⟨connectClient_whole early _ connected _ rfl _ rfl, held⟩, (run_balance run).2, ?_, ?_⟩
  · intro ordered
    rw [onward]
    exact (orderly_run ordered (.inr ⟨rfl, rfl⟩)).2
  · intro left settled
    rw [onward] at settled
    obtain rfl := run_held run settled
    have later : ∀ more, Faults 0 (early ++ trace ++ more) ↔ Faults life.regions.handles more := by
      intro more
      rw [Faults, Faults, List.append_assoc, onward, Custody.ledger_append, settled,
        Option.bind_some]
    simp only [later]
    constructor
    · rintro ⟨actions, final, more, aside, going, faults⟩
      by_contra safe
      rw [Faults, background_safe going aside safe] at faults
      cases faults
    · intro doomed
      exact doomed_faults doomed

/-- The context has ended and Detach is through, but the goroutine is still there. -/
theorem client_lifetime_detached : ∃ early client life trace,
    (connectClient "bus" 1 1 1).Ran early (some (.ok client)) ∧
      Lifetime client.regions early ([.cancel, .detach] ++ List.replicate 4 (.unmap (.ok ())))
        life trace (.attached client) ∧ life.Doomed client.regions := by
  have connects : (((connectClient "bus" 1 1 1).under acceptingKernel).bind (·.toOption)).any
      (fun client => client.regions == ⟨some 4, some 5, some 6⟩) = true := by
    decide +kernel
  obtain ⟨⟨attached, regions⟩, found, mapped⟩ := (Option.any_eq_true _ _).mp connects
  obtain rfl := beq_iff_eq.mp mapped
  obtain ⟨result, answered, fine⟩ := Option.bind_eq_some_iff.mp found
  cases result with
  | error failure => cases fine
  | ok client =>
      obtain rfl := Option.some.inj fine
      have connected := (connectClient "bus" 1 1 1).ran_under acceptingKernel
      rw [answered] at connected
      have run : (clientMachine ⟨some 4, some 5, some 6⟩).Run
          (.attached ⟨attached, some 4, some 5, some 6⟩)
          ([.cancel, .detach] ++ List.replicate 4 (.unmap (.ok ())))
          ⟨⟨none, none, none⟩, false, .waiting, true⟩
          [⟨.munmap 4, .ok ()⟩, ⟨.munmap 5, .ok ()⟩, ⟨.munmap 6, .ok ()⟩] :=
        Machine.run_of_execute rfl
      exact ⟨_, ⟨attached, some 4, some 5, some 6⟩, _, _, connected,
        client_lifetime connected run, by decide, 6, rfl, Multiset.notMem_zero _⟩

end Runs

end AimeeLearning.Bus.System
