import AimeeLearning.Bus.ModuleRuntimeSteps
import AimeeLearning.Library.Assoc

/-! State invariants of the module runtime: cancel flags belong to one job each,
and every started job names a stage. -/

set_option autoImplicit false

namespace AimeeLearning.Bus

open Library

@[simp] theorem length_setFlag (flags : List Bool) (work : ModuleWork) :
    (setFlag flags work).length = flags.length := by
  simp [setFlag]

@[simp] theorem length_cancelAll (state : RuntimeState) :
    (cancelAll state).length = state.flags.length := by
  unfold cancelAll
  generalize state.jobs.entries = entries
  generalize state.flags = flags
  induction entries generalizing flags with
  | nil => rfl
  | cons entry rest ih => simp [ih]

structure FlagsOwned (state : RuntimeState) : Prop where
  owner : ∀ correlation work, state.jobs.lookup correlation = some work →
    work.correlationID = correlation ∧ work.cancelled < state.flags.length
  apart : ∀ first second work other, state.jobs.lookup first = some work →
    state.jobs.lookup second = some other → work.cancelled = other.cancelled → first = second

section Flags

variable {config : RuntimeConfig} {state next : RuntimeState} {action : RuntimeAction}
  {emitted : List RuntimeOutput}

theorem FlagsOwned.mono (owned : FlagsOwned state)
    (longer : state.flags.length ≤ next.flags.length)
    (fewer : ∀ correlation work, next.jobs.lookup correlation = some work →
      state.jobs.lookup correlation = some work) : FlagsOwned next := by
  constructor
  · intro correlation work found
    obtain ⟨same, bound⟩ := owned.owner correlation work (fewer correlation work found)
    exact ⟨same, by omega⟩
  · intro first second work other left right
    exact owned.apart first second work other (fewer first work left) (fewer second other right)

theorem FlagsOwned.started (owned : FlagsOwned state) {event : Event} {message : ModuleMessage}
    (pc : LoopPc) (assemblies : AList fun _ : UInt64 => ModuleAssembly)
    (running : List HandlerRun) :
    FlagsOwned { state with
      pc, assemblies, running, flags := state.flags ++ [false],
      jobs := state.jobs.insert event.frame.correlationId
        (startedWork config state event message) } := by
  constructor
  · intro correlation work found
    by_cases same : correlation = event.frame.correlationId
    · subst same
      obtain rfl := Option.some.inj ((AList.lookup_insert _).symm.trans found)
      exact ⟨rfl, by simp [startedWork]⟩
    · have before := (AList.lookup_insert_ne same).symm.trans found
      obtain ⟨mine, bound⟩ := owned.owner correlation work before
      exact ⟨mine, by simp; omega⟩
  · intro first second work other left right shared
    by_cases newFirst : first = event.frame.correlationId
    · by_cases newSecond : second = event.frame.correlationId
      · exact newFirst.trans newSecond.symm
      · subst newFirst
        obtain rfl := Option.some.inj ((AList.lookup_insert _).symm.trans left)
        have bound := (owned.owner second other ((AList.lookup_insert_ne newSecond).symm.trans
          right)).2
        exact absurd shared (by simp only [startedWork]; omega)
    · have before := (AList.lookup_insert_ne newFirst).symm.trans left
      by_cases newSecond : second = event.frame.correlationId
      · subst newSecond
        obtain rfl := Option.some.inj ((AList.lookup_insert _).symm.trans right)
        have bound := (owned.owner first work before).2
        exact absurd shared (by simp only [startedWork]; omega)
      · exact owned.apart first second work other before
          ((AList.lookup_insert_ne newSecond).symm.trans right) shared

theorem FlagsOwned.step (owned : FlagsOwned state)
    (effect : RuntimeEffect config state action next emitted) : FlagsOwned next := by
  cases effect with
  | quiet pc => exact owned.mono (le_refl _) fun _ _ found => found
  | interrupted epochChanged now => exact owned.mono (by simp) fun _ _ found => found
  | moved located same move => exact owned.mono (le_refl _) fun _ _ found => found
  | delivered located room => exact owned.mono (le_refl _) fun _ _ found => found
  | finished pc buffered answered =>
      exact owned.mono (le_refl _) fun _ _ found => lookup_erase_some found
  | collected stopping buffered =>
      exact owned.mono (le_refl _) fun _ _ found => lookup_erase_some found
  | consumed pc handled answered silent =>
      cases consumeEvent_cases handled with
      | cancelled flags cancel flagged =>
          refine owned.mono ?_ fun _ _ found => found
          rw [flagged]
          cases state.jobs.lookup _ <;> simp
      | started kept request message assembly admitted opened holds last room =>
          exact owned.started pc _ _
      | _ => exact owned.mono (le_refl _) fun _ _ found => found

/-- Where a ticket of the next state comes from. -/
inductive TicketOrigin (config : RuntimeConfig) (state next : RuntimeState)
    (action : RuntimeAction) (emitted : List RuntimeOutput) : HandlerRun → Prop
  | kept {ticket : HandlerRun} (member : ticket ∈ state.tickets) :
      TicketOrigin config state next action emitted ticket
  | moved {run ticket : HandlerRun} (member : run ∈ state.tickets) (same : ticket.work = run.work)
      (move : HandlerMove state.flags run.work run.phase ticket.phase emitted) :
      TicketOrigin config state next action emitted ticket
  | started {event : Event} {attempts : List Attempt} {message : ModuleMessage} (body : Bytes)
      (polled : action = .poll (.received event) attempts)
      (request : event.frame.has fRequest = true)
      (admitted : admitRequest config state event = some message)
      (flags : next.flags = state.flags ++ [false]) :
      TicketOrigin config state next action emitted
        ⟨startedWork config state event message, .ready body⟩

theorem RuntimeEffect.origin (effect : RuntimeEffect config state action next emitted)
    {ticket : HandlerRun} (member : ticket ∈ next.tickets) :
    TicketOrigin config state next action emitted ticket := by
  cases effect with
  | quiet pc => exact .kept member
  | interrupted epochChanged now => exact .kept member
  | moved located same move =>
      rename_i front back run after
      have present : run ∈ state.tickets := by simp [RuntimeState.tickets, located]
      simp only [RuntimeState.tickets, List.mem_append, List.mem_cons] at member
      rcases member with (earlier | rfl | later) | buffered
      · exact .kept (by simp [RuntimeState.tickets, located, earlier])
      · exact .moved present same move
      · exact .kept (by simp [RuntimeState.tickets, located, later])
      · exact .kept (List.mem_append_right _ buffered)
  | delivered located room =>
      simp only [RuntimeState.tickets, List.mem_append, List.map_append, List.map_cons,
        List.map_nil, List.mem_singleton] at member
      apply TicketOrigin.kept
      simp only [RuntimeState.tickets, located, List.mem_append, List.mem_cons]
      tauto
  | finished pc buffered answered =>
      apply TicketOrigin.kept
      simp only [RuntimeState.tickets, buffered, List.mem_append, List.map_cons,
        List.mem_cons] at member ⊢
      tauto
  | collected stopping buffered =>
      apply TicketOrigin.kept
      simp only [RuntimeState.tickets, buffered, List.mem_append, List.map_cons,
        List.mem_cons] at member ⊢
      tauto
  | consumed pc handled answered silent =>
      cases consumeEvent_cases handled with
      | started kept request message assembly admitted opened holds last room =>
          simp only [RuntimeState.tickets, List.mem_append, List.mem_singleton] at member
          rcases member with (earlier | rfl) | buffered
          · exact .kept (List.mem_append_left _ earlier)
          · exact .started _ rfl request admitted rfl
          · exact .kept (List.mem_append_right _ buffered)
      | _ => exact .kept member

theorem RuntimeEffect.works {Holds : ModuleWork → Prop}
    (effect : RuntimeEffect config state action next emitted)
    (before : ∀ ticket ∈ state.tickets, Holds ticket.work)
    (started : ∀ event attempts message, action = .poll (.received event) attempts →
      event.frame.has fRequest = true → admitRequest config state event = some message →
      Holds (startedWork config state event message)) :
    ∀ ticket ∈ next.tickets, Holds ticket.work := by
  intro ticket member
  cases effect.origin member with
  | kept present => exact before ticket present
  | moved present same move =>
      rw [same]
      exact before _ present
  | started body polled request admitted flags => exact started _ _ _ polled request admitted

/-- Every started job names a stage. -/
def RuntimeState.Staged (state : RuntimeState) : Prop :=
  ∀ ticket ∈ state.tickets, ticket.work.invocation.stageID ≠ 0

theorem RuntimeState.Staged.step (staged : state.Staged)
    (effect : RuntimeEffect config state action next emitted) : next.Staged :=
  @RuntimeEffect.works _ _ _ _ _ (fun work => work.invocation.stageID ≠ 0) effect staged
    fun _ _ _ _ _ admitted => (admitRequest_some admitted).2.1

end Flags

end AimeeLearning.Bus
