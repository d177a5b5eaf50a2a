import Mathlib.Logic.Basic
import Mathlib.Tactic.Common

/-! Deterministic partial machines: an action is either disabled or moves the
state and emits observations. Nondeterminism (schedules, clocks, replies of the
outside world) is carried by the action. Runs grow at their end, so a property
of the whole history is proved by one induction over the last step. -/

set_option autoImplicit false

namespace AimeeLearning.Library

/-- A step is enabled when it returns a successor and the observations it emits. -/
structure Machine (State Action Output : Type) where
  step : State → Action → Option (State × List Output)

namespace Machine

variable {State Action Output : Type}

/-- A finite history from a fixed start, with its actions and observations. -/
inductive Run (machine : Machine State Action Output) (start : State) :
    List Action → State → List Output → Prop where
  | nil : Run machine start [] start []
  | snoc {actions : List Action} {state : State} {outputs : List Output}
      {action : Action} {next : State} {emitted : List Output} :
      Run machine start actions state outputs →
      machine.step state action = some (next, emitted) →
      Run machine start (actions ++ [action]) next (outputs ++ emitted)

variable {machine : Machine State Action Output} {start : State}

theorem Run.invariant {actions : List Action} {state : State} {outputs : List Output}
    (run : machine.Run start actions state outputs)
    (Holds : List Action → State → List Output → Prop)
    (initially : Holds [] start [])
    (preserved : ∀ actions state outputs action next emitted,
      machine.Run start actions state outputs → Holds actions state outputs →
      machine.step state action = some (next, emitted) →
      Holds (actions ++ [action]) next (outputs ++ emitted)) :
    Holds actions state outputs := by
  induction run with
  | nil => exact initially
  | snoc before taken ih => exact preserved _ _ _ _ _ _ before ih taken

/-- The machine whose steps are also allowed in the state they are taken in. -/
def restrict (machine : Machine State Action Output) (allowed : State → Action → Bool) :
    Machine State Action Output where
  step state action := if allowed state action then machine.step state action else none

theorem restrict_step {allowed : State → Action → Bool} {state : State} {action : Action}
    {result : State × List Output} :
    (machine.restrict allowed).step state action = some result ↔
      allowed state action = true ∧ machine.step state action = some result := by
  simp [restrict]

theorem Run.unrestricted {allowed : State → Action → Bool} {actions : List Action}
    {state : State} {outputs : List Output}
    (run : (machine.restrict allowed).Run start actions state outputs) :
    machine.Run start actions state outputs := by
  induction run with
  | nil => exact .nil
  | snoc _ taken ih => exact .snoc ih (restrict_step.mp taken).2

theorem Run.append {first second : List Action} {middle final : State}
    {firstOutputs secondOutputs : List Output}
    (left : machine.Run start first middle firstOutputs)
    (right : machine.Run middle second final secondOutputs) :
    machine.Run start (first ++ second) final (firstOutputs ++ secondOutputs) := by
  induction right with
  | nil => simpa using left
  | snoc _ taken ih =>
      rw [← List.append_assoc, ← List.append_assoc]
      exact .snoc ih taken

theorem Run.single {action : Action} {next : State} {emitted : List Output}
    (taken : machine.step start action = some (next, emitted)) :
    machine.Run start [action] next emitted := by
  simpa using Run.snoc .nil taken

theorem Run.last {actions : List Action} {action : Action} {final : State}
    {outputs : List Output} (run : machine.Run start (actions ++ [action]) final outputs) :
    ∃ state earlier emitted, machine.Run start actions state earlier ∧
      machine.step state action = some (final, emitted) ∧ outputs = earlier ++ emitted := by
  generalize whole : actions ++ [action] = all at run
  cases run with
  | nil => simp at whole
  | snoc before taken =>
      obtain ⟨rfl, same⟩ := List.append_inj' whole rfl
      obtain rfl := (List.cons.inj same).1
      exact ⟨_, _, _, before, taken, rfl⟩

theorem Run.unique {actions : List Action} {state other : State} {outputs others : List Output}
    (run : machine.Run start actions state outputs)
    (again : machine.Run start actions other others) : state = other ∧ outputs = others := by
  induction run generalizing other others with
  | nil =>
      generalize none_ : ([] : List Action) = all at again
      cases again with
      | nil => exact ⟨rfl, rfl⟩
      | snoc before taken => simp at none_
  | snoc before taken ih =>
      obtain ⟨middle, earlier, emitted, first, second, rfl⟩ := again.last
      obtain ⟨rfl, rfl⟩ := ih first
      obtain ⟨rfl, rfl⟩ := Prod.mk.inj (Option.some.inj (taken.symm.trans second))
      exact ⟨rfl, rfl⟩

/-- On the way the action was taken in the state. -/
def Passed (machine : Machine State Action Output) (start : State) (actions : List Action)
    (state : State) (action : Action) : Prop :=
  ∃ early late outputs, actions = early ++ action :: late ∧ machine.Run start early state outputs

theorem Run.passes {actions : List Action} {state : State} {outputs : List Output}
    (run : machine.Run start actions state outputs) (action : Action) :
    machine.Passed start (actions ++ [action]) state action :=
  ⟨actions, [], outputs, rfl, run⟩

theorem Passed.snoc {actions : List Action} {state : State} {action : Action}
    (passed : machine.Passed start actions state action) (other : Action) :
    machine.Passed start (actions ++ [other]) state action := by
  obtain ⟨early, late, outputs, rfl, before⟩ := passed
  exact ⟨early, late ++ [other], outputs, by simp, before⟩

theorem Run.through {actions : List Action} {final state : State} {outputs : List Output}
    {action : Action} (run : machine.Run start actions final outputs)
    (passed : machine.Passed start actions state action) :
    ∃ next emitted, machine.step state action = some (next, emitted) ∧ emitted ⊆ outputs := by
  obtain ⟨early, late, earlier, whole, before⟩ := passed
  induction run generalizing late with
  | nil => simp at whole
  | snoc run taken ih =>
      rename_i actions _ outputs last _ _
      rcases List.eq_nil_or_concat late with rfl | ⟨rest, other, rfl⟩
      · obtain ⟨rfl, same⟩ := List.append_inj' whole rfl
        obtain rfl := (List.cons.inj same).1
        obtain ⟨rfl, -⟩ := run.unique before
        exact ⟨_, _, taken, List.subset_append_right _ _⟩
      · have split : actions ++ [last] = (early ++ action :: rest) ++ [other] := by
          simpa using whole
        obtain ⟨rfl, -⟩ := List.append_inj' split rfl
        obtain ⟨next, emitted, here, inside⟩ := ih rest rfl
        exact ⟨next, emitted, here, List.Subset.trans inside (List.subset_append_left _ _)⟩

/-- The same machine, seen through what its steps do to the state. -/
def observe {Seen : Type} (machine : Machine State Action Output)
    (look : State → State → List Seen) : Machine State Action Seen where
  step state action := (machine.step state action).map fun (next, _) => (next, look state next)

theorem observe_step {Seen : Type} {look : State → State → List Seen} {state next : State}
    {action : Action} {seen : List Seen} :
    (machine.observe look).step state action = some (next, seen) ↔
      ∃ emitted, machine.step state action = some (next, emitted) ∧ seen = look state next := by
  simp only [observe, Option.map_eq_some_iff, Prod.mk.injEq, Prod.exists]
  constructor
  · rintro ⟨_, emitted, taken, rfl, rfl⟩
    exact ⟨emitted, taken, rfl⟩
  · rintro ⟨emitted, taken, rfl⟩
    exact ⟨_, emitted, taken, rfl, rfl⟩

theorem Run.observed {Seen : Type} (look : State → State → List Seen) {actions : List Action}
    {state : State} {outputs : List Output} (run : machine.Run start actions state outputs) :
    ∃ seen, (machine.observe look).Run start actions state seen := by
  induction run with
  | nil => exact ⟨[], .nil⟩
  | snoc _ taken ih =>
      obtain ⟨seen, before⟩ := ih
      exact ⟨_, .snoc before (observe_step.mpr ⟨_, taken, rfl⟩)⟩

theorem Run.unobserved {Seen : Type} {look : State → State → List Seen} {actions : List Action}
    {state : State} {seen : List Seen} (run : (machine.observe look).Run start actions state seen) :
    ∃ outputs, machine.Run start actions state outputs := by
  induction run with
  | nil => exact ⟨[], .nil⟩
  | snoc _ taken ih =>
      obtain ⟨outputs, before⟩ := ih
      obtain ⟨emitted, moved, -⟩ := observe_step.mp taken
      exact ⟨_, .snoc before moved⟩

/-- The executable form of a history. -/
def execute (machine : Machine State Action Output) :
    State → List Action → Option (State × List Output)
  | state, [] => some (state, [])
  | state, action :: rest =>
      match machine.step state action with
      | none => none
      | some (next, emitted) =>
          match machine.execute next rest with
          | none => none
          | some (final, outputs) => some (final, emitted ++ outputs)

theorem run_of_execute {actions : List Action} {final : State} {outputs : List Output}
    (executed : machine.execute start actions = some (final, outputs)) :
    machine.Run start actions final outputs := by
  induction actions generalizing start outputs with
  | nil =>
      simp only [execute, Option.some.injEq, Prod.mk.injEq] at executed
      obtain ⟨rfl, rfl⟩ := executed
      exact .nil
  | cons action rest ih =>
      simp only [execute] at executed
      cases taken : machine.step start action with
      | none => simp [taken] at executed
      | some result =>
          obtain ⟨next, emitted⟩ := result
          simp only [taken] at executed
          cases continued : machine.execute next rest with
          | none => simp [continued] at executed
          | some tail =>
              obtain ⟨last, later⟩ := tail
              simp only [continued, Option.some.injEq, Prod.mk.injEq] at executed
              obtain ⟨rfl, rfl⟩ := executed
              simpa using (Run.single taken).append (ih continued)

end Machine

end AimeeLearning.Library
