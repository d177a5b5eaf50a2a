import AimeeLearning.Library.Machine

/-! Sequential programs over a state that report events, and the paths their
states take. A program is analysed by peeling its binds apart; a property of
states and events along a path is proved once for each kind of step. -/

set_option autoImplicit false

namespace AimeeLearning.Library

variable {State Event α β : Type}

/-- A total program: its result, the state afterwards and the events on the way. -/
structure Traced (State Event α : Type) where
  run : State → α × State × List Event

namespace Traced

instance : Monad (Traced State Event) where
  pure value := ⟨fun state => (value, state, [])⟩
  bind first next := ⟨fun state =>
    let (value, middle, early) := first.run state
    let (result, final, late) := (next value).run middle
    (result, final, early ++ late)⟩

/-- Report an event. -/
def emit (event : Event) : Traced State Event Unit := ⟨fun state => ((), state, [event])⟩

/-- Look at the state. -/
def read (view : State → α) : Traced State Event α := ⟨fun state => (view state, state, [])⟩

/-- Let someone else change the state. -/
def call (change : State → α × State) : Traced State Event α :=
  ⟨fun state => ((change state).1, (change state).2, [])⟩

variable {first : Traced State Event α} {next : α → Traced State Event β} {state final : State}
  {events : List Event}

theorem run_bind_iff {result : β} :
    (first >>= next).run state = (result, final, events) ↔
      ∃ value middle early late, first.run state = (value, middle, early) ∧
        (next value).run middle = (result, final, late) ∧ events = early ++ late := by
  constructor
  · intro ran
    simp only [bind, Prod.mk.injEq] at ran
    obtain ⟨rfl, rfl, rfl⟩ := ran
    exact ⟨_, _, _, _, rfl, rfl, rfl⟩
  · rintro ⟨value, middle, early, late, began, ended, rfl⟩
    simp only [bind, began, ended]

@[simp] theorem run_pure_iff {value result : α} :
    (pure value : Traced State Event α).run state = (result, final, events) ↔
      result = value ∧ final = state ∧ events = [] := by
  simp only [pure, Prod.mk.injEq]
  exact ⟨fun ⟨left, middle, right⟩ => ⟨left.symm, middle.symm, right.symm⟩,
    fun ⟨left, middle, right⟩ => ⟨left.symm, middle.symm, right.symm⟩⟩

theorem run_pure_pair_iff {left result : α} {right other : β} :
    (pure (left, right) : Traced State Event (α × β)).run state = ((result, other), final, events) ↔
      result = left ∧ other = right ∧ final = state ∧ events = [] := by
  rw [run_pure_iff, Prod.mk.injEq, and_assoc]

@[simp] theorem run_emit_iff {event : Event} {result : Unit} :
    (emit event : Traced State Event Unit).run state = (result, final, events) ↔
      final = state ∧ events = [event] := by
  simp only [emit, Prod.mk.injEq, true_and]
  exact ⟨fun ⟨middle, right⟩ => ⟨middle.symm, right.symm⟩,
    fun ⟨middle, right⟩ => ⟨middle.symm, right.symm⟩⟩

@[simp] theorem run_read_iff {view : State → α} {result : α} :
    (read view : Traced State Event α).run state = (result, final, events) ↔
      result = view state ∧ final = state ∧ events = [] := by
  simp only [read, Prod.mk.injEq]
  exact ⟨fun ⟨left, middle, right⟩ => ⟨left.symm, middle.symm, right.symm⟩,
    fun ⟨left, middle, right⟩ => ⟨left.symm, middle.symm, right.symm⟩⟩

@[simp] theorem run_call_iff {change : State → α × State} {result : α} :
    (call change : Traced State Event α).run state = (result, final, events) ↔
      change state = (result, final) ∧ events = [] := by
  simp only [call, Prod.mk.injEq]
  exact ⟨fun ⟨left, middle, right⟩ => ⟨Prod.ext left middle, right.symm⟩,
    fun ⟨both, right⟩ => ⟨congrArg Prod.fst both, congrArg Prod.snd both, right.symm⟩⟩

end Traced

theorem append_eq_append_event {past events early late : List Event} {event : Event}
    (same : past ++ events = early ++ event :: late) :
    (∃ more, past = early ++ event :: more) ∨
      ∃ rest, early = past ++ rest ∧ events = rest ++ event :: late := by
  rcases List.append_eq_append_iff.mp same with ⟨rest, grown, tail⟩ | ⟨rest, grown, tail⟩
  · exact .inr ⟨rest, grown, tail⟩
  · cases rest with
    | nil => exact .inr ⟨[], by simpa using grown.symm, tail.symm⟩
    | cons other more =>
        obtain ⟨rfl, -⟩ := List.cons.inj tail
        exact .inl ⟨more, grown⟩

/-- What a sequence of steps leads to, with the events it reports. A step may
depend on the events of the past. -/
inductive Path (step : List Event → State → List Event → State → Prop) (past : List Event)
    (start : State) : List Event → State → Prop where
  | nil : Path step past start [] start
  | snoc {events emitted : List Event} {state next : State} :
      Path step past start events state → step (past ++ events) state emitted next →
      Path step past start (events ++ emitted) next

namespace Path

variable {step : List Event → State → List Event → State → Prop} {start middle final : State}
  {past events later : List Event}

theorem single (taken : step past start events final) : Path step past start events final := by
  simpa using Path.snoc .nil (by simpa using taken)

theorem append (left : Path step past start events middle)
    (right : Path step (past ++ events) middle later final) :
    Path step past start (events ++ later) final := by
  induction right with
  | nil => simpa using left
  | snoc _ taken ih =>
      rw [← List.append_assoc]
      exact .snoc ih (by rwa [← List.append_assoc])

theorem invariant (path : Path step past start events final) (Holds : List Event → State → Prop)
    (initially : Holds past start)
    (preserved : ∀ history state emitted next, Holds history state →
      step history state emitted next → Holds (history ++ emitted) next) :
    Holds (past ++ events) final := by
  induction path with
  | nil => simpa using initially
  | snoc _ taken ih =>
      rw [← List.append_assoc]
      exact preserved _ _ _ _ ih taken

theorem split (path : Path step past start events final) {event : Event}
    (member : event ∈ events) :
    ∃ early emitted late before after, events = early ++ emitted ++ late ∧ event ∈ emitted ∧
      Path step past start early before ∧ step (past ++ early) before emitted after ∧
      Path step (past ++ early ++ emitted) after late final := by
  induction path with
  | nil => cases member
  | snoc front taken ih =>
      rename_i seen emitted state next
      rcases List.mem_append.mp member with earlier | here
      · obtain ⟨early, own, late, before, after, rfl, fired, begun, step, rest⟩ := ih earlier
        refine ⟨early, own, late ++ emitted, before, after, by simp, fired, begun, step, ?_⟩
        exact .snoc rest (by simpa using taken)
      · exact ⟨seen, emitted, [], state, next, by simp, here, front, taken, .nil⟩

/-- A path is one of finer steps where each of its steps is, taken where it is taken. -/
theorem refine_steps {finer : List Event → State → List Event → State → Prop}
    (path : Path step past start events final)
    (fine : ∀ early before emitted after late, events = early ++ emitted ++ late →
      Path step past start early before → step (past ++ early) before emitted after →
      finer (past ++ early) before emitted after) : Path finer past start events final := by
  induction path with
  | nil => exact .nil
  | snoc front taken ih =>
      rename_i seen emitted state next
      refine .snoc (ih fun early before own after late same => ?_)
        (fine seen state emitted next [] (by simp) front taken)
      exact fine early before own after (late ++ emitted) (by simp [same])

theorem of_run {View Action : Type} {machine : Machine State Action Event} {view : State → View}
    {step : List Event → View → List Event → View → Prop}
    (steps : ∀ history state action next emitted, Path step [] (view start) history (view state) →
      machine.step state action = some (next, emitted) →
      Path step history (view state) emitted (view next))
    {actions : List Action} (run : machine.Run start actions final events) :
    Path step [] (view start) events (view final) := by
  induction run with
  | nil => exact .nil
  | snoc _ taken ih => exact ih.append (by simpa using steps _ _ _ _ _ ih taken)

end Path

end AimeeLearning.Library
