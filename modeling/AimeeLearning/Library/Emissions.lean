import AimeeLearning.Library.Traced

/-! What a traced program may report, and a program that runs on a part of a
larger state. -/

set_option autoImplicit false

namespace AimeeLearning.Library.Traced

variable {State Event Outer Seen α β : Type}

/-- Whatever the state, the program reports only such events. -/
def Emits (allowed : Event → Prop) (program : Traced State Event α) : Prop :=
  ∀ state value final events, program.run state = (value, final, events) →
    ∀ event ∈ events, allowed event

variable {allowed wider : Event → Prop}

theorem emits_pure (value : α) : Emits allowed (pure value : Traced State Event α) := by
  intro state result final events ran event member
  obtain ⟨-, -, rfl⟩ := run_pure_iff.mp ran
  cases member

theorem emits_read (view : State → α) : Emits allowed (read view : Traced State Event α) := by
  intro state result final events ran event member
  obtain ⟨-, -, rfl⟩ := run_read_iff.mp ran
  cases member

theorem emits_call (change : State → α × State) :
    Emits allowed (call change : Traced State Event α) := by
  intro state result final events ran event member
  obtain ⟨-, rfl⟩ := run_call_iff.mp ran
  cases member

theorem emits_emit {event : Event} (here : allowed event) :
    Emits allowed (emit event : Traced State Event Unit) := by
  intro state result final events ran other member
  obtain ⟨-, rfl⟩ := run_emit_iff.mp ran
  rwa [List.mem_singleton.mp member]

theorem Emits.bind {first : Traced State Event α} {next : α → Traced State Event β}
    (begins : Emits allowed first) (goesOn : ∀ value, Emits allowed (next value)) :
    Emits allowed (first >>= next) := by
  intro state result final events ran event member
  obtain ⟨value, middle, early, late, began, ended, rfl⟩ := run_bind_iff.mp ran
  rcases List.mem_append.mp member with before | after
  · exact begins _ _ _ _ began event before
  · exact goesOn value _ _ _ _ ended event after

theorem Emits.mono {program : Traced State Event α} (emits : Emits allowed program)
    (widens : ∀ event, allowed event → wider event) : Emits wider program :=
  fun _ _ _ _ ran event member => widens event (emits _ _ _ _ ran event member)

/-- A program on a part of a larger state, its events seen through a map. -/
def within (part : Outer → State) (update : State → Outer → Outer) (wrap : Event → Seen)
    (program : Traced State Event α) : Traced Outer Seen α :=
  ⟨fun outer =>
    let (value, final, events) := program.run (part outer)
    (value, update final outer, events.map wrap)⟩

theorem run_within_iff {part : Outer → State} {update : State → Outer → Outer}
    {wrap : Event → Seen} {program : Traced State Event α} {outer final : Outer} {value : α}
    {seen : List Seen} :
    (within part update wrap program).run outer = (value, final, seen) ↔
      ∃ state events, program.run (part outer) = (value, state, events) ∧
        final = update state outer ∧ seen = events.map wrap := by
  rcases ran : program.run (part outer) with ⟨result, state, events⟩
  simp only [within, ran, Prod.mk.injEq]
  constructor
  · rintro ⟨rfl, rfl, rfl⟩
    exact ⟨state, events, ⟨rfl, rfl, rfl⟩, rfl, rfl⟩
  · rintro ⟨_, _, ⟨rfl, rfl, rfl⟩, rfl, rfl⟩
    exact ⟨rfl, rfl, rfl⟩

end AimeeLearning.Library.Traced
