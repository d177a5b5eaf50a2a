import Mathlib.Tactic.Common

/-! Calls on a store that may fail, in sequences that stop at the first failure.
A store without transactions keeps what the calls before the failing one wrote,
so a failing sequence restores the store exactly when no such write shows. -/

set_option autoImplicit false

namespace AimeeLearning.Library

variable {State View α β : Type}

/-- A call's answer, or nothing when it fails, and the store it leaves. -/
structure Attempt (State α : Type) where
  run : State → Option α × State

namespace Attempt

instance : Monad (Attempt State) where
  pure value := ⟨fun state => (some value, state)⟩
  bind first second := ⟨fun state =>
    match first.run state with
    | (none, left) => (none, left)
    | (some answer, marked) => (second answer).run marked⟩

/-- Fail without touching the store. -/
def refuse : Attempt State α := ⟨fun state => (none, state)⟩

/-- The call made with what the store shows at that moment. -/
def reading (view : State → α) (next : α → Attempt State β) : Attempt State β :=
  ⟨fun state => (next (view state)).run state⟩

/-- Change the store and answer, unless the call fails, which leaves it alone. -/
def failingIf (fails : Bool) (change : State → α × State) : Attempt State α :=
  ⟨fun state => if fails then (none, state) else (some (change state).1, (change state).2)⟩

def Fails (attempt : Attempt State α) (state : State) : Prop := (attempt.run state).1 = none

/-- A failure leaves the store as it was. -/
def Clean (attempt : Attempt State α) : Prop :=
  ∀ state left, attempt.run state = (none, left) → left = state

/-- A failure in this state leaves what is seen of the store as it was. -/
def RestoresAt (look : State → View) (attempt : Attempt State α) (state : State) : Prop :=
  ∀ left, attempt.run state = (none, left) → look left = look state

/-- The second call fails where the first one has left its mark. -/
def Stranded (look : State → View) (first : Attempt State α) (second : α → Attempt State β)
    (state : State) : Prop :=
  ∃ answer marked, first.run state = (some answer, marked) ∧ (second answer).Fails marked ∧
    look marked ≠ look state

variable {look : State → View} {first : Attempt State α} {second : α → Attempt State β}
  {state left marked : State}

theorem bind_run_failed (failed : first.run state = (none, left)) :
    (first >>= second).run state = (none, left) := by
  simp only [bind, failed]

theorem bind_run_answered {answer : α} (answered : first.run state = (some answer, marked)) :
    (first >>= second).run state = (second answer).run marked := by
  simp only [bind, answered]

theorem bind_run_some_iff {result : β} :
    (first >>= second).run state = (some result, left) ↔
      ∃ answer marked, first.run state = (some answer, marked) ∧
        (second answer).run marked = (some result, left) := by
  rcases answered : first.run state with ⟨_ | answer, middle⟩
  · simp [bind_run_failed answered]
  · simp [bind_run_answered answered]

theorem Clean.restoresAt (clean : first.Clean) : first.RestoresAt look state := by
  intro left failed
  rw [clean state left failed]

theorem Clean.reading {view : State → α} (clean : ∀ value, (second value).Clean) :
    (reading view second).Clean :=
  fun state left failed => clean (view state) state left failed

theorem failingIf_clean (fails : Bool) (change : State → α × State) :
    (failingIf fails change).Clean := by
  intro state left failed
  simp only [failingIf] at failed
  split at failed
  · exact (congrArg Prod.snd failed).symm
  · cases failed

theorem restoresAt_of_failed (failed : first.run state = (none, left)) :
    (first >>= second).RestoresAt look state ↔ first.RestoresAt look state := by
  constructor
  · intro restores other same
    exact restores other (bind_run_failed same)
  · intro restores other same
    rw [bind_run_failed failed] at same
    obtain rfl : left = other := congrArg Prod.snd same
    exact restores left failed

/-- A sequence restores the store when its first call does and its second one
does not fail on a mark of the first. -/
theorem bind_restoresAt_iff (clean : ∀ answer, (second answer).Clean) :
    (first >>= second).RestoresAt look state ↔
      first.RestoresAt look state ∧ ¬ Stranded look first second state := by
  rcases ran : first.run state with ⟨_ | answer, marked⟩
  · have unmarked : ¬ Stranded look first second state := by
      rintro ⟨answer, other, answered, -, -⟩
      simp [ran] at answered
    rw [restoresAt_of_failed ran]
    exact ⟨fun restores => ⟨restores, unmarked⟩, And.left⟩
  · have answers : first.RestoresAt look state := by
      intro left failed
      simp [ran] at failed
    constructor
    · intro restores
      refine ⟨answers, ?_⟩
      rintro ⟨other, middle, answered, fails, marks⟩
      obtain ⟨rfl, rfl⟩ : answer = other ∧ marked = middle := by simpa [ran] using answered
      rcases failed : (second answer).run marked with ⟨_ | _, left⟩
      · obtain rfl := clean answer marked left failed
        exact marks (restores left ((bind_run_answered ran).trans failed))
      · simp [Fails, failed] at fails
    · rintro ⟨-, unmarked⟩ left failed
      rw [bind_run_answered ran] at failed
      obtain rfl := clean answer marked left failed
      by_contra marks
      exact unmarked ⟨answer, left, ran, by rw [Fails, failed], marks⟩

end Attempt

end AimeeLearning.Library
