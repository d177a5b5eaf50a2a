import AimeeLearning.Library.Bytes

/-! Well-formed UTF-8 as an automaton that reads one byte at a time. A byte
below `0x80` is only read between characters, so texts may be taken apart and
put together at such bytes. -/

set_option autoImplicit false

namespace AimeeLearning.Library

/-- What is owed of the character being read. -/
inductive Utf8State where
  | start
  | tail1
  | tail2
  | tail3
  | afterE0
  | afterED
  | afterF0
  | afterF4
  deriving DecidableEq, Repr

namespace Utf8State

/-- The first byte of a character. -/
def first (byte : UInt8) : Option Utf8State :=
  if byte < 0x80 then some start
  else if byte < 0xC2 then none
  else if byte ≤ 0xDF then some tail1
  else if byte = 0xE0 then some afterE0
  else if byte = 0xED then some afterED
  else if byte ≤ 0xEF then some tail2
  else if byte = 0xF0 then some afterF0
  else if byte ≤ 0xF3 then some tail3
  else if byte = 0xF4 then some afterF4
  else none

def within (low high byte : UInt8) (next : Utf8State) : Option Utf8State :=
  if low ≤ byte ∧ byte ≤ high then some next else none

def step : Utf8State → UInt8 → Option Utf8State
  | start, byte => first byte
  | tail1, byte => within 0x80 0xBF byte start
  | tail2, byte => within 0x80 0xBF byte tail1
  | tail3, byte => within 0x80 0xBF byte tail2
  | afterE0, byte => within 0xA0 0xBF byte tail1
  | afterED, byte => within 0x80 0x9F byte tail1
  | afterF0, byte => within 0x90 0xBF byte tail2
  | afterF4, byte => within 0x80 0x8F byte tail2

def run : Utf8State → Bytes → Option Utf8State
  | state, [] => some state
  | state, byte :: rest => (state.step byte).bind fun next => run next rest

variable {state : Utf8State}

theorem run_append (state : Utf8State) (left right : Bytes) :
    state.run (left ++ right) = (state.run left).bind fun next => next.run right := by
  induction left generalizing state with
  | nil => rfl
  | cons byte rest ih =>
      simp only [List.cons_append, run]
      cases state.step byte with
      | none => rfl
      | some next => exact ih next

theorem step_ascii {byte : UInt8} (ascii : byte < 0x80) :
    state.step byte = if state = start then some start else none := by
  have below : ¬ (0x80 : UInt8) ≤ byte := UInt8.not_le.mpr ascii
  have belowA0 : ¬ (0xA0 : UInt8) ≤ byte := fun above => below (UInt8.le_trans (by decide) above)
  have below90 : ¬ (0x90 : UInt8) ≤ byte := fun above => below (UInt8.le_trans (by decide) above)
  cases state <;> simp [step, first, within, ascii, below, belowA0, below90]

theorem run_ascii {text : Bytes} (ascii : ∀ byte ∈ text, byte < 0x80) (nonempty : text ≠ []) :
    state.run text = if state = start then some start else none := by
  induction text generalizing state with
  | nil => exact absurd rfl nonempty
  | cons byte rest ih =>
      rw [run, step_ascii (ascii byte List.mem_cons_self)]
      by_cases between : state = start
      · subst between
        by_cases last : rest = []
        · subst last
          rfl
        · exact ih (fun other member => ascii other (List.mem_cons_of_mem _ member)) last
      · rw [if_neg between]
        rfl

end Utf8State

def ValidUtf8 (text : Bytes) : Prop := Utf8State.start.run text = some .start

instance (text : Bytes) : Decidable (ValidUtf8 text) :=
  inferInstanceAs (Decidable (Utf8State.start.run text = some .start))

theorem validUtf8_ascii {text : Bytes} (ascii : ∀ byte ∈ text, byte < 0x80) : ValidUtf8 text := by
  cases text with
  | nil => rfl
  | cons byte rest => exact Utf8State.run_ascii ascii nofun

theorem validUtf8_append_ascii_iff {left right : Bytes} {byte : UInt8} (ascii : byte < 0x80) :
    ValidUtf8 (left ++ byte :: right) ↔ ValidUtf8 left ∧ ValidUtf8 right := by
  rw [ValidUtf8, Utf8State.run_append]
  cases reached : Utf8State.start.run left with
  | none => simp [ValidUtf8, reached]
  | some state =>
      rw [Option.bind_some, Utf8State.run, Utf8State.step_ascii ascii, ValidUtf8, reached,
        Option.some.injEq]
      by_cases between : state = .start
      · rw [if_pos between, and_iff_right between]
        rfl
      · simp [between]

theorem validUtf8_cons_iff {text : Bytes} {byte : UInt8} (ascii : byte < 0x80) :
    ValidUtf8 (byte :: text) ↔ ValidUtf8 text :=
  (validUtf8_append_ascii_iff ascii).trans (and_iff_right (show ValidUtf8 [] from rfl))

/-- Writing some characters below `0x80` in other such characters keeps a text
well formed, and makes no other text so. -/
theorem validUtf8_flatMap_iff {write : UInt8 → Bytes}
    (ascii : ∀ byte, byte < 0x80 → write byte ≠ [] ∧ ∀ other ∈ write byte, other < 0x80)
    (others : ∀ byte, ¬ byte < 0x80 → write byte = [byte]) (text : Bytes) :
    ValidUtf8 (text.flatMap write) ↔ ValidUtf8 text := by
  have same : ∀ state : Utf8State, state.run (text.flatMap write) = state.run text := by
    induction text with
    | nil => exact fun _ => rfl
    | cons byte rest ih =>
        intro state
        rw [List.flatMap_cons, Utf8State.run_append, Utf8State.run]
        have step : state.run (write byte) = state.step byte := by
          by_cases low : byte < 0x80
          · rw [Utf8State.run_ascii (ascii byte low).2 (ascii byte low).1, Utf8State.step_ascii low]
          · rw [others byte low, Utf8State.run]
            cases state.step byte <;> rfl
        rw [step]
        exact congrArg _ (funext ih)
  rw [ValidUtf8, same, ValidUtf8]

end AimeeLearning.Library
