import AimeeLearning.Library.Bytes
import Mathlib.Data.List.TakeWhile

/-! C strings: the text a pointer denotes is what stands in front of the first
NUL. A text without a NUL is what its terminated copy denotes. -/

set_option autoImplicit false

namespace AimeeLearning.Library

/-- A string literal; the literals of the source are ASCII. -/
def cstr (text : String) : Bytes := text.toList.map fun char => UInt8.ofNat char.toNat

/-- The text a pointer to `buffer` denotes. -/
def cString (buffer : Bytes) : Bytes := buffer.takeWhile (· != 0)

def terminated (text : Bytes) : Bytes := text ++ [0]

theorem cString_terminated (text : Bytes) : cString (terminated text) = cString text := by
  induction text with
  | nil => rfl
  | cons byte rest ih =>
      by_cases nul : byte = 0
      · simp [cString, terminated, nul]
      · simp only [cString, terminated, List.cons_append, List.takeWhile_cons, bne_iff_ne, ne_eq,
          nul, not_false_eq_true, if_true, List.cons.injEq, true_and] at ih ⊢
        exact ih

/-- A text denotes itself exactly when it has no NUL. -/
theorem cString_eq_self_iff {text : Bytes} : cString text = text ↔ 0 ∉ text := by
  rw [cString, List.takeWhile_eq_self_iff]
  constructor
  · intro free member
    simpa using free 0 member
  · intro free byte member
    have nonzero : byte ≠ 0 := fun zero => free (zero ▸ member)
    simpa using nonzero

theorem cString_append_zero {text : Bytes} (free : 0 ∉ text) (rest : Bytes) :
    cString (text ++ 0 :: rest) = text := by
  rw [cString, List.takeWhile_append_of_pos]
  · simp
  · intro byte member
    have nonzero : byte ≠ 0 := fun zero => free (zero ▸ member)
    simpa using nonzero

theorem zero_notMem_cString (buffer : Bytes) : 0 ∉ cString buffer := by
  intro member
  simpa using List.mem_takeWhile_imp member

end AimeeLearning.Library
