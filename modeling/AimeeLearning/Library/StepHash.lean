import Mathlib.Logic.Function.Basic

/-! Hashes that take in a text symbol by symbol. Where no step loses anything of the
state or of the symbol, a common tail cancels and one changed symbol shows. -/

set_option autoImplicit false

namespace AimeeLearning.Library

variable {State Symbol : Type} {step : State → Symbol → State}

/-- A step can be undone by whoever knows its symbol, and read by whoever knows
the state it began in. -/
structure Lossless (step : State → Symbol → State) : Prop where
  state : ∀ symbol, Function.Injective (step · symbol)
  symbol : ∀ state, Function.Injective (step state)

namespace Lossless

variable (lossless : Lossless step)

include lossless

theorem foldl_injective (text : List Symbol) : Function.Injective (text.foldl step ·) := by
  induction text with
  | nil => exact fun _ _ same => same
  | cons symbol rest ih => exact fun _ _ same => lossless.state symbol (ih same)

theorem foldl_tail {start : State} {front other : List Symbol} (tail : List Symbol) :
    (front ++ tail).foldl step start = (other ++ tail).foldl step start ↔
      front.foldl step start = other.foldl step start := by
  rw [List.foldl_append, List.foldl_append]
  exact (lossless.foldl_injective tail).eq_iff

theorem foldl_changed {start : State} (front : List Symbol) {symbol other : Symbol}
    (tail : List Symbol) :
    (front ++ symbol :: tail).foldl step start = (front ++ other :: tail).foldl step start ↔
      symbol = other := by
  rw [List.foldl_append, List.foldl_append, List.foldl_cons, List.foldl_cons]
  exact (lossless.foldl_injective tail).eq_iff.trans (lossless.symbol _).eq_iff

end Lossless

end AimeeLearning.Library
