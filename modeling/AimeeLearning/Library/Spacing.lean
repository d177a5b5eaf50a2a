import Mathlib.Algebra.BigOperators.Group.List.Basic
import Mathlib.Algebra.GroupWithZero.Nat

/-! Traces with marks in them: what may pile up between two marks. The entries
have prices, and a judgement bounds what they have cost since the last mark, at
every point of the trace and at its end. -/

set_option autoImplicit false

namespace AimeeLearning.Library

variable {α : Type} (marks : α → Bool) (price : α → Nat)

/-- The cost since the last mark after one more entry. -/
def chargeEntry (spent : Nat) (entry : α) : Nat := if marks entry then 0 else spent + price entry

/-- A trace that begins with `spent` since the last mark never has more than
`limit`, and ends with at most `final`. -/
inductive Spaced (limit : Nat) : Nat → List α → Nat → Prop where
  | done {spent final : Nat} (within : spent ≤ limit) (ends : spent ≤ final) :
      Spaced limit spent [] final
  | entry {spent final : Nat} {entry : α} {rest : List α} (within : spent ≤ limit)
      (later : Spaced limit (chargeEntry marks price spent entry) rest final) :
      Spaced limit spent (entry :: rest) final

namespace Spaced

variable {marks : α → Bool} {price : α → Nat} {limit spent final : Nat} {trace : List α}

theorem within (spaced : Spaced marks price limit spent trace final) : spent ≤ limit := by
  cases spaced with
  | done within ends => exact within
  | entry within later => exact within

theorem ends (spaced : Spaced marks price limit spent trace final) {more : Nat}
    (looser : final ≤ more) : Spaced marks price limit spent trace more := by
  induction spaced with
  | done within ends => exact .done within (Nat.le_trans ends looser)
  | entry within _ ih => exact .entry within (ih looser)

/-- A trace that began with less is spaced as well. -/
theorem begins (spaced : Spaced marks price limit spent trace final) {less : Nat}
    (fewer : less ≤ spent) : Spaced marks price limit less trace final := by
  induction spaced generalizing less with
  | done within ends => exact .done (Nat.le_trans fewer within) (Nat.le_trans fewer ends)
  | entry within _ ih =>
      refine .entry (Nat.le_trans fewer within) (ih ?_)
      unfold chargeEntry
      split
      · exact Nat.le_refl _
      · omega

theorem append {middle : Nat} {later : List α}
    (first : Spaced marks price limit spent trace middle)
    (second : Spaced marks price limit middle later final) :
    Spaced marks price limit spent (trace ++ later) final := by
  induction first with
  | done within ends => exact second.begins ends
  | entry within _ ih => exact .entry within (ih second)

theorem charge (entry : α) (room : spent + price entry ≤ limit) :
    Spaced marks price limit spent [entry] (spent + price entry) := by
  refine .entry (by omega) (.done ?_ ?_) <;>
    (unfold chargeEntry
     split <;> omega)

theorem mark (entry : α) (marked : marks entry = true) (room : spent ≤ limit) :
    Spaced marks price limit spent [entry] 0 := by
  refine .entry room (.done ?_ ?_) <;> simp [chargeEntry, marked]

theorem prefix_total {stretch later : List α}
    (spaced : Spaced marks price limit spent (stretch ++ later) final) :
    spent + (stretch.map price).sum ≤
      limit + ((stretch.filter marks).map fun entry => limit + price entry).sum := by
  induction stretch generalizing spent with
  | nil => simpa using spaced.within
  | cons entry rest ih =>
      cases spaced with
      | entry within continued =>
          have total := ih continued
          rw [List.map_cons, List.sum_cons]
          cases marked : marks entry with
          | true =>
              rw [chargeEntry, marked, if_pos rfl] at total
              rw [List.filter_cons_of_pos marked, List.map_cons, List.sum_cons]
              omega
          | false =>
              rw [chargeEntry, marked, if_neg Bool.false_ne_true] at total
              rw [List.filter_cons_of_neg (by simp [marked])]
              omega

/-- A stretch costs at most the limit, and for each mark in it the mark and the limit
once more. -/
theorem stretch_total {stretch : List α} (spaced : Spaced marks price limit spent trace final)
    (inside : stretch <:+: trace) :
    (stretch.map price).sum ≤
      limit + ((stretch.filter marks).map fun entry => limit + price entry).sum := by
  obtain ⟨before, after, rfl⟩ := inside
  induction before generalizing spent with
  | nil =>
      have total := @prefix_total _ _ _ _ _ _ stretch after spaced
      omega
  | cons entry rest ih =>
      cases spaced with
      | entry within later => exact ih later

end Spaced

end AimeeLearning.Library
