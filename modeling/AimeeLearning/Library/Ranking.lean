import Mathlib.Data.Finset.Card
import Mathlib.Data.List.Sort

/-! Ranking by a comparator that answers with a sign, and counting the keys of a
list by looking back. What a sorted list begins with is at least as good as what
it goes on with. -/

set_option autoImplicit false

namespace AimeeLearning.Library

section Comparators

variable {α : Type} {order : α → α → Int} {given sorted : List α}

/-- The signs of a comparator are those of a total preorder. -/
structure Comparator (order : α → α → Int) : Prop where
  total : ∀ left right, order left right ≤ 0 ∨ order right left ≤ 0
  trans : ∀ first second third, order first second ≤ 0 → order second third ≤ 0 →
    order first third ≤ 0

/-- The entries of a list, in an order its comparator accepts. -/
structure SortedBy (order : α → α → Int) (given sorted : List α) : Prop where
  perm : sorted.Perm given
  ascending : sorted.Pairwise fun left right => order left right ≤ 0

/-- A sort by any comparator. -/
def Sorts (sort : ∀ {α : Type}, (α → α → Int) → List α → List α) : Prop :=
  ∀ {α : Type} (order : α → α → Int), Comparator order → ∀ given, SortedBy order given (sort order given)

theorem SortedBy.taken_before (ranked : SortedBy order given sorted) {taken left : α} {count : Nat}
    (member : left ∈ given) (out : left ∉ sorted.take count) (kept : taken ∈ sorted.take count) :
    order taken left ≤ 0 := by
  have ascending := ranked.ascending
  rw [← List.take_append_drop count sorted, List.pairwise_append] at ascending
  have rest : left ∈ sorted.drop count := by
    have there := ranked.perm.mem_iff.mpr member
    rw [← List.take_append_drop count sorted] at there
    exact (List.mem_append.mp there).resolve_left out
  exact ascending.2.2 taken kept left rest

def insertionSortBy {α : Type} (order : α → α → Int) (given : List α) : List α :=
  given.insertionSort fun left right => order left right ≤ 0

theorem insertionSortBy_sorts : Sorts @insertionSortBy := by
  intro α order comparator given
  have : Std.Total fun left right => order left right ≤ 0 := ⟨comparator.total⟩
  have : IsTrans α fun left right => order left right ≤ 0 := ⟨comparator.trans⟩
  exact ⟨List.perm_insertionSort _ given, List.pairwise_insertionSort _ given⟩

end Comparators

section Keys

variable {Row Key : Type} [DecidableEq Key] {key : Row → Key}

/-- How many rows have a key that none before them has. -/
def countFirsts (key : Row → Key) : List Row → List Row → Nat
  | _, [] => 0
  | earlier, row :: rest =>
      (if earlier.any fun other => key other = key row then 0 else 1) +
        countFirsts key (earlier ++ [row]) rest

theorem countFirsts_eq (earlier rows : List Row) :
    countFirsts key earlier rows =
      ((rows.map key).toFinset \ (earlier.map key).toFinset).card := by
  induction rows generalizing earlier with
  | nil => simp [countFirsts]
  | cons row rest ih =>
      have grown : ((earlier ++ [row]).map key).toFinset =
          insert (key row) (earlier.map key).toFinset := by
        rw [List.map_append, List.toFinset_append, List.map_singleton, List.toFinset_cons,
          List.toFinset_nil, Finset.union_comm]
        rfl
      rw [countFirsts, ih, grown, List.map_cons, List.toFinset_cons]
      split
      · rename_i seen
        have again : key row ∈ (earlier.map key).toFinset := by
          obtain ⟨other, member, same⟩ := List.any_eq_true.mp seen
          exact List.mem_toFinset.mpr (List.mem_map.mpr ⟨other, member, by simpa using same⟩)
        rw [Finset.insert_sdiff_of_mem _ again, Finset.insert_eq_of_mem again, Nat.zero_add]
      · rename_i unseen
        have first : key row ∉ (earlier.map key).toFinset := by
          intro again
          obtain ⟨other, member, same⟩ := List.mem_map.mp (List.mem_toFinset.mp again)
          exact unseen (List.any_eq_true.mpr ⟨other, member, by simpa using same⟩)
        rw [Finset.insert_sdiff_of_notMem _ first, Finset.sdiff_insert, Nat.add_comm,
          ← Finset.card_erase_add_one (Finset.mem_insert_self (key row) _),
          Finset.erase_insert_eq_erase]

theorem countFirsts_distinct (rows : List Row) :
    countFirsts key [] rows = (rows.map key).toFinset.card := by
  rw [countFirsts_eq]
  simp

end Keys

end AimeeLearning.Library
