import Mathlib.Data.List.AList
import Mathlib.Tactic.Common

/-! The values of an association table, as a list that moves with the table. -/

set_option autoImplicit false

namespace AimeeLearning.Library

variable {Key Value : Type} {table : AList fun _ : Key => Value} {key : Key}
  {value : Value}

def tableValues (table : AList fun _ : Key => Value) : List Value := table.entries.map Sigma.snd

theorem length_tableValues (table : AList fun _ : Key => Value) :
    (tableValues table).length = table.keys.length := by
  simp [tableValues, AList.keys, List.keys]

variable [DecidableEq Key]

theorem lookup_erase_some {erased : Key} (found : (table.erase erased).lookup key = some value) :
    table.lookup key = some value := by
  by_cases same : key = erased
  · subst same
    simp at found
  · rwa [AList.lookup_erase_ne same] at found

theorem mem_tableValues : value ∈ tableValues table ↔ ∃ key, table.lookup key = some value := by
  constructor
  · intro member
    obtain ⟨entry, present, rfl⟩ := List.mem_map.mp member
    exact ⟨entry.1, AList.mem_lookup_iff.mpr present⟩
  · rintro ⟨key, found⟩
    exact List.mem_map.mpr ⟨⟨key, value⟩, AList.mem_lookup_iff.mp found, rfl⟩

theorem tableValues_insert (fresh : table.lookup key = none) (value : Value) :
    tableValues (table.insert key value) = value :: tableValues table := by
  rw [tableValues, AList.entries_insert_of_notMem (AList.lookup_eq_none.mp fresh)]
  rfl

/-- Erasing a key takes exactly its value. -/
theorem tableValues_erase (found : table.lookup key = some value) :
    (tableValues table).Perm (value :: tableValues (table.erase key)) := by
  have present : key ∈ table.entries.keys :=
    AList.mem_keys.mp (AList.lookup_isSome.mp (by rw [found]; rfl))
  obtain ⟨other, front, back, -, split, erased⟩ := List.exists_of_kerase present
  have same : other = value := by
    have here : other ∈ table.lookup key := AList.mem_lookup_iff.mpr (by rw [split]; simp)
    exact Option.some.inj ((Option.mem_def.mp here).symm.trans found)
  subst same
  have rest : tableValues (table.erase key) = front.map Sigma.snd ++ back.map Sigma.snd := by
    rw [← List.map_append, ← erased]
    rfl
  rw [rest, tableValues, split, List.map_append, List.map_cons]
  exact List.perm_middle

theorem length_keys_erase (table : AList fun _ : Key => Value) (key : Key) :
    (table.erase key).keys.length ≤ table.keys.length := by
  rw [AList.keys_erase]
  exact List.length_erase_le

theorem length_keys_insert (table : AList fun _ : Key => Value) (key : Key) (value : Value) :
    (table.insert key value).keys.length =
      if (table.lookup key).isSome then table.keys.length else table.keys.length + 1 := by
  rw [AList.keys_insert, List.length_cons]
  split
  · rename_i present
    have member := AList.mem_keys.mp (AList.lookup_isSome.mp present)
    have positive : 0 < table.keys.length := List.length_pos_of_mem member
    rw [List.length_erase_of_mem member]
    omega
  · rename_i absent
    rw [List.erase_of_not_mem fun member => absent (AList.lookup_isSome.mpr
      (AList.mem_keys.mpr member))]

end AimeeLearning.Library
