import Mathlib.Algebra.BigOperators.Group.List.Basic
import Mathlib.Algebra.GroupWithZero.Nat
import Mathlib.Data.List.Forall2
import Mathlib.Data.List.Nodup
import Mathlib.Tactic.Common

/-! Tables as lists of keyed rows. An update relates the rows position by
position, so what it does to one row is read off the relation. -/

set_option autoImplicit false

namespace AimeeLearning.Library

section Pairs

variable {Left Right : Type} {Related : Left → Right → Prop} {lefts : List Left}
  {rights : List Right}

theorem forall₂_forward (related : List.Forall₂ Related lefts rights) {row : Left}
    (member : row ∈ lefts) : ∃ next ∈ rights, Related row next := by
  induction related with
  | nil => cases member
  | cons here _ ih =>
      rcases List.mem_cons.mp member with rfl | later
      · exact ⟨_, List.mem_cons_self, here⟩
      · obtain ⟨next, found, goes⟩ := ih later
        exact ⟨next, List.mem_cons_of_mem _ found, goes⟩

theorem forall₂_backward (related : List.Forall₂ Related lefts rights) {row : Right}
    (member : row ∈ rights) : ∃ earlier ∈ lefts, Related earlier row := by
  induction related with
  | nil => cases member
  | cons here _ ih =>
      rcases List.mem_cons.mp member with rfl | later
      · exact ⟨_, List.mem_cons_self, here⟩
      · obtain ⟨earlier, found, comes⟩ := ih later
        exact ⟨earlier, List.mem_cons_of_mem _ found, comes⟩

theorem forall₂_nodup (related : List.Forall₂ Related lefts rights) (distinct : rights.Nodup)
    (single : ∀ row place other, Related row place → Related row other → place = other) :
    lefts.Nodup := by
  induction related with
  | nil => exact List.nodup_nil
  | cons here further ih =>
      obtain ⟨fresh, distinct⟩ := List.nodup_cons.mp distinct
      refine List.nodup_cons.mpr ⟨fun again => ?_, ih distinct⟩
      obtain ⟨place, there, goes⟩ := forall₂_forward further again
      exact fresh (single _ _ _ here goes ▸ there)

end Pairs

variable {Row Key : Type} {Related : Row → Row → Prop} {before after : List Row}

theorem forall₂_keys {key : Row → Key} (keeps : ∀ row next, Related row next → key next = key row)
    (related : List.Forall₂ Related before after) : after.map key = before.map key := by
  induction related with
  | nil => rfl
  | cons here _ ih => rw [List.map_cons, List.map_cons, ih, keeps _ _ here]

theorem forall₂_countP_le {test : Row → Bool}
    (keeps : ∀ row next, Related row next → test next = true → test row = true)
    (related : List.Forall₂ Related before after) : after.countP test ≤ before.countP test := by
  induction related with
  | nil => exact Nat.le_refl _
  | cons here _ ih =>
      rw [List.countP_cons, List.countP_cons]
      have head := keeps _ _ here
      split <;> split <;> first | omega | simp_all

/-- Rows counted key by key are all counted, where every row has one of the keys. -/
theorem countP_classes [DecidableEq Key] {key : Row → Key} {keys : List Key}
    (distinct : keys.Nodup) {test : Row → Bool} {rows : List Row}
    (known : ∀ row ∈ rows, key row ∈ keys) :
    (keys.map fun id => rows.countP fun row => decide (key row = id) && test row).sum =
      rows.countP test := by
  induction rows with
  | nil => simp
  | cons row rest ih =>
      have later := ih fun other member => known other (List.mem_cons_of_mem _ member)
      have here : (keys.map fun id => if decide (key row = id) && test row then 1 else 0).sum =
          if test row then 1 else 0 := by
        rw [List.sum_map_eq_nsmul_single (key row) _ fun id other _ => by simp [Ne.symm other],
          List.count_eq_one_of_mem distinct (known row List.mem_cons_self)]
        simp
      simp only [List.countP_cons]
      rw [List.sum_map_add, later, here]

section Rewrites

variable [DecidableEq Key] {key : Row → Key} {id : Key} {Change : Row → Row → Prop}

/-- Only the rows of one key change. -/
def Rewrites (key : Row → Key) (id : Key) (Change : Row → Row → Prop) :
    List Row → List Row → Prop :=
  List.Forall₂ fun row next => if key row = id then Change row next else next = row

theorem Rewrites.imp (rewritten : Rewrites key id Change before after)
    (changed : ∀ row next, row ∈ before → key row = id → Change row next → Related row next)
    (kept : ∀ row, Related row row) : List.Forall₂ Related before after := by
  induction rewritten with
  | nil => exact .nil
  | cons here _ ih =>
      refine .cons ?_ (ih fun row next member => changed row next (List.mem_cons_of_mem _ member))
      split at here
      · rename_i mine
        exact changed _ _ List.mem_cons_self mine here
      · rw [here]
        exact kept _

/-- Where keys are unique, a rewritten table has at most one row more that
satisfies a test. -/
theorem Rewrites.countP_le {test : Row → Bool} (unique : (before.map key).Nodup)
    (rewritten : Rewrites key id Change before after) :
    after.countP test ≤ before.countP test + 1 := by
  induction rewritten with
  | nil => exact Nat.zero_le _
  | cons here rest ih =>
      rename_i row next earlier later
      obtain ⟨fresh, distinct⟩ := List.nodup_cons.mp unique
      rw [List.countP_cons, List.countP_cons]
      split at here
      · rename_i mine
        have same : List.Forall₂ (fun row next => next = row) earlier later :=
          Rewrites.imp rest (fun other changed member named _ =>
            absurd (List.mem_map.mpr ⟨other, member, named.trans mine.symm⟩) fresh) fun _ => rfl
        have others : later.countP test ≤ earlier.countP test :=
          forall₂_countP_le (fun row next same holds => by rwa [same] at holds) same
        split <;> split <;> omega
      · subst here
        have others := ih distinct
        omega

end Rewrites

theorem find?_eq_some_iff_mem [DecidableEq Key] {key : Row → Key} {rows : List Row}
    (unique : (rows.map key).Nodup) {id : Key} {row : Row} :
    rows.find? (fun other => key other = id) = some row ↔ row ∈ rows ∧ key row = id := by
  constructor
  · intro found
    exact ⟨List.mem_of_find?_eq_some found, by simpa using List.find?_some found⟩
  · rintro ⟨member, rfl⟩
    induction rows with
    | nil => cases member
    | cons first rest ih =>
        obtain ⟨fresh, unique⟩ := List.nodup_cons.mp unique
        rcases List.mem_cons.mp member with rfl | later
        · simp
        · have apart : key first ≠ key row := fun same =>
            fresh (same ▸ List.mem_map_of_mem later)
          simpa [apart] using ih unique later

end AimeeLearning.Library
