import Mathlib.Data.List.Basic
import Mathlib.Tactic.Common

/-! Cutting a list into pieces of bounded length, each marked with whether more
follow, and the shape a receiver may rely on: only the last piece is unmarked,
and the pieces put together are the list. -/

set_option autoImplicit false

namespace AimeeLearning.Library

variable {α : Type}

/-- The pieces from `offset` on. There is always at least one, and another one
follows as long as the end is not reached. -/
def piecesFrom (chunk : Nat) (whole : List α) : Nat → Nat → List (List α × Bool)
  | 0, _ => []
  | fuel + 1, offset =>
      let part := if whole.length - offset > chunk then chunk else whole.length - offset
      let more := offset + part < whole.length
      ((whole.drop offset).take part, more) ::
        if more then piecesFrom chunk whole fuel (offset + part) else []

/-- All pieces; the fuel covers a chunk of one. -/
def pieces (chunk : Nat) (whole : List α) : List (List α × Bool) :=
  piecesFrom chunk whole (whole.length + 1) 0

/-- A sequence in which every piece but the last one announces more. -/
def ClosedBy : List (List α × Bool) → Prop
  | [] => False
  | [piece] => piece.2 = false
  | piece :: rest => piece.2 = true ∧ ClosedBy rest

theorem closedBy_cons {piece : List α × Bool} {rest : List (List α × Bool)} (more : rest ≠ []) :
    ClosedBy (piece :: rest) ↔ piece.2 = true ∧ ClosedBy rest := by
  cases rest with
  | nil => exact absurd rfl more
  | cons next rest => exact Iff.rfl

theorem ClosedBy.relabel {β : Type} {relabelled : List α × Bool → List β × Bool}
    (marks : ∀ piece, (relabelled piece).2 = piece.2) {cut : List (List α × Bool)}
    (closed : ClosedBy cut) : ClosedBy (cut.map relabelled) := by
  induction cut with
  | nil => exact closed
  | cons piece rest ih =>
      by_cases more : rest = []
      · subst more
        exact (marks piece).trans closed
      · obtain ⟨marked, closed⟩ := (closedBy_cons more).mp closed
        exact (closedBy_cons (by simpa using more)).mpr ⟨(marks piece).trans marked, ih closed⟩

theorem ClosedBy.countP {cut : List (List α × Bool)} (closed : ClosedBy cut) :
    cut.countP (fun piece => !piece.2) = 1 := by
  induction cut with
  | nil => exact closed.elim
  | cons piece rest ih =>
      by_cases more : rest = []
      · subst more
        have last : piece.2 = false := closed
        simp [last]
      · obtain ⟨marked, closed⟩ := (closedBy_cons more).mp closed
        simp [marked, ih closed]

/-- A prefix is the whole exactly when its last piece announces no more. -/
theorem ClosedBy.prefix_last {cut earlier : List (List α × Bool)} {piece : List α × Bool}
    (closed : ClosedBy cut) (within : earlier ++ [piece] <+: cut) :
    piece.2 = false ↔ earlier ++ [piece] = cut := by
  obtain ⟨rest, rfl⟩ := within
  induction earlier with
  | nil =>
      cases rest with
      | nil => simpa [ClosedBy] using closed
      | cons next rest =>
          have marked : piece.2 = true := ((closedBy_cons (by simp)).mp closed).1
          simp [marked]
  | cons first earlier ih =>
      have closed := ((closedBy_cons (by simp)).mp closed).2
      simpa using ih closed

section Shape

variable {chunk : Nat} (whole : List α)

theorem piecesFrom_induct (Shape : Nat → List (List α × Bool) → Prop) (positive : 0 < chunk)
    (last : ∀ offset, offset ≤ whole.length → whole.length - offset ≤ chunk →
      Shape offset [(whole.drop offset, false)])
    (further : ∀ offset rest, chunk < whole.length - offset → Shape (offset + chunk) rest →
      rest ≠ [] → Shape offset (((whole.drop offset).take chunk, true) :: rest)) :
    ∀ fuel offset, offset ≤ whole.length → whole.length - offset < fuel →
      Shape offset (piecesFrom chunk whole fuel offset) ∧
        piecesFrom chunk whole fuel offset ≠ [] := by
  intro fuel
  induction fuel with
  | zero => intro offset _ short; omega
  | succ fuel ih =>
      intro offset inside short
      simp only [piecesFrom]
      by_cases long : whole.length - offset > chunk
      · have continues : offset + chunk < whole.length := by omega
        obtain ⟨shape, nonempty⟩ := ih (offset + chunk) (by omega) (by omega)
        simp only [long, continues, if_true, decide_true]
        exact ⟨further offset _ long shape nonempty, by simp⟩
      · have ends : ¬ offset + (whole.length - offset) < whole.length := by omega
        have rest : (whole.drop offset).take (whole.length - offset) = whole.drop offset := by
          rw [List.take_of_length_le]
          simp
        simp only [long, ends, if_false, decide_false, rest]
        exact ⟨last offset inside (by omega), by simp⟩

theorem pieces_flatten (positive : 0 < chunk) :
    ((pieces chunk whole).map Prod.fst).flatten = whole := by
  have loop := piecesFrom_induct whole
    (fun offset cut => (cut.map Prod.fst).flatten = whole.drop offset) positive
    (fun offset _ _ => by simp)
    (fun offset rest _ joined _ => by
      rw [List.map_cons, List.flatten_cons, joined, ← List.drop_drop, List.take_append_drop])
  simpa [pieces] using (loop (whole.length + 1) 0 (Nat.zero_le _) (by omega)).1

theorem pieces_closedBy (positive : 0 < chunk) : ClosedBy (pieces chunk whole) :=
  ((piecesFrom_induct whole (fun _ cut => ClosedBy cut) positive
    (fun _ _ _ => rfl)
    (fun _ _ _ closed nonempty => (closedBy_cons nonempty).mpr ⟨rfl, closed⟩))
    (whole.length + 1) 0 (Nat.zero_le _) (by omega)).1

theorem pieces_length (positive : 0 < chunk) :
    ∀ piece ∈ pieces chunk whole,
      piece.1.length ≤ chunk ∧ piece.1.length ≤ whole.length ∧
        (piece.2 = true → piece.1.length = chunk) := by
  refine (piecesFrom_induct whole (fun _ cut => ∀ piece ∈ cut, piece.1.length ≤ chunk ∧
    piece.1.length ≤ whole.length ∧ (piece.2 = true → piece.1.length = chunk)) positive ?_ ?_
    (whole.length + 1) 0 (Nat.zero_le _) (by omega)).1
  · intro offset _ short piece member
    obtain rfl := List.mem_singleton.mp member
    refine ⟨by simpa using short, by simp, by simp⟩
  · intro offset rest long earlier _ piece member
    rcases List.mem_cons.mp member with rfl | member
    · simp only [List.length_take, List.length_drop]
      refine ⟨by omega, by omega, by omega⟩
    · exact earlier piece member

theorem pieces_head_longest (positive : 0 < chunk) {part : List α} {more : Bool}
    {rest : List (List α × Bool)} (cut : pieces chunk whole = (part, more) :: rest) :
    ∀ piece ∈ pieces chunk whole, piece.1.length ≤ part.length := by
  intro piece member
  obtain ⟨short, inside, -⟩ := pieces_length whole positive piece member
  have first : part.length = min chunk whole.length := by
    simp only [pieces, piecesFrom, List.cons.injEq, Prod.mk.injEq] at cut
    rw [← cut.1.1]
    split
    · simp
    · simp
      omega
  omega

theorem pieces_of_le {whole : List α} (fits : whole.length ≤ chunk) :
    pieces chunk whole = [(whole, false)] := by
  simp [pieces, piecesFrom, Nat.not_lt.mpr fits]

theorem pieces_nil : pieces chunk ([] : List α) = [([], false)] := by
  simp [pieces, piecesFrom]

theorem pieces_count (positive : 0 < chunk) :
    (pieces chunk whole).length ≤ whole.length / chunk + 1 := by
  refine (piecesFrom_induct whole
    (fun offset cut => cut.length ≤ (whole.length - offset) / chunk + 1) positive
    (fun offset _ _ => by simp) (fun offset rest long shorter _ => ?_)
    (whole.length + 1) 0 (Nat.zero_le _) (by omega)).1
  have quotient : (whole.length - offset) / chunk = (whole.length - (offset + chunk)) / chunk + 1 := by
    rw [Nat.div_eq_sub_div positive (Nat.le_of_lt long), Nat.sub_sub]
  rw [List.length_cons, quotient]
  omega

end Shape

end AimeeLearning.Library
