import Mathlib.Algebra.Order.Group.Multiset
import Mathlib.Algebra.Order.Sub.Basic
import Mathlib.Tactic.Common

/-! Sequential programs that call out and go on with the answer, and a logic of
the handles they hold. A handle comes with an answer, is used only while it is
held and is released once; what a program neither takes nor gives back is its
frame. -/

set_option autoImplicit false

namespace AimeeLearning.Library

variable {Call : Type} {Answer : Call → Type} {Handle α β : Type}

inductive Program (Call : Type) (Answer : Call → Type) (α : Type) where
  | done (result : α)
  | call (request : Call) (next : Answer request → Program Call Answer α)

/-- A call and what was answered. -/
structure Exchange (Answer : Call → Type) where
  request : Call
  answer : Answer request

namespace Program

protected def bind (second : α → Program Call Answer β) :
    Program Call Answer α → Program Call Answer β
  | .done result => second result
  | .call request next => .call request fun answer => (next answer).bind second

instance : Monad (Program Call Answer) where
  pure := .done
  bind first second := first.bind second

/-- Make one call. -/
def perform (request : Call) : Program Call Answer (Answer request) := .call request .done

/-- The calls of a run with their answers, and its result. -/
inductive Ran : Program Call Answer α → List (Exchange Answer) → α → Prop where
  | done {result : α} : Ran (.done result) [] result
  | call {request : Call} {next : Answer request → Program Call Answer α}
      {answer : Answer request} {trace : List (Exchange Answer)} {result : α} :
      Ran (next answer) trace result → Ran (.call request next) (⟨request, answer⟩ :: trace) result

/-- The result under a host that answers every call in its own way. -/
def under (host : (request : Call) → Answer request) : Program Call Answer α → α
  | .done result => result
  | .call request next => (next (host request)).under host

/-- The body again and again until it has a result, at most so many times. -/
def retried (body : Program Call Answer (Option α)) : Nat → Program Call Answer (Option α)
  | 0 => pure none
  | rounds + 1 => body >>= fun outcome =>
      match outcome with
      | some result => pure (some result)
      | none => body.retried rounds

/-- The calls under such a host. -/
def trace (host : (request : Call) → Answer request) :
    Program Call Answer α → List (Exchange Answer)
  | .done _ => []
  | .call request next => ⟨request, host request⟩ :: (next (host request)).trace host

theorem ran_under (program : Program Call Answer α) (host : (request : Call) → Answer request) :
    program.Ran (program.trace host) (program.under host) := by
  induction program with
  | done => exact .done
  | call request next ih => exact .call (ih (host request))

theorem ran_bind_iff {first : Program Call Answer α} {second : α → Program Call Answer β}
    {trace : List (Exchange Answer)} {result : β} :
    (first >>= second).Ran trace result ↔
      ∃ early late value, first.Ran early value ∧ (second value).Ran late result ∧
        trace = early ++ late := by
  constructor
  · intro ran
    induction first generalizing trace with
    | done value => exact ⟨[], trace, value, .done, ran, rfl⟩
    | call request next ih =>
        cases ran with
        | call rest =>
            obtain ⟨early, late, value, began, ended, rfl⟩ := ih _ rest
            exact ⟨_ :: early, late, value, .call began, ended, rfl⟩
  · rintro ⟨early, late, value, began, ended, rfl⟩
    induction began with
    | done => exact ended
    | call _ ih => exact .call (ih ended)

theorem ran_perform_iff {request : Call} {trace : List (Exchange Answer)}
    {answer : Answer request} :
    (perform request).Ran trace answer ↔ trace = [⟨request, answer⟩] := by
  constructor
  · intro ran
    cases ran with
    | call rest =>
        cases rest
        rfl
  · rintro rfl
    exact .call .done

theorem ran_pure_iff {value result : α} {trace : List (Exchange Answer)} :
    (pure value : Program Call Answer α).Ran trace result ↔ trace = [] ∧ result = value := by
  constructor
  · intro ran
    cases ran
    exact ⟨rfl, rfl⟩
  · rintro ⟨rfl, rfl⟩
    exact .done

/-- What a run of a repeated body consists of: the rounds without a result, and
the last one if it has one. -/
theorem Ran.rounds {body : Program Call Answer (Option α)} {rounds : Nat}
    {trace : List (Exchange Answer)} {result : Option α}
    (ran : (body.retried rounds).Ran trace result) :
    ∃ earlier : List (List (Exchange Answer)), (∀ piece ∈ earlier, body.Ran piece none) ∧
      ((result = none ∧ earlier.length = rounds ∧ trace = earlier.flatten) ∨
        ∃ value last, result = some value ∧ earlier.length < rounds ∧
          body.Ran last (some value) ∧ trace = earlier.flatten ++ last) := by
  induction rounds generalizing trace with
  | zero =>
      obtain ⟨rfl, rfl⟩ := ran_pure_iff.mp ran
      exact ⟨[], by simp, .inl ⟨rfl, rfl, rfl⟩⟩
  | succ rounds ih =>
      obtain ⟨early, late, outcome, began, ended, rfl⟩ := ran_bind_iff.mp ran
      cases outcome with
      | some value =>
          obtain ⟨rfl, rfl⟩ := ran_pure_iff.mp ended
          exact ⟨[], by simp, .inr ⟨value, early, rfl, Nat.succ_pos rounds, began, by simp⟩⟩
      | none =>
          obtain ⟨earlier, refused, shape⟩ := ih ended
          refine ⟨early :: earlier, List.forall_mem_cons.mpr ⟨began, refused⟩, ?_⟩
          rcases shape with ⟨rfl, count, rfl⟩ | ⟨value, last, rfl, count, final, rfl⟩
          · exact .inl ⟨rfl, by simp [count], by simp⟩
          · exact .inr ⟨value, last, rfl, by simpa using count, final, by simp⟩

/-- A run whose answers are a host's has that host's result. -/
theorem Ran.under {program : Program Call Answer α} {trace : List (Exchange Answer)} {result : α}
    (ran : program.Ran trace result) {host : (request : Call) → Answer request}
    (answered : ∀ exchange ∈ trace, exchange.answer = host exchange.request) :
    program.under host = result := by
  induction ran with
  | done => rfl
  | call _ ih =>
      have here := answered _ List.mem_cons_self
      simp only at here
      rw [Program.under, ← here]
      exact ih fun exchange member => answered exchange (List.mem_cons_of_mem _ member)

theorem under_bind (first : Program Call Answer α) (second : α → Program Call Answer β)
    (host : (request : Call) → Answer request) :
    (first >>= second).under host = (second (first.under host)).under host := by
  induction first with
  | done => rfl
  | call _ _ ih => exact ih _

/-- Every result the program can have satisfies the condition. -/
def Ensures (program : Program Call Answer α) (post : α → Prop) : Prop :=
  ∀ trace result, program.Ran trace result → post result

theorem Ensures.pure {post : α → Prop} {value : α} (holds : post value) :
    (Pure.pure value : Program Call Answer α).Ensures post := by
  intro trace result ran
  obtain ⟨-, rfl⟩ := ran_pure_iff.mp ran
  exact holds

theorem Ensures.bind {post : β → Prop} {first : Program Call Answer α}
    {second : α → Program Call Answer β} (holds : ∀ value, (second value).Ensures post) :
    (first >>= second).Ensures post := by
  intro trace result ran
  obtain ⟨early, late, value, -, ended, -⟩ := ran_bind_iff.mp ran
  exact holds value late result ended

/-- The condition of the first program carries to the second. -/
theorem Ensures.map {post : α → Prop} {after : β → Prop} {first : Program Call Answer α}
    {second : α → Program Call Answer β} (begins : first.Ensures post)
    (holds : ∀ value, post value → (second value).Ensures after) :
    (first >>= second).Ensures after := by
  intro trace result ran
  obtain ⟨early, late, value, began, ended, -⟩ := ran_bind_iff.mp ran
  exact holds value (begins early value began) late result ended

theorem Ensures.retried {post : Option α → Prop} {body : Program Call Answer (Option α)}
    (holds : body.Ensures post) (unsettled : post none) (rounds : Nat) :
    (body.retried rounds).Ensures post := by
  intro trace result ran
  obtain ⟨earlier, -, ⟨rfl, -⟩ | ⟨value, last, rfl, -, final, -⟩⟩ := ran.rounds
  · exact unsettled
  · exact holds last _ final

end Program

/-- What calls do with handles. -/
structure Custody (Answer : Call → Type) (Handle : Type) where
  uses : Call → List Handle
  releases : Call → List Handle
  acquires : (request : Call) → Answer request → List Handle

namespace Custody

variable [DecidableEq Handle] (custody : Custody Answer Handle)

/-- What is held after a call; nothing where the call touches what is not held. -/
def settle (held : Multiset Handle) (exchange : Exchange Answer) : Option (Multiset Handle) :=
  if (∀ handle ∈ custody.uses exchange.request, handle ∈ held) ∧
      (custody.releases exchange.request : Multiset Handle) ≤ held then
    some (held - custody.releases exchange.request +
      custody.acquires exchange.request exchange.answer)
  else none

/-- What is held after a trace. -/
def ledger : Multiset Handle → List (Exchange Answer) → Option (Multiset Handle)
  | held, [] => some held
  | held, exchange :: rest => (custody.settle held exchange).bind fun left => ledger left rest

/-- In every run, and whatever else is held, the program touches what it needs or
took itself, and what it leaves behind replaces what it needed. -/
def Keeps (needs : Multiset Handle) (program : Program Call Answer α)
    (leaves : α → Multiset Handle) : Prop :=
  ∀ frame trace result, program.Ran trace result →
    custody.ledger (frame + needs) trace = some (frame + leaves result)

/-- Everything a trace acquires. -/
def acquired (trace : List (Exchange Answer)) : Multiset Handle :=
  trace.flatMap fun exchange => custody.acquires exchange.request exchange.answer

/-- Everything it releases. -/
def released (trace : List (Exchange Answer)) : Multiset Handle :=
  trace.flatMap fun exchange => custody.releases exchange.request

variable {custody} {needs middle : Multiset Handle} {leaves : α → Multiset Handle}

theorem ledger_append {held : Multiset Handle} {early late : List (Exchange Answer)} :
    custody.ledger held (early ++ late) =
      (custody.ledger held early).bind fun left => custody.ledger left late := by
  induction early generalizing held with
  | nil => rfl
  | cons exchange rest ih =>
      simp only [List.cons_append, ledger]
      cases custody.settle held exchange with
      | none => rfl
      | some left => exact ih

omit [DecidableEq Handle] in
theorem released_append (early late : List (Exchange Answer)) :
    custody.released (early ++ late) = custody.released early + custody.released late := by
  simp [released]

omit [DecidableEq Handle] in
theorem acquired_append (early late : List (Exchange Answer)) :
    custody.acquired (early ++ late) = custody.acquired early + custody.acquired late := by
  simp [acquired]

/-- What is held and what is acquired is what is released and what is left. -/
theorem ledger_balance {held left : Multiset Handle} {trace : List (Exchange Answer)}
    (settled : custody.ledger held trace = some left) :
    held + custody.acquired trace = left + custody.released trace := by
  induction trace generalizing held with
  | nil =>
      obtain rfl := Option.some.inj settled
      rfl
  | cons exchange rest ih =>
      obtain ⟨middle, first, later⟩ := Option.bind_eq_some_iff.mp settled
      rw [settle] at first
      split at first
      · rename_i fits
        obtain rfl := Option.some.inj first
        obtain ⟨kept, rfl⟩ := Multiset.le_iff_exists_add.mp fits.2
        rw [add_tsub_cancel_left] at later
        have here := ih later
        simp only [acquired, released, List.flatMap_cons, ← Multiset.coe_add] at here ⊢
        rw [add_left_comm left, ← here]
        ac_rfl
      · cases first

theorem settle_frame {frame : Multiset Handle} {exchange : Exchange Answer}
    (used : ∀ handle ∈ custody.uses exchange.request, handle ∈ needs)
    (released : (custody.releases exchange.request : Multiset Handle) ≤ needs) :
    custody.settle (frame + needs) exchange =
      some (frame + (needs - custody.releases exchange.request +
        custody.acquires exchange.request exchange.answer)) := by
  have reaches : ∀ handle ∈ custody.uses exchange.request, handle ∈ frame + needs :=
    fun handle member => Multiset.mem_add.mpr (.inr (used handle member))
  have fits := released.trans (Multiset.le_add_left needs frame)
  rw [settle, if_pos ⟨reaches, fits⟩, add_tsub_assoc_of_le released, add_assoc]

theorem Keeps.done {result : α} (left : leaves result = needs) :
    custody.Keeps needs (.done result) leaves := by
  intro frame trace other ran
  cases ran
  rw [left, ledger]

theorem Keeps.pure {result : α} (left : leaves result = needs) :
    custody.Keeps needs (Pure.pure result : Program Call Answer α) leaves := .done left

theorem Keeps.call {request : Call} {next : Answer request → Program Call Answer α}
    (used : ∀ handle ∈ custody.uses request, handle ∈ needs)
    (released : (custody.releases request : Multiset Handle) ≤ needs)
    (continues : ∀ answer, custody.Keeps
      (needs - custody.releases request + custody.acquires request answer) (next answer) leaves) :
    custody.Keeps needs (.call request next) leaves := by
  intro frame trace result ran
  cases ran with
  | call rest =>
      rw [ledger, settle_frame used released, Option.bind_some]
      exact continues _ frame _ result rest

theorem Keeps.bind {first : Program Call Answer β} {between : β → Multiset Handle}
    {second : β → Program Call Answer α} (begins : custody.Keeps needs first between)
    (ends : ∀ value, custody.Keeps (between value) (second value) leaves) :
    custody.Keeps needs (first >>= second) leaves := by
  intro frame trace result ran
  obtain ⟨early, late, value, began, ended, rfl⟩ := Program.ran_bind_iff.mp ran
  rw [ledger_append, begins frame early value began, Option.bind_some]
  exact ends value frame late result ended

theorem Keeps.frame {program : Program Call Answer α} (keeps : custody.Keeps needs program leaves)
    (other : Multiset Handle) :
    custody.Keeps (other + needs) program fun result => other + leaves result := by
  intro frame trace result ran
  rw [← add_assoc, ← add_assoc]
  exact keeps (frame + other) trace result ran

/-- What is held before and after may be written differently. -/
theorem Keeps.congr {program : Program Call Answer α} {others : α → Multiset Handle}
    (keeps : custody.Keeps needs program leaves) (before : middle = needs)
    (after : ∀ result, leaves result = others result) :
    custody.Keeps middle program others := by
  intro frame trace result ran
  rw [before, ← after]
  exact keeps frame trace result ran

theorem Keeps.retried {body : Program Call Answer (Option α)}
    {after : Option α → Multiset Handle} (keeps : custody.Keeps needs body after)
    (again : after none = needs) (rounds : Nat) :
    custody.Keeps needs (body.retried rounds) after := by
  induction rounds with
  | zero => exact .pure again
  | succ rounds ih =>
      refine keeps.bind fun outcome => ?_
      cases outcome with
      | some result => exact .pure rfl
      | none => exact ih.congr again fun _ => rfl

theorem Keeps.perform {request : Call}
    (used : ∀ handle ∈ custody.uses request, handle ∈ needs)
    (released : (custody.releases request : Multiset Handle) ≤ needs) :
    custody.Keeps needs (Program.perform request) fun answer =>
      needs - custody.releases request + custody.acquires request answer :=
  .call used released fun _ => .done rfl

/-- A call that gives nothing back. -/
theorem Keeps.take {request : Call} (used : ∀ handle ∈ custody.uses request, handle ∈ needs)
    (keeping : custody.releases request = []) :
    custody.Keeps needs (Program.perform request) fun answer =>
      needs + custody.acquires request answer := by
  have nothing : (custody.releases request : Multiset Handle) = 0 := by
    rw [keeping, Multiset.coe_nil]
  refine (Keeps.perform used ?_).congr rfl fun answer => ?_
  · rw [nothing]
    exact Multiset.zero_le needs
  · rw [nothing, Multiset.sub_zero]

/-- A call that only works on what is held. -/
theorem Keeps.use {request : Call} (used : ∀ handle ∈ custody.uses request, handle ∈ needs)
    (keeping : custody.releases request = [])
    (takes : ∀ answer, custody.acquires request answer = []) :
    custody.Keeps needs (Program.perform request) fun _ => needs :=
  (Keeps.take used keeping).congr rfl fun answer => by
    rw [takes, Multiset.coe_nil, add_zero]

/-- A call that gives one handle back and takes none. -/
theorem Keeps.release {request : Call} {handle : Handle} (unused : custody.uses request = [])
    (gives : custody.releases request = [handle])
    (takes : ∀ answer, custody.acquires request answer = []) :
    custody.Keeps (needs + {handle}) (Program.perform request) fun _ => needs := by
  have one : (custody.releases request : Multiset Handle) = {handle} := by
    rw [gives, Multiset.coe_singleton]
  refine (Keeps.perform (by simp [unused]) ?_).congr rfl fun answer => ?_
  · rw [one]
    exact Multiset.le_add_left _ _
  · rw [one, takes, add_tsub_cancel_right, Multiset.coe_nil, add_zero]

end Custody

end AimeeLearning.Library
