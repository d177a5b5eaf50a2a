import AimeeLearning.Learning.Evidence
import AimeeLearning.Library.JsonLexing

/-! Snapshot parsing against the JSON grammar. The scanner knows no grammar: it goes
to the first quoted `state`, to the first colon behind it and to the first quote
behind that. -/

set_option autoImplicit false

namespace AimeeLearning.Learning

open Library

section Named

/-- A literal that is the word, or ends in it behind an escaped quote. -/
def NamesState (raw : Bytes) : Prop :=
  raw = cstr "state" ∨ ∃ front, raw = front ++ 92 :: 34 :: cstr "state"

/-- No literal of the text names the state. -/
def Unnamed (text : Bytes) : Prop :=
  ∀ front raw behind, LiteralAt text front raw behind → ¬ NamesState raw

/-- The first literal of a text that names the state. -/
structure FirstNaming (text front raw behind : Bytes) : Prop
    extends LiteralAt text front raw behind where
  names : NamesState raw
  first : Unnamed front

/-- A literal up to its first escaped quote. -/
def untilQuote (raw : Bytes) : Bytes := raw.takeWhile (· ≠ 34)

/-- Behind the key of an object's state: its value, a string, and the object's further
members up to the end of the text. -/
inductive OwnState (members : List (Bytes × Json)) (behind raw value : Bytes) : Prop where
  | member {valued after rest : Bytes} {earlier more : List (Bytes × Json)}
      (colon : skipSpace behind = 58 :: valued)
      (quoted : skipSpace valued = 34 :: (raw ++ 34 :: after)) (read : RawText raw value)
      (continues : ObjectContinues after more rest) (ends : skipSpace rest = [])
      (split : members = earlier ++ (cstr "state", .string value) :: more) :
      OwnState members behind raw value

end Named

section Search

theorem strstr_found {needle text : Bytes} (starts : needle <+: text) (nonempty : needle ≠ []) :
    strstr needle text = some text := by
  cases text with
  | nil => exact absurd (List.prefix_nil.mp starts) nonempty
  | cons byte rest => rw [strstr, if_pos (List.isPrefixOf_iff_prefix.mpr starts)]

theorem strstr_skip {needle front rest : Bytes}
    (absent : ∀ before behind, front = before ++ behind → behind ≠ [] → ¬ needle <+: behind ++ rest) :
    strstr needle (front ++ rest) = strstr needle rest := by
  induction front with
  | nil => rfl
  | cons byte front ih =>
      have here : ¬ needle <+: byte :: (front ++ rest) := absent [] (byte :: front) rfl (by simp)
      rw [List.cons_append, strstr, if_neg fun found => here (List.isPrefixOf_iff_prefix.mp found)]
      exact ih fun before behind split => absent (byte :: before) behind (by rw [split]; rfl)

theorem strstr_free {needle text : Bytes} {byte : UInt8} (free : byte ∉ text) :
    strstr (byte :: needle) text = none := by
  induction text with
  | nil => rfl
  | cons first rest ih =>
      rw [List.mem_cons, not_or] at free
      rw [strstr, if_neg, ih free.2]
      simp [List.isPrefixOf, free.1]

theorem strchr_skip {byte : UInt8} {front : Bytes} (free : byte ∉ front) (rest : Bytes) :
    strchr byte (front ++ rest) = strchr byte rest := by
  have passed : (front ++ rest).dropWhile (· ≠ byte) = rest.dropWhile (· ≠ byte) := by
    rw [List.dropWhile_append_of_pos]
    intro other member
    have apart : other ≠ byte := fun same => free (same ▸ member)
    simpa using apart
  rw [strchr, passed, strchr]

theorem strchr_found (byte : UInt8) (rest : Bytes) :
    strchr byte (byte :: rest) = some (byte :: rest) := by
  simp [strchr]

theorem strchr_free {byte : UInt8} {text : Bytes} (free : byte ∉ text) : strchr byte text = none := by
  have passed := strchr_skip free []
  rw [List.append_nil] at passed
  rw [passed]
  rfl

/-- The quoted word the scanner looks for. -/
theorem quotedState_eq : cstr "\"state\"" = 34 :: (cstr "state" ++ [34]) := by decide

variable {raw decoded gap rest : Bytes}

theorem state_plain : PlainText (cstr "state") ∧ cstr "state" ≠ [] := by decide +kernel

/-- The needle at the front of a text is a quote and the word in front of another. -/
theorem needle_prefix_iff {byte : UInt8} {text : Bytes} :
    cstr "\"state\"" <+: byte :: text ↔ byte = 34 ∧ cstr "state" ++ [34] <+: text := by
  rw [quotedState_eq, List.cons_prefix_cons, eq_comm]

theorem strstr_gap (free : 34 ∉ gap) :
    strstr (cstr "\"state\"") (gap ++ rest) = strstr (cstr "\"state\"") rest := by
  refine strstr_skip fun before back split nonempty found => ?_
  cases back with
  | nil => exact nonempty rfl
  | cons byte back =>
      rw [(needle_prefix_iff.mp found).1] at split
      exact free (split ▸ List.mem_append_right before List.mem_cons_self)

/-- A word that the needle finds inside a literal is its end. -/
theorem word_in_literal (text : RawText raw decoded) {front back : Bytes} (split : raw = front ++ back)
    (found : cstr "state" ++ [34] <+: back ++ 34 :: rest) : back = cstr "state" :=
  text.word_at_end state_plain.1 state_plain.2 split found

/-- The needle starts in a literal only at a quote in front of its last word. -/
theorem needle_in_literal (text : RawText raw decoded) {before back : Bytes}
    (split : 34 :: raw = before ++ back) (nonempty : back ≠ [])
    (found : cstr "\"state\"" <+: back ++ 34 :: rest) :
    back = 34 :: cstr "state" ∧ NamesState raw := by
  cases before with
  | nil =>
      subst split
      have whole := word_in_literal text (List.nil_append raw).symm (needle_prefix_iff.mp found).2
      exact ⟨by rw [whole], .inl whole⟩
  | cons quote before =>
      obtain ⟨-, inner⟩ := List.cons.inj split
      cases back with
      | nil => exact absurd rfl nonempty
      | cons byte back =>
          obtain ⟨rfl, inside⟩ := needle_prefix_iff.mp found
          have within : raw = (before ++ [34]) ++ back := by rw [inner]; simp
          have ends := word_in_literal text within inside
          obtain ⟨front, rfl⟩ := text.escaped inner
          refine ⟨by rw [ends], .inr ⟨front, ?_⟩⟩
          rw [inner, ends]
          simp

/-- Neither a literal that does not name the state nor the gap behind it has the needle. -/
theorem strstr_other (text : RawText raw decoded) (behind : GapBehind gap)
    (other : ¬ NamesState raw) (opens : ∀ byte tail, rest = byte :: tail → byte = 34) :
    strstr (cstr "\"state\"") (34 :: (raw ++ 34 :: (gap ++ rest))) =
      strstr (cstr "\"state\"") rest := by
  have closing : ¬ cstr "\"state\"" <+: 34 :: (gap ++ rest) := by
    intro found
    obtain ⟨tail, same⟩ := (needle_prefix_iff.mp found).2
    obtain ⟨more, first⟩ : ∃ more, (115 : UInt8) :: more = gap ++ rest := ⟨_, same⟩
    cases gap with
    | nil => exact absurd (opens 115 more first.symm) (by decide)
    | cons byte gap =>
        obtain ⟨rfl, -⟩ := List.cons.inj first
        have breaks := behind.breaks 115 gap rfl
        revert breaks
        unfold IsBreak
        decide
  calc strstr (cstr "\"state\"") (34 :: (raw ++ 34 :: (gap ++ rest)))
      = strstr (cstr "\"state\"") (34 :: (gap ++ rest)) :=
        @strstr_skip _ (34 :: raw) _ fun before back split nonempty found =>
          other (needle_in_literal text split nonempty found).2
    _ = strstr (cstr "\"state\"") (gap ++ rest) :=
        @strstr_skip _ [34] _ fun before back split nonempty found => by
          have all : back = [34] := by
            cases before with
            | nil => exact split.symm
            | cons byte before =>
                have empty := (List.cons.inj split).2
                exact absurd (List.append_eq_nil_iff.mp empty.symm).2 nonempty
          rw [all] at found
          exact closing found
    _ = strstr (cstr "\"state\"") rest := strstr_gap behind.free

/-- A literal that names the state is found at its last word. -/
theorem strstr_names (text : RawText raw decoded) (names : NamesState raw) :
    ∃ found, strstr (cstr "\"state\"") (34 :: (raw ++ 34 :: rest)) = some found ∧
      found.drop 7 = rest := by
  have starts : cstr "\"state\"" <+: 34 :: (cstr "state" ++ 34 :: rest) := by
    rw [needle_prefix_iff]
    exact ⟨rfl, rest, by simp⟩
  have here := strstr_found starts (by decide)
  have rest7 : (34 :: (cstr "state" ++ 34 :: rest)).drop 7 = rest := rfl
  rcases names with rfl | ⟨front, rfl⟩
  · exact ⟨_, here, rest7⟩
  · have skipped := @strstr_skip (cstr "\"state\"") (34 :: (front ++ [92]))
      (34 :: (cstr "state" ++ 34 :: rest)) fun before back split nonempty found => by
        have within : 34 :: (front ++ 92 :: 34 :: cstr "state") =
            before ++ (back ++ 34 :: cstr "state") := by
          rw [← List.append_assoc, ← split]
          simp
        have ends := (needle_in_literal text within (by simp) (by simpa using found)).1
        have size := congrArg List.length ends
        rw [List.length_append] at size
        exact nonempty (List.length_eq_zero_iff.mp (by omega))
    refine ⟨_, ?_, rest7⟩
    rw [← here, ← skipped]
    simp

end Search

section Scan

/-- The second half of the scanner, behind the needle. -/
def quotedBehind (text : Bytes) : Option Bytes := do
  let colon ← strchr 58 text
  let quote ← strchr 34 colon
  some ((quote.drop 1).takeWhile (· ≠ 34))

variable {text front raw behind : Bytes} {len : Nat}

theorem snapshotState_eq (text : Bytes) (len : Nat) :
    snapshotState (some text) len =
      ((strstr (cstr "\"state\"") text).bind fun found => quotedBehind (found.drop 7)).bind
        fun word => if word.take (len - 1) = [] then none else some (word.take (len - 1)) := by
  simp only [snapshotState, quotedBehind, Option.bind_eq_bind, Option.bind_some, Option.bind_assoc]

theorem strstr_literals {literals : List (Bytes × Bytes)} {rest : Bytes}
    (literal : ∀ literal ∈ literals, (∃ decoded, RawText literal.1 decoded) ∧ GapBehind literal.2)
    (unnamed : ∀ literal ∈ literals, ¬ NamesState literal.1)
    (opens : ∀ byte tail, rest = byte :: tail → byte = 34) :
    strstr (cstr "\"state\"") (spellLiterals literals ++ rest) =
      strstr (cstr "\"state\"") rest := by
  induction literals with
  | nil => rfl
  | cons first more ih =>
      obtain ⟨raw, gap⟩ := first
      obtain ⟨⟨decoded, text⟩, behind⟩ := literal (raw, gap) List.mem_cons_self
      have opensMore : ∀ byte tail, spellLiterals more ++ rest = byte :: tail → byte = 34 := by
        intro byte tail same
        cases more with
        | nil => exact opens byte tail same
        | cons next more =>
            obtain ⟨other, gap⟩ := next
            rw [spellLiterals_cons, List.cons_append] at same
            exact (List.cons.inj same).1.symm
      have other := strstr_other text behind (unnamed (raw, gap) List.mem_cons_self) opensMore
      have spelled : spellLiterals ((raw, gap) :: more) ++ rest =
          34 :: (raw ++ 34 :: (gap ++ (spellLiterals more ++ rest))) := by
        simp
      rw [spelled, other]
      exact ih (fun literal' member => literal literal' (List.mem_cons_of_mem _ member))
        fun literal' member => unnamed literal' (List.mem_cons_of_mem _ member)

/-- The scanner passes what has no literal that names the state. -/
theorem strstr_unnamed (lexes : Lexes front) (unnamed : Unnamed front) {rest : Bytes}
    (opens : ∀ byte tail, rest = byte :: tail → byte = 34) :
    strstr (cstr "\"state\"") (front ++ rest) = strstr (cstr "\"state\"") rest := by
  obtain ⟨gap, literals, lexing⟩ := lexes
  rw [lexing.spelled, List.append_assoc, strstr_gap lexing.free]
  refine strstr_literals lexing.literal (fun literal member => ?_) opens
  obtain ⟨earlier, later, rfl⟩ := List.append_of_mem member
  obtain ⟨raw, gap⟩ := literal
  exact unnamed _ _ _ lexing.literalAt

theorem snapshotState_unnamed (lexes : Lexes text) (unnamed : Unnamed text) (len : Nat) :
    snapshotState (some text) len = none := by
  have search := @strstr_unnamed text lexes unnamed [] nofun
  rw [List.append_nil, quotedState_eq, strstr_free List.not_mem_nil, ← quotedState_eq] at search
  rw [snapshotState_eq, search]
  rfl

/-- The scanner goes on behind the first literal that names the state. -/
theorem FirstNaming.snapshotState (naming : FirstNaming text front raw behind) (len : Nat) :
    snapshotState (some text) len = (quotedBehind behind).bind
      fun word => if word.take (len - 1) = [] then none else some (word.take (len - 1)) := by
  obtain ⟨decoded, literal⟩ := naming.literal
  obtain ⟨found, search, dropped⟩ := @strstr_names _ _ behind literal naming.names
  rw [snapshotState_eq, naming.place, strstr_unnamed naming.lexed naming.first, search,
    Option.bind_some, dropped]
  rintro byte tail same
  exact (List.cons.inj same).1.symm

theorem quotedBehind_skip {front : Bytes} (colon : 58 ∉ front) (rest : Bytes) :
    quotedBehind (front ++ rest) = quotedBehind rest := by
  rw [quotedBehind, strchr_skip colon, quotedBehind]

theorem takeWhile_literal (raw rest : Bytes) :
    (raw ++ 34 :: rest).takeWhile (· ≠ 34) = untilQuote raw := by
  induction raw with
  | nil => simp [untilQuote]
  | cons byte raw ih =>
      rw [List.cons_append, List.takeWhile_cons, ih, untilQuote, untilQuote, List.takeWhile_cons]

theorem take_untilQuote {raw : Bytes} {count : Nat} (free : 34 ∉ raw.take count) :
    (untilQuote raw).take count = raw.take count := by
  induction raw generalizing count with
  | nil => rfl
  | cons byte raw ih =>
      cases count with
      | zero => rfl
      | succ count =>
          rw [List.take_succ_cons, List.mem_cons, not_or] at free
          have further : untilQuote (byte :: raw) = byte :: untilQuote raw :=
            List.takeWhile_cons_of_pos (by simpa using Ne.symm free.1)
          rw [further, List.take_succ_cons, List.take_succ_cons, ih free.2]

/-- A quote behind a colon: what stands up to the next quote is read. -/
theorem quotedBehind_quote {space : Bytes} (quote : 34 ∉ space) (raw rest : Bytes) :
    quotedBehind (58 :: (space ++ 34 :: (raw ++ 34 :: rest))) = some (untilQuote raw) := by
  have skipped : strchr 34 (58 :: (space ++ 34 :: (raw ++ 34 :: rest))) =
      some (34 :: (raw ++ 34 :: rest)) := by
    have apart : 34 ∉ 58 :: space := by simp [quote]
    rw [← List.cons_append, strchr_skip apart, strchr_found]
  simp only [quotedBehind, strchr_found, skipped, Option.bind_eq_bind, Option.bind_some]
  rw [List.drop_one, List.tail_cons, takeWhile_literal]

/-- A word that stands in a text from a quote to the next one, or to the end. -/
def Quotes (text word : Bytes) : Prop :=
  ∃ front tail, text = front ++ 34 :: tail ∧ word = tail.takeWhile (· ≠ 34)

theorem strchr_split {byte : UInt8} {text found : Bytes} (search : strchr byte text = some found) :
    ∃ front tail, text = front ++ found ∧ found = byte :: tail := by
  by_cases here : byte ∈ text
  · obtain ⟨front, tail, rfl, before⟩ := List.eq_append_cons_of_mem here
    rw [strchr_skip before, strchr_found, Option.some.injEq] at search
    exact ⟨front, tail, by rw [search], search.symm⟩
  · rw [strchr_free here] at search
    cases search

theorem quotes_of_quotedBehind {word : Bytes} (quoted : quotedBehind text = some word) :
    Quotes text word := by
  simp only [quotedBehind, Option.bind_eq_bind, Option.bind_eq_some_iff, Option.some.injEq] at quoted
  obtain ⟨colon, atColon, quote, atQuote, rfl⟩ := quoted
  obtain ⟨front, -, rfl, -⟩ := strchr_split atColon
  obtain ⟨middle, tail, rfl, rfl⟩ := strchr_split atQuote
  exact ⟨front ++ middle, tail, (List.append_assoc ..).symm, rfl⟩

/-- Where nothing is read, no quote stands behind a colon. -/
theorem split_of_quotedBehind (nothing : quotedBehind text = none) :
    ∃ middle last, text = middle ++ last ∧ 58 ∉ middle ∧ 34 ∉ last := by
  by_cases here : 58 ∈ text
  · obtain ⟨front, back, rfl, before⟩ := List.eq_append_cons_of_mem here
    refine ⟨front, 58 :: back, rfl, before, fun quote => ?_⟩
    rw [quotedBehind_skip before] at nothing
    simp only [quotedBehind, strchr_found, Option.bind_eq_bind, Option.bind_some] at nothing
    obtain ⟨middle, tail, split, free⟩ := List.eq_append_cons_of_mem quote
    rw [split, strchr_skip free, strchr_found] at nothing
    cases nothing
  · exact ⟨text, [], (List.append_nil text).symm, here, List.not_mem_nil⟩

/-- No quote stands behind a colon. -/
theorem quotedBehind_none {middle last : Bytes} (colon : 58 ∉ middle) (quote : 34 ∉ last) :
    quotedBehind (middle ++ last) = none := by
  rw [quotedBehind_skip colon]
  by_cases here : 58 ∈ last
  · obtain ⟨front, back, rfl, before⟩ := List.eq_append_cons_of_mem here
    have free : 34 ∉ 58 :: back := fun member => quote (List.mem_append_right front member)
    rw [quotedBehind_skip before]
    simp [quotedBehind, strchr_found, strchr_free free]
  · simp [quotedBehind, strchr_free here]

theorem skipSpace_front {text rest : Bytes} {byte : UInt8} (found : skipSpace text = byte :: rest) :
    ∃ space, text = space ++ byte :: rest ∧ ∀ other ∈ space, isSpace other = true := by
  obtain ⟨space, split, blank⟩ := skipSpace_split text
  exact ⟨space, found ▸ split, blank⟩

/-- Behind the key of the state the scanner reads its value as it is written. -/
theorem OwnState.quotedBehind {members : List (Bytes × Json)} {value : Bytes}
    (own : OwnState members behind raw value) :
    quotedBehind behind = some (untilQuote raw) := by
  obtain ⟨colon, quoted⟩ := own
  obtain ⟨space, rfl, blank⟩ := skipSpace_front colon
  obtain ⟨between, rfl, betweenBlank⟩ := skipSpace_front quoted
  have colonFree : 58 ∉ space := fun member => absurd (blank 58 member) (by decide)
  rw [quotedBehind_skip colonFree, quotedBehind_quote (quote_notMem_space betweenBlank)]

end Scan

section Agreement

/-- A non-empty string that a member `state` of the object itself has. -/
def StateMember (members : List (Bytes × Json)) (value : Bytes) : Prop :=
  value ≠ [] ∧ (cstr "state", Json.string value) ∈ members

/-- The answer is the state of the object, and there is none if it has none. -/
def SnapshotAgrees (text : Bytes) (members : List (Bytes × Json)) (len : Nat) : Prop :=
  match snapshotState (some text) len with
  | some state => ∃ value, StateMember members value ∧ state = value.take (len - 1)
  | none => ∀ value, ¬ StateMember members value

/-- A rollback goes to the state of the object, and to `proposed` if it has none. -/
def RestoresState (text : Bytes) (members : List (Bytes × Json)) : Prop :=
  ∀ {σ ν : Type} (env : EvidenceEnv σ ν) (candidate : Bytes) (state : σ),
    snprintf 128 (env.auditReadLatestBefore state candidate) = text →
      (∃ value, StateMember members value ∧ restoreState env candidate state = value.take 31) ∨
        ((∀ value, ¬ StateMember members value) ∧ restoreState env candidate state = stateProposed)

/-- The first literal that names the state is the key of the object's own state, a string
without an escape in what is kept of it. Or the object has no state, and that string is
empty, or no quote stands behind a colon behind the literal, or no literal names the
state, or nothing is kept. -/
inductive SnapshotClear (text : Bytes) (members : List (Bytes × Json)) (len : Nat) : Prop where
  | own {front behind raw value : Bytes}
      (naming : FirstNaming text front (cstr "state") behind)
      (own : OwnState members behind raw value) (nonempty : value ≠ []) (room : 2 ≤ len)
      (plain : 92 ∉ raw.take (len - 1)) : SnapshotClear text members len
  | empty {front behind : Bytes} (naming : FirstNaming text front (cstr "state") behind)
      (own : OwnState members behind [] []) (none : ∀ value, ¬ StateMember members value) :
      SnapshotClear text members len
  | quiet {front raw middle last : Bytes}
      (naming : FirstNaming text front raw (middle ++ last)) (colon : 58 ∉ middle)
      (quote : 34 ∉ last) (none : ∀ value, ¬ StateMember members value) :
      SnapshotClear text members len
  | unnamed (unnamed : Unnamed text) (none : ∀ value, ¬ StateMember members value) :
      SnapshotClear text members len
  | short (short : len = 1) (none : ∀ value, ¬ StateMember members value) :
      SnapshotClear text members len

variable {text : Bytes} {members : List (Bytes × Json)} {len : Nat}

theorem take_ne_nil {value : Bytes} (nonempty : value ≠ []) (room : 2 ≤ len) :
    value.take (len - 1) ≠ [] := by
  rw [Ne, List.take_eq_nil_iff]
  rintro (zero | empty)
  · omega
  · exact nonempty empty

theorem OwnState.stateMember {behind raw value : Bytes} (own : OwnState members behind raw value)
    (nonempty : value ≠ []) : StateMember members value := by
  obtain ⟨-, -, -, -, -, split⟩ := own
  exact ⟨nonempty, by rw [split]; simp⟩

/-- A string without an escape in what is kept of it is read as it is written. -/
theorem OwnState.kept {behind raw value : Bytes} (own : OwnState members behind raw value)
    {count : Nat} (plain : 92 ∉ raw.take count) :
    (untilQuote raw).take count = value.take count := by
  obtain ⟨-, -, read, -, -, -⟩ := own
  obtain ⟨same, quote⟩ := read.take_plain plain
  rw [take_untilQuote quote, same]

theorem SnapshotAgrees.of_none (found : snapshotState (some text) len = none)
    (none : ∀ value, ¬ StateMember members value) : SnapshotAgrees text members len := by
  unfold SnapshotAgrees
  rw [found]
  exact none

theorem SnapshotClear.agrees (object : IsJsonText text (.object members))
    (clear : SnapshotClear text members len) : SnapshotAgrees text members len := by
  cases clear with
  | @own front behind raw value naming own nonempty room plain =>
      have found : snapshotState (some text) len = some (value.take (len - 1)) := by
        rw [naming.snapshotState, own.quotedBehind, Option.bind_some, own.kept plain,
          if_neg (take_ne_nil nonempty room)]
      unfold SnapshotAgrees
      rw [found]
      exact ⟨value, own.stateMember nonempty, rfl⟩
  | empty naming own none =>
      refine .of_none ?_ none
      rw [naming.snapshotState, own.quotedBehind]
      simp [untilQuote]
  | quiet naming colon quote none =>
      refine .of_none ?_ none
      rw [naming.snapshotState, quotedBehind_none colon quote]
      rfl
  | unnamed unnamed none => exact .of_none (snapshotState_unnamed object.lexes unnamed len) none
  | short short none =>
      refine .of_none ?_ none
      subst short
      rw [snapshotState_eq]
      simp

theorem Unnamed.or_first (text : Bytes) :
    Unnamed text ∨ ∃ front raw behind, FirstNaming text front raw behind := by
  by_cases unnamed : Unnamed text
  · exact .inl unnamed
  · simp only [Unnamed, not_forall, not_not] at unnamed
    obtain ⟨front, raw, behind, literal, names⟩ := unnamed
    -- of the literals that name the state, the one with the least in front of it
    induction size : front.length using Nat.strong_induction_on generalizing front raw behind with
    | _ bound ih =>
        by_cases first : Unnamed front
        · exact .inr ⟨front, raw, behind, literal, names, first⟩
        · simp only [Unnamed, not_forall, not_not] at first
          obtain ⟨earlier, other, between, inner, named⟩ := first
          have shorter : earlier.length < bound := by
            rw [← size, inner.place]
            simp
          have outer : LiteralAt text earlier other (between ++ 34 :: (raw ++ 34 :: behind)) :=
            { place := by rw [literal.place, inner.place]; simp
              lexed := inner.lexed
              literal := inner.literal }
          exact ih _ shorter earlier other _ outer named rfl

/-- The coincidences: behind the first literal that names the state, which is not the key
of a state that can be read as it is written, a quoted word begins as the state does, or
is empty where there is none. -/
inductive SnapshotLuck (text : Bytes) (members : List (Bytes × Json)) (len : Nat) : Prop where
  | word {front raw behind word : Bytes} (naming : FirstNaming text front raw behind)
      (other : ∀ written value, raw = cstr "state" → OwnState members behind written value →
        value = [] ∨ 92 ∈ written.take (len - 1))
      (quotes : Quotes behind word)
      (same : (∃ value, StateMember members value ∧ word.take (len - 1) = value.take (len - 1)) ∨
        (∀ value, ¬ StateMember members value) ∧ word = []) : SnapshotLuck text members len

/-- On a text that is not clear the scanner is right only by coincidence. -/
theorem SnapshotAgrees.clear_or_luck (object : IsJsonText text (.object members))
    (size : 1 ≤ len) (agrees : SnapshotAgrees text members len) :
    SnapshotClear text members len ∨ SnapshotLuck text members len := by
  unfold SnapshotAgrees at agrees
  split at agrees
  next state found =>
    obtain ⟨value, member, answer⟩ := agrees
    rcases Unnamed.or_first text with unnamed | ⟨front, raw, behind, naming⟩
    · rw [snapshotState_unnamed object.lexes unnamed] at found
      cases found
    · rw [naming.snapshotState, Option.bind_eq_some_iff] at found
      obtain ⟨word, quoted, kept⟩ := found
      obtain ⟨nonempty, same⟩ : word.take (len - 1) ≠ [] ∧ word.take (len - 1) = state := by
        simpa using kept
      by_cases plain : ∃ written other, raw = cstr "state" ∧ OwnState members behind written other ∧
          other ≠ [] ∧ 92 ∉ written.take (len - 1)
      · obtain ⟨written, other, rfl, own, present, plain⟩ := plain
        refine .inl (.own naming own present ?_ plain)
        by_contra small
        exact nonempty (by rw [show len - 1 = 0 by omega, List.take_zero])
      · refine .inr (.word naming (fun written other key own => ?_) (quotes_of_quotedBehind quoted)
          (.inl ⟨value, member, same.trans answer⟩))
        by_contra neither
        rw [not_or] at neither
        exact plain ⟨written, other, key, own, neither⟩
  next missing =>
    rcases Unnamed.or_first text with unnamed | ⟨front, raw, behind, naming⟩
    · exact .inl (.unnamed unnamed agrees)
    · rw [naming.snapshotState] at missing
      cases quoted : quotedBehind behind with
      | none =>
          obtain ⟨middle, last, rfl, colon, quote⟩ := split_of_quotedBehind quoted
          exact .inl (.quiet naming colon quote agrees)
      | some word =>
          have cut : word.take (len - 1) = [] := by
            rw [quoted, Option.bind_some] at missing
            by_contra kept
            rw [if_neg kept] at missing
            cases missing
          rcases List.take_eq_nil_iff.mp cut with none | rfl
          · exact .inl (.short (by omega) agrees)
          · refine .inr (.word naming (fun written value _ own => .inl ?_)
              (quotes_of_quotedBehind quoted) (.inr ⟨agrees, rfl⟩))
            by_contra nonempty
            exact agrees value (own.stateMember nonempty)

theorem SnapshotAgrees.restores (agrees : SnapshotAgrees text members 32) :
    RestoresState text members := by
  intro σ ν env candidate state read
  unfold SnapshotAgrees at agrees
  simp only [restoreState, read]
  cases found : snapshotState (some text) 32 with
  | some restored =>
      rw [found] at agrees
      exact .inl agrees
  | none =>
      rw [found] at agrees
      exact .inr ⟨agrees, rfl⟩

/-- The form that the snapshots are written in: the state first, in plain letters. -/
theorem SnapshotClear.of_first {value tail : Bytes} (plain : PlainText value) (nonempty : value ≠ [])
    (room : 2 ≤ len)
    (object : IsJsonText (123 :: stringMember (cstr "state") (value ++ 34 :: tail)) (.object members)) :
    SnapshotClear (123 :: stringMember (cstr "state") (value ++ 34 :: tail)) members len := by
  obtain ⟨rest, read, ends⟩ := isJsonText_object_iff.mp object
  obtain ⟨_, same, inner⟩ := reads_object_iff.mp read
  obtain rfl := Json.object.inj same
  obtain ⟨more, rfl, continues⟩ :=
    (reads_known_member_iff state_plain.1 (.of_plain plain tail)).mp inner
  have naming : FirstNaming (123 :: stringMember (cstr "state") (value ++ 34 :: tail)) [123]
      (cstr "state") (58 :: 34 :: (value ++ 34 :: tail)) :=
    { place := rfl
      lexed := .of_free (by decide)
      literal := ⟨_, .of_plain state_plain.1⟩
      names := .inl rfl
      first := fun front raw behind literal => by
        have quote : 34 ∈ [(123 : UInt8)] := literal.place ▸ by simp
        exact absurd quote (by decide) }
  have own : OwnState ((cstr "state", .string value) :: more) (58 :: 34 :: (value ++ 34 :: tail))
      value value :=
    .member (skipSpace_cons rfl) (skipSpace_cons rfl) (.of_plain plain) continues ends
      (List.nil_append _).symm
  exact .own naming own nonempty room fun slash =>
    (plain 92 (List.mem_of_mem_take slash)).2.2 rfl

/-- A snapshot as `learning_judge_commit` writes it. -/
def proposedSnapshot : Bytes := cstr "\x7b\"state\":\"proposed\"\x7d"

theorem proposedSnapshot_text :
    IsJsonText proposedSnapshot (.object [(cstr "state", .string stateProposed)]) := by
  have plain : PlainText stateProposed := by decide +kernel
  have spelled : proposedSnapshot =
      123 :: stringMember (cstr "state") (stateProposed ++ 34 :: [125]) := by decide
  rw [spelled, isJsonText_object_iff]
  refine ⟨[], reads_object_iff.mpr ⟨_, rfl, ?_⟩, rfl⟩
  rw [reads_known_member_iff state_plain.1 (.of_plain plain [125])]
  exact ⟨[], rfl, objectContinues_close.mpr ⟨rfl, rfl⟩⟩

/-- `snapshot_state` agrees with the grammar on every clear object text, on any other only
by coincidence, and a rollback from a clear one goes where it should. -/
theorem snapshot_state_agrees (object : IsJsonText text (.object members)) :
    (∀ len, 1 ≤ len →
      (SnapshotClear text members len → SnapshotAgrees text members len) ∧
      (SnapshotAgrees text members len →
        SnapshotClear text members len ∨ SnapshotLuck text members len)) ∧
      (SnapshotClear text members 32 → RestoresState text members) :=
  ⟨fun _ size => ⟨SnapshotClear.agrees object, SnapshotAgrees.clear_or_luck object size⟩,
    fun clear => (clear.agrees object).restores⟩

theorem snapshot_state_agrees_proposed :
    SnapshotAgrees proposedSnapshot [(cstr "state", .string stateProposed)] 32 ∧
      RestoresState proposedSnapshot [(cstr "state", .string stateProposed)] := by
  have clear : SnapshotClear proposedSnapshot [(cstr "state", .string stateProposed)] 32 :=
    @SnapshotClear.of_first _ 32 stateProposed [125] (by decide +kernel) (by decide) (by decide)
      proposedSnapshot_text
  obtain ⟨agrees, restores⟩ := snapshot_state_agrees proposedSnapshot_text
  exact ⟨(agrees 32 (by decide)).1 clear, restores clear⟩

/-- A snapshot in which `state` is only a value. -/
def surfaceSnapshot : Bytes := cstr "\x7b\"prior\":\"state\",\"surface\":\"memory\"\x7d"

def surfaceMembers : List (Bytes × Json) :=
  [(cstr "prior", .string (cstr "state")), (cstr "surface", .string (cstr "memory"))]

/-- The scanner takes the value for the key, and the state becomes `memory`. -/
theorem snapshot_state_reads_surface :
    IsJsonText surfaceSnapshot (.object surfaceMembers) ∧
      snapshotState (some surfaceSnapshot) 32 = some (cstr "memory") ∧
      ¬ SnapshotAgrees surfaceSnapshot surfaceMembers 32 := by
  have read : snapshotState (some surfaceSnapshot) 32 = some (cstr "memory") := by decide +kernel
  refine ⟨?_, read, ?_⟩
  · have spelled : surfaceSnapshot = 123 :: stringMember (cstr "prior") (cstr "state" ++ 34 ::
        44 :: stringMember (cstr "surface") (cstr "memory" ++ 34 :: [125])) := by decide
    rw [spelled, isJsonText_object_iff]
    refine ⟨[], reads_object_iff.mpr ⟨_, rfl, ?_⟩, rfl⟩
    rw [reads_known_member_iff (by decide +kernel) (.of_plain (by decide +kernel) _)]
    refine ⟨_, rfl, objectContinues_member.mpr ?_⟩
    rw [reads_known_member_iff (by decide +kernel) (.of_plain (by decide +kernel) [125])]
    exact ⟨[], rfl, objectContinues_close.mpr ⟨rfl, rfl⟩⟩
  · unfold SnapshotAgrees
    rw [read]
    rintro ⟨value, ⟨-, member⟩, -⟩
    have named : cstr "state" ∈ surfaceMembers.map Prod.fst := List.mem_map_of_mem member
    revert named
    decide

end Agreement

end AimeeLearning.Learning
