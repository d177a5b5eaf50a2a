import AimeeLearning.Library.JsonGrammar

/-! A JSON text in reading order: its string literals as they are written, and the
gaps between them, which have no quote. A gap behind a literal does not go on
with the literal's last word, so a search for a quoted word finds literals. -/

set_option autoImplicit false

namespace AimeeLearning.Library

section Literals

/-- What stands between the quotes of a literal, and what it is read as. -/
inductive RawText : Bytes → Bytes → Prop where
  | nil : RawText [] []
  | unit {raw piece text decoded : Bytes} (unit : JsonUnit raw piece) (more : RawText text decoded) :
      RawText (raw ++ text) (piece ++ decoded)

theorem JsonString.raw {text decoded rest : Bytes} (read : JsonString text decoded rest) :
    ∃ raw, text = raw ++ 34 :: rest ∧ RawText raw decoded := by
  induction read with
  | close => exact ⟨[], rfl, .nil⟩
  | unit unit _ ih =>
      obtain ⟨raw, rfl, inner⟩ := ih
      exact ⟨_, (List.append_assoc _ _ _).symm, .unit unit inner⟩

theorem RawText.of_plain {text : Bytes} (plain : PlainText text) : RawText text text := by
  induction text with
  | nil => exact .nil
  | cons byte rest ih =>
      exact .unit (.plain (plain byte List.mem_cons_self))
        (ih fun other member => plain other (List.mem_cons_of_mem _ member))

/-- Inside a literal every quote stands behind a backslash. -/
theorem RawText.escaped {raw decoded front back : Bytes} (text : RawText raw decoded)
    (split : raw = front ++ 34 :: back) : ∃ before, front = before ++ [92] := by
  induction text generalizing front with
  | nil => cases front <;> cases split
  | @unit piece _ rest _ unit _ ih =>
      have behind : ∀ {front' : Bytes}, front = piece ++ front' → rest = front' ++ 34 :: back →
          ∃ before, front = before ++ [92] := by
        intro front' same inner
        obtain ⟨before, rfl⟩ := ih inner
        exact ⟨piece ++ before, by rw [same, List.append_assoc]⟩
      rcases List.append_eq_append_iff.mp split with ⟨front', same, inner⟩ | ⟨beyond, same, inner⟩
      · exact behind same inner
      · cases beyond with
        | nil => exact @behind [] (by simpa using same.symm) (by simpa using inner.symm)
        | cons quote beyond =>
            obtain ⟨rfl, -⟩ := List.cons.inj inner
            -- the quote stands in the unit itself, so the unit is an escaped quote
            rcases unit.shape with ⟨byte, itself, rfl, -⟩ | ⟨rfl, -⟩ | ⟨free, -⟩
            · cases front with
              | nil => exact absurd (List.cons.inj same).1 itself.2.1
              | cons first front => simp at same
            · cases front with
              | nil => exact absurd (List.cons.inj same).1 (by decide)
              | cons first front =>
                  obtain ⟨rfl, inner⟩ := List.cons.inj same
                  cases front with
                  | nil => exact ⟨[], rfl⟩
                  | cons second front => simp at inner
            · exact absurd (same ▸ List.mem_append_right front List.mem_cons_self) free

/-- A quoted word inside a literal is its end, and behind an escaped quote if it is
not the whole. -/
theorem RawText.word_at_end {raw decoded front back word rest : Bytes} (text : RawText raw decoded)
    (plain : PlainText word) (nonempty : word ≠ []) (split : raw = front ++ back)
    (found : word ++ [34] <+: back ++ 34 :: rest) : back = word := by
  obtain ⟨behind, same⟩ := found
  rw [List.append_assoc, List.singleton_append] at same
  rcases List.append_eq_append_iff.mp same with ⟨beyond, longer, tail⟩ | ⟨beyond, longer, tail⟩
  · cases beyond with
    | nil => simpa using longer
    | cons quote beyond =>
        obtain ⟨rfl, -⟩ := List.cons.inj tail
        have inside : raw = (front ++ word) ++ 34 :: beyond := by
          rw [split, longer, List.append_assoc]
        obtain ⟨before, slash⟩ := text.escaped inside
        have last := congrArg List.getLast? slash
        rw [List.getLast?_concat, List.getLast?_append_of_ne_nil _ nonempty] at last
        exact absurd rfl (plain 92 (List.mem_of_getLast? last)).2.2
  · cases beyond with
    | nil => simpa using longer.symm
    | cons quote beyond =>
        obtain ⟨rfl, -⟩ := List.cons.inj tail
        exact absurd rfl (plain 34 (longer ▸ List.mem_append_right back List.mem_cons_self)).2.1

/-- A literal is read as it is written up to its first escape. -/
theorem RawText.take_plain {raw decoded : Bytes} (text : RawText raw decoded) {count : Nat}
    (plain : 92 ∉ raw.take count) : raw.take count = decoded.take count ∧ 34 ∉ raw.take count := by
  induction text generalizing count with
  | nil => exact ⟨rfl, by simp⟩
  | @unit raw piece text decoded unit _ ih =>
      cases count with
      | zero => simp
      | succ count =>
          have escaped : ∀ behind, raw ≠ 92 :: behind := by
            rintro behind rfl
            exact plain (by simp)
          cases unit with
          | @plain byte itself =>
              simp only [List.cons_append, List.nil_append, List.take_succ_cons, List.mem_cons,
                not_or] at plain ⊢
              obtain ⟨same, free⟩ := ih plain.2
              exact ⟨by rw [same], Ne.symm itself.2.1, free⟩
          | escape => exact absurd rfl (escaped _)
          | unicode => exact absurd rfl (escaped _)
          | surrogates => exact absurd rfl (escaped _)

end Literals

section Lexing

/-- What may stand directly behind a literal or a number: space, a colon, a comma or a
closing bracket. -/
def IsBreak (byte : UInt8) : Prop :=
  isSpace byte = true ∨ byte = 58 ∨ byte = 44 ∨ byte = 93 ∨ byte = 125

/-- A gap behind a literal. -/
structure GapBehind (gap : Bytes) : Prop where
  free : 34 ∉ gap
  breaks : ∀ byte rest, gap = byte :: rest → IsBreak byte

/-- The literals from the first one on, each with the gap behind it. -/
def spellLiterals (literals : List (Bytes × Bytes)) : Bytes :=
  literals.flatMap fun literal => 34 :: (literal.1 ++ 34 :: literal.2)

structure Lexing (text gap : Bytes) (literals : List (Bytes × Bytes)) : Prop where
  spelled : text = gap ++ spellLiterals literals
  free : 34 ∉ gap
  literal : ∀ literal ∈ literals, (∃ decoded, RawText literal.1 decoded) ∧ GapBehind literal.2

def Lexes (text : Bytes) : Prop := ∃ gap literals, Lexing text gap literals

/-- A literal of a text, with what stands in front of it and behind it. -/
structure LiteralAt (text front raw behind : Bytes) : Prop where
  place : text = front ++ 34 :: (raw ++ 34 :: behind)
  lexed : Lexes front
  literal : ∃ decoded, RawText raw decoded

@[simp] theorem spellLiterals_cons (raw gap : Bytes) (rest : List (Bytes × Bytes)) :
    spellLiterals ((raw, gap) :: rest) = 34 :: (raw ++ 34 :: (gap ++ spellLiterals rest)) := by
  simp [spellLiterals]

@[simp] theorem spellLiterals_nil : spellLiterals [] = [] := rfl

theorem Lexing.literalAt {text gap raw behind : Bytes} {earlier later : List (Bytes × Bytes)}
    (lexing : Lexing text gap (earlier ++ (raw, behind) :: later)) :
    LiteralAt text (gap ++ spellLiterals earlier) raw (behind ++ spellLiterals later) where
  place := by
    rw [lexing.spelled]
    simp [spellLiterals]
  lexed := ⟨gap, earlier, rfl, lexing.free,
    fun literal member => lexing.literal literal (List.mem_append_left _ member)⟩
  literal := (lexing.literal (raw, behind) (by simp)).1

theorem Lexes.of_free {text : Bytes} (free : 34 ∉ text) : Lexes text :=
  ⟨text, [], by simp, free, nofun⟩

theorem Lexes.literal {raw decoded : Bytes} (text : RawText raw decoded) :
    Lexes (34 :: (raw ++ [34])) := by
  refine ⟨[], [(raw, [])], by simp, List.not_mem_nil, ?_⟩
  intro literal member
  obtain rfl := List.mem_singleton.mp member
  exact ⟨⟨decoded, text⟩, List.not_mem_nil, nofun⟩

theorem Lexes.prepend {front text : Bytes} (free : 34 ∉ front) (lexes : Lexes text) :
    Lexes (front ++ text) := by
  obtain ⟨gap, literals, rfl, gapFree, literal⟩ := lexes
  refine ⟨front ++ gap, literals, (List.append_assoc _ _ _).symm, ?_, literal⟩
  rw [List.mem_append, not_or]
  exact ⟨free, gapFree⟩

theorem GapBehind.append {gap next : Bytes} (behind : GapBehind gap) (breaks : GapBehind next)
    {more : Bytes} (nonempty : next ≠ []) (free : 34 ∉ more) : GapBehind (gap ++ (next ++ more)) where
  free := by
    simp only [List.mem_append, not_or]
    exact ⟨behind.free, breaks.free, free⟩
  breaks byte rest same := by
    cases gap with
    | cons first gap =>
        obtain ⟨rfl, -⟩ := List.cons.inj same
        exact behind.breaks _ _ rfl
    | nil =>
        cases next with
        | nil => exact absurd rfl nonempty
        | cons first next =>
            obtain ⟨rfl, -⟩ := List.cons.inj same
            exact breaks.breaks _ _ rfl

/-- Two lexed texts with a break between them. -/
theorem Lexes.join {text middle more : Bytes} (lexes : Lexes text) (breaks : GapBehind middle)
    (nonempty : middle ≠ []) (next : Lexes more) : Lexes (text ++ (middle ++ more)) := by
  obtain ⟨gap, literals, rfl, free, literal⟩ := lexes
  obtain ⟨nextGap, nextLiterals, rfl, nextFree, nextLiteral⟩ := next
  rcases List.eq_nil_or_concat' literals with rfl | ⟨init, ⟨raw, last⟩, rfl⟩
  · refine ⟨gap ++ (middle ++ nextGap), nextLiterals, by simp, ?_, nextLiteral⟩
    simp only [List.mem_append, not_or]
    exact ⟨free, breaks.free, nextFree⟩
  · refine ⟨gap, init ++ (raw, last ++ (middle ++ nextGap)) :: nextLiterals,
      by simp [spellLiterals], free, ?_⟩
    intro entry member
    rcases List.mem_append.mp member with early | late
    · exact literal entry (List.mem_append_left _ early)
    · obtain ⟨text, behind⟩ := literal (raw, last) (by simp)
      rcases List.mem_cons.mp late with rfl | later
      · exact ⟨text, behind.append breaks nonempty nextFree⟩
      · exact nextLiteral entry later

theorem quote_notMem_space {space : Bytes} (blank : ∀ byte ∈ space, isSpace byte = true) :
    34 ∉ space := fun member => absurd (blank 34 member) (by decide)

theorem skipSpace_split (text : Bytes) :
    ∃ space, text = space ++ skipSpace text ∧ ∀ byte ∈ space, isSpace byte = true :=
  ⟨text.takeWhile isSpace, (List.takeWhile_append_dropWhile ..).symm,
    fun _ member => List.mem_takeWhile_imp member⟩

theorem gapBehind_space {space : Bytes} (blank : ∀ byte ∈ space, isSpace byte = true) :
    GapBehind space where
  free := quote_notMem_space blank
  breaks byte _ same := .inl (blank byte (same ▸ List.mem_cons_self))

/-- Space in front of one of the signs that end a literal. -/
theorem gapBehind_sign {space more : Bytes} {sign : UInt8}
    (blank : ∀ byte ∈ space, isSpace byte = true) (isSign : IsBreak sign) (quote : sign ≠ 34)
    (free : 34 ∉ more) : GapBehind (space ++ sign :: more) where
  free := by
    simp only [List.mem_append, List.mem_cons, not_or]
    exact ⟨quote_notMem_space blank, Ne.symm quote, free⟩
  breaks byte rest same := by
    cases space with
    | nil =>
        obtain ⟨rfl, -⟩ := List.cons.inj same
        exact isSign
    | cons first space =>
        obtain ⟨rfl, -⟩ := List.cons.inj same
        exact .inl (blank _ List.mem_cons_self)

/-- A text whose front, up to `rest`, is lexed. -/
def LexesUpTo (text rest : Bytes) : Prop := ∃ front, text = front ++ rest ∧ Lexes front

section Parts

variable {text front after next rest : Bytes} {sign : UInt8}

theorem LexesUpTo.prepend (lexed : LexesUpTo (skipSpace text) rest) {opening : UInt8}
    (quote : opening ≠ 34) : LexesUpTo (opening :: text) rest := by
  obtain ⟨part, same, lexes⟩ := lexed
  obtain ⟨space, split, blank⟩ := skipSpace_split text
  refine ⟨(opening :: space) ++ part, ?_, lexes.prepend ?_⟩
  · rw [split, same]
    simp
  · rw [List.mem_cons, not_or]
    exact ⟨Ne.symm quote, quote_notMem_space blank⟩

theorem LexesUpTo.empty (closed : skipSpace text = sign :: rest) (quote : sign ≠ 34)
    {opening : UInt8} (apart : opening ≠ 34) : LexesUpTo (opening :: text) rest :=
  LexesUpTo.prepend ⟨[sign], closed, .of_free (by simpa using Ne.symm quote)⟩ apart

theorem LexesUpTo.continued (lexes : Lexes front) (found : skipSpace after = sign :: next)
    (isSign : IsBreak sign) (quote : sign ≠ 34) (more : LexesUpTo (skipSpace next) rest) :
    LexesUpTo (front ++ after) rest := by
  obtain ⟨part, same, partLexes⟩ := more
  obtain ⟨space, split, blank⟩ := skipSpace_split after
  obtain ⟨nextSpace, nextSplit, nextBlank⟩ := skipSpace_split next
  have breaks : GapBehind (space ++ sign :: nextSpace) :=
    gapBehind_sign blank isSign quote (quote_notMem_space nextBlank)
  refine ⟨front ++ ((space ++ sign :: nextSpace) ++ part), ?_, lexes.join breaks (by simp) partLexes⟩
  rw [split, found, nextSplit, same]
  simp

theorem LexesUpTo.closed (lexes : Lexes front) (found : skipSpace after = sign :: rest)
    (isSign : IsBreak sign) (quote : sign ≠ 34) : LexesUpTo (front ++ after) rest := by
  obtain ⟨space, split, blank⟩ := skipSpace_split after
  have breaks : GapBehind (space ++ [sign]) :=
    gapBehind_sign blank isSign quote List.not_mem_nil
  refine ⟨front ++ ((space ++ [sign]) ++ []), ?_, lexes.join breaks (by simp) (.of_free List.not_mem_nil)⟩
  rw [split, found]
  simp

theorem JsonString.lexes {decoded : Bytes} (quoted : JsonString text decoded rest) :
    LexesUpTo (34 :: text) rest := by
  obtain ⟨raw, rfl, read⟩ := quoted.raw
  exact ⟨34 :: (raw ++ [34]), by simp, .literal read⟩

end Parts

theorem JsonNumber.quote_notMem {token : Bytes} (number : JsonNumber token) : 34 ∉ token := by
  have noQuote : ∀ {digits : Bytes}, IsDigits digits → 34 ∉ digits :=
    fun isDigits member => absurd (isDigits.2 34 member).1 (by decide)
  obtain ⟨sign, whole, fraction, exponent, rfl, negative, digits, -, fractional, scaled⟩ := number.parts
  simp only [List.mem_append, not_or]
  refine ⟨⟨⟨?_, noQuote digits⟩, ?_⟩, ?_⟩
  · rcases negative with rfl | rfl <;> decide
  · rcases fractional with rfl | ⟨tail, rfl, tailDigits⟩
    · exact List.not_mem_nil
    · simpa using noQuote tailDigits
  · rcases scaled with rfl | ⟨letter, mark, tail, rfl, isLetter, isMark, tailDigits⟩
    · exact List.not_mem_nil
    · simp only [List.mem_cons, List.mem_append, not_or]
      refine ⟨?_, ?_, noQuote tailDigits⟩
      · rcases isLetter with rfl | rfl <;> decide
      · rcases isMark with rfl | rfl | rfl <;> decide

/-- Every part of a JSON text is lexed, up to what follows it. -/
theorem JsonReads.lexes {text rest : Bytes} {part : JsonPart} (read : JsonReads text part rest) :
    LexesUpTo text rest := by
  have colonBreak : IsBreak 58 := .inr (.inl rfl)
  have commaBreak : IsBreak 44 := .inr (.inr (.inl rfl))
  have bracketBreak : IsBreak 93 := .inr (.inr (.inr (.inl rfl)))
  have braceBreak : IsBreak 125 := .inr (.inr (.inr (.inr rfl)))
  induction read with
  | null => exact ⟨_, rfl, .of_free (by decide)⟩
  | yes => exact ⟨_, rfl, .of_free (by decide)⟩
  | no => exact ⟨_, rfl, .of_free (by decide)⟩
  | number token => exact ⟨_, rfl, .of_free token.quote_notMem⟩
  | string quoted => exact quoted.lexes
  | emptyArray closed => exact .empty closed (by decide) (by decide)
  | array _ ih => exact ih.prepend (by decide)
  | emptyObject closed => exact .empty closed (by decide) (by decide)
  | object _ ih => exact ih.prepend (by decide)
  | lastItem _ closed ih =>
      obtain ⟨item, rfl, lexes⟩ := ih
      exact .closed lexes closed bracketBreak (by decide)
  | item _ comma _ ih moreIH =>
      obtain ⟨item, rfl, lexes⟩ := ih
      exact .continued lexes comma commaBreak (by decide) moreIH
  | lastMember quoted colon _ closed ih =>
      obtain ⟨key, same, keyLexes⟩ := quoted.lexes
      obtain ⟨value, valued, valueLexes⟩ := ih
      rw [same]
      exact .continued keyLexes colon colonBreak (by decide)
        (valued ▸ .closed valueLexes closed braceBreak (by decide))
  | member quoted colon _ comma _ ih moreIH =>
      obtain ⟨key, same, keyLexes⟩ := quoted.lexes
      obtain ⟨value, valued, valueLexes⟩ := ih
      rw [same]
      exact .continued keyLexes colon colonBreak (by decide)
        (valued ▸ .continued valueLexes comma commaBreak (by decide) moreIH)

theorem IsJsonText.lexes {text : Bytes} {value : Json} (isText : IsJsonText text value) :
    Lexes text := by
  obtain ⟨rest, read, blank⟩ := isText
  obtain ⟨front, same, lexes⟩ := read.lexes
  obtain ⟨space, split, spaces⟩ := skipSpace_split text
  obtain ⟨behind, restSplit, restSpaces⟩ := skipSpace_split rest
  rw [blank, List.append_nil] at restSplit
  rw [split, same]
  refine Lexes.prepend (quote_notMem_space spaces) ?_
  by_cases nothing : behind = []
  · rw [restSplit, nothing, List.append_nil]
    exact lexes
  · have joined := lexes.join (gapBehind_space restSpaces) nothing (.of_free List.not_mem_nil)
    rwa [List.append_nil, ← restSplit] at joined

end Lexing

end AimeeLearning.Library
