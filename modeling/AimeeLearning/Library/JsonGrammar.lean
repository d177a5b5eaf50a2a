import AimeeLearning.Library.CString

/-! The JSON grammar on bytes, as a relation between a text, what stands at its
front and what follows. Reading a string is deterministic; what has been read
does not depend on what comes later. -/

set_option autoImplicit false

namespace AimeeLearning.Library

section Strings

/-- A byte that stands for itself in a string. -/
def IsPlain (byte : UInt8) : Prop := 32 ≤ byte ∧ byte ≠ 34 ∧ byte ≠ 92

instance (byte : UInt8) : Decidable (IsPlain byte) := by unfold IsPlain; infer_instance

def PlainText (text : Bytes) : Prop := ∀ byte ∈ text, IsPlain byte

instance (text : Bytes) : Decidable (PlainText text) := List.decidableBAll IsPlain text

/-- The escapes of two bytes: the second byte, and what it stands for. -/
def shortEscapes : List (UInt8 × UInt8) :=
  [(34, 34), (92, 92), (47, 47), (98, 8), (102, 12), (110, 10), (114, 13), (116, 9)]

def hexDigitValue (byte : UInt8) : Option Nat :=
  if 48 ≤ byte ∧ byte ≤ 57 then some (byte.toNat - 48)
  else if 65 ≤ byte ∧ byte ≤ 70 then some (byte.toNat - 55)
  else if 97 ≤ byte ∧ byte ≤ 102 then some (byte.toNat - 87)
  else none

def hexValueFrom (value : Nat) (digits : Bytes) : Option Nat :=
  digits.foldlM (fun value digit => (hexDigitValue digit).map (16 * value + ·)) value

def hexValueOf (digits : Bytes) : Option Nat := hexValueFrom 0 digits

/-- The characters of the basic plane, other than surrogates, and of the others. -/
def encodeUtf8 (code : Nat) : Bytes :=
  if code < 0x80 then [UInt8.ofNat code]
  else if code < 0x800 then [UInt8.ofNat (0xC0 + code / 64), UInt8.ofNat (0x80 + code % 64)]
  else if code < 0x10000 then
    [UInt8.ofNat (0xE0 + code / 4096), UInt8.ofNat (0x80 + code / 64 % 64),
      UInt8.ofNat (0x80 + code % 64)]
  else
    [UInt8.ofNat (0xF0 + code / 262144), UInt8.ofNat (0x80 + code / 4096 % 64),
      UInt8.ofNat (0x80 + code / 64 % 64), UInt8.ofNat (0x80 + code % 64)]

/-- How one character of a string is written, and its bytes. -/
inductive JsonUnit : Bytes → Bytes → Prop where
  | plain {byte : UInt8} (itself : IsPlain byte) : JsonUnit [byte] [byte]
  | escape {code byte : UInt8} (listed : (code, byte) ∈ shortEscapes) : JsonUnit [92, code] [byte]
  | unicode {digits : Bytes} {code : Nat} (four : digits.length = 4)
      (value : hexValueOf digits = some code) (single : ¬ (0xD800 ≤ code ∧ code < 0xE000)) :
      JsonUnit (92 :: 117 :: digits) (encodeUtf8 code)
  | surrogates {high low : Bytes} {upper lower : Nat} (highFour : high.length = 4)
      (lowFour : low.length = 4) (highValue : hexValueOf high = some upper)
      (lowValue : hexValueOf low = some lower) (isHigh : 0xD800 ≤ upper ∧ upper < 0xDC00)
      (isLow : 0xDC00 ≤ lower ∧ lower < 0xE000) :
      JsonUnit (92 :: 117 :: (high ++ 92 :: 117 :: low))
        (encodeUtf8 (0x10000 + (upper - 0xD800) * 1024 + (lower - 0xDC00)))

/-- A string behind its opening quote, up to its closing one. -/
inductive JsonString : Bytes → Bytes → Bytes → Prop where
  | close {rest : Bytes} : JsonString (34 :: rest) [] rest
  | unit {raw piece text decoded rest : Bytes} (unit : JsonUnit raw piece)
      (more : JsonString text decoded rest) : JsonString (raw ++ text) (piece ++ decoded) rest

theorem shortEscape_cases {code byte : UInt8} (listed : (code, byte) ∈ shortEscapes) :
    code ≠ 117 ∧ (code = 34 ↔ byte = 34) := by
  have all : shortEscapes.all (fun entry =>
      entry.1 != 117 && (entry.1 == 34) == (entry.2 == 34)) = true := by decide
  simpa [beq_eq_beq] using List.all_eq_true.mp all _ listed

theorem shortEscape_unique {code byte other : UInt8} (listed : (code, byte) ∈ shortEscapes)
    (again : (code, other) ∈ shortEscapes) : byte = other := by
  have all : shortEscapes.all (fun left => shortEscapes.all fun right =>
      left.1 != right.1 || left.2 == right.2) = true := by decide
  simpa using List.all_eq_true.mp (List.all_eq_true.mp all _ listed) _ again

theorem length_encodeUtf8_le (code : Nat) : (encodeUtf8 code).length ≤ 4 := by
  unfold encodeUtf8
  split_ifs <;> simp

theorem quote_notMem_of_hexValueFrom {digits : Bytes} {start code : Nat}
    (value : hexValueFrom start digits = some code) : 34 ∉ digits := by
  induction digits generalizing start with
  | nil => exact List.not_mem_nil
  | cons digit rest ih =>
      intro member
      rw [hexValueFrom, List.foldlM_cons] at value
      obtain ⟨next, read, tail⟩ := Option.bind_eq_some_iff.mp value
      rcases List.mem_cons.mp member with rfl | later
      · have noDigit : hexDigitValue 34 = none := by decide
        rw [noDigit] at read
        cases read
      · exact ih tail later

/-- One written character: a plain byte, an escaped quote, or a longer text
without a quote. -/
theorem JsonUnit.shape {raw piece : Bytes} (unit : JsonUnit raw piece) :
    (∃ byte, IsPlain byte ∧ raw = [byte] ∧ piece = [byte]) ∨ raw = [92, 34] ∧ piece = [34] ∨
      34 ∉ raw ∧ piece.length < raw.length := by
  cases unit with
  | @plain byte itself => exact .inl ⟨byte, itself, rfl, rfl⟩
  | @escape code byte listed =>
      obtain ⟨-, same⟩ := shortEscape_cases listed
      by_cases quote : code = 34
      · exact .inr (.inl ⟨by rw [quote], by rw [same.mp quote]⟩)
      · refine .inr (.inr ⟨?_, by simp⟩)
        simp [Ne.symm quote]
  | @unicode digits code four value single =>
      have bound := length_encodeUtf8_le code
      have free := quote_notMem_of_hexValueFrom value
      refine .inr (.inr ⟨by simp [free], ?_⟩)
      simp only [List.length_cons, four]
      omega
  | @surrogates high low upper lower highFour lowFour highValue lowValue isHigh isLow =>
      have bound := length_encodeUtf8_le (0x10000 + (upper - 0xD800) * 1024 + (lower - 0xDC00))
      have highFree := quote_notMem_of_hexValueFrom highValue
      have lowFree := quote_notMem_of_hexValueFrom lowValue
      refine .inr (.inr ⟨by simp [highFree, lowFree], ?_⟩)
      simp only [List.length_cons, List.length_append, highFour, lowFour]
      omega

theorem JsonUnit.unique {raw piece text raw' piece' text' : Bytes} (unit : JsonUnit raw piece)
    (other : JsonUnit raw' piece') (same : raw ++ text = raw' ++ text') :
    raw = raw' ∧ piece = piece' ∧ text = text' := by
  have fourOf : ∀ {left right tail tail' : Bytes}, left.length = 4 → right.length = 4 →
      left ++ tail = right ++ tail' → left = right ∧ tail = tail' :=
    fun leftFour rightFour fronts => List.append_inj fronts (leftFour.trans rightFour.symm)
  cases unit with
  | plain itself =>
      cases other with
      | plain itself' => simp_all
      | escape listed => exact absurd (List.cons.inj same).1 itself.2.2
      | unicode => exact absurd (List.cons.inj same).1 itself.2.2
      | surrogates => exact absurd (List.cons.inj same).1 itself.2.2
  | escape listed =>
      obtain ⟨noUnicode, -⟩ := shortEscape_cases listed
      cases other with
      | plain itself => exact absurd (List.cons.inj same).1.symm itself.2.2
      | escape listed' =>
          simp only [List.cons_append, List.nil_append, List.cons.injEq, true_and] at same
          obtain ⟨rfl, rfl⟩ := same
          exact ⟨rfl, by rw [shortEscape_unique listed listed'], rfl⟩
      | unicode => exact absurd (List.cons.inj (List.cons.inj same).2).1 noUnicode
      | surrogates => exact absurd (List.cons.inj (List.cons.inj same).2).1 noUnicode
  | unicode four value single =>
      cases other with
      | plain itself => exact absurd (List.cons.inj same).1.symm itself.2.2
      | escape listed =>
          exact absurd (List.cons.inj (List.cons.inj same).2).1.symm (shortEscape_cases listed).1
      | unicode four' value' single' =>
          simp only [List.cons_append, List.cons.injEq, true_and] at same
          obtain ⟨rfl, rfl⟩ := fourOf four four' same
          rw [value, Option.some.injEq] at value'
          exact ⟨rfl, by rw [value'], rfl⟩
      | surrogates highFour _ highValue _ isHigh _ =>
          simp only [List.cons_append, List.append_assoc, List.cons.injEq, true_and] at same
          obtain ⟨rfl, -⟩ := fourOf four highFour same
          rw [value, Option.some.injEq] at highValue
          omega
  | surrogates highFour lowFour highValue lowValue isHigh isLow =>
      cases other with
      | plain itself => exact absurd (List.cons.inj same).1.symm itself.2.2
      | escape listed =>
          exact absurd (List.cons.inj (List.cons.inj same).2).1.symm (shortEscape_cases listed).1
      | unicode four value single =>
          simp only [List.cons_append, List.append_assoc, List.cons.injEq, true_and] at same
          obtain ⟨rfl, -⟩ := fourOf highFour four same
          rw [highValue, Option.some.injEq] at value
          omega
      | surrogates highFour' lowFour' highValue' lowValue' =>
          simp only [List.cons_append, List.append_assoc, List.cons.injEq, true_and] at same
          obtain ⟨rfl, more⟩ := fourOf highFour highFour' same
          simp only [List.cons.injEq, true_and] at more
          obtain ⟨rfl, rfl⟩ := fourOf lowFour lowFour' more
          rw [highValue, Option.some.injEq] at highValue'
          rw [lowValue, Option.some.injEq] at lowValue'
          exact ⟨rfl, by rw [highValue', lowValue'], rfl⟩

theorem JsonString.unique {text decoded rest decoded' rest' : Bytes}
    (read : JsonString text decoded rest) (again : JsonString text decoded' rest') :
    decoded = decoded' ∧ rest = rest' := by
  have closes : ∀ {raw piece tail later : Bytes}, JsonUnit raw piece → raw ++ later ≠ 34 :: tail := by
    intro raw piece tail later unit same
    rcases unit.shape with ⟨byte, itself, rfl, -⟩ | ⟨rfl, -⟩ | ⟨free, longer⟩
    · exact itself.2.1 (List.cons.inj same).1
    · exact absurd (List.cons.inj same).1 (by decide)
    · cases raw with
      | nil => exact absurd longer (Nat.not_lt_zero _)
      | cons byte more => exact free ((List.cons.inj same).1 ▸ List.mem_cons_self)
  induction read generalizing decoded' rest' with
  | close =>
      generalize whole : (34 :: _ : Bytes) = text at again
      cases again with
      | close => exact ⟨rfl, (List.cons.inj whole).2⟩
      | unit unit _ => exact absurd whole.symm (closes unit)
  | @unit raw piece text decoded rest unit _ ih =>
      generalize whole : raw ++ text = front at again
      cases again with
      | close => exact absurd whole (closes unit)
      | unit unit' more' =>
          obtain ⟨-, rfl, rfl⟩ := unit.unique unit' whole
          obtain ⟨rfl, rfl⟩ := ih more'
          exact ⟨rfl, rfl⟩

theorem JsonString.of_plain {text : Bytes} (plain : PlainText text) (rest : Bytes) :
    JsonString (text ++ 34 :: rest) text rest := by
  induction text with
  | nil => exact .close
  | cons byte more ih =>
      exact .unit (.plain (plain byte List.mem_cons_self))
        (ih fun other member => plain other (List.mem_cons_of_mem _ member))

theorem JsonString.extend {text decoded rest : Bytes} (read : JsonString text decoded rest)
    (more : Bytes) : JsonString (text ++ more) decoded (rest ++ more) := by
  induction read with
  | close => exact .close
  | unit unit _ ih =>
      rw [List.append_assoc]
      exact .unit unit ih

theorem JsonString.length_lt {text decoded rest : Bytes} (read : JsonString text decoded rest) :
    rest.length < text.length := by
  induction read with
  | close => simp
  | unit _ _ ih =>
      rw [List.length_append]
      omega

/-- A text in quotes that reads as itself is plain. Carried along is what has
been decoded in excess of what was read; it has no quote. -/
theorem JsonString.plain_of_excess {front decoded rest : Bytes} (read : JsonString front decoded rest)
    {excess text tail : Bytes} (free : 34 ∉ excess) (starts : front = text ++ 34 :: tail)
    (own : decoded = excess ++ text) : excess = [] ∧ PlainText text ∧ rest = tail := by
  induction read generalizing excess text with
  | @close rest =>
      obtain ⟨rfl, rfl⟩ := List.append_eq_nil_iff.mp own.symm
      exact ⟨rfl, nofun, (List.cons.inj starts).2⟩
  | @unit raw piece later decoded rest unit _ ih =>
      rcases unit.shape with ⟨byte, itself, rfl, rfl⟩ | ⟨rfl, rfl⟩ | ⟨quoteless, shorter⟩
      · cases text with
        | nil => exact absurd (List.cons.inj starts).1 itself.2.1
        | cons first text =>
            obtain ⟨rfl, behind⟩ := List.cons.inj starts
            cases excess with
            | nil =>
                obtain ⟨-, plain, ended⟩ := ih List.not_mem_nil behind (List.cons.inj own).2
                refine ⟨rfl, fun other member => ?_, ended⟩
                rcases List.mem_cons.mp member with rfl | inside
                · exact itself
                · exact plain other inside
            | cons head excess =>
                obtain ⟨rfl, decodedBehind⟩ := List.cons.inj own
                have freeToo : 34 ∉ excess ++ [byte] := by
                  simp only [List.mem_append, List.mem_singleton, not_or]
                  exact ⟨fun member => free (List.mem_cons_of_mem _ member), Ne.symm itself.2.1⟩
                obtain ⟨empty, -⟩ := ih freeToo behind (by simpa using decodedBehind)
                simp at empty
      · -- an escaped quote shows in what is decoded, where none may be
        cases excess with
        | cons head excess => exact absurd ((List.cons.inj own).1 ▸ List.mem_cons_self) free
        | nil =>
            cases text with
            | nil => exact absurd (List.cons.inj starts).1 (by decide)
            | cons first text =>
                have backslash : (92 : UInt8) = 34 :=
                  (List.cons.inj starts).1.trans (List.cons.inj own).1.symm
                exact absurd backslash (by decide)
      · have inside : ∃ text', text = raw ++ text' ∧ later = text' ++ 34 :: tail := by
          rcases List.append_eq_append_iff.mp starts with ⟨text', grown, split⟩ | ⟨excessRaw, grown, split⟩
          · exact ⟨text', grown, split⟩
          · cases excessRaw with
            | nil => exact ⟨[], by simpa using grown.symm, by simpa using split.symm⟩
            | cons byte more =>
                obtain ⟨rfl, -⟩ := List.cons.inj split
                exact absurd (grown ▸ List.mem_append_right _ List.mem_cons_self) quoteless
        obtain ⟨text', rfl, behind⟩ := inside
        have dropped : decoded = (excess ++ raw).drop piece.length ++ text' := by
          have shortEnough : piece.length ≤ (excess ++ raw).length := by
            rw [List.length_append]
            omega
          rw [← List.append_assoc] at own
          calc decoded = (piece ++ decoded).drop piece.length := List.drop_left.symm
            _ = _ := by rw [own, List.drop_append_of_le_length shortEnough]
        have freeToo : 34 ∉ (excess ++ raw).drop piece.length := by
          intro member
          rcases List.mem_append.mp (List.mem_of_mem_drop member) with early | late
          · exact free early
          · exact quoteless late
        obtain ⟨empty, -⟩ := ih freeToo behind dropped
        have := congrArg List.length empty
        simp only [List.length_drop, List.length_append, List.length_nil] at this
        omega

theorem JsonString.plain_of_own {text tail rest : Bytes}
    (read : JsonString (text ++ 34 :: tail) text rest) : PlainText text ∧ rest = tail :=
  (read.plain_of_excess List.not_mem_nil rfl (List.nil_append text).symm).2

end Strings

section Values

/-- A JSON value; a number is its token. -/
inductive Json where
  | null
  | bool (value : Bool)
  | number (token : Bytes)
  | string (text : Bytes)
  | array (items : List Json)
  | object (members : List (Bytes × Json))

def isSpace (byte : UInt8) : Bool := byte == 32 || byte == 9 || byte == 10 || byte == 13

def skipSpace (text : Bytes) : Bytes := text.dropWhile isSpace

def IsDigits (text : Bytes) : Prop := text ≠ [] ∧ ∀ byte ∈ text, 48 ≤ byte ∧ byte ≤ 57

/-- The token of a number: a sign, a whole part without a leading zero, and
perhaps a fraction and an exponent. -/
structure JsonNumber (token : Bytes) : Prop where
  parts : ∃ sign whole fraction exponent, token = sign ++ whole ++ fraction ++ exponent ∧
    (sign = [] ∨ sign = [45]) ∧ IsDigits whole ∧ (whole.head? = some 48 → whole = [48]) ∧
    (fraction = [] ∨ ∃ digits, fraction = 46 :: digits ∧ IsDigits digits) ∧
    (exponent = [] ∨ ∃ letter mark digits, exponent = letter :: (mark ++ digits) ∧
      (letter = 101 ∨ letter = 69) ∧ (mark = [] ∨ mark = [43] ∨ mark = [45]) ∧ IsDigits digits)

/-- What may stand at the front of a text: a value, or the rest of an array or
of an object with at least one more element. -/
inductive JsonPart where
  | value (value : Json)
  | items (items : List Json)
  | members (members : List (Bytes × Json))

inductive JsonReads : Bytes → JsonPart → Bytes → Prop where
  | null {rest : Bytes} : JsonReads (cstr "null" ++ rest) (.value .null) rest
  | yes {rest : Bytes} : JsonReads (cstr "true" ++ rest) (.value (.bool true)) rest
  | no {rest : Bytes} : JsonReads (cstr "false" ++ rest) (.value (.bool false)) rest
  | number {token rest : Bytes} (token_number : JsonNumber token) :
      JsonReads (token ++ rest) (.value (.number token)) rest
  | string {text decoded rest : Bytes} (read : JsonString text decoded rest) :
      JsonReads (34 :: text) (.value (.string decoded)) rest
  | emptyArray {text rest : Bytes} (closed : skipSpace text = 93 :: rest) :
      JsonReads (91 :: text) (.value (.array [])) rest
  | array {text rest : Bytes} {items : List Json} (read : JsonReads (skipSpace text) (.items items) rest) :
      JsonReads (91 :: text) (.value (.array items)) rest
  | emptyObject {text rest : Bytes} (closed : skipSpace text = 125 :: rest) :
      JsonReads (123 :: text) (.value (.object [])) rest
  | object {text rest : Bytes} {members : List (Bytes × Json)}
      (read : JsonReads (skipSpace text) (.members members) rest) :
      JsonReads (123 :: text) (.value (.object members)) rest
  | lastItem {text after rest : Bytes} {item : Json} (read : JsonReads text (.value item) after)
      (closed : skipSpace after = 93 :: rest) : JsonReads text (.items [item]) rest
  | item {text after next rest : Bytes} {item : Json} {items : List Json}
      (read : JsonReads text (.value item) after) (comma : skipSpace after = 44 :: next)
      (more : JsonReads (skipSpace next) (.items items) rest) :
      JsonReads text (.items (item :: items)) rest
  | lastMember {text key named valued after rest : Bytes} {value : Json}
      (quoted : JsonString text key named) (colon : skipSpace named = 58 :: valued)
      (read : JsonReads (skipSpace valued) (.value value) after)
      (closed : skipSpace after = 125 :: rest) :
      JsonReads (34 :: text) (.members [(key, value)]) rest
  | member {text key named valued after next rest : Bytes} {value : Json}
      {members : List (Bytes × Json)} (quoted : JsonString text key named)
      (colon : skipSpace named = 58 :: valued)
      (read : JsonReads (skipSpace valued) (.value value) after)
      (comma : skipSpace after = 44 :: next)
      (more : JsonReads (skipSpace next) (.members members) rest) :
      JsonReads (34 :: text) (.members ((key, value) :: members)) rest

/-- A whole text that is one value with space around it. -/
def IsJsonText (text : Bytes) (value : Json) : Prop :=
  ∃ rest, JsonReads (skipSpace text) (.value value) rest ∧ skipSpace rest = []

/-- The first member with a key. -/
def Json.member (key : Bytes) : Json → Option Json
  | .object members => members.lookup key
  | _ => none

theorem skipSpace_append {text next more : Bytes} {byte : UInt8}
    (found : skipSpace text = byte :: next) : skipSpace (text ++ more) = byte :: (next ++ more) := by
  rw [skipSpace, List.dropWhile_append, show text.dropWhile isSpace = byte :: next from found]
  rfl

theorem length_skipSpace_le (text : Bytes) : (skipSpace text).length ≤ text.length :=
  List.length_dropWhile_le isSpace text

theorem JsonNumber.ne_nil {token : Bytes} (number : JsonNumber token) : token ≠ [] := by
  obtain ⟨sign, whole, fraction, exponent, rfl, -, digits, -⟩ := number.parts
  simp [digits.1]

theorem JsonNumber.starts {token text rest : Bytes} {byte : UInt8} (number : JsonNumber token)
    (same : byte :: text = token ++ rest) : byte = 45 ∨ 48 ≤ byte ∧ byte ≤ 57 := by
  obtain ⟨sign, whole, fraction, exponent, rfl, negative, digits, -⟩ := number.parts
  rcases negative with rfl | rfl
  · cases whole with
    | nil => exact absurd rfl digits.1
    | cons digit more => exact .inr ((List.cons.inj same).1 ▸ digits.2 digit List.mem_cons_self)
  · exact .inl (List.cons.inj same).1

theorem JsonReads.length_lt {text rest : Bytes} {part : JsonPart} (read : JsonReads text part rest) :
    rest.length < text.length := by
  have shrink : ∀ {front back : Bytes} {byte : UInt8}, skipSpace front = byte :: back →
      back.length < front.length := by
    intro front back byte found
    have bound := length_skipSpace_le front
    rw [found, List.length_cons] at bound
    exact bound
  induction read with
  | null | yes | no =>
      simp only [cstr, List.length_append, List.length_map, String.length_toList]
      exact Nat.lt_add_of_pos_left (by decide)
  | number token_number =>
      have nonempty := List.length_pos_iff.mpr token_number.ne_nil
      rw [List.length_append]
      omega
  | string read =>
      have := read.length_lt
      rw [List.length_cons]
      omega
  | emptyArray closed | emptyObject closed =>
      have := shrink closed
      rw [List.length_cons]
      omega
  | @array text _ _ _ ih | @object text _ _ _ ih =>
      have := length_skipSpace_le text
      rw [List.length_cons]
      omega
  | lastItem _ closed ih =>
      have := shrink closed
      omega
  | @item _ _ next _ _ _ _ comma _ ih moreIH =>
      have := shrink comma
      have := length_skipSpace_le next
      omega
  | @lastMember _ _ _ valued _ _ _ quoted colon _ closed ih =>
      have := quoted.length_lt
      have := shrink colon
      have := length_skipSpace_le valued
      have := shrink closed
      rw [List.length_cons]
      omega
  | @member _ _ _ valued _ next _ _ _ quoted colon _ comma _ ih moreIH =>
      have := quoted.length_lt
      have := shrink colon
      have := length_skipSpace_le valued
      have := shrink comma
      have := length_skipSpace_le next
      rw [List.length_cons]
      omega

theorem JsonReads.extend {text rest : Bytes} {part : JsonPart} (read : JsonReads text part rest)
    (more : Bytes) : JsonReads (text ++ more) part (rest ++ more) := by
  have behind : ∀ {front : Bytes} {part : JsonPart} {after : Bytes}, JsonReads (skipSpace front) part after →
      JsonReads (skipSpace front ++ more) part (after ++ more) →
      JsonReads (skipSpace (front ++ more)) part (after ++ more) := by
    intro front part after reads extended
    cases found : skipSpace front with
    | nil =>
        rw [found] at reads
        exact absurd reads.length_lt (Nat.not_lt_zero _)
    | cons byte next =>
        rw [found] at extended
        rw [skipSpace_append found]
        exact extended
  induction read with
  | null =>
      rw [List.append_assoc]
      exact .null
  | yes =>
      rw [List.append_assoc]
      exact .yes
  | no =>
      rw [List.append_assoc]
      exact .no
  | number token_number =>
      rw [List.append_assoc]
      exact .number token_number
  | string read => exact .string (read.extend more)
  | emptyArray closed => exact .emptyArray (skipSpace_append closed)
  | array read ih => exact .array (behind read ih)
  | emptyObject closed => exact .emptyObject (skipSpace_append closed)
  | object read ih => exact .object (behind read ih)
  | lastItem _ closed ih => exact .lastItem ih (skipSpace_append closed)
  | item _ comma tail ih moreIH => exact .item ih (skipSpace_append comma) (behind tail moreIH)
  | lastMember quoted colon read closed ih =>
      exact .lastMember (quoted.extend more) (skipSpace_append colon) (behind read ih)
        (skipSpace_append closed)
  | member quoted colon read comma tail ih moreIH =>
      exact .member (quoted.extend more) (skipSpace_append colon) (behind read ih)
        (skipSpace_append comma) (behind tail moreIH)

/-- What stands after a member: the end of the object, or further members. -/
def ObjectContinues (after : Bytes) (members : List (Bytes × Json)) (rest : Bytes) : Prop :=
  (members = [] ∧ skipSpace after = 125 :: rest) ∨
    ∃ next, skipSpace after = 44 :: next ∧ JsonReads (skipSpace next) (.members members) rest

/-- A member without space whose value is a string. -/
def stringMember (key text : Bytes) : Bytes := 34 :: (key ++ 34 :: 58 :: 34 :: text)

variable {key text after rest : Bytes} {members : List (Bytes × Json)}

@[simp] theorem skipSpace_cons {byte : UInt8} (visible : isSpace byte = false) :
    skipSpace (byte :: text) = byte :: text := by
  rw [skipSpace, List.dropWhile_cons_of_neg (by simp [visible])]

theorem isJsonText_object_iff {value : Json} : IsJsonText (123 :: text) value ↔
    ∃ space, JsonReads (123 :: text) (.value value) space ∧ skipSpace space = [] := by
  rw [IsJsonText, skipSpace_cons rfl]

theorem ObjectContinues.length_lt (continues : ObjectContinues after members rest) :
    rest.length < after.length := by
  have bound := length_skipSpace_le after
  rcases continues with ⟨-, closed⟩ | ⟨next, comma, read⟩
  · rw [closed, List.length_cons] at bound
    exact bound
  · rw [comma, List.length_cons] at bound
    have := read.length_lt
    have := length_skipSpace_le next
    omega

theorem objectContinues_close : ObjectContinues (125 :: text) members rest ↔
    members = [] ∧ rest = text := by
  simp [ObjectContinues, skipSpace_cons (show isSpace 125 = false from rfl), eq_comm]

theorem objectContinues_member : ObjectContinues (44 :: stringMember key text) members rest ↔
    JsonReads (stringMember key text) (.members members) rest := by
  simp [ObjectContinues, stringMember, skipSpace_cons (show isSpace 44 = false from rfl),
    skipSpace_cons (show isSpace 34 = false from rfl)]

theorem reads_object_iff {value : Json} :
    JsonReads (123 :: stringMember key text) (.value value) rest ↔
      ∃ members, value = .object members ∧
        JsonReads (stringMember key text) (.members members) rest := by
  have stays : skipSpace (stringMember key text) = stringMember key text := skipSpace_cons rfl
  constructor
  · intro read
    generalize whole : 123 :: stringMember key text = front at read
    cases read with
    | null | yes | no => exact absurd (List.cons.inj whole).1 (by decide)
    | number token_number => exact absurd (token_number.starts whole) (by decide)
    | string => exact absurd (List.cons.inj whole).1 (by decide)
    | emptyArray => exact absurd (List.cons.inj whole).1 (by decide)
    | array => exact absurd (List.cons.inj whole).1 (by decide)
    | emptyObject closed =>
        rw [← (List.cons.inj whole).2, stays] at closed
        exact absurd (List.cons.inj closed).1 (by decide)
    | @object _ _ members read =>
        rw [← (List.cons.inj whole).2, stays] at read
        exact ⟨members, rfl, read⟩
  · rintro ⟨members, rfl, read⟩
    exact .object (stays.symm ▸ read)

theorem reads_string_iff {value : Json} :
    JsonReads (34 :: text) (.value value) rest ↔
      ∃ decoded, value = .string decoded ∧ JsonString text decoded rest := by
  constructor
  · intro read
    generalize whole : (34 :: text : Bytes) = front at read
    cases read with
    | null | yes | no => exact absurd (List.cons.inj whole).1 (by decide)
    | number token_number => exact absurd (token_number.starts whole) (by decide)
    | @string _ decoded _ read => exact ⟨decoded, rfl, (List.cons.inj whole).2 ▸ read⟩
    | emptyArray | array | emptyObject | object =>
        exact absurd (List.cons.inj whole).1 (by decide)
  · rintro ⟨decoded, rfl, read⟩
    exact .string read

theorem reads_member_iff (plain : PlainText key) :
    JsonReads (stringMember key text) (.members members) rest ↔
      ∃ decoded after more, JsonString text decoded after ∧
        members = (key, .string decoded) :: more ∧ ObjectContinues after more rest := by
  have quotedKey := JsonString.of_plain plain (58 :: 34 :: text)
  have colonStays : skipSpace (58 :: 34 :: text) = 58 :: 34 :: text := skipSpace_cons rfl
  have quoteStays : skipSpace (34 :: text) = 34 :: text := skipSpace_cons rfl
  constructor
  · intro read
    generalize whole : stringMember key text = front at read
    cases read with
    | lastMember quoted colon read closed =>
        rw [← (List.cons.inj whole).2] at quoted
        obtain ⟨rfl, rfl⟩ := quotedKey.unique quoted
        rw [colonStays] at colon
        obtain ⟨-, rfl⟩ := List.cons.inj colon
        rw [quoteStays] at read
        obtain ⟨decoded, rfl, string⟩ := reads_string_iff.mp read
        exact ⟨decoded, _, [], string, rfl, .inl ⟨rfl, closed⟩⟩
    | @member _ _ _ _ _ next _ _ more quoted colon read comma tail =>
        rw [← (List.cons.inj whole).2] at quoted
        obtain ⟨rfl, rfl⟩ := quotedKey.unique quoted
        rw [colonStays] at colon
        obtain ⟨-, rfl⟩ := List.cons.inj colon
        rw [quoteStays] at read
        obtain ⟨decoded, rfl, string⟩ := reads_string_iff.mp read
        exact ⟨decoded, _, more, string, rfl, .inr ⟨next, comma, tail⟩⟩
  · rintro ⟨decoded, after, more, string, rfl, ⟨rfl, closed⟩ | ⟨next, comma, tail⟩⟩
    · exact .lastMember quotedKey colonStays (quoteStays.symm ▸ .string string) closed
    · exact .member quotedKey colonStays (quoteStays.symm ▸ .string string) comma tail

theorem reads_known_member_iff (plain : PlainText key) {decoded : Bytes}
    (known : JsonString text decoded after) :
    JsonReads (stringMember key text) (.members members) rest ↔
      ∃ more, members = (key, .string decoded) :: more ∧ ObjectContinues after more rest := by
  rw [reads_member_iff plain]
  constructor
  · rintro ⟨decoded', after', more, read, same, continues⟩
    obtain ⟨rfl, rfl⟩ := known.unique read
    exact ⟨more, same, continues⟩
  · rintro ⟨more, same, continues⟩
    exact ⟨decoded, after, more, known, same, continues⟩

theorem reads_own_member_iff (plain : PlainText key) {own tail : Bytes} :
    JsonReads (stringMember key (own ++ 34 :: tail)) (.members members) rest ∧
        members.lookup key = some (.string own) ↔
      PlainText own ∧ ∃ more, members = (key, .string own) :: more ∧ ObjectContinues tail more rest := by
  constructor
  · rintro ⟨read, found⟩
    obtain ⟨decoded, after, more, string, rfl, continues⟩ := (reads_member_iff plain).mp read
    rw [List.lookup_cons_self, Option.some.injEq, Json.string.injEq] at found
    subst found
    obtain ⟨ownPlain, rfl⟩ := string.plain_of_own
    exact ⟨ownPlain, more, rfl, continues⟩
  · rintro ⟨ownPlain, more, rfl, continues⟩
    exact ⟨(reads_known_member_iff plain (.of_plain ownPlain tail)).mpr ⟨more, rfl, continues⟩,
      List.lookup_cons_self⟩

theorem IsJsonText.uncut {kept dropped : Bytes} {value : Json} (isText : IsJsonText kept value)
    (whole : kept ++ dropped = 123 :: text) :
    ∃ space, JsonReads (123 :: text) (.value value) (space ++ dropped) ∧ skipSpace space = [] := by
  obtain ⟨space, read, blank⟩ := isText
  cases kept with
  | nil => exact absurd read.length_lt (Nat.not_lt_zero _)
  | cons byte front =>
      obtain ⟨rfl, behind⟩ := List.cons.inj whole
      rw [skipSpace_cons rfl] at read
      refine ⟨space, ?_, blank⟩
      rw [← behind]
      exact read.extend dropped

end Values

end AimeeLearning.Library
