import AimeeLearning.Learning.Proposal

/-! A text form of JSON values whose numbers are integers, and its reader. The
text is the compact one; control bytes are written as escapes. Reading inverts
writing. -/

set_option autoImplicit false

namespace AimeeLearning.Learning

open Library

section Writing

def hexDigit (value : Nat) : UInt8 := UInt8.ofNat (if value < 10 then 48 + value else 87 + value)

def escapeByte (byte : UInt8) : Bytes :=
  if byte = 34 ∨ byte = 92 then [92, byte]
  else if byte < 32 then [92, 117, 48, 48, hexDigit (byte.toNat / 16), hexDigit (byte.toNat % 16)]
  else [byte]

def printString (text : Bytes) : Bytes := 34 :: (text.flatMap escapeByte ++ [34])

def decimal : Nat → Nat → Bytes
  | 0, _ => []
  | fuel + 1, value =>
      if value < 10 then [UInt8.ofNat (48 + value)]
      else decimal fuel (value / 10) ++ [UInt8.ofNat (48 + value % 10)]

def printNumber (value : Int) : Bytes :=
  if value < 0 then 45 :: decimal (value.natAbs + 1) value.natAbs
  else decimal (value.natAbs + 1) value.natAbs

mutual

def printValue : CJson Int → Bytes
  | .null => cstr "null"
  | .bool true => cstr "true"
  | .bool false => cstr "false"
  | .number value => printNumber value
  | .string text => printString text
  | .array [] => [91, 93]
  | .array (item :: rest) => 91 :: (printValue item ++ printItems rest)
  | .object [] => [123, 125]
  | .object ((key, value) :: rest) =>
      123 :: (printString key ++ 58 :: (printValue value ++ printMembers rest))

def printItems : List (CJson Int) → Bytes
  | [] => [93]
  | item :: rest => 44 :: (printValue item ++ printItems rest)

def printMembers : List (Bytes × CJson Int) → Bytes
  | [] => [125]
  | (key, value) :: rest =>
      44 :: (printString key ++ 58 :: (printValue value ++ printMembers rest))

end

end Writing

section Reading

def hexValue (byte : UInt8) : Nat := if byte < 58 then byte.toNat - 48 else byte.toNat - 87

/-- The text up to the closing quote, and what follows it. -/
def parseString : Bytes → Option (Bytes × Bytes)
  | [] => none
  | byte :: rest =>
      if byte = 34 then some ([], rest)
      else if byte = 92 then
        match rest with
        | [] => none
        | code :: rest =>
            if code = 117 then
              match rest with
              | _ :: _ :: high :: low :: rest => (parseString rest).map fun (text, rest) =>
                  (UInt8.ofNat (hexValue high * 16 + hexValue low) :: text, rest)
              | _ => none
            else (parseString rest).map fun (text, rest) => (code :: text, rest)
      else (parseString rest).map fun (text, rest) => (byte :: text, rest)

def isDigit (byte : UInt8) : Bool := 48 ≤ byte && byte ≤ 57

def readDecimal : Nat → Bytes → Nat × Bytes
  | value, [] => (value, [])
  | value, byte :: rest =>
      if isDigit byte then readDecimal (value * 10 + (byte.toNat - 48)) rest
      else (value, byte :: rest)

/-- What follows a token. -/
def expect (token text : Bytes) : Option Bytes :=
  if token <+: text then some (text.drop token.length) else none

/-- A quoted key and the colon after it. -/
def parseKey (text : Bytes) : Option (Bytes × Bytes) := do
  let (key, rest) ← parseString (← expect [34] text)
  some (key, ← expect [58] rest)

mutual

def parseValue : Nat → Bytes → Option (CJson Int × Bytes)
  | 0, _ => none
  | _ + 1, [] => none
  | fuel + 1, byte :: rest =>
      if byte = 34 then (parseString rest).map fun (text, rest) => (.string text, rest)
      else if byte = 91 then
        match expect [93] rest with
        | some rest => some (.array [], rest)
        | none => do
            let (item, rest) ← parseValue fuel rest
            let (items, rest) ← parseItems fuel rest
            some (.array (item :: items), rest)
      else if byte = 123 then
        match expect [125] rest with
        | some rest => some (.object [], rest)
        | none => do
            let (key, rest) ← parseKey rest
            let (value, rest) ← parseValue fuel rest
            let (members, rest) ← parseMembers fuel rest
            some (.object ((key, value) :: members), rest)
      else if byte = 45 then
        let (value, rest) := readDecimal 0 rest
        some (.number (-value), rest)
      else if isDigit byte then
        let (value, rest) := readDecimal 0 (byte :: rest)
        some (.number value, rest)
      else if byte = 110 then (expect (cstr "ull") rest).map fun rest => (.null, rest)
      else if byte = 116 then (expect (cstr "rue") rest).map fun rest => (.bool true, rest)
      else if byte = 102 then (expect (cstr "alse") rest).map fun rest => (.bool false, rest)
      else none

def parseItems : Nat → Bytes → Option (List (CJson Int) × Bytes)
  | 0, _ => none
  | fuel + 1, text =>
      match expect [93] text with
      | some rest => some ([], rest)
      | none => do
          let (item, rest) ← parseValue fuel (← expect [44] text)
          let (items, rest) ← parseItems fuel rest
          some (item :: items, rest)

def parseMembers : Nat → Bytes → Option (List (Bytes × CJson Int) × Bytes)
  | 0, _ => none
  | fuel + 1, text =>
      match expect [125] text with
      | some rest => some ([], rest)
      | none => do
          let (key, rest) ← parseKey (← expect [44] text)
          let (value, rest) ← parseValue fuel rest
          let (members, rest) ← parseMembers fuel rest
          some ((key, value) :: members, rest)

end

def parseText (text : Bytes) : Option (CJson Int) :=
  match parseValue text.length text with
  | some (value, []) => some value
  | _ => none

end Reading

section RoundTrip

theorem hexValue_hexDigit {value : Nat} (small : value < 16) : hexValue (hexDigit value) = value := by
  revert value
  decide

theorem parseString_quote (rest : Bytes) : parseString (34 :: rest) = some ([], rest) := by
  rw [parseString.eq_def]
  rfl

theorem parseString_plain {byte : UInt8} (quote : byte ≠ 34) (slash : byte ≠ 92) (rest : Bytes) :
    parseString (byte :: rest) =
      (parseString rest).map fun (text, rest) => (byte :: text, rest) := by
  rw [parseString.eq_def]
  simp only [quote, slash, if_false]

theorem parseString_escape (byte : UInt8) (rest : Bytes) :
    parseString (escapeByte byte ++ rest) =
      (parseString rest).map fun (text, rest) => (byte :: text, rest) := by
  unfold escapeByte
  split
  · rename_i quoted
    rw [List.cons_append, List.singleton_append, parseString.eq_def]
    rcases quoted with rfl | rfl <;> rfl
  · rename_i plain
    obtain ⟨quote, slash⟩ := not_or.mp plain
    split
    · rename_i control
      have below : byte.toNat < 32 := by simpa [UInt8.lt_iff_toNat_lt] using control
      have whole : UInt8.ofNat (byte.toNat / 16 * 16 + byte.toNat % 16) = byte := by
        rw [Nat.div_add_mod', UInt8.ofNat_toNat]
      simp only [List.cons_append, List.nil_append]
      rw [parseString.eq_def]
      dsimp only
      rw [hexValue_hexDigit (by omega), hexValue_hexDigit (by omega), whole]
      rfl
    · exact parseString_plain quote slash rest

theorem parseString_text (text rest : Bytes) :
    parseString (text.flatMap escapeByte ++ 34 :: rest) = some (text, rest) := by
  induction text with
  | nil => exact parseString_quote rest
  | cons byte more ih =>
      rw [List.flatMap_cons, List.append_assoc, parseString_escape, ih]
      rfl

/-- What follows a number does not go on with it. -/
def NoDigit (rest : Bytes) : Prop := ∀ byte tail, rest = byte :: tail → isDigit byte = false

theorem readDecimal_stop {rest : Bytes} (stops : NoDigit rest) (value : Nat) :
    readDecimal value rest = (value, rest) := by
  cases rest with
  | nil => rfl
  | cons byte tail => simp [readDecimal, stops byte tail rfl]

theorem isDigit_digit {digit : Nat} (small : digit < 10) :
    isDigit (UInt8.ofNat (48 + digit)) = true := by
  revert digit
  decide

theorem readDecimal_digit {digit : Nat} (small : digit < 10) (value : Nat) (rest : Bytes) :
    readDecimal value (UInt8.ofNat (48 + digit) :: rest) = readDecimal (value * 10 + digit) rest := by
  have number : (UInt8.ofNat (48 + digit)).toNat - 48 = digit := by
    rw [UInt8.toNat_ofNat']
    omega
  rw [readDecimal, if_pos (isDigit_digit small), number]

theorem readDecimal_decimal {fuel value : Nat} (enough : value < fuel) (before : Nat)
    (rest : Bytes) : readDecimal before (decimal fuel value ++ rest) =
      readDecimal (before * 10 ^ (decimal fuel value).length + value) rest := by
  induction fuel generalizing value rest with
  | zero => exact absurd enough (Nat.not_lt_zero _)
  | succ fuel ih =>
      unfold decimal
      split
      · rename_i small
        simpa using readDecimal_digit small before rest
      · rw [List.append_assoc, ih (by omega), List.singleton_append,
          readDecimal_digit (Nat.mod_lt _ (by decide))]
        congr 1
        simp only [List.length_append, List.length_singleton, pow_succ]
        have parts := Nat.div_add_mod' value 10
        ring_nf at parts ⊢
        omega

theorem decimal_head {fuel value : Nat} (enough : value < fuel) :
    ∃ byte tail, decimal fuel value = byte :: tail ∧ isDigit byte = true := by
  induction fuel generalizing value with
  | zero => exact absurd enough (Nat.not_lt_zero _)
  | succ fuel ih =>
      unfold decimal
      split
      · rename_i small
        exact ⟨_, [], rfl, isDigit_digit small⟩
      · have shorter : value / 10 < fuel := by omega
        obtain ⟨byte, tail, same, digit⟩ := ih shorter
        exact ⟨byte, tail ++ _, by rw [same]; rfl, digit⟩

theorem noDigit_cons {byte : UInt8} (other : isDigit byte = false) (tail : Bytes) :
    NoDigit (byte :: tail) := by
  intro first rest same
  obtain ⟨rfl, rfl⟩ := List.cons.inj same
  exact other

theorem readDecimal_natAbs (value : Int) {rest : Bytes} (stops : NoDigit rest) :
    readDecimal 0 (decimal (value.natAbs + 1) value.natAbs ++ rest) = (value.natAbs, rest) := by
  rw [readDecimal_decimal (Nat.lt_succ_self _), Nat.zero_mul, Nat.zero_add]
  exact readDecimal_stop stops _

theorem parseValue_number (fuel : Nat) (value : Int) {rest : Bytes} (stops : NoDigit rest) :
    parseValue (fuel + 1) (printNumber value ++ rest) = some (.number value, rest) := by
  unfold printNumber
  split
  · rename_i negative
    rw [List.cons_append, parseValue, if_neg (by decide), if_neg (by decide), if_neg (by decide),
      if_pos rfl]
    simp only [readDecimal_natAbs value stops, Option.some.injEq, Prod.mk.injEq, and_true,
      CJson.number.injEq]
    omega
  · rename_i negative
    have read := readDecimal_natAbs value stops
    obtain ⟨byte, tail, same, digit⟩ := decimal_head (Nat.lt_succ_self value.natAbs)
    rw [same] at read ⊢
    have apart : byte ≠ 34 ∧ byte ≠ 91 ∧ byte ≠ 123 ∧ byte ≠ 45 := by
      refine ⟨?_, ?_, ?_, ?_⟩ <;>
        · rintro rfl
          exact absurd digit (by decide)
    rw [List.cons_append] at read ⊢
    rw [parseValue, if_neg apart.1, if_neg apart.2.1, if_neg apart.2.2.1, if_neg apart.2.2.2,
      if_pos digit]
    simp only [read, Option.some.injEq, Prod.mk.injEq, and_true, CJson.number.injEq]
    omega

theorem printValue_head (value : CJson Int) :
    ∃ byte tail, printValue value = byte :: tail ∧ byte ≠ 93 := by
  cases value with
  | null => exact ⟨110, cstr "ull", rfl, by decide⟩
  | bool value =>
      cases value
      · exact ⟨102, cstr "alse", rfl, by decide⟩
      · exact ⟨116, cstr "rue", rfl, by decide⟩
  | number value =>
      rw [printValue]
      unfold printNumber
      split
      · exact ⟨45, _, rfl, by decide⟩
      · obtain ⟨byte, tail, same, digit⟩ := decimal_head (Nat.lt_succ_self value.natAbs)
        refine ⟨byte, tail, same, ?_⟩
        rintro rfl
        exact absurd digit (by decide)
  | string text => exact ⟨34, _, by rw [printValue]; rfl, by decide⟩
  | array items =>
      cases items with
      | nil => exact ⟨91, [93], by rw [printValue], by decide⟩
      | cons item rest => exact ⟨91, _, by rw [printValue], by decide⟩
  | object members =>
      cases members with
      | nil => exact ⟨123, [125], by rw [printValue], by decide⟩
      | cons member rest =>
          obtain ⟨key, value⟩ := member
          exact ⟨123, _, by rw [printValue], by decide⟩

theorem expect_append (token rest : Bytes) : expect token (token ++ rest) = some rest := by
  simp [expect]

theorem expect_here (byte : UInt8) (rest : Bytes) : expect [byte] (byte :: rest) = some rest :=
  expect_append [byte] rest

theorem expect_other {token byte : UInt8} (other : token ≠ byte) (rest : Bytes) :
    expect [token] (byte :: rest) = none := by
  simp [expect, other]

theorem parseKey_print (key rest : Bytes) :
    parseKey (printString key ++ 58 :: rest) = some (key, rest) := by
  unfold parseKey printString
  rw [List.cons_append, expect_here]
  simp only [List.append_assoc, List.singleton_append, Option.bind_eq_bind, Option.bind_some,
    parseString_text, expect_here]

theorem printItems_noDigit (items : List (CJson Int)) (rest : Bytes) :
    NoDigit (printItems items ++ rest) := by
  cases items with
  | nil => exact noDigit_cons (by decide) _
  | cons item more =>
      rw [printItems]
      exact noDigit_cons (by decide) _

theorem printMembers_noDigit (members : List (Bytes × CJson Int)) (rest : Bytes) :
    NoDigit (printMembers members ++ rest) := by
  cases members with
  | nil => exact noDigit_cons (by decide) _
  | cons member more =>
      obtain ⟨key, value⟩ := member
      rw [printMembers]
      exact noDigit_cons (by decide) _

mutual

theorem parseValue_print : ∀ (value : CJson Int) (fuel : Nat) (rest : Bytes),
    (printValue value).length ≤ fuel → NoDigit rest →
    parseValue fuel (printValue value ++ rest) = some (value, rest)
  | value, 0, rest, enough, _ => by
      obtain ⟨byte, tail, same, -⟩ := printValue_head value
      rw [same] at enough
      exact absurd enough (by simp)
  | .null, fuel + 1, rest, _, _ => by
      rw [show printValue .null ++ rest = 110 :: (cstr "ull" ++ rest) from rfl, parseValue]
      simp [isDigit, expect_append]
  | .bool false, fuel + 1, rest, _, _ => by
      rw [show printValue (.bool false) ++ rest = 102 :: (cstr "alse" ++ rest) from rfl, parseValue]
      simp [isDigit, expect_append]
  | .bool true, fuel + 1, rest, _, _ => by
      rw [show printValue (.bool true) ++ rest = 116 :: (cstr "rue" ++ rest) from rfl, parseValue]
      simp [isDigit, expect_append]
  | .number value, fuel + 1, rest, _, stops => by
      rw [printValue]
      exact parseValue_number fuel value stops
  | .string text, fuel + 1, rest, _, _ => by
      rw [printValue, printString, List.cons_append, parseValue, if_pos rfl, List.append_assoc,
        List.singleton_append, parseString_text]
      rfl
  | .array [], fuel + 1, rest, _, _ => by
      rw [printValue, List.cons_append, List.singleton_append, parseValue, if_neg (by decide),
        if_pos rfl, expect_here]
  | .array (item :: more), fuel + 1, rest, enough, _ => by
      rw [printValue] at enough ⊢
      simp only [List.length_cons, List.length_append] at enough
      obtain ⟨byte, tail, same, open'⟩ := printValue_head item
      have unclosed : expect [93] (printValue item ++ printItems more ++ rest) = none := by
        rw [same]
        exact expect_other open'.symm _
      rw [List.cons_append, parseValue, if_neg (by decide), if_pos rfl, unclosed]
      simp only [List.append_assoc, Option.bind_eq_bind]
      rw [parseValue_print item fuel _ (by omega) (printItems_noDigit more rest)]
      simp only [Option.bind_some]
      rw [parseItems_print more fuel rest (by omega)]
      rfl
  | .object [], fuel + 1, rest, _, _ => by
      rw [printValue, List.cons_append, List.singleton_append, parseValue, if_neg (by decide),
        if_neg (by decide), if_pos rfl, expect_here]
  | .object ((key, value) :: more), fuel + 1, rest, enough, _ => by
      rw [printValue] at enough ⊢
      simp only [List.length_cons, List.length_append] at enough
      have unclosed : ∀ text, expect [125] (printString key ++ text) = none :=
        fun text => expect_other (by decide) _
      simp only [List.cons_append, List.append_assoc]
      rw [parseValue, if_neg (by decide), if_neg (by decide), if_pos rfl, unclosed]
      simp only [Option.bind_eq_bind, parseKey_print, Option.bind_some]
      rw [parseValue_print value fuel _ (by omega) (printMembers_noDigit more rest)]
      simp only [Option.bind_some]
      rw [parseMembers_print more fuel rest (by omega)]
      rfl

theorem parseItems_print : ∀ (items : List (CJson Int)) (fuel : Nat) (rest : Bytes),
    (printItems items).length ≤ fuel →
    parseItems fuel (printItems items ++ rest) = some (items, rest)
  | [], 0, rest, enough => absurd enough (by simp [printItems])
  | item :: more, 0, rest, enough => absurd enough (by simp [printItems])
  | [], fuel + 1, rest, _ => by
      rw [printItems, List.singleton_append, parseItems, expect_here]
  | item :: more, fuel + 1, rest, enough => by
      rw [printItems] at enough ⊢
      simp only [List.length_cons, List.length_append] at enough
      simp only [List.cons_append, List.append_assoc]
      rw [parseItems, expect_other (by decide), expect_here]
      simp only [Option.bind_eq_bind, Option.bind_some]
      rw [parseValue_print item fuel _ (by omega) (printItems_noDigit more rest)]
      simp only [Option.bind_some]
      rw [parseItems_print more fuel rest (by omega)]
      rfl

theorem parseMembers_print : ∀ (members : List (Bytes × CJson Int)) (fuel : Nat) (rest : Bytes),
    (printMembers members).length ≤ fuel →
    parseMembers fuel (printMembers members ++ rest) = some (members, rest)
  | [], 0, rest, enough => absurd enough (by simp [printMembers])
  | (key, value) :: more, 0, rest, enough => absurd enough (by simp [printMembers])
  | [], fuel + 1, rest, _ => by
      rw [printMembers, List.singleton_append, parseMembers, expect_here]
  | (key, value) :: more, fuel + 1, rest, enough => by
      rw [printMembers] at enough ⊢
      simp only [List.length_cons, List.length_append] at enough
      simp only [List.cons_append, List.append_assoc]
      rw [parseMembers, expect_other (by decide), expect_here]
      simp only [Option.bind_eq_bind, Option.bind_some, parseKey_print]
      rw [parseValue_print value fuel _ (by omega) (printMembers_noDigit more rest)]
      simp only [Option.bind_some]
      rw [parseMembers_print more fuel rest (by omega)]
      rfl

end

theorem parseText_print (value : CJson Int) : parseText (printValue value) = some value := by
  have read := parseValue_print value (printValue value).length [] (le_refl _) nofun
  rw [List.append_nil] at read
  unfold parseText
  rw [read]

end RoundTrip

end AimeeLearning.Learning
