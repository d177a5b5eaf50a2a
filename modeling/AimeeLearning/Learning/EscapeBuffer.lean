import AimeeLearning.Learning.EvidenceCapture
import AimeeLearning.Library.CBuffer

/-! The escaping loop on the bytes of its buffer. One bound in front of each byte
covers its escape, the NUL that `snprintf` puts behind it and the final NUL. -/

set_option autoImplicit false

namespace AimeeLearning.Learning

open Library

section Writes

/-- The text `snprintf` makes of a control byte with `\\u%04x`. -/
def controlEscape (byte : UInt8) : Bytes :=
  [92, 117, 48, 48, hexDigit (byte.toNat / 16), hexDigit (byte.toNat % 16)]

/-- One turn of the loop: the buffer and the offset afterwards. -/
def escapeTurn (byte : UInt8) (buf : Bytes) (o : Nat) : Option (Bytes × Nat) :=
  if byte = 34 ∨ byte = 92 then do
    let buf ← storeAt buf o [92]
    let buf ← storeAt buf (sizeT (o + 1)) [byte]
    some (buf, sizeT (o + 2))
  else if byte < 0x20 then do
    let buf ← snprintfAt buf o (sizeTSub buf.length o) (controlEscape byte)
    some (buf, sizeT (o + (controlEscape byte).length))
  else do
    let buf ← storeAt buf o [byte]
    some (buf, sizeT (o + 1))

/-- The loop up to the NUL of the source, over a buffer of `len` bytes. -/
def escapeTurns (len : Nat) : Bytes → Bytes → Nat → Option (Bytes × Nat)
  | [], buf, o => some (buf, o)
  | byte :: rest, buf, o =>
      if byte ≠ 0 ∧ sizeT (o + 7) < len then do
        let (buf, o) ← escapeTurn byte buf o
        escapeTurns len rest buf o
      else some (buf, o)

/-- `json_escape_into` over the buffer it is given. -/
def jsonEscapeBuffer (src : Option Bytes) (buf : Bytes) : Option Bytes := do
  let (buf, o) ← escapeTurns buf.length (src.getD []) buf 0
  storeAt buf o [0]

end Writes

/-- What the escape of a text leaves in a buffer: a NUL inside it and, in front of
the first one, the whole escapes of a prefix of the text. -/
structure EscapedInto (text : Bytes) (len : Nat) (buf : Bytes) : Prop where
  size : buf.length = len
  ended : 0 ∈ buf
  units : ∃ kept, kept <+: text ∧ cString buf = kept.flatMap escapeByte ∧
    JsonString (cString buf ++ [34]) kept [] ∧ (∀ byte ∈ cString buf, 0x20 ≤ byte) ∧
    (escapedLength text + 7 ≤ len → kept = text)

section Loop

variable {buf : Bytes} {o len : Nat}

theorem hexDigit_visible : ∀ value < 16, 0x20 ≤ hexDigit value := by decide

theorem escapeByte_visible (source : UInt8) : ∀ byte ∈ escapeByte source, 0x20 ≤ byte := by
  intro byte member
  unfold escapeByte at member
  split_ifs at member with special control
  · simp only [List.mem_cons, List.not_mem_nil, or_false] at member
    rcases special with rfl | rfl
    all_goals
      rcases member with rfl | rfl
      all_goals decide
  · have small : source.toNat < 32 := UInt8.lt_iff_toNat_lt.mp control
    simp only [List.mem_cons, List.not_mem_nil, or_false] at member
    rcases member with rfl | rfl | rfl | rfl | rfl | rfl
    · decide
    · decide
    · decide
    · decide
    · exact hexDigit_visible _ (by omega)
    · exact hexDigit_visible _ (by omega)
  · rw [List.mem_singleton.mp member]
    exact UInt8.not_lt.mp control

theorem length_escapeByte (byte : UInt8) :
    1 ≤ (escapeByte byte).length ∧ (escapeByte byte).length ≤ 6 := by
  unfold escapeByte
  split_ifs <;> simp

theorem escapedLength_append (front back : Bytes) :
    escapedLength (front ++ back) = escapedLength front + escapedLength back := by
  rw [escapedLength, List.flatMap_append, List.length_append, escapedLength, escapedLength]

theorem length_le_escapedLength (text : Bytes) : text.length ≤ escapedLength text := by
  induction text with
  | nil => exact Nat.zero_le _
  | cons byte rest ih =>
      have unit := (length_escapeByte byte).1
      rw [← List.singleton_append, escapedLength_append, List.length_append, List.length_singleton]
      have single : escapedLength [byte] = (escapeByte byte).length := by simp [escapedLength]
      omega

/-- A turn in front of which more than seven bytes are free appends the escape. -/
theorem escapeTurn_appends (byte : UInt8) (object : buf.length < 2 ^ 63)
    (room : o + 7 < buf.length) :
    ∃ next, escapeTurn byte buf o = some (next, o + (escapeByte byte).length) ∧
      next.length = buf.length ∧
      next.take (o + (escapeByte byte).length) = buf.take o ++ escapeByte byte := by
  have exactly : ∀ step ≤ 6, sizeT (o + step) = o + step := fun step bound => sizeT_eq (by omega)
  have store : ∀ {target data : Bytes} {offset : Nat}, target.length = buf.length →
      offset + data.length ≤ o + 7 → storeAt target offset data = some (patch target offset data) ∧
        (patch target offset data).length = buf.length := by
    intro target data offset same inside
    exact ⟨storeAt_some (by omega), (length_patch (by omega)).trans same⟩
  unfold escapeTurn escapeByte
  split_ifs with special control
  · have slash := @store buf [92] o rfl (by simp)
    have behind := @store _ [byte] (o + 1) slash.2 (by simp)
    refine ⟨_, ?_, behind.2, ?_⟩
    · simp only [slash.1, exactly 1 (by decide), Option.bind_eq_bind, Option.bind_some, behind.1,
        exactly 2 (by decide), List.length_cons, List.length_nil]
    · have front := @take_patch (patch buf o [92]) [byte] (o + 1) (by omega)
      have before := @take_patch buf [92] o (by omega)
      simp only [List.length_singleton] at front before
      rw [List.length_cons, List.length_singleton, ← Nat.add_assoc, front, before,
        List.append_assoc]
      rfl
  · have size : sizeTSub buf.length o = buf.length - o := sizeTSub_eq (by omega) (by omega)
    have printed : snprintfAt buf o (buf.length - o) (controlEscape byte) =
        some (patch buf o (controlEscape byte ++ [0])) :=
      snprintfAt_some (by simp [controlEscape]; omega) (by omega)
    have kept := @store buf (controlEscape byte ++ [0]) o rfl (by simp [controlEscape])
    refine ⟨_, ?_, kept.2, ?_⟩
    · rw [size, printed]
      simp only [Option.bind_eq_bind, Option.bind_some, controlEscape, List.length_cons,
        List.length_nil, exactly 6 (by decide)]
    · exact take_patch_append (by omega) [0]
  · have stored := @store buf [byte] o rfl (by simp)
    refine ⟨_, ?_, stored.2, ?_⟩
    · simp only [stored.1, exactly 1 (by decide), Option.bind_eq_bind, Option.bind_some,
        List.length_singleton]
    · exact take_patch (by omega)

/-- The loop stays inside the buffer, leaves room for the NUL and has written what
`jsonEscapeLoop` appends. -/
theorem escapeTurns_writes (text : Bytes) (object : buf.length < 2 ^ 63) (room : o < buf.length) :
    ∃ next stop, escapeTurns buf.length text buf o = some (next, stop) ∧
      next.length = buf.length ∧ stop < buf.length ∧
      next.take stop = jsonEscapeLoop buf.length (cString text) (buf.take o) := by
  induction text generalizing buf o with
  | nil => exact ⟨buf, o, rfl, rfl, room, rfl⟩
  | cons byte rest ih =>
      have written : (buf.take o).length = o := by
        rw [List.length_take]
        omega
      have bound : sizeT (o + 7) = o + 7 := sizeT_eq (by omega)
      rw [escapeTurns, bound]
      by_cases nul : byte = 0
      · rw [if_neg (by simp [nul])]
        exact ⟨buf, o, rfl, rfl, room, by simp [cString, nul, jsonEscapeLoop]⟩
      · have text : cString (byte :: rest) = byte :: cString rest := by simp [cString, nul]
        rw [text, jsonEscapeLoop, written]
        by_cases free : o + 7 < buf.length
        · obtain ⟨turned, taken, size, front⟩ := escapeTurn_appends byte object free
          have fits := (length_escapeByte byte).2
          obtain ⟨next, stop, run, sizeRun, inside, wrote⟩ :=
            @ih turned (o + (escapeByte byte).length) (size ▸ object) (by omega)
          rw [if_pos ⟨nul, free⟩, if_pos free, taken]
          rw [size, front] at wrote
          rw [size] at run
          exact ⟨next, stop, run, sizeRun.trans size, by omega, wrote⟩
        · rw [if_neg fun both => free both.2, if_neg free]
          exact ⟨buf, o, rfl, rfl, room, rfl⟩

end Loop

/-- The buffer holds the text of `jsonEscapeInto` and a NUL behind it. -/
theorem jsonEscapeBuffer_text (src : Option Bytes) (buffer : CBuffer)
    (room : 1 ≤ buffer.bytes.length) :
    ∃ tail, jsonEscapeBuffer src buffer.bytes =
        some (jsonEscapeInto src buffer.bytes.length ++ 0 :: tail) ∧
      (jsonEscapeInto src buffer.bytes.length ++ 0 :: tail).length = buffer.bytes.length := by
  obtain ⟨next, stop, run, size, inside, wrote⟩ :=
    escapeTurns_writes (src.getD []) buffer.object (show 0 < buffer.bytes.length from room)
  rw [List.take_zero] at wrote
  have stored : storeAt next stop [0] = some (patch next stop [0]) :=
    storeAt_some (by simp; omega)
  have shape : patch next stop [0] =
      jsonEscapeInto src buffer.bytes.length ++ 0 :: next.drop (stop + 1) := by
    rw [patch, wrote, List.append_assoc]
    rfl
  refine ⟨next.drop (stop + 1), ?_, ?_⟩
  · rw [jsonEscapeBuffer, run, ← shape]
    exact stored
  · rw [← shape, length_patch (by simp; omega), size]

/-- Escaping into a buffer of at least one byte stays inside it and leaves whole
escapes, those of the whole text where they and seven more bytes fit. -/
theorem json_escape_into_safe (src : Option Bytes) (buffer : CBuffer)
    (room : 1 ≤ buffer.bytes.length) :
    ∃ buf, jsonEscapeBuffer src buffer.bytes = some buf ∧
      EscapedInto (cString (src.getD [])) buffer.bytes.length buf := by
  obtain ⟨tail, written, size⟩ := jsonEscapeBuffer_text src buffer room
  obtain ⟨kept, whole, isPrefix, -, ended⟩ := jsonEscapeLoop_fits buffer.bytes.length
    (cString (src.getD [])) [] fun before inFront proper => absurd (List.prefix_nil.mp inFront) proper
  rw [List.nil_append] at isPrefix ended
  have text : jsonEscapeInto src buffer.bytes.length = kept.flatMap escapeByte := whole
  rw [text] at written size
  have visible : ∀ byte ∈ kept.flatMap escapeByte, 0x20 ≤ byte := by
    intro byte member
    obtain ⟨source, -, inEscape⟩ := List.mem_flatMap.mp member
    exact escapeByte_visible source byte inEscape
  have front : cString (kept.flatMap escapeByte ++ 0 :: tail) = kept.flatMap escapeByte :=
    cString_append_zero (fun member => absurd (visible 0 member) (by decide)) tail
  refine ⟨_, written, size, by simp, kept, isPrefix, front, ?_, ?_, ?_⟩
  · rw [front]
    exact escaped_reads kept []
  · rw [front]
    exact visible
  · intro roomy
    rcases ended with all | full
    · exact all
    · obtain ⟨rest, split⟩ := isPrefix
      have total := escapedLength_append kept rest
      rw [split] at total
      have short := length_le_escapedLength rest
      have none : rest = [] := List.length_eq_zero_iff.mp (by omega)
      rw [← split, none, List.append_nil]

/-- Nine bytes hold a letter and the escape behind it, and no quote after them. -/
theorem json_escape_into_safe_nine :
    ∃ buf, jsonEscapeBuffer (some [97, 1, 34]) (List.replicate 9 170) = some buf ∧
      EscapedInto [97, 1, 34] 9 buf :=
  json_escape_into_safe (some [97, 1, 34]) ⟨List.replicate 9 170, by decide⟩ (by decide)

example : jsonEscapeBuffer (some [97, 1, 34]) (List.replicate 9 170) =
    some [97, 92, 117, 48, 48, 48, 49, 0, 170] := by decide

end AimeeLearning.Learning
