import AimeeLearning.Learning.JsonText
import AimeeLearning.Library.JsonGrammar
import AimeeLearning.Library.Traced

/-! Evidence capture: the payload objects handed to the artifact writer. Event
content is escaped and cut on its way, other texts go in as they are, and the
object as a whole is cut to its buffer. -/

set_option autoImplicit false

namespace AimeeLearning.Learning

open Library

/-- The call of the artifact writer. A text argument that may be NULL is an option. -/
inductive WriterCall where
  | writeEvidence (kind : Bytes) (scopeKind scopeId operatorId : Option Bytes)
      (contentHash payload : Bytes)
  | write (id kind state scopeKind scopeId operatorId : Bytes) (confidence : Int) (payload : Bytes)
  deriving DecidableEq

def WriterCall.payload : WriterCall → Bytes
  | writeEvidence _ _ _ _ _ payload => payload
  | write _ _ _ _ _ _ _ payload => payload

/-- The store behind capture. The writer answers the id it chose; the queues'
answers are ignored. -/
structure CaptureEnv (σ : Type) where
  artifactGenId : σ → Bytes
  artifactWriter : WriterCall → σ → Option Bytes × σ
  evidenceEnqueue : (id kind : Bytes) → σ → σ
  synthEnqueue : (id : Bytes) → σ → σ

variable {σ : Type} (env : CaptureEnv σ)

section Payloads

def jsonEscapeLoop (len : Nat) : Bytes → Bytes → Bytes
  | [], written => written
  | byte :: rest, written =>
      if written.length + 7 < len then jsonEscapeLoop len rest (written ++ escapeByte byte)
      else written

def jsonEscapeInto (src : Option Bytes) (len : Nat) : Bytes :=
  jsonEscapeLoop len (cString (src.getD [])) []

/-- A 64-bit number as sixteen hexadecimal digits. -/
def hex16 (value : UInt64) : Bytes :=
  (List.range 16).map fun position => hexDigit (value.toNat / 16 ^ (15 - position) % 16)

def fnvStep (hash : UInt64) (byte : UInt8) : UInt64 := (hash ^^^ byte.toUInt64) * 1099511628211

def evidenceContentHash (kind content : Bytes) : Bytes :=
  hex16 (content.foldl fnvStep (fnvStep (kind.foldl fnvStep 1469598103934665603) 0x1f))

def evidenceKinds : List Bytes :=
  [cstr "session_turn", cstr "session_summary", cstr "feedback_positive", cstr "feedback_negative",
    cstr "tool_outcome", cstr "guardrail_event", cstr "benchmark_trace", cstr "workflow_pattern"]

def evidenceKindAllowed (kind : Option Bytes) : Bool := kind.any evidenceKinds.contains

/-- The text of an event's payload before the buffer cuts it. -/
def eventPayloadText (sourceKind : Bytes) (scopeKind scopeId : Option Bytes)
    (contentHash escaped : Bytes) : Bytes :=
  cstr "\x7b\"source_kind\":\"" ++ sourceKind ++ cstr "\",\"scope_kind\":\"" ++
    scopeKind.getD (cstr "user") ++ cstr "\",\"scope_id\":\"" ++ scopeId.getD [] ++
    cstr "\",\"content_hash\":\"" ++ contentHash ++ cstr "\",\"content\":\"" ++ escaped ++
    cstr "\"\x7d"

def feedbackPayloadText (polarity title description : Option Bytes) : Bytes :=
  cstr "\x7b\"polarity\":\"" ++ polarity.getD [] ++ cstr "\",\"title\":\"" ++ title.getD [] ++
    cstr "\",\"description\":\"" ++ description.getD [] ++ cstr "\"\x7d"

def buildFeedbackPayload (polarity title description : Option Bytes) (len : Nat) : Bytes :=
  snprintf len (feedbackPayloadText polarity title description)

end Payloads

section Capture

/-- The text left in `artifact_id_out`; a length of zero stands for no buffer. -/
def idOut (artifactIdOutLen : Int) (id : Bytes) : Bytes := snprintf artifactIdOutLen.toNat id

/-- Hand an artifact to the writer. -/
def handOver (call : WriterCall) : Traced σ WriterCall (Option Bytes) := do
  .emit call
  .call (env.artifactWriter call)

/-- The result and the text left in `artifact_id_out`. -/
def learningEvidenceWriteEvent (sourceKind scopeKind scopeId content operatorId : Option Bytes)
    (artifactIdOutLen : Int) : Traced σ WriterCall (Int × Bytes) :=
  match sourceKind, content with
  | some sourceKind, some content =>
    if evidenceKindAllowed (some sourceKind) then do
      let contentHash := evidenceContentHash sourceKind content
      let payload := snprintf 1280 <|
        eventPayloadText sourceKind scopeKind scopeId contentHash (jsonEscapeInto (some content) 1024)
      match ← handOver env (.writeEvidence sourceKind scopeKind scopeId operatorId contentHash payload) with
      | none => pure (-1, [])
      | some chosen =>
        let id := snprintf 37 chosen
        if id ≠ [] then
          .call fun state =>
            ((), env.synthEnqueue id (env.evidenceEnqueue id (cstr "evidence") state))
        pure (0, idOut artifactIdOutLen id)
    else pure (-1, [])
  | _, _ => pure (-1, [])

def learningEvidenceWriteFeedback (polarity title description operatorId : Option Bytes)
    (artifactIdOutLen : Int) : Traced σ WriterCall (Int × Bytes) :=
  match polarity, title with
  | some polarity, some title => do
    let kind := if polarity = cstr "positive" then cstr "feedback_positive" else cstr "feedback_negative"
    let id ← .read env.artifactGenId
    let payload := buildFeedbackPayload (some polarity) (some title) description 512
    match ← handOver env (.write (snprintf 64 id) kind (cstr "proposed") (cstr "user")
        (operatorId.getD []) (operatorId.getD []) 1 payload) with
    | none => pure (-1, [])
    | some _ => pure (0, idOut artifactIdOutLen (snprintf 64 id))
  | _, _ => pure (-1, [])

end Capture

section Escaping

def escapedLength (text : Bytes) : Nat := (text.flatMap escapeByte).length

/-- The part of a text whose escapes fit a buffer: before each of its bytes
seven bytes are free, and it ends where they are not. -/
def FitsEscaped (len : Nat) (kept text : Bytes) : Prop :=
  kept <+: text ∧ (∀ front, front <+: kept → front ≠ kept → escapedLength front + 7 < len) ∧
    (kept = text ∨ len ≤ escapedLength kept + 7)

theorem FitsEscaped.unique {len : Nat} {kept kept' text : Bytes} (fits : FitsEscaped len kept text)
    (fits' : FitsEscaped len kept' text) : kept = kept' := by
  have noLonger : ∀ {shorter longer : Bytes}, FitsEscaped len shorter text →
      FitsEscaped len longer text → shorter <+: longer → shorter = longer := by
    intro shorter longer short long inFront
    by_contra differ
    have roomLeft := long.2.1 shorter inFront differ
    rcases short.2.2 with all | full
    · subst all
      exact differ (inFront.eq_of_length (Nat.le_antisymm inFront.length_le long.1.length_le))
    · omega
  rcases List.prefix_or_prefix_of_prefix fits.1 fits'.1 with inFront | inFront
  · exact noLonger fits fits' inFront
  · exact (noLonger fits' fits inFront).symm

theorem jsonEscapeLoop_fits (len : Nat) (text front : Bytes)
    (fitted : ∀ before, before <+: front → before ≠ front → escapedLength before + 7 < len) :
    ∃ kept, jsonEscapeLoop len text (front.flatMap escapeByte) = kept.flatMap escapeByte ∧
      FitsEscaped len kept (front ++ text) := by
  induction text generalizing front with
  | nil => exact ⟨front, rfl, by simp, fitted, .inl (List.append_nil front).symm⟩
  | cons byte rest ih =>
      rw [jsonEscapeLoop]
      by_cases room : (front.flatMap escapeByte).length + 7 < len
      · rw [if_pos room]
        have step : front.flatMap escapeByte ++ escapeByte byte =
            (front ++ [byte]).flatMap escapeByte := by simp
        rw [step, show front ++ byte :: rest = front ++ [byte] ++ rest by simp]
        apply ih
        intro before inFront proper
        rcases List.prefix_concat_iff.mp inFront with rfl | earlier
        · exact absurd rfl proper
        · by_cases whole : before = front
          · exact whole ▸ room
          · exact fitted before earlier whole
      · rw [if_neg room]
        exact ⟨front, rfl, List.prefix_append _ _, fitted, .inr (Nat.le_of_not_lt room)⟩

theorem jsonEscapeInto_fits (len : Nat) {text : Bytes} (noNul : 0 ∉ text) :
    ∃ kept, jsonEscapeInto (some text) len = kept.flatMap escapeByte ∧ FitsEscaped len kept text := by
  have run := jsonEscapeLoop_fits len text [] fun before inFront proper =>
    absurd (List.prefix_nil.mp inFront) proper
  rw [jsonEscapeInto, Option.getD_some, cString_eq_self_iff.mpr noNul]
  exact run

theorem hexDigitValue_hexDigit : ∀ value < 16, hexDigitValue (hexDigit value) = some value := by
  decide

theorem escapeByte_unit (byte : UInt8) : JsonUnit (escapeByte byte) [byte] := by
  unfold escapeByte
  split_ifs with special control
  · rcases special with rfl | rfl
    · exact .escape (by decide)
    · exact .escape (by decide)
  · have small : byte.toNat < 32 := UInt8.lt_iff_toNat_lt.mp control
    have digits : hexValueOf [48, 48, hexDigit (byte.toNat / 16), hexDigit (byte.toNat % 16)] =
        some byte.toNat := by
      have high := hexDigitValue_hexDigit (byte.toNat / 16) (by omega)
      have low := hexDigitValue_hexDigit (byte.toNat % 16) (by omega)
      have zero : hexDigitValue 48 = some 0 := by decide
      simp only [hexValueOf, hexValueFrom, List.foldlM_cons, List.foldlM_nil, zero, high, low,
        Option.map_some, Option.bind_eq_bind, Option.bind_some]
      exact congrArg some (by omega)
    have coded : encodeUtf8 byte.toNat = [byte] := by
      rw [encodeUtf8, if_pos (by omega), UInt8.ofNat_toNat]
    exact coded ▸ .unicode rfl digits (by omega)
  · rw [not_or] at special
    exact .plain ⟨UInt8.not_lt.mp control, special.1, special.2⟩

theorem escaped_reads (text tail : Bytes) :
    JsonString (text.flatMap escapeByte ++ 34 :: tail) text tail := by
  induction text with
  | nil => exact .close
  | cons byte rest ih =>
      rw [List.flatMap_cons, List.append_assoc]
      exact .unit (escapeByte_unit byte) ih

end Escaping

end AimeeLearning.Learning
