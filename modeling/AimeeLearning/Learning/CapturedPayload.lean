import AimeeLearning.Learning.EvidenceCapture
import AimeeLearning.Library.Utf8

/-! Which captured payloads are well formed: texts that go in as they are must
not end their strings, a cut must fall between characters, and the buffer must
hold the end of the object. -/

set_option autoImplicit false

namespace AimeeLearning.Learning

open Library

section WellFormed

/-- A text argument: a C string in UTF-8. -/
structure Utf8Text where
  bytes : Bytes
  valid : ValidUtf8 bytes
  noNul : 0 ∉ bytes

/-- A JSON object in UTF-8 that gives fields their texts, and one field a
prefix of its text. -/
def WellFormedPayload (payload : Bytes) (fields : List (String × Bytes)) (cutField : String)
    (cutText : Bytes) : Prop :=
  ValidUtf8 payload ∧ ∃ value, IsJsonText payload value ∧
    (∀ field ∈ fields, value.member (cstr field.1) = some (.string field.2)) ∧
    ∃ front, front <+: cutText ∧ value.member (cstr cutField) = some (.string front)

theorem evidenceKinds_plain : ∀ kind ∈ evidenceKinds, PlainText kind ∧ ValidUtf8 kind := by
  decide +kernel

theorem hexDigit_plain : ∀ value < 16, IsPlain (hexDigit value) ∧ hexDigit value < 0x80 := by
  decide

theorem hex16_plain (value : UInt64) : PlainText (hex16 value) ∧ ValidUtf8 (hex16 value) := by
  have digit : ∀ byte ∈ hex16 value, IsPlain byte ∧ byte < 0x80 := by
    intro byte member
    obtain ⟨position, -, rfl⟩ := List.mem_map.mp member
    exact hexDigit_plain _ (Nat.mod_lt _ (by decide))
  exact ⟨fun byte member => (digit byte member).1, validUtf8_ascii fun byte member => (digit byte member).2⟩

theorem escaped_validUtf8_iff (text : Bytes) : ValidUtf8 (text.flatMap escapeByte) ↔ ValidUtf8 text := by
  apply validUtf8_flatMap_iff
  · intro byte ascii
    unfold escapeByte
    split_ifs with special control
    · simp [ascii]
    · have small : byte.toNat < 32 := UInt8.lt_iff_toNat_lt.mp control
      have high := (hexDigit_plain (byte.toNat / 16) (by omega)).2
      have low := (hexDigit_plain (byte.toNat % 16) (by omega)).2
      simp [high, low]
    · simp [ascii]
  · intro byte high
    have aboveAscii : ¬ byte < 32 := fun low => high (UInt8.lt_trans low (by decide))
    have noSpecial : ¬ (byte = 34 ∨ byte = 92) := by
      rintro (rfl | rfl)
      · exact high (by decide)
      · exact high (by decide)
    rw [escapeByte, if_neg noSpecial, if_neg aboveAscii]

variable (sourceKind : Bytes) (scopeKind scopeId : Option Bytes) (contentHash escaped : Bytes)

theorem eventPayloadText_members :
    eventPayloadText sourceKind scopeKind scopeId contentHash escaped =
      123 :: stringMember (cstr "source_kind") (sourceKind ++ 34 :: 44 ::
        stringMember (cstr "scope_kind") (scopeKind.getD (cstr "user") ++ 34 :: 44 ::
          stringMember (cstr "scope_id") (scopeId.getD [] ++ 34 :: 44 ::
            stringMember (cstr "content_hash") (contentHash ++ 34 :: 44 ::
              stringMember (cstr "content") (escaped ++ 34 :: [125]))))) := by
  simp [eventPayloadText, stringMember, cstr]

theorem length_eventPayloadText :
    (eventPayloadText sourceKind scopeKind scopeId contentHash escaped).length =
      79 + sourceKind.length + (scopeKind.getD (cstr "user")).length + (scopeId.getD []).length +
        contentHash.length + escaped.length := by
  simp only [eventPayloadText, List.length_append]
  simp [cstr]
  omega

theorem plain_keys : ∀ key ∈ ["source_kind", "scope_kind", "scope_id", "content_hash", "content",
    "polarity", "title", "description"], PlainText (cstr key) := by
  decide +kernel

theorem keys_valid : ∀ key ∈ ["source_kind", "scope_kind", "scope_id", "content_hash", "content",
    "polarity", "title", "description"], ValidUtf8 (cstr key) := by
  decide +kernel

theorem validUtf8_quoted_iff {own tail : Bytes} :
    ValidUtf8 (own ++ 34 :: tail) ↔ ValidUtf8 own ∧ ValidUtf8 tail :=
  validUtf8_append_ascii_iff (by decide)

theorem validUtf8_stringMember_iff {key text : Bytes} (keyValid : ValidUtf8 key) :
    ValidUtf8 (stringMember key text) ↔ ValidUtf8 text := by
  rw [stringMember, validUtf8_cons_iff (by decide), validUtf8_quoted_iff, and_iff_right keyValid,
    validUtf8_cons_iff (by decide), validUtf8_cons_iff (by decide)]

theorem lookup_other {key other : Bytes} {value : Json} {more : List (Bytes × Json)}
    (differ : key ≠ other) : ((other, value) :: more).lookup key = more.lookup key := by
  rw [List.lookup_cons, beq_false_of_ne differ]

variable {sourceKind scopeKind scopeId contentHash}

def eventMembers (sourceKind scopeKind scopeId contentHash content : Bytes) : List (Bytes × Json) :=
  [(cstr "source_kind", .string sourceKind), (cstr "scope_kind", .string scopeKind),
    (cstr "scope_id", .string scopeId), (cstr "content_hash", .string contentHash),
    (cstr "content", .string content)]

theorem eventPayloadText_reads_iff (kept : Bytes) {rest : Bytes} {value : Json}
    (kindPlain : PlainText sourceKind) (hashPlain : PlainText contentHash) :
    (JsonReads (eventPayloadText sourceKind scopeKind scopeId contentHash (kept.flatMap escapeByte))
        (.value value) rest ∧
      value.member (cstr "scope_kind") = some (.string (scopeKind.getD (cstr "user"))) ∧
      value.member (cstr "scope_id") = some (.string (scopeId.getD []))) ↔
    PlainText (scopeKind.getD (cstr "user")) ∧ PlainText (scopeId.getD []) ∧ rest = [] ∧
      value = .object (eventMembers sourceKind (scopeKind.getD (cstr "user")) (scopeId.getD [])
        contentHash kept) := by
  have kindKey := plain_keys "source_kind" (by decide)
  have scopeKindKey := plain_keys "scope_kind" (by decide)
  have scopeIdKey := plain_keys "scope_id" (by decide)
  have hashKey := plain_keys "content_hash" (by decide)
  have contentKey := plain_keys "content" (by decide)
  have kindReads := JsonString.of_plain kindPlain
  have hashReads := JsonString.of_plain hashPlain
  have contentReads := escaped_reads kept [125]
  have differ : cstr "scope_kind" ≠ cstr "source_kind" ∧ cstr "scope_id" ≠ cstr "source_kind" ∧
      cstr "scope_id" ≠ cstr "scope_kind" := by decide +kernel
  rw [eventPayloadText_members, reads_object_iff]
  constructor
  · rintro ⟨⟨members, rfl, read⟩, scopeKindFound, scopeIdFound⟩
    obtain ⟨behindKind, rfl, scopeKindNext⟩ := (reads_known_member_iff kindKey (kindReads _)).mp read
    rw [Json.member, lookup_other differ.1] at scopeKindFound
    rw [Json.member, lookup_other differ.2.1] at scopeIdFound
    obtain ⟨scopeKindPlain, behindScopeKind, rfl, scopeIdNext⟩ :=
      (reads_own_member_iff scopeKindKey).mp ⟨objectContinues_member.mp scopeKindNext, scopeKindFound⟩
    rw [lookup_other differ.2.2] at scopeIdFound
    obtain ⟨scopeIdPlain, behindScopeId, rfl, hashNext⟩ :=
      (reads_own_member_iff scopeIdKey).mp ⟨objectContinues_member.mp scopeIdNext, scopeIdFound⟩
    obtain ⟨behindHash, rfl, contentNext⟩ :=
      (reads_known_member_iff hashKey (hashReads _)).mp (objectContinues_member.mp hashNext)
    obtain ⟨behindContent, rfl, closing⟩ :=
      (reads_known_member_iff contentKey contentReads).mp (objectContinues_member.mp contentNext)
    obtain ⟨rfl, rfl⟩ := objectContinues_close.mp closing
    exact ⟨scopeKindPlain, scopeIdPlain, rfl, rfl⟩
  · rintro ⟨scopeKindPlain, scopeIdPlain, rfl, rfl⟩
    have content := (reads_known_member_iff contentKey contentReads).mpr
      ⟨[], rfl, objectContinues_close.mpr ⟨rfl, rfl⟩⟩
    have hash := (reads_known_member_iff hashKey (hashReads _)).mpr
      ⟨_, rfl, objectContinues_member.mpr content⟩
    have scopeIdRead := (reads_own_member_iff scopeIdKey).mpr
      ⟨scopeIdPlain, _, rfl, objectContinues_member.mpr hash⟩
    have scopeKindRead := (reads_own_member_iff scopeKindKey).mpr
      ⟨scopeKindPlain, _, rfl, objectContinues_member.mpr scopeIdRead.1⟩
    have kindRead := (reads_known_member_iff kindKey (kindReads _)).mpr
      ⟨_, rfl, objectContinues_member.mpr scopeKindRead.1⟩
    refine ⟨⟨_, rfl, kindRead⟩, ?_, ?_⟩
    · rw [Json.member, eventMembers, lookup_other differ.1]
      exact scopeKindRead.2
    · rw [Json.member, eventMembers, lookup_other differ.2.1, lookup_other differ.2.2]
      exact scopeIdRead.2

/-- An event's payload whose content is the escaped `kept`: it is well formed
when nothing in the scope ends its string, the buffer holds all of it and
`kept` ends between characters. -/
theorem eventPayload_wellFormed_iff {kept content : Bytes} (kindPlain : PlainText sourceKind)
    (kindValid : ValidUtf8 sourceKind) (hashPlain : PlainText contentHash)
    (hashValid : ValidUtf8 contentHash) (scopeKindValid : ValidUtf8 (scopeKind.getD (cstr "user")))
    (scopeIdValid : ValidUtf8 (scopeId.getD [])) (inFront : kept <+: content) (len : Nat)
    (positive : 0 < len) :
    WellFormedPayload
        (snprintf len (eventPayloadText sourceKind scopeKind scopeId contentHash (kept.flatMap escapeByte)))
        [("scope_kind", scopeKind.getD (cstr "user")), ("scope_id", scopeId.getD [])]
        "content" content ↔
      PlainText (scopeKind.getD (cstr "user")) ∧ PlainText (scopeId.getD []) ∧
        (eventPayloadText sourceKind scopeKind scopeId contentHash (kept.flatMap escapeByte)).length < len ∧
        ValidUtf8 kept := by
  have validWhole : ValidUtf8 (eventPayloadText sourceKind scopeKind scopeId contentHash
      (kept.flatMap escapeByte)) ↔ ValidUtf8 kept := by
    have keyValid {key : String} (listed) := keys_valid key listed
    rw [eventPayloadText_members, validUtf8_cons_iff (by decide),
      validUtf8_stringMember_iff (keyValid (by decide)), validUtf8_quoted_iff, and_iff_right kindValid,
      validUtf8_cons_iff (by decide), validUtf8_stringMember_iff (keyValid (by decide)),
      validUtf8_quoted_iff, and_iff_right scopeKindValid, validUtf8_cons_iff (by decide),
      validUtf8_stringMember_iff (keyValid (by decide)), validUtf8_quoted_iff,
      and_iff_right scopeIdValid, validUtf8_cons_iff (by decide),
      validUtf8_stringMember_iff (keyValid (by decide)), validUtf8_quoted_iff,
      and_iff_right hashValid, validUtf8_cons_iff (by decide),
      validUtf8_stringMember_iff (keyValid (by decide)), validUtf8_quoted_iff,
      and_iff_left (by decide), escaped_validUtf8_iff]
  have whole := List.take_append_drop (len - 1)
    (eventPayloadText sourceKind scopeKind scopeId contentHash (kept.flatMap escapeByte))
  constructor
  · rintro ⟨valid, value, isText, fields, -⟩
    obtain ⟨space, read, blank⟩ := isText.uncut (whole.trans (eventPayloadText_members ..))
    rw [← eventPayloadText_members] at read
    obtain ⟨scopeKindFound, scopeIdFound⟩ := List.forall_mem_cons.mp fields
    rw [List.forall_mem_singleton] at scopeIdFound
    obtain ⟨scopeKindPlain, scopeIdPlain, ended, -⟩ :=
      (eventPayloadText_reads_iff kept kindPlain hashPlain).mp ⟨read, scopeKindFound, scopeIdFound⟩
    have uncut := (List.append_eq_nil_iff.mp ended).2
    have short := List.drop_eq_nil_iff.mp uncut
    rw [snprintf, List.take_of_length_le short] at valid
    exact ⟨scopeKindPlain, scopeIdPlain, by omega, validWhole.mp valid⟩
  · rintro ⟨scopeKindPlain, scopeIdPlain, short, boundary⟩
    obtain ⟨read, scopeKindFound, scopeIdFound⟩ :=
      (eventPayloadText_reads_iff kept kindPlain hashPlain).mpr
        ⟨scopeKindPlain, scopeIdPlain, rfl, rfl⟩
    rw [snprintf, List.take_of_length_le (by omega)]
    have isText := isJsonText_object_iff.mpr ⟨[], eventPayloadText_members .. ▸ read, rfl⟩
    rw [← eventPayloadText_members] at isText
    refine ⟨validWhole.mpr boundary, _, isText, ?_, kept, inFront, rfl⟩
    rw [List.forall_mem_cons, List.forall_mem_singleton]
    exact ⟨scopeKindFound, scopeIdFound⟩

/-- A feedback payload whose description field is written by `tail`. -/
def feedbackObject (polarity title tail : Bytes) : Bytes :=
  123 :: stringMember (cstr "polarity") (polarity ++ 34 :: 44 ::
    stringMember (cstr "title") (title ++ 34 :: 44 :: stringMember (cstr "description") tail))

theorem feedbackPayloadText_members (polarity title description : Option Bytes) :
    feedbackPayloadText polarity title description =
      feedbackObject (polarity.getD []) (title.getD []) (description.getD [] ++ [34, 125]) := by
  simp [feedbackPayloadText, feedbackObject, stringMember, cstr]

theorem length_feedbackObject (polarity title tail : Bytes) :
    (feedbackObject polarity title tail).length =
      41 + polarity.length + title.length + tail.length := by
  simp only [feedbackObject, stringMember, List.length_cons, List.length_append]
  simp [cstr]
  omega

theorem take_feedbackObject {polarity title tail : Bytes} {len : Nat}
    (room : 41 + polarity.length + title.length ≤ len) :
    (feedbackObject polarity title tail).take len =
      feedbackObject polarity title (tail.take (len - (41 + polarity.length + title.length))) := by
  have split (tail : Bytes) : feedbackObject polarity title tail =
      feedbackObject polarity title [] ++ tail := by simp [feedbackObject, stringMember]
  have frontLength := length_feedbackObject polarity title []
  rw [List.length_nil, Nat.add_zero] at frontLength
  rw [split tail, List.take_append, List.take_of_length_le (by omega), frontLength, ← split]

theorem feedbackObject_reads_iff {polarity title tail rest : Bytes} {value : Json} :
    (JsonReads (feedbackObject polarity title tail) (.value value) rest ∧
      value.member (cstr "polarity") = some (.string polarity) ∧
      value.member (cstr "title") = some (.string title)) ↔
    PlainText polarity ∧ PlainText title ∧ ∃ decoded after more, JsonString tail decoded after ∧
      value = .object ((cstr "polarity", .string polarity) :: (cstr "title", .string title) ::
        (cstr "description", .string decoded) :: more) ∧ ObjectContinues after more rest := by
  have polarityKey := plain_keys "polarity" (by decide)
  have titleKey := plain_keys "title" (by decide)
  have descriptionKey := plain_keys "description" (by decide)
  have differ : cstr "title" ≠ cstr "polarity" := by decide +kernel
  rw [feedbackObject, reads_object_iff]
  constructor
  · rintro ⟨⟨members, rfl, read⟩, polarityFound, titleFound⟩
    obtain ⟨polarityPlain, behindPolarity, rfl, titleNext⟩ :=
      (reads_own_member_iff polarityKey).mp ⟨read, polarityFound⟩
    rw [Json.member, lookup_other differ] at titleFound
    obtain ⟨titlePlain, behindTitle, rfl, descriptionNext⟩ :=
      (reads_own_member_iff titleKey).mp ⟨objectContinues_member.mp titleNext, titleFound⟩
    obtain ⟨decoded, after, more, string, rfl, continues⟩ :=
      (reads_member_iff descriptionKey).mp (objectContinues_member.mp descriptionNext)
    exact ⟨polarityPlain, titlePlain, decoded, after, more, string, rfl, continues⟩
  · rintro ⟨polarityPlain, titlePlain, decoded, after, more, string, rfl, continues⟩
    have description := (reads_member_iff descriptionKey).mpr
      ⟨decoded, after, more, string, rfl, continues⟩
    have titleRead := (reads_own_member_iff titleKey).mpr
      ⟨titlePlain, _, rfl, objectContinues_member.mpr description⟩
    have polarityRead := (reads_own_member_iff polarityKey).mpr
      ⟨polarityPlain, _, rfl, objectContinues_member.mpr titleRead.1⟩
    refine ⟨⟨_, rfl, polarityRead.1⟩, polarityRead.2, ?_⟩
    rw [Json.member, lookup_other differ]
    exact titleRead.2

/-- The description and the end of the object, as far as there is room, read as
a string that starts the description and as the end of an object. -/
def EndsObject (description : Bytes) (room : Nat) : Prop :=
  ValidUtf8 ((description ++ [34, 125]).take room) ∧ ∃ decoded after more space,
    JsonString ((description ++ [34, 125]).take room) decoded after ∧ decoded <+: description ∧
      ObjectContinues after more space ∧ skipSpace space = []

theorem endsObject_plain_iff {description : Bytes} {room : Nat} (plain : PlainText description)
    (valid : ValidUtf8 description) : EndsObject description room ↔ description.length + 2 ≤ room := by
  have whole := JsonString.of_plain plain [125]
  constructor
  · rintro ⟨-, decoded, after, more, space, string, -, continues, -⟩
    have extended := string.extend ((description ++ [34, 125]).drop room)
    rw [List.take_append_drop] at extended
    obtain ⟨-, closing⟩ := whole.unique extended
    cases after with
    | nil => exact absurd continues.length_lt (Nat.not_lt_zero _)
    | cons byte more =>
        have dropped := (List.append_eq_nil_iff.mp (List.cons.inj closing).2.symm).2
        simpa using List.drop_eq_nil_iff.mp dropped
  · intro fits
    have uncut : (description ++ [34, 125]).take room = description ++ [34, 125] :=
      List.take_of_length_le (by simpa using fits)
    rw [EndsObject, uncut]
    exact ⟨validUtf8_quoted_iff.mpr ⟨valid, by decide⟩, description, [125], [], [], whole,
      List.prefix_rfl, objectContinues_close.mpr ⟨rfl, rfl⟩, rfl⟩

theorem feedbackPayload_wellFormed_iff (polarity title description : Option Bytes)
    (polarityValid : ValidUtf8 (polarity.getD [])) (titleValid : ValidUtf8 (title.getD [])) (len : Nat) :
    WellFormedPayload (buildFeedbackPayload polarity title description len)
        [("polarity", polarity.getD []), ("title", title.getD [])] "description" (description.getD []) ↔
      PlainText (polarity.getD []) ∧ PlainText (title.getD []) ∧
        EndsObject (description.getD [])
          (len - 1 - (41 + (polarity.getD []).length + (title.getD []).length)) := by
  have differ : cstr "description" ≠ cstr "polarity" ∧ cstr "description" ≠ cstr "title" := by
    decide +kernel
  have validTail (tail : Bytes) : ValidUtf8 (feedbackObject (polarity.getD []) (title.getD []) tail) ↔
      ValidUtf8 tail := by
    rw [feedbackObject, validUtf8_cons_iff (by decide),
      validUtf8_stringMember_iff (keys_valid "polarity" (by decide)), validUtf8_quoted_iff,
      and_iff_right polarityValid, validUtf8_cons_iff (by decide),
      validUtf8_stringMember_iff (keys_valid "title" (by decide)), validUtf8_quoted_iff,
      and_iff_right titleValid, validUtf8_cons_iff (by decide),
      validUtf8_stringMember_iff (keys_valid "description" (by decide))]
  rw [buildFeedbackPayload, snprintf, feedbackPayloadText_members]
  by_cases room : 41 + (polarity.getD []).length + (title.getD []).length ≤ len - 1
  · rw [take_feedbackObject room]
    constructor
    · rintro ⟨valid, value, isText, fields, front, inFront, found⟩
      obtain ⟨space, read, blank⟩ := isJsonText_object_iff.mp isText
      rw [List.forall_mem_cons, List.forall_mem_singleton] at fields
      obtain ⟨polarityPlain, titlePlain, decoded, after, more, string, rfl, continues⟩ :=
        feedbackObject_reads_iff.mp ⟨read, fields⟩
      rw [Json.member, lookup_other differ.1, lookup_other differ.2, List.lookup_cons_self,
        Option.some.injEq, Json.string.injEq] at found
      exact ⟨polarityPlain, titlePlain, (validTail _).mp valid, decoded, after, more, space, string,
        found ▸ inFront, continues, blank⟩
    · rintro ⟨polarityPlain, titlePlain, valid, decoded, after, more, space, string, inFront, continues,
        blank⟩
      obtain ⟨read, polarityFound, titleFound⟩ := feedbackObject_reads_iff.mpr
        ⟨polarityPlain, titlePlain, decoded, after, more, string, rfl, continues⟩
      have isText := isJsonText_object_iff.mpr ⟨space, read, blank⟩
      refine ⟨(validTail _).mpr valid, _, isText, ?_, decoded, inFront, ?_⟩
      · rw [List.forall_mem_cons, List.forall_mem_singleton]
        exact ⟨polarityFound, titleFound⟩
      · rw [Json.member, lookup_other differ.1, lookup_other differ.2, List.lookup_cons_self]
  · constructor
    · -- the cut falls in front of the description, so what was cut off would have to be read
      rintro ⟨-, value, isText, fields, -⟩
      obtain ⟨space, read, -⟩ := isText.uncut (List.take_append_drop (len - 1) _)
      rw [List.forall_mem_cons, List.forall_mem_singleton] at fields
      obtain ⟨-, -, decoded, after, more, string, -, continues⟩ :=
        feedbackObject_reads_iff.mp ⟨read, fields⟩
      have shorter := continues.length_lt
      have shorterStill := string.length_lt
      rw [List.length_append, List.length_drop, length_feedbackObject] at shorter
      omega
    · rintro ⟨-, -, -, decoded, after, more, space, string, -⟩
      rw [show len - 1 - (41 + (polarity.getD []).length + (title.getD []).length) = 0 by omega,
        List.take_zero] at string
      exact absurd string.length_lt (Nat.not_lt_zero _)

end WellFormed

section Captured

structure EventFits (sourceKind scopeKind scopeId content : Bytes) : Prop where
  scopeKindPlain : PlainText scopeKind
  scopeIdPlain : PlainText scopeId
  contentFits : ∃ kept, FitsEscaped 1024 kept content ∧ ValidUtf8 kept ∧
    95 + sourceKind.length + scopeKind.length + scopeId.length + escapedLength kept < 1280

/-- The condition on feedback. A description with a quote or a backslash of its
own is fine only where it happens to end the object itself. -/
structure FeedbackFits (polarity title description : Bytes) : Prop where
  polarityPlain : PlainText polarity
  titlePlain : PlainText title
  descriptionFits : PlainText description ∧
      43 + polarity.length + title.length + description.length < 512 ∨
    ¬ PlainText description ∧ EndsObject description (470 - (polarity.length + title.length))

theorem optionalText_valid (text : Option Utf8Text) : ValidUtf8 ((text.map (·.bytes)).getD []) := by
  cases text with
  | none => rfl
  | some text => exact text.valid

theorem eventPayload_fits_iff {sourceKind : Bytes} (allowed : sourceKind ∈ evidenceKinds)
    (scopeKind scopeId : Option Utf8Text) (content : Utf8Text) :
    WellFormedPayload
        (snprintf 1280 (eventPayloadText sourceKind (scopeKind.map (·.bytes)) (scopeId.map (·.bytes))
          (evidenceContentHash sourceKind content.bytes) (jsonEscapeInto (some content.bytes) 1024)))
        [("scope_kind", (scopeKind.map (·.bytes)).getD (cstr "user")),
          ("scope_id", (scopeId.map (·.bytes)).getD [])] "content" content.bytes ↔
      EventFits sourceKind ((scopeKind.map (·.bytes)).getD (cstr "user"))
        ((scopeId.map (·.bytes)).getD []) content.bytes := by
  obtain ⟨kindPlain, kindValid⟩ := evidenceKinds_plain _ allowed
  have scopeKindValid : ValidUtf8 ((scopeKind.map (·.bytes)).getD (cstr "user")) := by
    cases scopeKind with
    | none => decide +kernel
    | some text => exact text.valid
  obtain ⟨kept, escaped, fits⟩ := jsonEscapeInto_fits 1024 content.noNul
  have hashPlain : PlainText (evidenceContentHash sourceKind content.bytes) := (hex16_plain _).1
  have hashValid : ValidUtf8 (evidenceContentHash sourceKind content.bytes) := (hex16_plain _).2
  have hashLength : (evidenceContentHash sourceKind content.bytes).length = 16 := by
    simp [evidenceContentHash, hex16]
  rw [escaped, eventPayload_wellFormed_iff kindPlain kindValid hashPlain hashValid scopeKindValid
    (optionalText_valid scopeId) fits.1 1280 (by decide), length_eventPayloadText, hashLength,
    ← escapedLength]
  constructor
  · rintro ⟨scopeKindPlain, scopeIdPlain, short, boundary⟩
    exact ⟨scopeKindPlain, scopeIdPlain, kept, fits, boundary, by omega⟩
  · rintro ⟨scopeKindPlain, scopeIdPlain, kept', fits', boundary, short⟩
    obtain rfl := fits.unique fits'
    exact ⟨scopeKindPlain, scopeIdPlain, by omega, boundary⟩

theorem feedbackPayload_fits_iff (polarity title : Utf8Text) (description : Option Utf8Text) :
    WellFormedPayload
        (buildFeedbackPayload (some polarity.bytes) (some title.bytes) (description.map (·.bytes)) 512)
        [("polarity", polarity.bytes), ("title", title.bytes)]
        "description" ((description.map (·.bytes)).getD []) ↔
      FeedbackFits polarity.bytes title.bytes ((description.map (·.bytes)).getD []) := by
  have wellFormed := feedbackPayload_wellFormed_iff (some polarity.bytes) (some title.bytes)
    (description.map (·.bytes)) polarity.valid title.valid 512
  rw [Option.getD_some, Option.getD_some] at wellFormed
  rw [wellFormed, show 512 - 1 - (41 + polarity.bytes.length + title.bytes.length) =
    470 - (polarity.bytes.length + title.bytes.length) by omega]
  by_cases plain : PlainText ((description.map (·.bytes)).getD [])
  · rw [endsObject_plain_iff plain (optionalText_valid description)]
    constructor
    · rintro ⟨polarityPlain, titlePlain, room⟩
      exact ⟨polarityPlain, titlePlain, .inl ⟨plain, by omega⟩⟩
    · rintro ⟨polarityPlain, titlePlain, ⟨-, short⟩ | ⟨notPlain, -⟩⟩
      · exact ⟨polarityPlain, titlePlain, by omega⟩
      · exact absurd plain notPlain
  · constructor
    · rintro ⟨polarityPlain, titlePlain, ends⟩
      exact ⟨polarityPlain, titlePlain, .inr ⟨plain, ends⟩⟩
    · rintro ⟨polarityPlain, titlePlain, ⟨isPlain, -⟩ | ⟨-, ends⟩⟩
      · exact absurd isPlain plain
      · exact ⟨polarityPlain, titlePlain, ends⟩

variable {σ : Type} (env : CaptureEnv σ) (state : σ) (operatorId : Option Bytes) (idOutLen : Int)

def capturedPayloads (capture : Traced σ WriterCall (Int × Bytes)) : List Bytes :=
  (capture.run state).2.2.map WriterCall.payload

/-- A store that gives every artifact the same id. -/
def idleCapture : CaptureEnv Unit where
  artifactGenId _ := cstr "a"
  artifactWriter _ _ := (some (cstr "a"), ())
  evidenceEnqueue _ _ _ := ()
  synthEnqueue _ _ := ()

theorem capturedPayloads_handOver {call : WriterCall} {next : Option Bytes → Traced σ WriterCall (Int × Bytes)}
    (quiet : ∀ answer state, ((next answer).run state).2.2 = []) :
    capturedPayloads state (handOver env call >>= next) = [call.payload] := by
  have silent := quiet (env.artifactWriter call state).1 (env.artifactWriter call state).2
  simp [capturedPayloads, handOver, bind, Traced.emit, Traced.call, silent]

theorem capturedPayloads_event {sourceKind : Bytes} (allowed : sourceKind ∈ evidenceKinds)
    (scopeKind scopeId : Option Bytes) (content : Bytes) :
    capturedPayloads state (learningEvidenceWriteEvent env (some sourceKind) scopeKind scopeId
        (some content) operatorId idOutLen) =
      [snprintf 1280 (eventPayloadText sourceKind scopeKind scopeId
        (evidenceContentHash sourceKind content) (jsonEscapeInto (some content) 1024))] := by
  have permitted : evidenceKindAllowed (some sourceKind) = true := by
    simpa [evidenceKindAllowed] using allowed
  simp only [learningEvidenceWriteEvent, permitted, if_true]
  apply capturedPayloads_handOver
  intro answer state
  cases answer with
  | none => rfl
  | some chosen =>
      by_cases named : snprintf 37 chosen ≠ []
      · simp [named, bind, Traced.call, pure]
      · simp [named, pure]

theorem capturedPayloads_feedback (polarity title : Bytes) (description : Option Bytes) :
    capturedPayloads state (learningEvidenceWriteFeedback env (some polarity) (some title) description
        operatorId idOutLen) =
      [buildFeedbackPayload (some polarity) (some title) description 512] := by
  have reading (next : Bytes → Traced σ WriterCall (Int × Bytes)) :
      capturedPayloads state (.read env.artifactGenId >>= next) =
        capturedPayloads state (next (env.artifactGenId state)) := rfl
  rw [learningEvidenceWriteFeedback, reading]
  apply capturedPayloads_handOver
  intro answer state
  cases answer <;> rfl

/-- Each capture hands over one payload; it is well formed exactly when the
texts that go in as they are stay inside their strings, the buffer holds the
whole object and no character is cut. -/
theorem captured_payload_wellFormed_iff :
    (∀ (sourceKind : { kind // kind ∈ evidenceKinds }) (scopeKind scopeId : Option Utf8Text)
        (content : Utf8Text),
      (∃ payload,
        capturedPayloads state (learningEvidenceWriteEvent env (some sourceKind.val)
          (scopeKind.map (·.bytes)) (scopeId.map (·.bytes)) (some content.bytes) operatorId idOutLen) =
            [payload] ∧
          WellFormedPayload payload
            [("scope_kind", (scopeKind.map (·.bytes)).getD (cstr "user")),
              ("scope_id", (scopeId.map (·.bytes)).getD [])] "content" content.bytes) ↔
        EventFits sourceKind.val ((scopeKind.map (·.bytes)).getD (cstr "user"))
          ((scopeId.map (·.bytes)).getD []) content.bytes) ∧
    ∀ (polarity title : Utf8Text) (description : Option Utf8Text),
      (∃ payload,
        capturedPayloads state (learningEvidenceWriteFeedback env (some polarity.bytes)
          (some title.bytes) (description.map (·.bytes)) operatorId idOutLen) = [payload] ∧
          WellFormedPayload payload [("polarity", polarity.bytes), ("title", title.bytes)]
            "description" ((description.map (·.bytes)).getD [])) ↔
        FeedbackFits polarity.bytes title.bytes ((description.map (·.bytes)).getD []) := by
  constructor
  · intro sourceKind scopeKind scopeId content
    rw [capturedPayloads_event env state operatorId idOutLen sourceKind.property,
      ← eventPayload_fits_iff sourceKind.property scopeKind scopeId content]
    simp only [List.cons.injEq, and_true, exists_eq_left']
  · intro polarity title description
    rw [capturedPayloads_feedback, ← feedbackPayload_fits_iff polarity title description]
    simp only [List.cons.injEq, and_true, exists_eq_left']

/-- A quote in a scope's id, and one in a title. -/
theorem captured_payload_not_wellFormed :
    (¬ ∃ payload,
      capturedPayloads () (learningEvidenceWriteEvent idleCapture (some (cstr "tool_outcome"))
        (some (cstr "user")) (some (cstr "a\"b")) (some (cstr "done")) none 37) = [payload] ∧
        WellFormedPayload payload [("scope_kind", cstr "user"), ("scope_id", cstr "a\"b")]
          "content" (cstr "done")) ∧
    ¬ ∃ payload,
      capturedPayloads () (learningEvidenceWriteFeedback idleCapture (some (cstr "positive"))
        (some (cstr "say \"hi\"")) none none 37) = [payload] ∧
        WellFormedPayload payload [("polarity", cstr "positive"), ("title", cstr "say \"hi\"")]
          "description" [] := by
  constructor
  · rintro ⟨payload, handed, good⟩
    rw [capturedPayloads_event idleCapture () none 37 (by decide +kernel)] at handed
    rw [← (List.cons.inj handed).1] at good
    have fits := (eventPayload_fits_iff (by decide +kernel)
      (some ⟨cstr "user", by decide +kernel, by decide +kernel⟩)
      (some ⟨cstr "a\"b", by decide +kernel, by decide +kernel⟩)
      ⟨cstr "done", by decide +kernel, by decide +kernel⟩).mp good
    exact absurd fits.scopeIdPlain (by decide +kernel)
  · rintro ⟨payload, handed, good⟩
    rw [capturedPayloads_feedback] at handed
    rw [← (List.cons.inj handed).1] at good
    have fits := (feedbackPayload_fits_iff ⟨cstr "positive", by decide +kernel, by decide +kernel⟩
      ⟨cstr "say \"hi\"", by decide +kernel, by decide +kernel⟩ none).mp good
    exact absurd fits.titlePlain (by decide +kernel)

end Captured

end AimeeLearning.Learning
