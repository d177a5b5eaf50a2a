import AimeeLearning.Learning.Proposal
import AimeeLearning.Library.CBuffer
import AimeeLearning.Library.Double

/-! The JSON form of a proposal. Each field is written under its key and read
back under the same key, numbers through doubles and texts into their arrays. -/

set_option autoImplicit false

namespace AimeeLearning.Learning

open Library

/-- `learning_proposal_t` with its arrays. -/
structure ProposalRecord where
  id : Int32
  signalId : Int32
  sink : CharArray 32
  state : CharArray 16
  targetKey : CharArray 256
  targetMemoryId : Int64
  actionJson : CharArray 2048
  evidenceRefs : CharArray 1024
  corroborationCount : Int32
  expiresAt : CharArray 32
  committedAt : CharArray 32
  archiveReason : CharArray 64
  createdAt : CharArray 32
  updatedAt : CharArray 32

namespace ProposalRecord

/-- `memset` to zero. -/
def zero : ProposalRecord where
  id := 0
  signalId := 0
  sink := .zero 32
  state := .zero 16
  targetKey := .zero 256
  targetMemoryId := 0
  actionJson := .zero 2048
  evidenceRefs := .zero 1024
  corroborationCount := 0
  expiresAt := .zero 32
  committedAt := .zero 32
  archiveReason := .zero 64
  createdAt := .zero 32
  updatedAt := .zero 32

/-- The numbers and the texts of the fields. -/
def view (proposal : ProposalRecord) : LearningProposal where
  id := proposal.id.toInt
  signalId := proposal.signalId.toInt
  sink := proposal.sink.text
  state := proposal.state.text
  targetKey := proposal.targetKey.text
  targetMemoryId := proposal.targetMemoryId.toInt
  actionJson := proposal.actionJson.text
  evidenceRefs := proposal.evidenceRefs.text
  corroborationCount := proposal.corroborationCount.toInt
  expiresAt := proposal.expiresAt.text
  committedAt := proposal.committedAt.text
  archiveReason := proposal.archiveReason.text
  createdAt := proposal.createdAt.text
  updatedAt := proposal.updatedAt.text

/-- The string fields under their keys, as the bytes of their arrays. -/
def strings (proposal : ProposalRecord) : List (String × Bytes) :=
  [("sink", proposal.sink.bytes), ("state", proposal.state.bytes),
    ("target_key", proposal.targetKey.bytes), ("action_json", proposal.actionJson.bytes),
    ("evidence_refs", proposal.evidenceRefs.bytes), ("expires_at", proposal.expiresAt.bytes),
    ("committed_at", proposal.committedAt.bytes), ("archive_reason", proposal.archiveReason.bytes),
    ("created_at", proposal.createdAt.bytes), ("updated_at", proposal.updatedAt.bytes)]

def Terminated (proposal : ProposalRecord) : Prop := ∀ entry ∈ proposal.strings, 0 ∈ entry.2

end ProposalRecord

section Writing

def learningProposalToJson : Option ProposalRecord → Option (CJson Double)
  | none => none
  | some proposal =>
      some <| .object
        [(cstr "id", .number (.ofInt proposal.id.toInt)),
          (cstr "signal_id", .number (.ofInt proposal.signalId.toInt)),
          (cstr "sink", .string proposal.sink.text),
          (cstr "state", .string proposal.state.text),
          (cstr "target_key", .string proposal.targetKey.text),
          (cstr "target_memory_id", .number (.ofInt proposal.targetMemoryId.toInt)),
          (cstr "action_json", .string proposal.actionJson.text),
          (cstr "evidence_refs", .string proposal.evidenceRefs.text),
          (cstr "corroboration_count", .number (.ofInt proposal.corroborationCount.toInt)),
          (cstr "expires_at", .string proposal.expiresAt.text),
          (cstr "committed_at", .string proposal.committedAt.text),
          (cstr "archive_reason", .string proposal.archiveReason.text),
          (cstr "created_at", .string proposal.createdAt.text),
          (cstr "updated_at", .string proposal.updatedAt.text)]

end Writing

section Reading

/-- The cast of a double to a signed type of `bits` bits. C leaves open what it
gives where the integer part does not fit. -/
def castDouble {α : Type} (bits : Nat) (ofInt : Int → α) (unfit : Double → α) (value : Double) : α :=
  match value.truncate with
  | some whole => if -2 ^ (bits - 1) ≤ whole ∧ whole < 2 ^ (bits - 1) then ofInt whole else unfit value
  | none => unfit value

def ljsonCopyStr {cap : Nat} [NeZero cap] (obj : CJson Double) (key : String) (dst : CharArray cap) :
    CharArray cap :=
  match obj.getString key with
  | some text => dst.print (cString text)
  | none => dst.clear

variable (unfit32 : Double → Int32) (unfit64 : Double → Int64)

def castInt : Double → Int32 := castDouble 32 Int32.ofInt unfit32

def castInt64 : Double → Int64 := castDouble 64 Int64.ofInt unfit64

/-- The return code and `out` afterwards; NULL is none. -/
def learningProposalFromJson (obj : Option (CJson Double)) (out : Option ProposalRecord) :
    Int × Option ProposalRecord :=
  match obj, out with
  | some src, some _ =>
      let out := ProposalRecord.zero
      match src.getNumber "id" with
      | none => (-1, some out)
      | some id =>
          (0, some
            { id := castInt unfit32 id
              signalId := ((src.getNumber "signal_id").map (castInt unfit32)).getD 0
              targetMemoryId := ((src.getNumber "target_memory_id").map (castInt64 unfit64)).getD 0
              corroborationCount :=
                ((src.getNumber "corroboration_count").map (castInt unfit32)).getD 0
              sink := ljsonCopyStr src "sink" out.sink
              state := ljsonCopyStr src "state" out.state
              targetKey := ljsonCopyStr src "target_key" out.targetKey
              actionJson := ljsonCopyStr src "action_json" out.actionJson
              evidenceRefs := ljsonCopyStr src "evidence_refs" out.evidenceRefs
              expiresAt := ljsonCopyStr src "expires_at" out.expiresAt
              committedAt := ljsonCopyStr src "committed_at" out.committedAt
              archiveReason := ljsonCopyStr src "archive_reason" out.archiveReason
              createdAt := ljsonCopyStr src "created_at" out.createdAt
              updatedAt := ljsonCopyStr src "updated_at" out.updatedAt })
  | _, out => (-1, out)

end Reading

section Strings

variable {cap : Nat} [NeZero cap] {obj : CJson Double} {key : String}

/-- An array that is terminated and holds a prefix of the member's string, or nothing. -/
def FilledFrom (obj : CJson Double) (key : String) (bytes : Bytes) : Prop :=
  0 ∈ bytes ∧
    (cString bytes = [] ∨ ∃ text, obj.getString key = some text ∧ cString bytes <+: cString text)

theorem ljsonCopyStr_filled (obj : CJson Double) (key : String) (dst : CharArray cap) :
    FilledFrom obj key (ljsonCopyStr obj key dst).bytes := by
  unfold ljsonCopyStr
  split
  · rename_i text found
    have printed := CharArray.text_print (zero_notMem_cString text) dst
    refine ⟨CharArray.terminated_print dst _, .inr ⟨text, found, ?_⟩⟩
    rw [← CharArray.text, printed]
    exact List.take_prefix _ _
  · exact ⟨CharArray.terminated_clear dst, .inl (CharArray.text_clear dst)⟩

theorem ljsonCopyStr_own {source : CharArray cap} (terminated : 0 ∈ source.bytes)
    (found : obj.getString key = some source.text) (dst : CharArray cap) :
    (ljsonCopyStr obj key dst).text = source.text := by
  have free : 0 ∉ source.text := zero_notMem_cString _
  have short := CharArray.length_text_lt terminated
  rw [ljsonCopyStr, found]
  simp only [cString_eq_self_iff.mpr free]
  rw [CharArray.text_print free, List.take_of_length_le (by omega)]

end Strings

section Numbers

theorem castInt_ofInt (unfit : Double → Int32) (value : Int32) :
    castInt unfit (.ofInt value.toInt) = value := by
  have lower := value.le_toInt
  have upper := value.toInt_lt
  rw [castInt, castDouble, Double.truncate_ofInt (by omega)]
  simp only
  rw [if_pos ⟨by omega, by omega⟩, Int32.ofInt_toInt]

theorem castInt64_ofInt (unfit : Double → Int64) {value : Int64}
    (small : value.toInt.natAbs ≤ 2 ^ 53) : castInt64 unfit (.ofInt value.toInt) = value := by
  rw [castInt64, castDouble, Double.truncate_ofInt small]
  simp only
  rw [if_pos ⟨by omega, by omega⟩, Int64.ofInt_toInt]

end Numbers

variable (unfit32 : Double → Int32) (unfit64 : Double → Int64)

theorem learningProposalFromJson_fills (obj : CJson Double) (out : ProposalRecord) :
    (learningProposalFromJson unfit32 unfit64 (some obj) (some out)).1 = -1 ∨
      ∃ read, learningProposalFromJson unfit32 unfit64 (some obj) (some out) = (0, some read) ∧
        ∀ entry ∈ read.strings, FilledFrom obj entry.1 entry.2 := by
  rw [learningProposalFromJson]
  cases obj.getNumber "id" with
  | none => exact .inl rfl
  | some id =>
      refine .inr ⟨_, rfl, ?_⟩
      intro entry member
      simp only [ProposalRecord.strings, List.mem_cons, List.not_mem_nil, or_false] at member
      rcases member with rfl | rfl | rfl | rfl | rfl | rfl | rfl | rfl | rfl | rfl
      all_goals exact ljsonCopyStr_filled _ _ _

theorem learningProposalFromJson_toJson {proposal : ProposalRecord}
    (terminated : proposal.Terminated) (exactly : proposal.targetMemoryId.toInt.natAbs ≤ 2 ^ 53)
    (out : ProposalRecord) :
    ∃ read, learningProposalFromJson unfit32 unfit64 (learningProposalToJson (some proposal))
        (some out) = (0, some read) ∧ read.view = proposal.view := by
  have own : ∀ entry ∈ proposal.strings, 0 ∈ entry.2 := terminated
  simp only [ProposalRecord.strings, List.forall_mem_cons, List.not_mem_nil, false_imp_iff,
    implies_true, and_true] at own
  obtain ⟨sink, state, targetKey, actionJson, evidenceRefs, expiresAt, committedAt, archiveReason,
    createdAt, updatedAt⟩ := own
  refine ⟨_, rfl, ?_⟩
  simp only [ProposalRecord.view, LearningProposal.mk.injEq]
  refine ⟨?_, ?_, ?_, ?_, ?_, ?_, ?_, ?_, ?_, ?_, ?_, ?_, ?_, ?_⟩
  · exact congrArg Int32.toInt (castInt_ofInt unfit32 proposal.id)
  · exact congrArg Int32.toInt (castInt_ofInt unfit32 proposal.signalId)
  · exact ljsonCopyStr_own sink rfl _
  · exact ljsonCopyStr_own state rfl _
  · exact ljsonCopyStr_own targetKey rfl _
  · exact congrArg Int64.toInt (castInt64_ofInt unfit64 exactly)
  · exact ljsonCopyStr_own actionJson rfl _
  · exact ljsonCopyStr_own evidenceRefs rfl _
  · exact congrArg Int32.toInt (castInt_ofInt unfit32 proposal.corroborationCount)
  · exact ljsonCopyStr_own expiresAt rfl _
  · exact ljsonCopyStr_own committedAt rfl _
  · exact ljsonCopyStr_own archiveReason rfl _
  · exact ljsonCopyStr_own createdAt rfl _
  · exact ljsonCopyStr_own updatedAt rfl _

/-- Reading back what was written gives the proposal, and reading any object fails
or leaves terminated prefixes of its strings. -/
theorem proposal_json_round_trip {proposal : ProposalRecord} (terminated : proposal.Terminated)
    (exactly : proposal.targetMemoryId.toInt.natAbs ≤ 2 ^ 53) :
    (∀ out, ∃ read, learningProposalFromJson unfit32 unfit64
        (learningProposalToJson (some proposal)) (some out) = (0, some read) ∧
        read.view = proposal.view) ∧
      ∀ members out,
        (learningProposalFromJson unfit32 unfit64 (some (.object members)) (some out)).1 = -1 ∨
          ∃ read, learningProposalFromJson unfit32 unfit64 (some (.object members)) (some out) =
              (0, some read) ∧
            ∀ entry ∈ read.strings, FilledFrom (.object members) entry.1 entry.2 :=
  ⟨learningProposalFromJson_toJson unfit32 unfit64 terminated exactly,
    fun members => learningProposalFromJson_fills unfit32 unfit64 (.object members)⟩

def numberedProposal : ProposalRecord :=
  { ProposalRecord.zero with
    id := -2147483648
    sink := (CharArray.zero 32).print (cstr "rule")
    targetMemoryId := 9007199254740992 }

theorem numberedProposal_terminated : numberedProposal.Terminated := by
  intro entry member
  simp only [ProposalRecord.strings, List.mem_cons, List.not_mem_nil, or_false] at member
  rcases member with rfl | rfl | rfl | rfl | rfl | rfl | rfl | rfl | rfl | rfl
  · exact CharArray.terminated_print _ _
  all_goals exact CharArray.terminated_zero

/-- The least id and the largest memory id that a double takes exactly. -/
theorem proposal_json_round_trip_extreme :
    (∀ out, ∃ read, learningProposalFromJson (fun _ => 0) (fun _ => 0)
        (learningProposalToJson (some numberedProposal)) (some out) = (0, some read) ∧
        read.view = numberedProposal.view) ∧
      ∀ members out,
        (learningProposalFromJson (fun _ => 0) (fun _ => 0) (some (.object members)) (some out)).1 =
            -1 ∨
          ∃ read, learningProposalFromJson (fun _ => 0) (fun _ => 0) (some (.object members))
              (some out) = (0, some read) ∧
            ∀ entry ∈ read.strings, FilledFrom (.object members) entry.1 entry.2 :=
  proposal_json_round_trip _ _ numberedProposal_terminated (by decide)

end AimeeLearning.Learning
