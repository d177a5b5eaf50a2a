import AimeeLearning.Learning.EvidenceCapture
import AimeeLearning.Library.StepHash
import AimeeLearning.Library.Table

/-! Evidence is kept under its kind and the hash of its content: over any run of
captures the same content comes back as the artifact it already is, and contents
are confused only where the hash confuses them, which it never does for one byte. -/

set_option autoImplicit false

namespace AimeeLearning.Learning

open Library

section Hash

theorem fnvPrime_cancels {left right : UInt64}
    (same : left * 1099511628211 = right * 1099511628211) : left = right := by
  have unit : (1099511628211 : UInt64) * 14886173955864302971 = 1 := by decide
  have undone := congrArg (· * (14886173955864302971 : UInt64)) same
  simpa only [UInt64.mul_assoc, unit, UInt64.mul_one] using undone

theorem fnvStep_lossless : Lossless fnvStep where
  state byte left right same := by
    have mixed : left ^^^ byte.toUInt64 = right ^^^ byte.toUInt64 := fnvPrime_cancels same
    simpa using mixed
  symbol hash left right same := by
    have mixed : hash ^^^ left.toUInt64 = hash ^^^ right.toUInt64 := fnvPrime_cancels same
    have wide : left.toUInt64 = right.toUInt64 := by simpa using mixed
    exact UInt8.toNat_inj.mp (by simpa using congrArg UInt64.toNat wide)

theorem hexDigit_injective {left right : Nat} (low : left < 16) (small : right < 16)
    (same : hexDigit left = hexDigit right) : left = right := by
  have read := congrArg hexDigitValue same
  rw [hexDigitValue_hexDigit left low, hexDigitValue_hexDigit right small] at read
  exact Option.some.inj read

/-- A number is known by its low digits in base sixteen. -/
theorem eq_of_digits {left right : Nat} (count : Nat) (low : left < 16 ^ count)
    (small : right < 16 ^ count)
    (same : ∀ position < count, left / 16 ^ position % 16 = right / 16 ^ position % 16) :
    left = right := by
  induction count generalizing left right with
  | zero => omega
  | succ count ih =>
      have first := same 0 (by omega)
      rw [pow_zero, Nat.div_one, Nat.div_one] at first
      have rest : left / 16 = right / 16 := by
        rw [pow_succ'] at low small
        refine ih (Nat.div_lt_of_lt_mul low) (Nat.div_lt_of_lt_mul small) fun position inside => ?_
        have later := same (position + 1) (by omega)
        rwa [pow_succ', ← Nat.div_div_eq_div_mul, ← Nat.div_div_eq_div_mul] at later
      omega

theorem hex16_injective : Function.Injective hex16 := by
  intro left right same
  refine UInt64.toNat_inj.mp (eq_of_digits 16 left.toNat_lt right.toNat_lt fun position inside => ?_)
  have here := List.map_inj_left.mp same (15 - position) (List.mem_range.mpr (by omega))
  rw [show 15 - (15 - position) = position by omega] at here
  exact hexDigit_injective (Nat.mod_lt _ (by decide)) (Nat.mod_lt _ (by decide)) here

/-- Contents that end alike hash alike exactly when they do without the common end. -/
theorem evidenceContentHash_tail {kind front other : Bytes} (tail : Bytes) :
    evidenceContentHash kind (front ++ tail) = evidenceContentHash kind (other ++ tail) ↔
      evidenceContentHash kind front = evidenceContentHash kind other := by
  simp only [evidenceContentHash, hex16_injective.eq_iff]
  exact fnvStep_lossless.foldl_tail tail

/-- A changed byte changes the hash. -/
theorem evidenceContentHash_changed {kind : Bytes} (front : Bytes) {byte other : UInt8}
    (tail : Bytes) : evidenceContentHash kind (front ++ byte :: tail) =
      evidenceContentHash kind (front ++ other :: tail) ↔ byte = other := by
  simp only [evidenceContentHash, hex16_injective.eq_iff]
  exact fnvStep_lossless.foldl_changed front tail

end Hash

section Captures

variable {σ : Type}

/-- A call of the capture API. -/
inductive CaptureOp where
  | event (sourceKind scopeKind scopeId content operatorId : Option Bytes) (artifactIdOutLen : Int)
  | feedback (polarity title description operatorId : Option Bytes) (artifactIdOutLen : Int)
  deriving DecidableEq

def runCaptureOp (env : CaptureEnv σ) : CaptureOp → Traced σ WriterCall (Int × Bytes)
  | .event sourceKind scopeKind scopeId content operatorId artifactIdOutLen =>
      learningEvidenceWriteEvent env sourceKind scopeKind scopeId content operatorId artifactIdOutLen
  | .feedback polarity title description operatorId artifactIdOutLen =>
      learningEvidenceWriteFeedback env polarity title description operatorId artifactIdOutLen

/-- A call with the artifacts it handed over, its result and the id it left. -/
structure Captured where
  op : CaptureOp
  calls : List WriterCall
  result : Int
  id : Bytes
  deriving DecidableEq

def captureMachine (env : CaptureEnv σ) : Machine σ CaptureOp Captured where
  step state op :=
    let (answer, next, calls) := (runCaptureOp env op).run state
    some (next, [⟨op, calls, answer.1, answer.2⟩])

/-- A row of the artifact table; feedback is kept without a hash. -/
structure Artifact where
  id : Bytes
  kind : Bytes
  contentHash : Option Bytes
  payload : Bytes
  deriving DecidableEq

/-- The artifact of a key. -/
def Artifact.keyed (kind contentHash : Bytes) (artifact : Artifact) : Prop :=
  artifact.kind = kind ∧ artifact.contentHash = some contentHash

/-- What the writer does with an artifact: it answers one it has under the key, or
adds it under a new id, or fails. -/
inductive Written (before : List Artifact) : WriterCall → Option Bytes → List Artifact → Prop where
  | failed (call : WriterCall) : Written before call none before
  | kept (artifact : Artifact) (present : artifact ∈ before) (contentHash : Bytes)
      (keyed : artifact.keyed artifact.kind contentHash)
      (scopeKind scopeId operatorId : Option Bytes) (payload : Bytes) :
      Written before (.writeEvidence artifact.kind scopeKind scopeId operatorId contentHash payload)
        (some artifact.id) before
  | added (id kind contentHash payload : Bytes) (scopeKind scopeId operatorId : Option Bytes)
      (fresh : id ∉ before.map (·.id))
      (unknown : ∀ artifact ∈ before, ¬ artifact.keyed kind contentHash) :
      Written before (.writeEvidence kind scopeKind scopeId operatorId contentHash payload) (some id)
        (before ++ [⟨id, kind, some contentHash, payload⟩])
  | stored (id kind state scopeKind scopeId operatorId payload : Bytes) (confidence : Int)
      (fresh : id ∉ before.map (·.id)) (answer : Bytes) :
      Written before (.write id kind state scopeKind scopeId operatorId confidence payload)
        (some answer) (before ++ [⟨id, kind, none, payload⟩])

/-- The artifact table behind capture: its ids fit their buffers, and the queues
are not in it. -/
structure KeepsArtifacts (env : CaptureEnv σ) (view : σ → List Artifact) : Prop where
  written : ∀ call state, Written (view state) call (env.artifactWriter call state).1
    (view (env.artifactWriter call state).2)
  fits : ∀ state, ∀ artifact ∈ view state, artifact.id.length ≤ 36
  queued : ∀ id kind state, view (env.evidenceEnqueue id kind state) = view state
  synthesised : ∀ id state, view (env.synthEnqueue id state) = view state

variable {env : CaptureEnv σ} {view : σ → List Artifact} {before after : List Artifact}

/-- Ids are unique, and a key has one artifact. -/
structure Keyed (artifacts : List Artifact) : Prop where
  ids : (artifacts.map (·.id)).Nodup
  single : ∀ artifact ∈ artifacts, ∀ other ∈ artifacts, ∀ kind contentHash,
    artifact.keyed kind contentHash → other.keyed kind contentHash → artifact = other

theorem Keyed.nil : Keyed [] where
  ids := List.nodup_nil
  single _ member := absurd member List.not_mem_nil

theorem Keyed.same_id (keyed : Keyed before) {artifact other : Artifact}
    (present : artifact ∈ before) (there : other ∈ before) (same : artifact.id = other.id) :
    artifact = other :=
  List.inj_on_of_nodup_map keyed.ids present there same

theorem Keyed.add (keyed : Keyed before) {added : Artifact} (fresh : added.id ∉ before.map (·.id))
    (unknown : ∀ contentHash, added.contentHash = some contentHash →
      ∀ artifact ∈ before, ¬ artifact.keyed added.kind contentHash) :
    Keyed (before ++ [added]) where
  ids := by
    rw [List.map_append, List.map_singleton, List.nodup_append]
    refine ⟨keyed.ids, List.nodup_singleton _, fun id member other here => ?_⟩
    rw [List.mem_singleton.mp here]
    exact fun same => fresh (same ▸ member)
  single artifact present other there kind contentHash mine its := by
    rcases List.mem_append.mp present with old | new
    · rcases List.mem_append.mp there with old' | new'
      · exact keyed.single _ old _ old' _ _ mine its
      · obtain rfl := List.mem_singleton.mp new'
        obtain ⟨rfl, hashed⟩ := its
        exact absurd mine (unknown _ hashed _ old)
    · obtain rfl := List.mem_singleton.mp new
      rcases List.mem_append.mp there with old' | new'
      · obtain ⟨rfl, hashed⟩ := mine
        exact absurd its (unknown _ hashed _ old')
      · exact (List.mem_singleton.mp new').symm

variable {call : WriterCall} {answer : Option Bytes}

theorem Written.keyed (written : Written before call answer after) (keyed : Keyed before) :
    Keyed after := by
  cases written with
  | failed => exact keyed
  | kept => exact keyed
  | added id kind contentHash payload scopeKind scopeId operatorId fresh unknown =>
      refine keyed.add fresh fun other same => ?_
      obtain rfl := Option.some.inj same
      exact unknown
  | stored id kind state scopeKind scopeId operatorId payload confidence fresh =>
      exact keyed.add fresh fun other none => by cases none

theorem Written.grows (written : Written before call answer after) : before <+: after := by
  cases written with
  | failed => exact List.prefix_refl _
  | kept => exact List.prefix_refl _
  | added => exact List.prefix_append _ _
  | stored => exact List.prefix_append _ _

theorem Written.holds {kind contentHash payload id : Bytes}
    {scopeKind scopeId operatorId : Option Bytes} (written : Written before
      (.writeEvidence kind scopeKind scopeId operatorId contentHash payload) (some id) after) :
    ∃ artifact ∈ after, artifact.id = id ∧ artifact.keyed kind contentHash := by
  cases written with
  | kept artifact present contentHash keyed => exact ⟨artifact, present, rfl, keyed⟩
  | added => exact ⟨_, List.mem_append_right _ List.mem_cons_self, rfl, rfl, rfl⟩

/-- The artifact is what the call handed over. -/
def WriterCall.Of (artifact : Artifact) : WriterCall → Prop
  | .writeEvidence kind _ _ _ contentHash payload =>
      artifact.keyed kind contentHash ∧ artifact.payload = payload
  | .write id kind _ _ _ _ _ payload => artifact = ⟨id, kind, none, payload⟩

theorem Written.origin (written : Written before call answer after) {artifact : Artifact}
    (present : artifact ∈ after) : artifact ∈ before ∨ answer ≠ none ∧ call.Of artifact := by
  cases written with
  | failed => exact .inl present
  | kept => exact .inl present
  | added =>
      rcases List.mem_append.mp present with old | new
      · exact .inl old
      · obtain rfl := List.mem_singleton.mp new
        exact .inr ⟨Option.some_ne_none _, ⟨rfl, rfl⟩, rfl⟩
  | stored =>
      rcases List.mem_append.mp present with old | new
      · exact .inl old
      · exact .inr ⟨Option.some_ne_none _, List.mem_singleton.mp new⟩

/-- A call that leaves the table alone, or hands one artifact over. -/
def Captures (before : List Artifact) (captured : Captured) (after : List Artifact) : Prop :=
  captured.result ≠ 0 ∧ after = before ∨
    captured.result = 0 ∧ ∃ call answer, captured.calls = [call] ∧
      Written before call (some answer) after ∧ ∀ sourceKind scopeKind scopeId content operatorId len,
        captured.op = .event sourceKind scopeKind scopeId content operatorId len →
          ∃ kind text payload, sourceKind = some kind ∧ content = some text ∧
            call = .writeEvidence kind scopeKind scopeId operatorId
              (evidenceContentHash kind text) payload ∧ captured.id = idOut len (snprintf 37 answer)

theorem handOver_spec (keeps : KeepsArtifacts env view) {state final : σ} {answer : Option Bytes}
    {calls : List WriterCall} (ran : (handOver env call).run state = (answer, final, calls)) :
    calls = [call] ∧ Written (view state) call answer (view final) := by
  obtain ⟨_, middle, _, _, reported, asked, rfl⟩ := Traced.run_bind_iff.mp ran
  obtain ⟨rfl, rfl⟩ := Traced.run_emit_iff.mp reported
  obtain ⟨written, rfl⟩ := Traced.run_call_iff.mp asked
  have step := keeps.written call middle
  rw [written] at step
  exact ⟨rfl, step⟩

theorem Written.failed_same (written : Written before call none after) : after = before := by
  cases written with
  | failed => rfl

theorem Captures.of_failed {op : CaptureOp} {calls : List WriterCall} {id : Bytes}
    (same : after = before) : Captures before ⟨op, calls, -1, id⟩ after :=
  .inl ⟨Int.neg_ne_zero.mpr Int.one_ne_zero, same⟩

theorem runCaptureOp_captures (keeps : KeepsArtifacts env view) {op : CaptureOp} {state final : σ}
    {result : Int} {id : Bytes} {calls : List WriterCall}
    (ran : (runCaptureOp env op).run state = ((result, id), final, calls)) :
    Captures (view state) ⟨op, calls, result, id⟩ (view final) := by
  have refused : (pure (-1, []) : Traced σ WriterCall (Int × Bytes)).run state =
      ((result, id), final, calls) → Captures (view state) ⟨op, calls, result, id⟩ (view final) := by
    intro ended
    obtain ⟨rfl, -, rfl, -⟩ := Traced.run_pure_pair_iff.mp ended
    exact .of_failed rfl
  cases op with
  | event sourceKind scopeKind scopeId content operatorId len =>
      cases sourceKind with
      | none => exact refused ran
      | some kind =>
      cases content with
      | none => exact refused ran
      | some text =>
      simp only [runCaptureOp, learningEvidenceWriteEvent] at ran
      split at ran
      · obtain ⟨answer, middle, _, later, handed, queueing, rfl⟩ := Traced.run_bind_iff.mp ran
        obtain ⟨rfl, written⟩ := handOver_spec keeps handed
        cases answer with
        | none =>
            obtain ⟨rfl, -, rfl, -⟩ := Traced.run_pure_pair_iff.mp queueing
            exact .of_failed written.failed_same
        | some chosen =>
            have answered : view final = view middle ∧ later = [] ∧ result = 0 ∧
                id = idOut len (snprintf 37 chosen) := by
              dsimp only at queueing
              split at queueing
              · obtain ⟨_, queued, _, _, enqueued, ended, rfl⟩ := Traced.run_bind_iff.mp queueing
                obtain ⟨rfl, rfl, rfl, rfl⟩ := Traced.run_pure_pair_iff.mp ended
                obtain ⟨moved, rfl⟩ := Traced.run_call_iff.mp enqueued
                obtain rfl := congrArg Prod.snd moved
                exact ⟨(keeps.synthesised _ _).trans (keeps.queued _ _ _), rfl, rfl, rfl⟩
              · obtain ⟨rfl, rfl, rfl, rfl⟩ := Traced.run_pure_pair_iff.mp queueing
                exact ⟨rfl, rfl, rfl, rfl⟩
            obtain ⟨same, rfl, rfl, rfl⟩ := answered
            refine .inr ⟨rfl, _, chosen, rfl, same ▸ written, ?_⟩
            intro _ _ _ _ _ _ own
            cases own
            exact ⟨kind, text, _, rfl, rfl, rfl, rfl⟩
      · exact refused ran
  | feedback polarity title description operatorId len =>
      cases polarity with
      | none => exact refused ran
      | some polarity =>
      cases title with
      | none => exact refused ran
      | some title =>
      simp only [runCaptureOp, learningEvidenceWriteFeedback] at ran
      obtain ⟨generated, _, _, _, reading, writing, rfl⟩ := Traced.run_bind_iff.mp ran
      obtain ⟨-, rfl, rfl⟩ := Traced.run_read_iff.mp reading
      obtain ⟨answer, middle, _, later, handed, ended, rfl⟩ := Traced.run_bind_iff.mp writing
      obtain ⟨rfl, written⟩ := handOver_spec keeps handed
      cases answer with
      | none =>
          obtain ⟨rfl, -, rfl, -⟩ := Traced.run_pure_pair_iff.mp ended
          exact .of_failed written.failed_same
      | some chosen =>
          obtain ⟨rfl, -, rfl, rfl⟩ := Traced.run_pure_pair_iff.mp ended
          exact .inr ⟨rfl, _, chosen, rfl, written, fun _ _ _ _ _ _ other => by cases other⟩

/-- An event of this kind and content that was captured into a buffer for its id. -/
def Captured.Accepts (captured : Captured) (kind content : Bytes) : Prop :=
  captured.result = 0 ∧ ∃ scopeKind scopeId operatorId, ∃ len ≥ 37,
    captured.op = .event (some kind) scopeKind scopeId (some content) operatorId len

variable {captured : Captured}

theorem Captures.keyed (captures : Captures before captured after) (keyed : Keyed before) :
    Keyed after := by
  rcases captures with ⟨-, rfl⟩ | ⟨-, call, answer, -, written, -⟩
  · exact keyed
  · exact written.keyed keyed

theorem Captures.grows (captures : Captures before captured after) : before <+: after := by
  rcases captures with ⟨-, rfl⟩ | ⟨-, call, answer, -, written, -⟩
  · exact List.prefix_refl _
  · exact written.grows

theorem Captures.origin (captures : Captures before captured after) {artifact : Artifact}
    (present : artifact ∈ after) : artifact ∈ before ∨
      captured.result = 0 ∧ ∃ call ∈ captured.calls, call.Of artifact := by
  rcases captures with ⟨-, rfl⟩ | ⟨fine, call, answer, calls, written, -⟩
  · exact .inl present
  · refine (written.origin present).imp_right fun handed => ⟨fine, call, ?_, handed.2⟩
    exact calls ▸ List.mem_singleton_self _

theorem Captures.holds (captures : Captures before captured after)
    (fits : ∀ artifact ∈ after, artifact.id.length ≤ 36) {kind content : Bytes}
    (accepts : captured.Accepts kind content) :
    ∃ artifact ∈ after, artifact.id = captured.id ∧
      artifact.keyed kind (evidenceContentHash kind content) := by
  obtain ⟨fine, scopeKind, scopeId, operatorId, len, wide, op⟩ := accepts
  rcases captures with ⟨wrong, -⟩ | ⟨-, call, answer, -, written, event⟩
  · exact absurd fine wrong
  obtain ⟨_, _, payload, same, same', rfl, id⟩ := event _ _ _ _ _ _ op
  obtain rfl := Option.some.inj same
  obtain rfl := Option.some.inj same'
  obtain ⟨artifact, present, rfl, keyed⟩ := written.holds
  have short := fits artifact present
  refine ⟨artifact, present, ?_, keyed⟩
  rw [id, idOut, snprintf_fits (by omega : artifact.id.length < 37), snprintf_fits (by omega)]

variable {start state : σ} {ops : List CaptureOp} {outputs : List Captured}

theorem captureMachine_step {op : CaptureOp} {next : σ} {emitted : List Captured} :
    (captureMachine env).step state op = some (next, emitted) ↔
      ∃ result id calls, (runCaptureOp env op).run state = ((result, id), next, calls) ∧
        emitted = [⟨op, calls, result, id⟩] := by
  simp only [captureMachine, Option.some.injEq]
  constructor
  · intro taken
    obtain ⟨rfl, rfl⟩ := Prod.mk.inj taken
    exact ⟨_, _, _, rfl, rfl⟩
  · rintro ⟨result, id, calls, ran, rfl⟩
    exact congrArg (fun answer => (answer.2.1,
      [Captured.mk op answer.2.2 answer.1.1 answer.1.2])) ran

/-- What a run of captures leaves in the table. -/
structure KeptByRun (view : σ → List Artifact) (start state : σ) (outputs : List Captured) : Prop where
  keyed : Keyed (view state)
  grows : view start <+: view state
  origin : ∀ artifact ∈ view state, artifact ∈ view start ∨ ∃ captured ∈ outputs,
    captured.result = 0 ∧ ∃ call ∈ captured.calls, call.Of artifact
  holds : ∀ captured ∈ outputs, ∀ kind content, captured.Accepts kind content →
    ∃ artifact ∈ view state, artifact.id = captured.id ∧
      artifact.keyed kind (evidenceContentHash kind content)

theorem captureMachine_run (keeps : KeepsArtifacts env view) (keyed : Keyed (view start))
    (run : (captureMachine env).Run start ops state outputs) : KeptByRun view start state outputs := by
  induction run with
  | nil =>
      exact ⟨keyed, List.prefix_refl _, fun _ present => .inl present,
        fun _ member => absurd member List.not_mem_nil⟩
  | snoc _ taken ih =>
      obtain ⟨result, id, calls, ran, rfl⟩ := captureMachine_step.mp taken
      have captures := runCaptureOp_captures keeps ran
      refine ⟨captures.keyed ih.keyed, ih.grows.trans captures.grows, fun artifact present => ?_,
        fun captured member kind content accepts => ?_⟩
      · rcases captures.origin present with earlier | ⟨fine, call, handed, own⟩
        · refine (ih.origin artifact earlier).imp_right ?_
          rintro ⟨captured, member, from_⟩
          exact ⟨captured, List.mem_append_left _ member, from_⟩
        · exact .inr ⟨_, List.mem_append_right _ (List.mem_singleton_self _), fine, call, handed, own⟩
      · rcases List.mem_append.mp member with earlier | here
        · obtain ⟨artifact, present, told⟩ := ih.holds captured earlier kind content accepts
          exact ⟨artifact, captures.grows.subset present, told⟩
        · obtain rfl := List.mem_singleton.mp here
          exact captures.holds (keeps.fits _) accepts

theorem KeptByRun.same_iff (ran : KeptByRun view start state outputs) {first second : Captured}
    (member : first ∈ outputs) (other : second ∈ outputs) {kind content kind' content' : Bytes}
    (accepts : first.Accepts kind content) (also : second.Accepts kind' content') :
    first.id = second.id ↔ kind = kind' ∧
      evidenceContentHash kind content = evidenceContentHash kind' content' := by
  obtain ⟨artifact, present, named, mine⟩ := ran.holds first member kind content accepts
  obtain ⟨artifact', present', named', its⟩ := ran.holds second other kind' content' also
  rw [← named, ← named']
  constructor
  · intro same
    obtain rfl := ran.keyed.same_id present present' same
    exact ⟨mine.1.symm.trans its.1, Option.some.inj (mine.2.symm.trans its.2)⟩
  · rintro ⟨rfl, hashed⟩
    rw [← hashed] at its
    exact congrArg Artifact.id (ran.keyed.single _ present _ present' _ _ mine its)

/-- Over any run of captures no artifact is lost or made up, and two captured events
of a kind get one artifact exactly when their contents hash alike: always when they
are the same, never when one byte differs, and whatever common end they have. -/
theorem evidence_collapses (keeps : KeepsArtifacts env view) (keyed : Keyed (view start))
    (run : (captureMachine env).Run start ops state outputs) :
    KeptByRun view start state outputs ∧ ∀ first ∈ outputs, ∀ second ∈ outputs,
      ∀ kind content kind' content', first.Accepts kind content → second.Accepts kind' content' →
        (first.id = second.id ↔ kind = kind' ∧
          evidenceContentHash kind content = evidenceContentHash kind' content') ∧
        (kind = kind' → (content = content' → first.id = second.id) ∧
          (∀ front byte other tail, content = front ++ byte :: tail →
            content' = front ++ other :: tail → (first.id = second.id ↔ byte = other)) ∧
          ∀ front other tail, content = front ++ tail → content' = other ++ tail →
            (first.id = second.id ↔
              evidenceContentHash kind front = evidenceContentHash kind other)) := by
  have ran := captureMachine_run keeps keyed run
  refine ⟨ran, fun first member second also kind content kind' content' accepts accepts' => ?_⟩
  have same := ran.same_iff member also accepts accepts'
  refine ⟨same, ?_⟩
  rintro rfl
  refine ⟨?_, ?_, ?_⟩
  · rintro rfl
    exact same.mpr ⟨rfl, rfl⟩
  · rintro front byte other tail rfl rfl
    rw [same, evidenceContentHash_changed, and_iff_right rfl]
  · rintro front other tail rfl rfl
    rw [same, evidenceContentHash_tail, and_iff_right rfl]

end Captures

section Shelf

/-- A shelf of artifacts, each with its place for its id. -/
abbrev Shelf := List (Bytes × Option Bytes × Bytes)

def shelfId (place : Nat) : Bytes := [UInt8.ofNat place]

def Shelf.view (shelf : Shelf) : List Artifact :=
  shelf.mapIdx fun place row => ⟨shelfId place, row.1, row.2.1, row.2.2⟩

/-- It takes 256 artifacts. -/
def Shelf.put (shelf : Shelf) (kind : Bytes) (contentHash : Option Bytes) (payload : Bytes) :
    Option Bytes × Shelf :=
  if shelf.length < 256 then (some (shelfId shelf.length), shelf ++ [(kind, contentHash, payload)])
  else (none, shelf)

def shelfEnv : CaptureEnv Shelf where
  artifactGenId shelf := shelfId shelf.length
  artifactWriter call shelf :=
    match call with
    | .writeEvidence kind _ _ _ contentHash payload =>
        match shelf.view.find? fun artifact =>
          artifact.kind == kind && artifact.contentHash == some contentHash with
        | some artifact => (some artifact.id, shelf)
        | none => shelf.put kind (some contentHash) payload
    | .write id kind _ _ _ _ _ payload =>
        if id = shelfId shelf.length then shelf.put kind none payload else (none, shelf)
  evidenceEnqueue _ _ shelf := shelf
  synthEnqueue _ shelf := shelf

theorem Shelf.view_append (shelf : Shelf) (kind : Bytes) (contentHash : Option Bytes)
    (payload : Bytes) : Shelf.view (shelf ++ [(kind, contentHash, payload)]) =
      shelf.view ++ [⟨shelfId shelf.length, kind, contentHash, payload⟩] := by
  simp [Shelf.view, List.mapIdx_append]

theorem Shelf.fresh {shelf : Shelf} (room : shelf.length < 256) :
    shelfId shelf.length ∉ shelf.view.map (·.id) := by
  intro taken
  obtain ⟨artifact, present, same⟩ := List.mem_map.mp taken
  obtain ⟨place, inside, rfl⟩ := List.mem_mapIdx.mp present
  have bytes := congrArg UInt8.toNat (List.head_eq_of_cons_eq same)
  simp only [UInt8.toNat_ofNat'] at bytes
  omega

theorem shelfEnv_keeps : KeepsArtifacts shelfEnv Shelf.view where
  written call shelf := by
    cases call with
    | writeEvidence kind scopeKind scopeId operatorId contentHash payload =>
        simp only [shelfEnv]
        split
        · rename_i artifact found
          have keyed := List.find?_some found
          simp only [Bool.and_eq_true, beq_iff_eq] at keyed
          obtain ⟨rfl, hashed⟩ := keyed
          exact .kept artifact (List.mem_of_find?_eq_some found) contentHash ⟨rfl, hashed⟩ _ _ _ _
        · rename_i unknown
          unfold Shelf.put
          split
          · rename_i room
            rw [Shelf.view_append]
            refine .added _ _ _ _ _ _ _ (Shelf.fresh room) fun artifact present keyed => ?_
            have other := List.find?_eq_none.mp unknown artifact present
            simp [keyed.1, keyed.2] at other
          · exact .failed _
    | write id kind state scopeKind scopeId operatorId confidence payload =>
        simp only [shelfEnv]
        split
        · rename_i same
          obtain rfl := same
          unfold Shelf.put
          split
          · rename_i room
            rw [Shelf.view_append]
            exact .stored _ _ _ _ _ _ _ _ (Shelf.fresh room) _
          · exact .failed _
        · exact .failed _
  fits shelf artifact present := by
    obtain ⟨place, inside, rfl⟩ := List.mem_mapIdx.mp present
    exact (by decide : 1 ≤ 36)
  queued _ _ _ := rfl
  synthesised _ _ := rfl

/-- A turn of the session, said again, and said again with another byte in it. -/
def turnOps : List CaptureOp :=
  let turn (text : String) : CaptureOp :=
    .event (some (cstr "session_turn")) none none (some (cstr text)) none 37
  [turn "use tabs", turn "use tabs", turn "use tags"]

theorem evidence_collapses_turns :
    ∃ shelf first again changed, (captureMachine shelfEnv).Run [] turnOps shelf
        [first, again, changed] ∧ first.id = again.id ∧ first.id ≠ changed.id := by
  have executed : ((captureMachine shelfEnv).execute [] turnOps).isSome := by decide +kernel
  obtain ⟨⟨shelf, outputs⟩, same⟩ := Option.isSome_iff_exists.mp executed
  have answers : ((captureMachine shelfEnv).execute [] turnOps).map
      (fun final => final.2.map fun captured => (captured.result, captured.op)) =
        some (turnOps.map fun op => (0, op)) := by decide +kernel
  rw [same, Option.map_some, Option.some.injEq] at answers
  obtain ⟨first, again, changed, rfl⟩ := List.length_eq_three.mp
    ((List.length_map _).symm.trans ((congrArg List.length answers).trans rfl))
  have run := Machine.run_of_execute same
  simp only [turnOps, List.map_cons, List.map_nil, List.cons.injEq, Prod.mk.injEq, and_true]
    at answers
  obtain ⟨⟨fine, op⟩, ⟨fine', op'⟩, fine'', op''⟩ := answers
  have accepts : first.Accepts (cstr "session_turn") (cstr "use tabs") :=
    ⟨fine, _, _, _, 37, le_refl _, op⟩
  have accepts' : again.Accepts (cstr "session_turn") (cstr "use tabs") :=
    ⟨fine', _, _, _, 37, le_refl _, op'⟩
  have accepts'' : changed.Accepts (cstr "session_turn") (cstr "use tags") :=
    ⟨fine'', _, _, _, 37, le_refl _, op''⟩
  have empty : Keyed (Shelf.view []) := .nil
  have collapses := (evidence_collapses shelfEnv_keeps empty run).2
  have twice := (collapses first (by simp) again (by simp) _ _ _ _ accepts accepts').2 rfl
  have other := (collapses first (by simp) changed (by simp) _ _ _ _ accepts accepts'').2 rfl
  refine ⟨shelf, first, again, changed, run, twice.1 rfl, ?_⟩
  rw [Ne, other.2.1 (cstr "use ta") 98 103 (cstr "s") (by decide) (by decide)]
  decide

end Shelf

end AimeeLearning.Learning
