import AimeeLearning.Learning.Evidence
import Mathlib.Data.Rat.Floor

/-! What a promotion decides when every store call answers: the checks in their
order, the surface it writes to, and the audit row that explains it. Confidences
and thresholds are exact rationals. -/

set_option autoImplicit false

namespace AimeeLearning.Learning

open Library

section Promoting

/-- What a surface took of one call: the arguments of a write, or a stored memory. -/
inductive SurfaceRow (ν : Type) where
  | written (write : SurfaceWrite ν)
  | memory (tier kind key content : Bytes) (confidence : ν) (session : Bytes)
  deriving DecidableEq

def SurfaceRow.surface {ν : Type} : SurfaceRow ν → TargetSurface
  | written write => write.surface
  | memory .. => .memory

variable {σ : Type} (env : EvidenceEnv σ ℚ) (surfaceRows : σ → TargetSurface → List (SurfaceRow ℚ))
  (auditLog : σ → List (AuditRow ℚ))

section Laws

/-- One surface gained these rows, and the others none. -/
structure Gained (surface : TargetSurface) (rows : List (SurfaceRow ℚ)) (before after : σ) :
    Prop where
  own : surfaceRows after surface = surfaceRows before surface ++ rows
  others : ∀ other, other ≠ surface → surfaceRows after other = surfaceRows before other

/-- A call that answers from every state, adds rows to a surface and audits nothing. -/
def Adds {α : Type} (surface : TargetSurface) (rows : List (SurfaceRow ℚ))
    (attempt : Attempt σ α) : Prop :=
  ∀ state, ∃ answer next, attempt.run state = (some answer, next) ∧
    Gained surfaceRows surface rows state next ∧ auditLog next = auditLog state

/-- Every store call answers and adds the row it is named after, and DB1 is there. -/
structure PromotionLaws : Prop where
  surface : ∀ write,
    Adds surfaceRows auditLog write.surface [.written write] (env.surfaceWrite write)
  memory : ∀ tier kind key content confidence session,
    Adds surfaceRows auditLog .memory [.memory tier kind key content confidence session]
      (env.memoryInsertJson tier kind key content confidence session)
  memoryOk : ∀ tier kind key content confidence session state response next,
    (env.memoryInsertJson tier kind key content confidence session).run state =
      (some response, next) → response.getString "status" = some (cstr "ok")
  audit : ∀ row state, ∃ next, (env.auditEventWrite row).run state = (some (), next) ∧
    surfaceRows next = surfaceRows state ∧ auditLog next = auditLog state ++ [row]
  workingProfileLinked : env.workingProfileLinked = true

structure ExactArithmetic : Prop where
  less : ∀ left right, env.less left right = decide (left < right)
  minus : ∀ left right, env.minus left right = left - right
  promoteBorderline : env.promoteBorderline = 1 / 10

end Laws

section Decision

/-- The column when there is one, else the surface of the kind. -/
def selectedSurface (column kind : Bytes) : Option Bytes :=
  if column ≠ [] then some column
  else (learningCandidateTargetSurface (some kind)).map TargetSurface.name

/-- The rows that a promotion of `art` is about to add to a surface. -/
def promotedRows (art : ArtifactRow ℚ) : TargetSurface → List (SurfaceRow ℚ)
  | .antiPattern => [.written (antiPatternRow env art)]
  | .memory => [.memory env.tierL1 (cstr "preference") (memoryKey env art) (memoryContent env art)
      art.confidence []]
  | .workflowPattern => [.written (workflowPatternRow env art)]
  | .rule => [.written (ruleRow env art)]
  | .epistemicDirective => [.written (directiveRow env art)]
  | .entity => [.written (entityNodeRow env art), .written (entityAliasRow env art)]
  | .guardrailExemplar => [.written (exemplarRow art)]
  | .workingProfile => [.written (workingProfileRow env art)]

/-- What a promotion of `art` from `state` comes to. -/
structure PromotionDecided (art : ArtifactRow ℚ) (column : Bytes) (threshold : ℚ) (state : σ)
    (outcome : Int × σ) : Prop where
  refused : art.state ≠ stateCommitted ∨ selectedSurface column art.kind = none →
    outcome = (-1, state)
  held : ∀ name, art.state = stateCommitted → selectedSurface column art.kind = some name →
    art.confidence < threshold - 1 / 10 → outcome = (0, state)
  unwired : ∀ name, art.state = stateCommitted → selectedSurface column art.kind = some name →
    ¬ art.confidence < threshold - 1 / 10 → (∀ surface, name ≠ TargetSurface.name surface) →
      outcome = (-2, state)
  fieldless : art.state = stateCommitted →
    selectedSurface column art.kind = some TargetSurface.workingProfile.name →
      ¬ art.confidence < threshold - 1 / 10 → profileField env art = [] → outcome = (-1, state)
  promoted : ∀ surface, art.state = stateCommitted →
    selectedSurface column art.kind = some (TargetSurface.name surface) →
      ¬ art.confidence < threshold - 1 / 10 →
        (surface = .workingProfile → profileField env art ≠ []) →
          outcome.1 = 1 ∧
          Gained surfaceRows surface (promotedRows env art surface) state outcome.2 ∧
          ∃ row, auditLog outcome.2 = auditLog state ++ [row] ∧ row.artifactId = art.id ∧
            row.surface = surface.name ∧
            (row.flaggedForReview = true ↔ art.confidence < threshold)

end Decision

section Proofs

variable {env surfaceRows auditLog} {α β : Type} {surface : TargetSurface}

theorem Gained.trans {first second : List (SurfaceRow ℚ)} {before middle after : σ}
    (one : Gained surfaceRows surface first before middle)
    (other : Gained surfaceRows surface second middle after) :
    Gained surfaceRows surface (first ++ second) before after where
  own := by rw [other.own, one.own, List.append_assoc]
  others name different := (other.others name different).trans (one.others name different)

theorem Adds.bind {first : Attempt σ α} {second : α → Attempt σ β} {rows more : List (SurfaceRow ℚ)}
    (one : Adds surfaceRows auditLog surface rows first)
    (other : ∀ answer, Adds surfaceRows auditLog surface more (second answer)) :
    Adds surfaceRows auditLog surface (rows ++ more) (first >>= second) := by
  intro state
  obtain ⟨answer, middle, ran, gained, quiet⟩ := one state
  obtain ⟨result, next, ranAfter, further, quietAfter⟩ := other answer middle
  exact ⟨result, next, (Attempt.bind_run_answered ran).trans ranAfter, gained.trans further,
    quietAfter.trans quiet⟩

theorem memoryInsert_adds (laws : PromotionLaws env surfaceRows auditLog)
    (key content : Bytes) (confidence : ℚ) :
    Adds surfaceRows auditLog .memory
      [.memory env.tierL1 (cstr "preference") key content confidence []]
      (memoryInsert env key content confidence) := by
  intro state
  obtain ⟨response, next, ran, gained, quiet⟩ :=
    laws.memory env.tierL1 (cstr "preference") key content confidence [] state
  have ok := laws.memoryOk _ _ _ _ _ _ _ _ _ ran
  have stored : ∃ id, (memoryInsert env key content confidence).run state = (some id, next) := by
    rw [memoryInsert, Attempt.bind_run_answered ran, if_pos ok]
    exact ⟨_, rfl⟩
  obtain ⟨id, inserted⟩ := stored
  exact ⟨id, next, inserted, gained, quiet⟩

theorem promotionTo_adds (laws : PromotionLaws env surfaceRows auditLog) {art : ArtifactRow ℚ}
    {flagged : Bool} {promotion : Promotion σ}
    (chosen : promotionTo env art flagged surface = .ok promotion) :
    Adds surfaceRows auditLog surface (promotedRows env art surface) promotion.row := by
  cases surface with
  | antiPattern | workflowPattern | rule | epistemicDirective | guardrailExemplar =>
      cases chosen
      exact laws.surface _
  | memory =>
      cases chosen
      exact memoryInsert_adds laws _ _ _
  | entity =>
      cases chosen
      have node := laws.surface (entityNodeRow env art)
      exact node.bind fun _ => laws.surface (entityAliasRow env art)
  | workingProfile =>
      simp only [promotionTo, promoteWorkingProfile] at chosen
      split at chosen
      · cases chosen
      · split at chosen
        · cases chosen
        · cases chosen
          exact laws.surface _

/-- A wired surface is promoted to, unless a working profile has no field. -/
theorem promotionTo_exists (laws : PromotionLaws env surfaceRows auditLog) {art : ArtifactRow ℚ}
    (flagged : Bool) (surface : TargetSurface) :
    promotionTo env art flagged surface = .error (-1) ∧ surface = .workingProfile ∧
        profileField env art = [] ∨
      (surface = .workingProfile → profileField env art ≠ []) ∧
        ∃ promotion, promotionTo env art flagged surface = .ok promotion := by
  cases surface with
  | workingProfile =>
      by_cases fieldless : profileField env art = []
      · refine .inl ⟨?_, rfl, fieldless⟩
        simp only [promotionTo, promoteWorkingProfile, laws.workingProfileLinked, fieldless,
          not_true_eq_false, if_true, if_false]
      · refine .inr ⟨fun _ => fieldless, ?_⟩
        simp only [promotionTo, promoteWorkingProfile, laws.workingProfileLinked, fieldless,
          not_true_eq_false, if_false]
        exact ⟨_, rfl⟩
  | antiPattern | memory | workflowPattern | rule | epistemicDirective | entity
    | guardrailExemplar => exact .inr ⟨fun other => (by cases other), _, rfl⟩

theorem TargetSurface.length_name (surface : TargetSurface) : surface.name.length ≤ 19 := by
  cases surface <;> decide +kernel

theorem TargetSurface.ofName_eq_none_iff {text : Bytes} :
    TargetSurface.ofName text = none ↔ ∀ surface : TargetSurface, text ≠ surface.name := by
  rw [TargetSurface.ofName, List.find?_eq_none]
  constructor
  · intro unknown surface same
    exact unknown surface (by cases surface <;> decide) (by simp [same])
  · intro unknown surface _ same
    exact unknown surface (by simpa using same)

theorem TargetSurface.ofName_snprintf (text : Bytes) :
    TargetSurface.ofName (snprintf 64 text) = TargetSurface.ofName text := by
  by_cases short : text.length ≤ 63
  · rw [snprintf, List.take_of_length_le short]
  · have long : ∀ surface : TargetSurface, text ≠ surface.name ∧ snprintf 64 text ≠ surface.name := by
      intro surface
      have bound := surface.length_name
      constructor
      · rintro rfl
        omega
      · intro same
        have size := congrArg List.length same
        rw [snprintf, List.length_take] at size
        omega
    rw [TargetSurface.ofName_eq_none_iff.mpr fun surface => (long surface).1,
      TargetSurface.ofName_eq_none_iff.mpr fun surface => (long surface).2]

variable {candidate : Bytes} {art : ArtifactRow ℚ} {state : σ}

theorem promotable_eq (exactly : ExactArithmetic env) (named : candidate ≠ [])
    (found : env.artifactRead state candidate = some art) (threshold : ℚ) :
    promotable env (some candidate) threshold state =
      if art.state ≠ stateCommitted then .error (-1)
      else
        match selectedSurface (env.artifactTargetSurface state candidate) art.kind with
        | none => .error (-1)
        | some name =>
          if art.confidence < threshold - 1 / 10 then .error 0
          else
            match TargetSurface.ofName name with
            | none => .error (-2)
            | some surface => .ok ⟨art, decide (art.confidence < threshold), surface⟩ := by
  obtain ⟨first, rest, rfl⟩ := List.exists_cons_of_ne_nil named
  have cut : snprintf 64 (env.artifactTargetSurface state (first :: rest)) = [] ↔
      env.artifactTargetSurface state (first :: rest) = [] := by
    simp [snprintf]
  simp only [promotable, found, selectedSurface, exactly.less, exactly.minus,
    exactly.promoteBorderline, ne_eq, cut, decide_eq_true_eq]
  by_cases column : env.artifactTargetSurface state (first :: rest) = []
  · cases learningCandidateTargetSurface (some art.kind) with
    | none => simp only [column, not_true_eq_false, if_false, Option.map_none]
    | some surface =>
        simp only [column, not_true_eq_false, if_false, Option.map_some,
          TargetSurface.ofName_name]
  · cases decided : TargetSurface.ofName (env.artifactTargetSurface state (first :: rest)) with
    | none =>
        simp only [column, not_false_eq_true, if_true, TargetSurface.ofName_snprintf, decided]
    | some surface =>
        simp only [column, not_false_eq_true, if_true, TargetSurface.ofName_snprintf, decided]

theorem promotion_runs (laws : PromotionLaws env surfaceRows auditLog) {flagged : Bool}
    {promotion : Promotion σ} (chosen : promotionTo env art flagged surface = .ok promotion)
    (state : σ) :
    ∃ final targetId after, outcomeCode ((promotion.row >>= promotion.audit).run state) = (1, final) ∧
      Gained surfaceRows surface (promotedRows env art surface) state final ∧
      ∃ id, auditLog final = auditLog state ++ [promotionAudit art surface targetId flagged after id] := by
  obtain ⟨answer, middle, wrote, gained, quiet⟩ := promotionTo_adds laws chosen state
  obtain ⟨targetId, after, audited⟩ := (promotionTo_calls env chosen).audit answer
  obtain ⟨final, logged, rows, log⟩ :=
    laws.audit (promotionAudit art surface targetId flagged after (env.artifactGenId middle)) middle
  refine ⟨final, targetId, after, ?_, ?_, env.artifactGenId middle, by rw [log, quiet]⟩
  · have ran : (promotion.row >>= promotion.audit).run state = (some (), final) := by
      rw [Attempt.bind_run_answered wrote, audited]
      exact logged
    rw [outcomeCode, ran]
    rfl
  · constructor
    · rw [rows, gained.own]
    · intro other different
      rw [rows, gained.others other different]

theorem learningPromote_decided (laws : PromotionLaws env surfaceRows auditLog)
    (exactly : ExactArithmetic env) (named : candidate ≠ [])
    (found : env.artifactRead state candidate = some art) (threshold : ℚ) :
    PromotionDecided env surfaceRows auditLog art (env.artifactTargetSurface state candidate) threshold
      state (learningPromote env (some candidate) threshold state) := by
  have checks := promotable_eq exactly named found threshold
  rw [learningPromote, checks]
  constructor
  · rintro (uncommitted | unknown)
    · rw [if_pos uncommitted]
    · by_cases committed : art.state = stateCommitted
      · rw [if_neg (not_not.mpr committed), unknown]
      · rw [if_pos committed]
  · intro name committed selected below
    rw [if_neg (not_not.mpr committed), selected]
    simp only [below, if_true]
  · intro name committed selected above unwired
    rw [if_neg (not_not.mpr committed), selected]
    simp only [above, if_false, TargetSurface.ofName_eq_none_iff.mpr unwired]
  · intro committed selected above fieldless
    rw [if_neg (not_not.mpr committed), selected]
    simp only [above, if_false, TargetSurface.ofName_name]
    rcases promotionTo_exists laws (decide (art.confidence < threshold)) .workingProfile with
      ⟨refused, -, -⟩ | ⟨fielded, -⟩
    · rw [refused]
    · exact absurd fieldless (fielded rfl)
  · intro surface committed selected above fielded
    rw [if_neg (not_not.mpr committed), selected]
    simp only [above, if_false, TargetSurface.ofName_name]
    rcases promotionTo_exists laws (decide (art.confidence < threshold)) surface with
      ⟨-, profile, fieldless⟩ | ⟨-, promotion, chosen⟩
    · exact absurd fieldless (fielded profile)
    · obtain ⟨final, targetId, after, ran, gained, id, log⟩ := promotion_runs laws chosen state
      rw [chosen]
      simp only [ran]
      exact ⟨trivial, gained, _, log, rfl, rfl, decide_eq_true_iff⟩

theorem PromotionDecided.promoted_only {column : Bytes} {threshold : ℚ} {outcome : Int × σ}
    (decided : PromotionDecided env surfaceRows auditLog art column threshold state outcome)
    (success : outcome.1 = 1) :
    art.state = stateCommitted ∧ ¬ art.confidence < threshold - 1 / 10 ∧
      ∃ surface, selectedSurface column art.kind = some (TargetSurface.name surface) ∧
        (surface = .workingProfile → profileField env art ≠ []) := by
  have otherwise {code : Int} (returned : outcome = (code, state)) (other : code ≠ 1) : False :=
    other ((congrArg Prod.fst returned).symm.trans success)
  by_cases committed : art.state = stateCommitted
  · cases selected : selectedSurface column art.kind with
    | none => exact (otherwise (decided.refused (.inr selected)) (by decide)).elim
    | some name =>
        by_cases below : art.confidence < threshold - 1 / 10
        · exact (otherwise (decided.held name committed selected below) (by decide)).elim
        · cases wired : TargetSurface.ofName name with
          | none =>
              have unwired := TargetSurface.ofName_eq_none_iff.mp wired
              exact (otherwise (decided.unwired name committed selected below unwired) (by decide)).elim
          | some surface =>
              have same : name = surface.name := by
                simpa using List.find?_some wired
              subst same
              refine ⟨committed, below, surface, rfl, fun profile fieldless => ?_⟩
              subst profile
              exact otherwise (decided.fieldless committed selected below fieldless) (by decide)
  · exact (otherwise (decided.refused (.inl committed)) (by decide)).elim

/-- The decision of a promotion; a higher confidence never takes one back. -/
theorem learning_promote_decision (laws : PromotionLaws env surfaceRows auditLog)
    (exactly : ExactArithmetic env) (candidate : Bytes) (named : candidate ≠ [])
    (art : ArtifactRow ℚ) (state : σ) (found : env.artifactRead state candidate = some art)
    (threshold : ℚ) :
    PromotionDecided env surfaceRows auditLog art (env.artifactTargetSurface state candidate) threshold
        state (learningPromote env (some candidate) threshold state) ∧
      ∀ raised other, art.confidence ≤ raised →
        env.artifactRead other candidate = some { art with confidence := raised } →
          env.artifactTargetSurface other candidate = env.artifactTargetSurface state candidate →
            (learningPromote env (some candidate) threshold state).1 = 1 →
              (learningPromote env (some candidate) threshold other).1 = 1 := by
  have decided := learningPromote_decided laws exactly named found threshold
  refine ⟨decided, fun raised other higher foundOther sameColumn success => ?_⟩
  obtain ⟨committed, above, surface, selected, fielded⟩ := decided.promoted_only success
  have decidedOther := learningPromote_decided laws exactly named foundOther threshold
  rw [sameColumn] at decidedOther
  have stillAbove : ¬ raised < threshold - 1 / 10 := fun below => above (higher.trans_lt below)
  exact (decidedOther.promoted surface committed selected stillAbove fielded).1

end Proofs

end Promoting

section Rationals

/-- A store of one artifact, all of whose calls answer. -/
structure RationalStore where
  art : ArtifactRow ℚ
  rows : List (SurfaceRow ℚ)
  audits : List (AuditRow ℚ)

def RationalStore.surfaceRows (store : RationalStore) (surface : TargetSurface) :
    List (SurfaceRow ℚ) :=
  store.rows.filter (·.surface = surface)

def RationalStore.addRow (store : RationalStore) (row : SurfaceRow ℚ) : RationalStore :=
  { store with rows := store.rows ++ [row] }

def rationalEnv : EvidenceEnv RationalStore ℚ where
  artifactRead store id := if id = store.art.id then some store.art else none
  artifactTargetSurface _ _ := []
  artifactCitationCount _ _ := 0
  auditReadLatestBefore _ _ := []
  artifactGenId store := printNumber store.audits.length
  artifactSetState _ text :=
    .failingIf false fun store => ((), { store with art := { store.art with state := text } })
  artifactReviewRollback _ text _ _ _ :=
    .failingIf false fun store => ((), { store with art := { store.art with state := text } })
  auditEventWrite row := .failingIf false fun store => ((), { store with audits := store.audits ++ [row] })
  surfaceWrite write :=
    .failingIf false fun store => (store.rows.length + 1, store.addRow (.written write))
  workingProfileLinked := true
  memoryInsertJson tier kind key content confidence session := .failingIf false fun store =>
    (.object [(cstr "status", .string (cstr "ok")), (cstr "id", .number (store.rows.length + 1))],
      store.addRow (.memory tier kind key content confidence session))
  tierL1 := cstr "L1"
  cjsonParse text := if text = cstr "\x7b\x7d" then some (.object []) else none
  less left right := decide (left < right)
  minus left right := left - right
  promoteBorderline := 1 / 10
  one := 1
  percent confidence := ⌊confidence * 100⌋
  toInt64 value := ⌊value⌋

theorem RationalStore.addRow_gained (store : RationalStore) (row : SurfaceRow ℚ) :
    Gained RationalStore.surfaceRows row.surface [row] store (store.addRow row) where
  own := by simp [RationalStore.surfaceRows, RationalStore.addRow]
  others other different := by
    simp only [RationalStore.surfaceRows, RationalStore.addRow, List.filter_append]
    rw [List.filter_cons_of_neg (by simpa using Ne.symm different), List.filter_nil, List.append_nil]

theorem rationalEnv_laws :
    PromotionLaws rationalEnv RationalStore.surfaceRows RationalStore.audits where
  surface write store := ⟨_, _, rfl, store.addRow_gained (.written write), rfl⟩
  memory tier kind key content confidence session store :=
    ⟨_, _, rfl, store.addRow_gained (.memory tier kind key content confidence session), rfl⟩
  memoryOk tier kind key content confidence session store response next ran := by
    cases ran
    rfl
  audit row store := ⟨_, rfl, rfl, rfl⟩
  workingProfileLinked := rfl

def committedPreference (confidence : ℚ) : RationalStore where
  art := ⟨cstr "c1", cstr "preference", stateCommitted, cstr "user", [], confidence, cstr "\x7b\x7d"⟩
  rows := []
  audits := []

/-- A confidence of 0.85 is promoted under a threshold of 0.9, and one of 0.95; the
memory surface has the preference under its id then. -/
theorem borderline_preference_promoted :
    let promoted := learningPromote rationalEnv (some (cstr "c1")) (9 / 10)
      (committedPreference (17 / 20))
    promoted.1 = 1 ∧ promoted.2.surfaceRows .memory =
        [.memory (cstr "L1") (cstr "preference") (cstr "c1") (cstr "c1") (17 / 20) []] ∧
      (learningPromote rationalEnv (some (cstr "c1")) (9 / 10) (committedPreference (19 / 20))).1 = 1 := by
  intro promoted
  have selected : selectedSurface [] (cstr "preference") = some TargetSurface.memory.name := by
    decide +kernel
  obtain ⟨decided, monotone⟩ := learning_promote_decision rationalEnv_laws ⟨fun _ _ => rfl,
    fun _ _ => rfl, rfl⟩ (cstr "c1") (by decide) (committedPreference (17 / 20)).art
    (committedPreference (17 / 20)) rfl (9 / 10)
  obtain ⟨first, gained, -⟩ :=
    decided.promoted .memory rfl selected (by simp [committedPreference]; norm_num) nofun
  refine ⟨first, gained.own, monotone (19 / 20) (committedPreference (19 / 20)) ?_ rfl rfl first⟩
  simp only [committedPreference]
  norm_num

end Rationals

end AimeeLearning.Learning
