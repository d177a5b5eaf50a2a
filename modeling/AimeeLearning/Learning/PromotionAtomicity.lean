import AimeeLearning.Learning.CharterStore

/-! What a judgement or a promotion leaves behind when it returns `-1`. The
store has no transactions: a call that fails after an earlier one of the same
sequence has written leaves that write without its audit row. -/

set_option autoImplicit false

namespace AimeeLearning.Learning

open Library

variable {σ ν ρ : Type} (env : EvidenceEnv σ ν) (surfaceRows : σ → TargetSurface → ρ)
  (auditLog : σ → List (AuditRow ν))

/-- A candidate's state, the rows of all target surfaces, and the audit log. -/
structure CharterView (ν ρ : Type) where
  candidateState : Option Bytes
  surfaces : TargetSurface → ρ
  audits : List (AuditRow ν)

def charterView (candidateId : Option Bytes) (state : σ) : CharterView ν ρ :=
  ⟨candidateId.bind (artifactState env state), surfaceRows state, auditLog state⟩

/-- The id under which an audit row speaks about a candidate. -/
def SpeaksOf (candidateId : Option Bytes) (state : σ) (row : AuditRow ν) : Prop :=
  ∃ candidate, candidateId = some candidate ∧ (row.artifactId = candidate ∨
    ∃ art, env.artifactRead state candidate = some art ∧ row.artifactId = art.id)

/-- An error leaves what is seen as it was, a success ends with its audit row,
and every other return leaves the store alone. -/
structure AllOrNothing (candidateId : Option Bytes) (state : σ) (outcome : Int × σ) : Prop where
  undone : outcome.1 = -1 →
    charterView env surfaceRows auditLog candidateId outcome.2 =
      charterView env surfaceRows auditLog candidateId state
  explained : outcome.1 = 1 → ∃ row marked, SpeaksOf env candidateId state row ∧
    (env.auditEventWrite row).run marked = (some (), outcome.2)
  idle : outcome.1 ≠ 1 → outcome.1 ≠ -1 → outcome.2 = state

/-- The judge marks the candidate, which shows, and its audit row fails. -/
def JudgeHalfDone (candidateId candidateKind : Option Bytes) (minCorroboration : Int) (state : σ) :
    Prop :=
  ∃ verdict, judgeable env candidateId candidateKind minCorroboration state = .ok verdict ∧
    Attempt.Stranded (charterView env surfaceRows auditLog candidateId)
      (env.artifactSetState verdict.candidate stateCommitted)
      (fun _ => auditUnderFreshId env (judgeAudit env verdict)) state

/-- The promotion writes its surface, which shows, and its audit row fails; or
the node of an entity is written, which shows, and its alias fails. -/
def PromoteHalfDone (candidateId : Option Bytes) (threshold : ν) (state : σ) : Prop :=
  ∃ art flagged surface, promotable env candidateId threshold state = .ok ⟨art, flagged, surface⟩ ∧
    ((∃ promotion, promotionTo env art flagged surface = .ok promotion ∧
        Attempt.Stranded (charterView env surfaceRows auditLog candidateId) promotion.row
          promotion.audit state) ∨
      surface = .entity ∧
        Attempt.Stranded (charterView env surfaceRows auditLog candidateId)
          (upsertEntityNode env art) (fun _ => upsertEntityAlias env art) state)

section Outcomes

variable {env surfaceRows auditLog} {View : Type} {look : σ → View} {candidateId : Option Bytes}
  {state : σ}

theorem auditUnderFreshId_clean (clean : FailsCleanly env) (row : Bytes → AuditRow ν) :
    (auditUnderFreshId env row).Clean :=
  Attempt.Clean.reading fun id => clean.audit (row id)

theorem outcomeCode_undone_iff {α : Type} {attempt : Attempt σ α} :
    ((outcomeCode (attempt.run state)).1 = -1 →
        look (outcomeCode (attempt.run state)).2 = look state) ↔
      attempt.RestoresAt look state := by
  rcases ran : attempt.run state with ⟨_ | answer, left⟩
  · constructor
    · intro undone other failed
      obtain rfl : left = other := congrArg Prod.snd (ran.symm.trans failed)
      exact undone rfl
    · intro restores _
      exact restores left ran
  · constructor
    · intro _ other failed
      cases ran.symm.trans failed
    · intro _ failed
      cases failed

theorem outcomeCode_result {α : Type} (outcome : Option α × σ) :
    (outcomeCode outcome).1 = 1 ∨ (outcomeCode outcome).1 = -1 := by
  rcases outcome with ⟨_ | answer, left⟩
  · exact .inr rfl
  · exact .inl rfl

theorem allOrNothing_refused {code : Int} (other : code ≠ 1) :
    AllOrNothing env surfaceRows auditLog candidateId state (code, state) where
  undone _ := rfl
  explained same := absurd same other
  idle _ _ := rfl

theorem allOrNothing_iff_restores {α : Type} {write : Attempt σ α} {audit : α → Attempt σ Unit}
    (audits : ∀ answer, ∃ row, audit answer = auditUnderFreshId env row ∧
      ∀ id, SpeaksOf env candidateId state (row id)) :
    AllOrNothing env surfaceRows auditLog candidateId state
        (outcomeCode ((write >>= audit).run state)) ↔
      (write >>= audit).RestoresAt (charterView env surfaceRows auditLog candidateId) state := by
  constructor
  · intro whole
    exact outcomeCode_undone_iff.mp whole.undone
  · intro restores
    refine ⟨outcomeCode_undone_iff.mpr restores, ?_, ?_⟩
    · intro success
      rcases ran : (write >>= audit).run state with ⟨_ | answer, final⟩
      · rw [ran] at success
        cases success
      · obtain ⟨written, marked, -, audited⟩ := Attempt.bind_run_some_iff.mp ran
        obtain ⟨row, same, speaks⟩ := audits written
        rw [same] at audited
        exact ⟨row (env.artifactGenId marked), marked, speaks _, audited⟩
    · intro success failure
      rcases outcomeCode_result ((write >>= audit).run state) with same | same
      · exact absurd same success
      · exact absurd same failure

end Outcomes

section Calls

variable {env surfaceRows auditLog}

theorem judgeCommit_allOrNothing_iff (clean : FailsCleanly env)
    (candidateId candidateKind : Option Bytes) (minCorroboration : Int) (state : σ) :
    AllOrNothing env surfaceRows auditLog candidateId state
        (learningJudgeCommit env candidateId candidateKind minCorroboration state) ↔
      ¬ JudgeHalfDone env surfaceRows auditLog candidateId candidateKind minCorroboration state := by
  cases judged : judgeable env candidateId candidateKind minCorroboration state with
  | error code =>
      simp only [learningJudgeCommit, judged, JudgeHalfDone, reduceCtorEq, false_and, exists_false,
        not_false_eq_true, iff_true]
      exact allOrNothing_refused (judgeable_error judged)
  | ok verdict =>
      have subject := (judgeable_ok judged).1
      simp only [learningJudgeCommit, judged, JudgeHalfDone, Except.ok.injEq, exists_eq_left']
      rw [allOrNothing_iff_restores fun _ => ⟨judgeAudit env verdict, rfl, fun _ =>
        ⟨verdict.candidate, subject, .inl rfl⟩⟩,
        Attempt.bind_restoresAt_iff fun _ => auditUnderFreshId_clean clean _]
      exact and_iff_right (clean.setState _ _).restoresAt

theorem surface_row_restores_iff (clean : FailsCleanly env) {art : ArtifactRow ν} {flagged : Bool}
    {surface : TargetSurface} {promotion : Promotion σ}
    (made : PromotionCalls env art flagged surface promotion) {View : Type} {look : σ → View}
    {state : σ} :
    promotion.row.RestoresAt look state ↔
      ¬ (surface = .entity ∧ Attempt.Stranded look (upsertEntityNode env art)
        (fun _ => upsertEntityAlias env art) state) := by
  rcases made.row with ⟨write, other, same⟩ | ⟨key, content, memory, same⟩ | ⟨entity, same⟩
  · rw [same]
    exact iff_of_true (clean.surface write).restoresAt fun stranded => other stranded.1
  · rw [same]
    refine iff_of_true (clean.memory key content art.confidence).restoresAt ?_
    rintro ⟨entity, -⟩
    rw [memory] at entity
    cases entity
  · rw [same, entity]
    have nodeRestores : (upsertEntityNode env art).RestoresAt look state :=
      (clean.surface _).restoresAt
    have aliasClean : ∀ _ : Int, (upsertEntityAlias env art).Clean := fun _ => clean.surface _
    rw [and_iff_right rfl]
    exact (Attempt.bind_restoresAt_iff aliasClean).trans (and_iff_right nodeRestores)

theorem promoteHalfDone_iff {candidateId : Option Bytes} {threshold : ν} {state : σ}
    {art : ArtifactRow ν} {flagged : Bool} {surface : TargetSurface}
    (passed : promotable env candidateId threshold state = .ok ⟨art, flagged, surface⟩) :
    PromoteHalfDone env surfaceRows auditLog candidateId threshold state ↔
      (∃ promotion, promotionTo env art flagged surface = .ok promotion ∧
        Attempt.Stranded (charterView env surfaceRows auditLog candidateId) promotion.row
          promotion.audit state) ∨
      surface = .entity ∧ Attempt.Stranded (charterView env surfaceRows auditLog candidateId)
        (upsertEntityNode env art) (fun _ => upsertEntityAlias env art) state := by
  constructor
  · rintro ⟨_, _, _, same, half⟩
    obtain ⟨rfl, rfl, rfl⟩ := Promotable.mk.inj (Except.ok.inj (passed.symm.trans same))
    exact half
  · exact fun half => ⟨art, flagged, surface, passed, half⟩

theorem promote_allOrNothing_iff (clean : FailsCleanly env) (candidateId : Option Bytes)
    (threshold : ν) (state : σ) :
    AllOrNothing env surfaceRows auditLog candidateId state
        (learningPromote env candidateId threshold state) ↔
      ¬ PromoteHalfDone env surfaceRows auditLog candidateId threshold state := by
  cases passed : promotable env candidateId threshold state with
  | error code =>
      simp only [learningPromote, passed, PromoteHalfDone, reduceCtorEq, false_and, exists_false,
        not_false_eq_true, iff_true]
      exact allOrNothing_refused (promotable_error passed)
  | ok target =>
      obtain ⟨art, flagged, surface⟩ := target
      obtain ⟨candidate, subject, found, -⟩ := promotable_ok passed
      rw [promoteHalfDone_iff passed]
      cases chosen : promotionTo env art flagged surface with
      | error code =>
          simp only [learningPromote, passed, chosen]
          refine iff_of_true (allOrNothing_refused (promotionTo_error env chosen)) ?_
          rintro (⟨promotion, planned, -⟩ | ⟨rfl, -⟩)
          · cases planned
          · cases chosen
      | ok promotion =>
          have made := promotionTo_calls env chosen
          have audits : ∀ answer, ∃ row, promotion.audit answer = auditUnderFreshId env row ∧
              ∀ id, SpeaksOf env candidateId state (row id) := by
            intro answer
            obtain ⟨targetId, after, same⟩ := made.audit answer
            exact ⟨_, same, fun id => ⟨candidate, subject, .inr ⟨art, found, rfl⟩⟩⟩
          have cleanAudit : ∀ answer, (promotion.audit answer).Clean := by
            intro answer
            obtain ⟨row, same, -⟩ := audits answer
            rw [same]
            exact auditUnderFreshId_clean clean row
          simp only [learningPromote, passed, chosen, Except.ok.injEq, exists_eq_left', not_or]
          rw [allOrNothing_iff_restores audits, Attempt.bind_restoresAt_iff cleanAudit,
            surface_row_restores_iff clean made, and_comm]

end Calls

/-- A judgement or a promotion is all or nothing exactly when no call of it
fails after an earlier one has left its mark. -/
theorem judge_promote_all_or_nothing_iff (clean : FailsCleanly env) (candidateId : Option Bytes)
    (state : σ) :
    (∀ candidateKind minCorroboration,
      AllOrNothing env surfaceRows auditLog candidateId state
          (learningJudgeCommit env candidateId candidateKind minCorroboration state) ↔
        ¬ JudgeHalfDone env surfaceRows auditLog candidateId candidateKind minCorroboration state) ∧
    ∀ threshold,
      AllOrNothing env surfaceRows auditLog candidateId state
          (learningPromote env candidateId threshold state) ↔
        ¬ PromoteHalfDone env surfaceRows auditLog candidateId threshold state :=
  ⟨fun candidateKind minCorroboration =>
    judgeCommit_allOrNothing_iff clean candidateId candidateKind minCorroboration state,
  fun threshold => promote_allOrNothing_iff clean candidateId threshold state⟩

/-- A failing memory store leaves a promotion undone, and a judgement whole. -/
theorem memory_failure_undone :
    let env := charterEnv fun
      | .memory => true
      | _ => false
    let judged := learningJudgeCommit env (some (cstr "c1")) (some (cstr "preference")) 1
      (.single "preference" "proposed")
    let promoted := learningPromote env (some (cstr "c1")) 95 (.single "preference" "committed")
    judged.1 = 1 ∧ promoted.1 = -1 ∧
      AllOrNothing env CharterStore.surfaceRows CharterStore.audits (some (cstr "c1"))
        (.single "preference" "proposed") judged ∧
      AllOrNothing env CharterStore.surfaceRows CharterStore.audits (some (cstr "c1"))
        (.single "preference" "committed") promoted := by
  intro env judged promoted
  have clean : FailsCleanly env := charterEnv_failsCleanly _
  refine ⟨by decide +kernel, by decide +kernel, ?_, ?_⟩
  · refine ((judge_promote_all_or_nothing_iff env CharterStore.surfaceRows CharterStore.audits clean
      (some (cstr "c1")) (.single "preference" "proposed")).1 (some (cstr "preference")) 1).mpr ?_
    rintro ⟨verdict, -, answer, marked, -, failed, -⟩
    cases failed
  · refine ((judge_promote_all_or_nothing_iff env CharterStore.surfaceRows CharterStore.audits clean
      (some (cstr "c1")) (.single "preference" "committed")).2 95).mpr ?_
    rintro ⟨art, flagged, surface, -, ⟨promotion, chosen, answer, marked, -, failed, -⟩ |
      ⟨-, answer, marked, -, failed, -⟩⟩
    · obtain ⟨targetId, after, same⟩ := (promotionTo_calls env chosen).audit answer
      rw [same] at failed
      cases failed
    · cases failed

/-- When the audit row fails, the judge returns an error for a committed
candidate, and the promotion one for a stored memory. -/
theorem audit_failure_half_done :
    let env := charterEnv fun
      | .audit => true
      | _ => false
    let judged := learningJudgeCommit env (some (cstr "c1")) (some (cstr "preference")) 1
      (.single "preference" "proposed")
    let promoted := learningPromote env (some (cstr "c1")) 95 (.single "preference" "committed")
    (judged.1 = -1 ∧ artifactState env judged.2 (cstr "c1") = some stateCommitted ∧
        judged.2.audits = [] ∧
        ¬ AllOrNothing env CharterStore.surfaceRows CharterStore.audits (some (cstr "c1"))
          (.single "preference" "proposed") judged) ∧
      promoted.1 = -1 ∧ promoted.2.memories = [(cstr "c1", cstr "c1")] ∧ promoted.2.audits = [] ∧
        ¬ AllOrNothing env CharterStore.surfaceRows CharterStore.audits (some (cstr "c1"))
          (.single "preference" "committed") promoted := by
  intro env judged promoted
  refine ⟨⟨by decide +kernel, by decide +kernel, by decide +kernel, ?_⟩, by decide +kernel,
    by decide +kernel, by decide +kernel, ?_⟩
  · intro whole
    have same := congrArg CharterView.candidateState (whole.undone (by decide +kernel))
    exact absurd same (by decide +kernel)
  · intro whole
    have same := congrFun (congrArg CharterView.surfaces (whole.undone (by decide +kernel))) .memory
    exact absurd same (by decide +kernel)

end AimeeLearning.Learning
