import AimeeLearning.Learning.CharterStore
import AimeeLearning.Library.Machine

/-! The states of a candidate over runs of judgements, promotions and rollbacks.
The judge writes its before snapshot on trust and a rollback goes back to the
latest snapshot, so a run is lawful exactly when each judgement found a proposed
candidate and no rollback read `committed`. -/

set_option autoImplicit false

namespace AimeeLearning.Learning

open Library

variable {σ ν : Type} (env : EvidenceEnv σ ν) (auditLog : σ → List (AuditRow ν))

section Calls

/-- A call of a run, with the store around it and the code it returned. -/
structure CallRecord (σ ν : Type) where
  call : EvidenceCall ν
  before : σ
  result : Int
  after : σ

namespace CallRecord

def Commits (record : CallRecord σ ν) (candidate : Bytes) : Prop :=
  ∃ kind minCorroboration,
    record.call = .judgeCommit (some candidate) kind minCorroboration ∧ record.result = 1

def RollsBack (record : CallRecord σ ν) (candidate : Bytes) : Prop :=
  ∃ tag scope counterExample,
    record.call = .reviewRollback (some candidate) tag scope counterExample ∧ record.result = 0

def Enters (record : CallRecord σ ν) (candidate : Bytes) : Prop :=
  artifactState env record.before candidate ≠ some stateCommitted ∧
    artifactState env record.after candidate = some stateCommitted

end CallRecord

/-- The call names a row of the store, unless it names nothing. -/
def addressed (call : EvidenceCall ν) (state : σ) : Bool :=
  call.candidateId.all fun id => id.isEmpty || (env.artifactRead state id).isSome

/-- Calls one after the other, on candidates that have a row. -/
def evidenceMachine : Machine σ (EvidenceCall ν) (CallRecord σ ν) where
  step state call :=
    if addressed env call state then
      let (result, next) := runEvidenceCall env call state
      some (next, [⟨call, state, result, next⟩])
    else none

/-- What the lifecycle promises of a history of calls. -/
structure CandidateLifecycle (history : List (CallRecord σ ν)) : Prop where
  entry : ∀ record ∈ history, ∀ candidate, record.Enters env candidate →
    ∃ kind minCorroboration,
      record.call = .judgeCommit (some candidate) kind minCorroboration ∧ record.result = 1 ∧
      artifactState env record.before candidate = some stateProposed ∧
      max 1 minCorroboration ≤ env.artifactCitationCount record.before candidate
  audited : ∀ record ∈ history, ∀ candidate, record.Commits candidate ∨ record.RollsBack candidate →
    ∃ row had, auditLog record.after = auditLog record.before ++ [row] ∧
      row.artifactId = candidate ∧ artifactState env record.before candidate = some had ∧
      SnapshotNames env row.beforeSnapshot had
  settled : ∀ early record middle late, history = early ++ record :: middle ++ late →
    ∀ candidate, record.RollsBack candidate → (∀ later ∈ middle, ¬ later.Commits candidate) →
      artifactState env (middle.getLastD record).after candidate ≠ some stateCommitted

/-- A judgement that commits finds a proposed candidate; a rollback does not
read `committed`. -/
def Founded (call : EvidenceCall ν) (state : σ) : Prop :=
  match call with
  | .judgeCommit candidateId candidateKind minCorroboration =>
      match judgeable env candidateId candidateKind minCorroboration state with
      | .ok verdict => artifactState env state verdict.candidate = some stateProposed
      | .error _ => True
  | .promote _ _ => True
  | .reviewRollback candidateId _ _ _ =>
      match candidateId with
      | none | some [] => True
      | some candidate => restoreState env candidate state ≠ stateCommitted

instance (call : EvidenceCall ν) (state : σ) : Decidable (Founded env call state) := by
  cases call <;> simp only [Founded] <;> first | infer_instance | (split <;> infer_instance)

/-- What a call can do. -/
inductive Happened : CallRecord σ ν → Prop where
  | judged {kind : Option Bytes} {minCorroboration : Int} {verdict : Judgeable} {before after : σ}
      {id : Bytes} :
      judgeable env (some verdict.candidate) kind minCorroboration before = .ok verdict →
      StateSet env verdict.candidate stateCommitted before after →
      auditLog after = auditLog before ++ [judgeAudit env verdict id] →
      Happened ⟨.judgeCommit (some verdict.candidate) kind minCorroboration, before, 1, after⟩
  | judgeRefused {candidateId kind : Option Bytes} {minCorroboration code : Int} {before : σ} :
      judgeable env candidateId kind minCorroboration before = .error code → code ≠ 1 →
      Happened ⟨.judgeCommit candidateId kind minCorroboration, before, code, before⟩
  | promoted {candidateId : Option Bytes} {threshold : ν} {before after : σ} {code : Int} :
      SameStates env before after → Happened ⟨.promote candidateId threshold, before, code, after⟩
  | rolledBack {candidate : Bytes} {tag scope counterExample : Option Bytes} {before after : σ}
      {row : ArtifactRow ν} {audit : AuditRow ν} :
      candidate ≠ [] → env.artifactRead before candidate = some row →
      StateSet env candidate (restoreState env candidate before) before after →
      auditLog after = auditLog before ++ [audit] → audit.artifactId = candidate →
      SnapshotNames env audit.beforeSnapshot row.state →
      Happened ⟨.reviewRollback (some candidate) tag scope counterExample, before, 0, after⟩
  | rollbackRefused {candidateId tag scope counterExample : Option Bytes} {before : σ} :
      (∀ candidate, candidateId = some candidate → candidate = []) →
      Happened ⟨.reviewRollback candidateId tag scope counterExample, before, -1, before⟩

end Calls

section Steps

variable {env auditLog}

theorem Founded.proposed {candidateId candidateKind : Option Bytes} {minCorroboration : Int}
    {state : σ} {verdict : Judgeable}
    (founded : Founded env (.judgeCommit candidateId candidateKind minCorroboration) state)
    (judged : judgeable env candidateId candidateKind minCorroboration state = .ok verdict) :
    artifactState env state verdict.candidate = some stateProposed := by
  simpa only [Founded, judged] using founded

theorem Founded.restores {candidate : Bytes} {tag scope counterExample : Option Bytes} {state : σ}
    (founded : Founded env (.reviewRollback (some candidate) tag scope counterExample) state)
    (nonempty : candidate ≠ []) : restoreState env candidate state ≠ stateCommitted := by
  cases candidate with
  | nil => exact absurd rfl nonempty
  | cons => exact founded

theorem addressed_row {call : EvidenceCall ν} {state : σ} {candidate : Bytes}
    (known : addressed env call state = true) (named : call.candidateId = some candidate)
    (nonempty : candidate ≠ []) : ∃ row, env.artifactRead state candidate = some row := by
  simp only [addressed, named, Option.all_some, Bool.or_eq_true, List.isEmpty_iff, nonempty,
    false_or] at known
  exact Option.isSome_iff_exists.mp known

theorem memoryInsert_same (laws : CharterLaws env auditLog) (key content : Bytes) (confidence : ν)
    (state : σ) : SameStates env state ((memoryInsert env key content confidence).run state).2 := by
  have kept := laws.memory env.tierL1 (cstr "preference") key content confidence [] state
  rcases ran : (env.memoryInsertJson env.tierL1 (cstr "preference") key content confidence []).run
    state with ⟨_ | response, next⟩
  · rw [memoryInsert, Attempt.bind_run_failed ran]
    rwa [ran] at kept
  · rw [memoryInsert, Attempt.bind_run_answered ran]
    rw [ran] at kept
    split
    · exact kept
    · exact kept

theorem bind_same {α β : Type} {first : Attempt σ α} {second : α → Attempt σ β} {state : σ}
    (firstSame : SameStates env state (first.run state).2)
    (secondSame : ∀ answer other, SameStates env other ((second answer).run other).2) :
    SameStates env state ((first >>= second).run state).2 := by
  rcases ran : first.run state with ⟨_ | answer, next⟩
  · rw [Attempt.bind_run_failed ran]
    rwa [ran] at firstSame
  · rw [Attempt.bind_run_answered ran]
    rw [ran] at firstSame
    exact firstSame.trans (secondSame answer next)

theorem auditUnderFreshId_run (laws : CharterLaws env auditLog) (row : Bytes → AuditRow ν)
    (state : σ) : ∃ next, (auditUnderFreshId env row).run state = (some (), next) ∧
      SameStates env state next ∧
      auditLog next = auditLog state ++ [row (env.artifactGenId state)] :=
  laws.audits state (row (env.artifactGenId state))

theorem auditUnderFreshId_same (laws : CharterLaws env auditLog) (row : Bytes → AuditRow ν)
    (state : σ) : SameStates env state ((auditUnderFreshId env row).run state).2 := by
  obtain ⟨next, ran, same, -⟩ := auditUnderFreshId_run laws row state
  rwa [ran]

theorem promotionTo_same (laws : CharterLaws env auditLog) {art : ArtifactRow ν} {flagged : Bool}
    {surface : TargetSurface} {promotion : Promotion σ}
    (chosen : promotionTo env art flagged surface = .ok promotion) (state : σ) :
    SameStates env state ((promotion.row >>= promotion.audit).run state).2 := by
  have made := promotionTo_calls env chosen
  refine bind_same ?_ fun answer other => ?_
  · rcases made.row with ⟨write, -, same⟩ | ⟨key, content, -, same⟩ | ⟨-, same⟩
    · rw [same]
      exact laws.surfaces write state
    · rw [same]
      exact memoryInsert_same laws key content art.confidence state
    · rw [same]
      exact bind_same (laws.surfaces _ _) fun _ => laws.surfaces _
  · obtain ⟨targetId, snapshot, same⟩ := made.audit answer
    rw [same]
    exact auditUnderFreshId_same laws _ other

theorem learningPromote_same (laws : CharterLaws env auditLog) (candidateId : Option Bytes)
    (threshold : ν) (state : σ) :
    SameStates env state (learningPromote env candidateId threshold state).2 := by
  unfold learningPromote
  split
  · exact SameStates.refl state
  · split
    · exact SameStates.refl state
    · rename_i promotion chosen
      exact promotionTo_same laws chosen state

theorem evidenceMachine_happened (laws : CharterLaws env auditLog) {state next : σ}
    {call : EvidenceCall ν} {records : List (CallRecord σ ν)}
    (taken : (evidenceMachine env).step state call = some (next, records)) :
    ∃ record, records = [record] ∧ record.before = state ∧ record.after = next ∧
      record.call = call ∧ Happened env auditLog record := by
  simp only [evidenceMachine] at taken
  split at taken
  case isFalse => cases taken
  case isTrue known =>
  obtain ⟨rfl, rfl⟩ := Prod.mk.inj (Option.some.inj taken)
  refine ⟨_, rfl, rfl, rfl, rfl, ?_⟩
  cases call with
  | judgeCommit candidateId kind minCorroboration =>
      simp only [runEvidenceCall, learningJudgeCommit]
      split
      · rename_i code refused
        exact .judgeRefused refused (judgeable_error refused)
      · rename_i verdict judged
        obtain ⟨rfl, nonempty, -⟩ := judgeable_ok judged
        obtain ⟨row, found⟩ := addressed_row known rfl nonempty
        obtain ⟨marked, marking, set, quiet⟩ :=
          laws.setsState state verdict.candidate row stateCommitted found
        obtain ⟨audited, auditing, same, grown⟩ :=
          auditUnderFreshId_run laws (judgeAudit env verdict) marked
        have ran : Attempt.run (do
              env.artifactSetState verdict.candidate stateCommitted
              auditUnderFreshId env (judgeAudit env verdict)) state = (some (), audited) :=
          (Attempt.bind_run_answered marking).trans auditing
        rw [ran]
        exact .judged judged (set.then_same same) (grown.trans (by rw [quiet]))
  | promote candidateId threshold => exact .promoted (learningPromote_same laws _ _ _)
  | reviewRollback candidateId tag scope counterExample =>
      simp only [runEvidenceCall, learningReviewRollback]
      split
      · exact .rollbackRefused fun _ same => absurd same.symm (Option.some_ne_none _)
      · exact .rollbackRefused fun _ same => (Option.some.inj same).symm
      · rename_i candidate nonempty
        obtain ⟨row, found⟩ := addressed_row known rfl nonempty
        obtain ⟨next, audit, rolling, set, grown, whose, names⟩ :=
          laws.rollsBack state candidate row (restoreState env candidate state) tag scope
            counterExample found
        rw [rolling]
        exact .rolledBack nonempty found set grown whose names

end Steps

section Runs

variable {env auditLog} {start final : σ} {calls : List (EvidenceCall ν)}
  {history : List (CallRecord σ ν)}

theorem run_happened (laws : CharterLaws env auditLog)
    (run : (evidenceMachine env).Run start calls final history) :
    ∀ record ∈ history, Happened env auditLog record := by
  induction run with
  | nil => exact nofun
  | snoc _ taken ih =>
      obtain ⟨record, rfl, -, -, -, happened⟩ := evidenceMachine_happened laws taken
      intro other member
      rcases List.mem_append.mp member with earlier | here
      · exact ih other earlier
      · rwa [List.mem_singleton.mp here]

theorem run_last (laws : CharterLaws env auditLog)
    (run : (evidenceMachine env).Run start calls final history)
    {early middle : List (CallRecord σ ν)} {record : CallRecord σ ν}
    (split : history = early ++ record :: middle) : (middle.getLastD record).after = final := by
  have last : history.getLast? = some (middle.getLastD record) := by
    rw [split, List.getLast?_append, List.getLast?_cons, Option.some_or, List.getLastD_eq_getLast?]
  cases run with
  | nil => cases last
  | snoc _ taken =>
      obtain ⟨other, rfl, -, after, -, -⟩ := evidenceMachine_happened laws taken
      rw [List.getLast?_append, List.getLast?_singleton, Option.some_or] at last
      rw [← Option.some.inj last, after]

theorem Happened.entry {record : CallRecord σ ν} (happened : Happened env auditLog record)
    (founded : Founded env record.call record.before) {candidate : Bytes}
    (enters : record.Enters env candidate) :
    ∃ kind minCorroboration,
      record.call = .judgeCommit (some candidate) kind minCorroboration ∧ record.result = 1 ∧
      artifactState env record.before candidate = some stateProposed ∧
      max 1 minCorroboration ≤ env.artifactCitationCount record.before candidate := by
  obtain ⟨outside, inside⟩ := enters
  cases happened with
  | @judged kind minCorroboration verdict before after id judged set grown =>
      by_cases same : candidate = verdict.candidate
      · subst same
        exact ⟨kind, minCorroboration, rfl, rfl, founded.proposed judged, (judgeable_ok judged).2.2⟩
      · exact absurd ((set.others candidate same).symm.trans inside) outside
  | judgeRefused => exact absurd inside outside
  | promoted same => exact absurd ((same candidate).symm.trans inside) outside
  | @rolledBack rolled _ _ _ before after _ _ named found set _ _ _ =>
      by_cases same : candidate = rolled
      · subst same
        have restored := Option.some.inj (set.set.symm.trans inside)
        exact absurd restored (founded.restores named)
      · exact absurd ((set.others candidate same).symm.trans inside) outside
  | rollbackRefused => exact absurd inside outside

theorem Happened.audited (laws : CharterLaws env auditLog) {record : CallRecord σ ν}
    (happened : Happened env auditLog record) (founded : Founded env record.call record.before)
    {candidate : Bytes} (moved : record.Commits candidate ∨ record.RollsBack candidate) :
    ∃ row had, auditLog record.after = auditLog record.before ++ [row] ∧
      row.artifactId = candidate ∧ artifactState env record.before candidate = some had ∧
      SnapshotNames env row.beforeSnapshot had := by
  cases happened with
  | judged judged _ grown =>
      obtain ⟨_, _, called, -⟩ | ⟨_, _, _, called, -⟩ := moved
      · cases called
        exact ⟨_, stateProposed, grown, rfl, founded.proposed judged, laws.proposedText⟩
      · cases called
  | judgeRefused _ refused =>
      obtain ⟨_, _, -, committed⟩ | ⟨_, _, _, called, -⟩ := moved
      · exact absurd committed refused
      · cases called
  | promoted => obtain ⟨_, _, called, -⟩ | ⟨_, _, _, called, -⟩ := moved <;> cases called
  | rolledBack _ found _ grown whose names =>
      obtain ⟨_, _, called, -⟩ | ⟨_, _, _, called, -⟩ := moved
      · cases called
      · cases called
        refine ⟨_, _, grown, whose, ?_, names⟩
        rw [artifactState, found]
        rfl
  | rollbackRefused =>
      obtain ⟨_, _, called, -⟩ | ⟨_, _, _, -, done⟩ := moved
      · cases called
      · cases done

theorem Happened.rolledBack_outside {record : CallRecord σ ν}
    (happened : Happened env auditLog record) (founded : Founded env record.call record.before)
    {candidate : Bytes} (rolled : record.RollsBack candidate) :
    artifactState env record.after candidate ≠ some stateCommitted := by
  obtain ⟨tag, scope, counterExample, called, done⟩ := rolled
  cases happened with
  | rolledBack named _ set _ _ _ =>
      cases called
      rw [set.set]
      exact fun same => founded.restores named (Option.some.inj same)
  | rollbackRefused => cases done
  | judged => cases called
  | judgeRefused => cases called
  | promoted => cases called

theorem Happened.stays_outside {record : CallRecord σ ν} (happened : Happened env auditLog record)
    (founded : Founded env record.call record.before) {candidate : Bytes}
    (outside : artifactState env record.before candidate ≠ some stateCommitted)
    (unjudged : ¬ record.Commits candidate) :
    artifactState env record.after candidate ≠ some stateCommitted := by
  intro inside
  obtain ⟨kind, minCorroboration, called, done, -⟩ := happened.entry founded ⟨outside, inside⟩
  exact unjudged ⟨kind, minCorroboration, called, done⟩

theorem run_settled (laws : CharterLaws env auditLog)
    (run : (evidenceMachine env).Run start calls final history)
    (founded : ∀ record ∈ history, Founded env record.call record.before)
    {early middle late : List (CallRecord σ ν)} {record : CallRecord σ ν}
    (split : history = early ++ record :: middle ++ late) {candidate : Bytes}
    (rolled : record.RollsBack candidate) (unjudged : ∀ later ∈ middle, ¬ later.Commits candidate) :
    artifactState env (middle.getLastD record).after candidate ≠ some stateCommitted := by
  induction run generalizing middle late with
  | nil => simp at split
  | @snoc _ _ outputs _ _ _ before taken ih =>
      obtain ⟨newest, rfl, began, ended, -, happened⟩ := evidenceMachine_happened laws taken
      have earlier : ∀ other ∈ outputs, Founded env other.call other.before :=
        fun other member => founded other (List.mem_append_left _ member)
      have newestFounded := founded newest (List.mem_append_right _ (List.mem_singleton_self _))
      rcases List.eq_nil_or_concat' late with rfl | ⟨rest, last, rfl⟩
      · rcases List.eq_nil_or_concat' middle with rfl | ⟨front, last, rfl⟩
        · -- the rollback is the newest call
          obtain ⟨-, same⟩ := List.append_inj' (split.trans (List.append_nil _)) rfl
          obtain rfl := List.head_eq_of_cons_eq same
          exact happened.rolledBack_outside newestFounded rolled
        · -- the newest call is one of those after the rollback
          have parts : outputs ++ [newest] = (early ++ record :: front) ++ [last] := by
            rw [split]
            simp
          obtain ⟨whole, same⟩ := List.append_inj' parts rfl
          obtain rfl := List.head_eq_of_cons_eq same
          rw [List.getLastD_concat]
          refine happened.stays_outside newestFounded ?_
            (unjudged newest (List.mem_append_right _ (List.mem_singleton_self _)))
          rw [began, ← run_last laws before whole]
          exact ih earlier (whole.trans (List.append_nil _).symm)
            fun later member => unjudged later (List.mem_append_left _ member)
      · have parts : outputs ++ [newest] = (early ++ record :: middle ++ rest) ++ [last] := by
          rw [split]
          simp
        exact ih earlier (List.append_inj' parts rfl).1 unjudged

end Runs

/-- Every run of judgements, promotions and rollbacks keeps the lifecycle exactly
when each of its calls is founded. -/
theorem candidate_lifecycle_iff (laws : CharterLaws env auditLog) {start final : σ}
    {calls : List (EvidenceCall ν)} {history : List (CallRecord σ ν)}
    (run : (evidenceMachine env).Run start calls final history) :
    CandidateLifecycle env auditLog history ↔
      ∀ record ∈ history, Founded env record.call record.before := by
  have happened := run_happened laws run
  constructor
  · intro lifecycle record member
    cases happened record member with
    | @judged kind minCorroboration verdict before after id judged set grown =>
        simp only [Founded, judged]
        by_cases inside : artifactState env before verdict.candidate = some stateCommitted
        · -- the audit row of a second judgement says proposed of a committed candidate
          obtain ⟨row, had, appended, -, state, value, parsed, named⟩ :=
            lifecycle.audited _ member verdict.candidate (.inl ⟨kind, minCorroboration, rfl, rfl⟩)
          obtain ⟨proposed, readable, proposedNamed⟩ := laws.proposedText
          obtain rfl := List.singleton_inj.mp (List.append_cancel_left (grown.symm.trans appended))
          obtain rfl := Option.some.inj (readable.symm.trans parsed)
          rw [state, ← Option.some.inj (proposedNamed.symm.trans named)]
        · obtain ⟨_, _, -, -, proposed, -⟩ :=
            lifecycle.entry _ member verdict.candidate ⟨inside, set.set⟩
          exact proposed
    | judgeRefused refused _ =>
        simp only [Founded, refused]
    | promoted => trivial
    | @rolledBack candidate tag scope counterExample before after _ _ named _ set _ _ _ =>
        obtain ⟨early, late, split⟩ := List.append_of_mem member
        have outside := lifecycle.settled early _ [] late (by simpa using split) candidate
          ⟨tag, scope, counterExample, rfl, rfl⟩ nofun
        have elsewhere : restoreState env candidate before ≠ stateCommitted := by
          intro restored
          rw [restored] at set
          exact outside set.set
        cases candidate with
        | nil => trivial
        | cons => exact elsewhere
    | @rollbackRefused candidateId _ _ _ _ nameless =>
        cases candidateId with
        | none => trivial
        | some candidate =>
            obtain rfl := nameless candidate rfl
            trivial
  · intro founded
    exact
      { entry := fun record member candidate enters =>
          (happened record member).entry (founded record member) enters
        audited := fun record member candidate moved =>
          (happened record member).audited laws (founded record member) moved
        settled := fun early record middle late split candidate rolled unjudged =>
          run_settled laws run founded split rolled unjudged }

section Afternoon

/-- Calls on a store in memory whose calls do not fail. -/
def charterRun (store : CharterStore) (calls : List (EvidenceCall Int)) :
    CharterStore × List (CallRecord CharterStore Int) :=
  ((evidenceMachine (charterEnv fun _ => false)).execute store calls).getD (store, [])

def judgeCall : EvidenceCall Int := .judgeCommit (some (cstr "c1")) (some (cstr "preference")) 1
def promoteCall : EvidenceCall Int := .promote (some (cstr "c1")) 95
def rollbackCall : EvidenceCall Int := .reviewRollback (some (cstr "c1")) none none none

theorem charterRun_run (store : CharterStore) (calls : List (EvidenceCall Int))
    (enabled : ((evidenceMachine (charterEnv fun _ => false)).execute store calls).isSome) :
    (evidenceMachine (charterEnv fun _ => false)).Run store calls (charterRun store calls).1
      (charterRun store calls).2 := by
  obtain ⟨result, same⟩ := Option.isSome_iff_exists.mp enabled
  unfold charterRun
  rw [same]
  exact Machine.run_of_execute same

end Afternoon

/-- A candidate is judged, promoted, rolled back and judged again. -/
theorem candidate_lifecycle_judged_twice :
    let run := charterRun (.single "preference" "proposed") [judgeCall, promoteCall, rollbackCall, judgeCall]
    run.2.map CallRecord.result = [1, 1, 0, 1] ∧
      CandidateLifecycle (charterEnv fun _ => false) CharterStore.audits run.2 := by
  intro run
  have ran := charterRun_run (.single "preference" "proposed")
    [judgeCall, promoteCall, rollbackCall, judgeCall] (by decide +kernel)
  exact ⟨by decide +kernel, (candidate_lifecycle_iff (charterEnv fun _ => false)
    CharterStore.audits charterEnv_laws ran).mpr (by decide +kernel)⟩

/-- The second of two rollbacks reads its own audit row and commits the candidate. -/
theorem second_rollback_commits :
    let run := charterRun (.single "preference" "proposed") [judgeCall, rollbackCall, rollbackCall]
    (evidenceMachine (charterEnv fun _ => false)).Run (.single "preference" "proposed")
        [judgeCall, rollbackCall, rollbackCall] run.1 run.2 ∧
      run.2.map CallRecord.result = [1, 0, 0] ∧
      artifactState (charterEnv fun _ => false) run.1 (cstr "c1") = some stateCommitted ∧
      ¬ CandidateLifecycle (charterEnv fun _ => false) CharterStore.audits run.2 := by
  intro run
  have ran := charterRun_run (.single "preference" "proposed")
    [judgeCall, rollbackCall, rollbackCall] (by decide +kernel)
  refine ⟨ran, by decide +kernel, by decide +kernel, ?_⟩
  intro lifecycle
  have last : run.2.getLast?.any fun record => record.call = rollbackCall ∧ record.result = 0 ∧
      artifactState (charterEnv fun _ => false) record.after (cstr "c1") = some stateCommitted := by
    decide +kernel
  obtain ⟨record, here, facts⟩ := (Option.any_eq_true _ _).mp last
  obtain ⟨called, done, inside⟩ := of_decide_eq_true facts
  obtain ⟨front, split⟩ := List.getLast?_eq_some_iff.mp here
  exact lifecycle.settled front record [] [] (by simpa using split) (cstr "c1")
    ⟨none, none, none, called, done⟩ nofun inside

end AimeeLearning.Learning
