import AimeeLearning.Learning.Evidence

/-! What is relied on of the store behind evidence, and a store in memory that
keeps these promises. Its calls fail as a plan says, without touching it. -/

set_option autoImplicit false

namespace AimeeLearning.Learning

open Library

variable {σ ν : Type} (env : EvidenceEnv σ ν) (auditLog : σ → List (AuditRow ν))

section States

def artifactState (state : σ) (id : Bytes) : Option Bytes :=
  (env.artifactRead state id).map ArtifactRow.state

/-- The snapshot is the text of an object with this state. -/
def SnapshotNames (snapshot text : Bytes) : Prop :=
  ∃ value, env.cjsonParse snapshot = some value ∧ value.getString "state" = some text

def SameStates (before after : σ) : Prop :=
  ∀ id, artifactState env after id = artifactState env before id

structure StateSet (candidate text : Bytes) (before after : σ) : Prop where
  set : artifactState env after candidate = some text
  others : ∀ id, id ≠ candidate → artifactState env after id = artifactState env before id

/-- The calls that change states and audit rows answer and do what they are
named after, and the other calls leave the states alone. -/
structure CharterLaws : Prop where
  setsState : ∀ state candidate row text, env.artifactRead state candidate = some row →
    ∃ next, (env.artifactSetState candidate text).run state = (some (), next) ∧
      StateSet env candidate text state next ∧ auditLog next = auditLog state
  audits : ∀ state row, ∃ next, (env.auditEventWrite row).run state = (some (), next) ∧
    SameStates env state next ∧ auditLog next = auditLog state ++ [row]
  rollsBack : ∀ state candidate row text tag scope counterExample,
    env.artifactRead state candidate = some row →
    ∃ next audit,
      (env.artifactReviewRollback candidate text tag scope counterExample).run state =
        (some (), next) ∧
      StateSet env candidate text state next ∧ auditLog next = auditLog state ++ [audit] ∧
      audit.artifactId = candidate ∧ SnapshotNames env audit.beforeSnapshot row.state
  surfaces : ∀ write state, SameStates env state ((env.surfaceWrite write).run state).2
  memory : ∀ tier kind key content confidence session state,
    SameStates env state ((env.memoryInsertJson tier kind key content confidence session).run state).2
  proposedText : SnapshotNames env (cstr "\x7b\"state\":\"proposed\"\x7d") stateProposed

/-- Every call that fails leaves the store as it was. -/
structure FailsCleanly : Prop where
  setState : ∀ candidate text, (env.artifactSetState candidate text).Clean
  audit : ∀ row, (env.auditEventWrite row).Clean
  surface : ∀ write, (env.surfaceWrite write).Clean
  memory : ∀ key content confidence, (memoryInsert env key content confidence).Clean

variable {env} {before middle after : σ}

theorem SameStates.refl (state : σ) : SameStates env state state := fun _ => rfl

theorem SameStates.trans (first : SameStates env before middle)
    (second : SameStates env middle after) : SameStates env before after :=
  fun id => (second id).trans (first id)

theorem StateSet.then_same {candidate text : Bytes} (set : StateSet env candidate text before middle)
    (same : SameStates env middle after) : StateSet env candidate text before after where
  set := (same candidate).trans set.set
  others id other := (same id).trans (set.others id other)

end States

/-- Confidences are percentages. -/
structure CharterStore where
  artifacts : List (ArtifactRow Int)
  /-- The artifact of every citation. -/
  citations : List Bytes
  rows : List (SurfaceWrite Int)
  memories : List (Bytes × Bytes)
  audits : List (AuditRow Int)
  deriving DecidableEq

inductive CharterCall where
  | setState
  | reviewRollback
  | audit
  | surface (write : SurfaceWrite Int)
  | memory

namespace CharterStore

def read (store : CharterStore) (id : Bytes) : Option (ArtifactRow Int) :=
  store.artifacts.find? (·.id = id)

def setState (store : CharterStore) (candidate text : Bytes) : CharterStore :=
  { store with artifacts := store.artifacts.map fun row =>
      if row.id = candidate then { row with state := text } else row }

def stateText (text : Bytes) : Bytes := printValue (.object [(cstr "state", .string text)])

def rollbackAudit (store : CharterStore) (candidate text : Bytes) (tag scope : Option Bytes) :
    AuditRow Int where
  id := printNumber store.audits.length
  artifactId := candidate
  surface := tag.getD []
  targetId := scope.getD []
  actor := cstr "review"
  scopeKind := []
  scopeId := []
  confidence := 100
  flaggedForReview := false
  beforeSnapshot := stateText ((store.read candidate).elim [] ArtifactRow.state)
  afterSnapshot := stateText text

/-- The rows of a surface: written ones, and memories. -/
def surfaceRows (store : CharterStore) (surface : TargetSurface) :
    List (SurfaceWrite Int) × List (Bytes × Bytes) :=
  (store.rows.filter (·.surface = surface), if surface = .memory then store.memories else [])

def latestBefore (store : CharterStore) (id : Bytes) : Bytes :=
  ((store.audits.filter (·.artifactId = id)).getLast?).elim [] AuditRow.beforeSnapshot

/-- A store with one artifact, cited once. -/
def single (kind state : String) : CharterStore :=
  ⟨[⟨cstr "c1", cstr kind, cstr state, cstr "user", [], 90, cstr "\x7b\x7d"⟩], [cstr "c1"], [], [], []⟩

end CharterStore

/-- The environment of a store whose calls fail by plan. -/
def charterEnv (fails : CharterCall → Bool) : EvidenceEnv CharterStore Int where
  artifactRead := CharterStore.read
  artifactTargetSurface _ _ := []
  artifactCitationCount store id := store.citations.count id
  auditReadLatestBefore := CharterStore.latestBefore
  artifactGenId store := printNumber store.audits.length
  artifactSetState candidate text :=
    .failingIf (fails .setState) fun store => ((), store.setState candidate text)
  artifactReviewRollback candidate text tag scope _ :=
    .failingIf (fails .reviewRollback) fun store =>
      ((), { store.setState candidate text with
        audits := store.audits ++ [store.rollbackAudit candidate text tag scope] })
  auditEventWrite row :=
    .failingIf (fails .audit) fun store => ((), { store with audits := store.audits ++ [row] })
  surfaceWrite write :=
    .failingIf (fails (.surface write)) fun store =>
      (store.rows.length + 1, { store with rows := store.rows ++ [write] })
  workingProfileLinked := true
  memoryInsertJson _ _ key content _ _ :=
    .failingIf (fails .memory) fun store =>
      (.object [(cstr "status", .string (cstr "ok")), (cstr "id", .number (store.memories.length + 1))],
        { store with memories := store.memories ++ [(key, content)] })
  tierL1 := cstr "L1"
  cjsonParse := parseText
  less left right := decide (left < right)
  minus left right := left - right
  promoteBorderline := 10
  one := 100
  percent confidence := confidence
  toInt64 value := value

section Promises

open CharterStore

variable {fails : CharterCall → Bool}

theorem artifactState_charterEnv (store : CharterStore) (id : Bytes) :
    artifactState (charterEnv fails) store id = (store.read id).map ArtifactRow.state := rfl

theorem read_setState (store : CharterStore) (candidate text id : Bytes) :
    (store.setState candidate text).read id = (store.read id).map fun row =>
      if row.id = candidate then { row with state := text } else row := by
  simp only [CharterStore.read, CharterStore.setState, List.find?_map]
  congr 2
  funext row
  simp only [Function.comp]
  split <;> rfl

theorem read_id {store : CharterStore} {id : Bytes} {row : ArtifactRow Int}
    (found : store.read id = some row) : row.id = id := by
  simpa using List.find?_some found

theorem setState_stateSet {store : CharterStore} {candidate : Bytes} {row : ArtifactRow Int}
    (found : store.read candidate = some row) (text : Bytes) :
    StateSet (charterEnv fails) candidate text store (store.setState candidate text) where
  set := by
    rw [artifactState_charterEnv, read_setState, found, Option.map_some, if_pos (read_id found)]
    rfl
  others id other := by
    rw [artifactState_charterEnv, artifactState_charterEnv, read_setState]
    cases present : store.read id with
    | none => rfl
    | some row =>
        rw [Option.map_some, if_neg fun same => other ((read_id present).symm.trans same)]

theorem stateText_names (text : Bytes) :
    SnapshotNames (charterEnv fails) (stateText text) text := by
  have parses : (charterEnv fails).cjsonParse = parseText := rfl
  rw [SnapshotNames, parses, stateText]
  exact ⟨_, parseText_print _, rfl⟩

theorem charterEnv_failsCleanly (fails : CharterCall → Bool) : FailsCleanly (charterEnv fails) where
  setState _ _ := Attempt.failingIf_clean _ _
  audit _ := Attempt.failingIf_clean _ _
  surface _ := Attempt.failingIf_clean _ _
  memory key content confidence := by
    intro store left failed
    cases planned : fails .memory with
    | true =>
        have ran : ((charterEnv fails).memoryInsertJson (cstr "L1") (cstr "preference") key content
            confidence []).run store = (none, store) := by simp [charterEnv, Attempt.failingIf, planned]
        exact (congrArg Prod.snd ((Attempt.bind_run_failed ran).symm.trans failed)).symm
    | false =>
        have answered : ((memoryInsert (charterEnv fails) key content confidence).run store).1 =
            some (store.memories.length + 1 : Int) := by
          simp only [memoryInsert, charterEnv, Attempt.failingIf, planned, bind]
          rfl
        simp [failed] at answered

theorem charterEnv_laws : CharterLaws (charterEnv fun _ => false) CharterStore.audits where
  setsState store candidate row text found :=
    ⟨_, rfl, setState_stateSet found text, rfl⟩
  audits store row := ⟨_, rfl, SameStates.refl _, rfl⟩
  rollsBack store candidate row text tag scope _ found := by
    refine ⟨_, store.rollbackAudit candidate text tag scope, rfl, ?_, rfl, rfl, ?_⟩
    · exact (setState_stateSet found text).then_same fun _ => rfl
    · have shown : (store.rollbackAudit candidate text tag scope).beforeSnapshot =
          stateText ((store.read candidate).elim [] ArtifactRow.state) := rfl
      rw [shown, show store.read candidate = some row from found]
      exact stateText_names row.state
  surfaces write store := SameStates.refl _
  memory tier kind key content confidence session store := SameStates.refl _
  proposedText := stateText_names stateProposed

end Promises

end AimeeLearning.Learning
