import AimeeLearning.Learning.SignalRefusal

/-! What the integrity gate of the router keeps out of the store. It is shown one
text of a signal, the first of description, correction text and title that is not
empty; the insert stores all texts and the workflow action copies three of them. -/

set_option autoImplicit false

namespace AimeeLearning.Learning

open Library Traced

variable {σ ν : Type}

/-- The signals of explicit user actions, which the gate lets pass. -/
def userStatedTypes : List Bytes :=
  [cstr "thumb_up", cstr "thumb_down", cstr "correction", cstr "preference_statement",
    cstr "mark_rule"]

/-- The gate is on and not only watching. -/
structure IntegrityEnforced (env : RouterEnv σ ν) (state : σ) : Prop where
  present : env.configPresent state = true
  enabled : env.configIntegrityEnabled state = true
  acting : env.configIntegrityDryRun state = false

/-- The texts of a signal that the store and the workflow action keep. -/
def storedTexts (raw : LearningSignalInput) : List Bytes :=
  [raw.title, raw.description, raw.correctionText, raw.workflowProject, raw.workflowSignalType]

/-- A signal with a rejected text among some of its texts is refused and leaves
nothing behind. -/
def GateCovers (env : RouterEnv σ ν) (view : σ → StoreView) (instant : Bytes → Int)
    (texts : LearningSignalInput → List Bytes) : Prop :=
  ∀ state raw out text, IntegrityEnforced env state → raw.signalType ∉ userStatedTypes →
    text ∈ texts raw → text ≠ [] → env.integrityGateCheck state text .tool = .reject →
    ∀ code noted final events,
      (learningRouterRecordSignal env (some raw) out).run state = ((code, noted), final, events) →
      code = -1 ∧ Untraced instant (view state) (view final) events

theorem integritySource_eq_tool {raw : LearningSignalInput} :
    integritySource raw = .tool ↔ raw.signalType ∉ userStatedTypes := by
  unfold integritySource userStatedTypes
  split
  · rename_i stated
    exact iff_of_false nofun (not_not.mpr (by simpa using stated))
  · rename_i other
    exact iff_of_true rfl (by simpa using other)

theorem integrityRefuses_iff {env : RouterEnv σ ν} {raw : LearningSignalInput} {state : σ} :
    integrityRefuses env raw state = true ↔
      IntegrityEnforced env state ∧ raw.signalType ∉ userStatedTypes ∧ integrityText raw ≠ [] ∧
        env.integrityGateCheck state (integrityText raw) .tool = .reject := by
  have sources : (integritySource raw != .userStated) = true ↔ integritySource raw = .tool := by
    cases integritySource raw <;> simp
  rw [integrityRefuses]
  simp only [Bool.and_eq_true, sources, bne_iff_ne, beq_iff_eq, Bool.not_eq_eq_eq_not, Bool.not_true]
  rw [← integritySource_eq_tool]
  constructor
  · rintro ⟨⟨⟨⟨⟨present, enabled⟩, some⟩, acting⟩, tool⟩, rejected⟩
    exact ⟨⟨present, enabled, acting⟩, tool, some, tool ▸ rejected⟩
  · rintro ⟨⟨present, enabled, acting⟩, tool, some, rejected⟩
    exact ⟨⟨⟨⟨⟨present, enabled⟩, some⟩, acting⟩, tool⟩, tool ▸ rejected⟩

/-- The gate covers the leading text of a signal. -/
theorem gate_covers_leading (env : RouterEnv σ ν) (view : σ → StoreView) (instant : Bytes → Int) :
    GateCovers env view instant fun raw => [integrityText raw] := by
  intro state raw out text enforced other leading some rejected code noted final events ran
  obtain rfl := List.mem_singleton.mp leading
  have refuses := integrityRefuses_iff.mpr ⟨enforced, other, some, rejected⟩
  have stays : (view state).Quiet (view state) := ⟨le_refl _, rfl, rfl⟩
  unfold learningRouterRecordSignal at ran
  dsimp only at ran
  split at ran
  · obtain ⟨rfl, -, rfl, rfl⟩ := run_pure_pair_iff.mp ran
    exact ⟨rfl, .quiet stays⟩
  · obtain ⟨_, _, _, _, gate, gated, rfl⟩ := run_bind_iff.mp ran
    obtain ⟨rfl, rfl, rfl⟩ := run_read_iff.mp gate
    rw [if_pos refuses] at gated
    obtain ⟨rfl, -, rfl, rfl⟩ := run_pure_pair_iff.mp gated
    exact ⟨rfl, .quiet stays⟩

/-- An afternoon on which the gate rejects one text. -/
def guardedAfternoon (hostile : Bytes) : RouterEnv MemoryStore Int :=
  { memoryEnv { afternoon with classify := fun _ => some Observe.sinkWorkflow } with
    configIntegrityEnabled := fun _ => true
    integrityGateCheck := fun _ text _ => if text = hostile then .reject else .accept }

theorem guardedAfternoon_enforced (hostile : Bytes) (store : MemoryStore) :
    IntegrityEnforced (guardedAfternoon hostile) store := ⟨rfl, rfl, rfl⟩

/-- A workflow signal with a plain description and other texts of a project. -/
def workflowOf (project : Bytes) : LearningSignalInput :=
  { bareSignal with
    signalType := cstr "workflow_repetition", description := cstr "run the tests"
    workflowProject := project, workflowSignalType := cstr "ci" }

/-- A rejected description is refused. -/
theorem gate_covers_description :
    ((learningRouterRecordSignal (guardedAfternoon (cstr "run the tests"))
      (some (workflowOf (cstr "aimee"))) none).run .empty).1.1 = -1 :=
  (gate_covers_leading (guardedAfternoon (cstr "run the tests")) (memoryView afternoon) readTimestamp
    .empty (workflowOf (cstr "aimee")) none _ (guardedAfternoon_enforced _ _) (by decide +kernel)
    (List.mem_singleton.mpr rfl) (by decide +kernel) (by decide +kernel) _ _ _ _ rfl).1

/-- A rejected project beside it is stored and goes into a proposal. -/
theorem gate_misses_project :
    ¬ GateCovers (guardedAfternoon (cstr "rm -rf /")) (memoryView afternoon) readTimestamp
      storedTexts := by
  intro covers
  let ran := (learningRouterRecordSignal (guardedAfternoon (cstr "rm -rf /"))
    (some (workflowOf (cstr "rm -rf /"))) none).run .empty
  have answered : ran.1.1 = 1 := by decide +kernel
  obtain ⟨refused, -⟩ := covers .empty (workflowOf (cstr "rm -rf /")) none (cstr "rm -rf /")
    (guardedAfternoon_enforced _ _) (by decide +kernel) (by simp [storedTexts, workflowOf])
    (by decide +kernel) (by decide +kernel) ran.1.1 ran.1.2 ran.2.1 ran.2.2 rfl
  rw [answered] at refused
  exact absurd refused (by decide)

end AimeeLearning.Learning
