import AimeeLearning.Learning.DispatchTrace
import AimeeLearning.Learning.MemoryStore

/-! The dispatch result against the rows before and after the call: it lists what
the call inserted or raised, in the order of the sinks, and what it committed. -/

set_option autoImplicit false

namespace AimeeLearning.Learning

open Library Traced

variable {σ ν : Type} {env : RouterEnv σ ν} {view : σ → StoreView} {instant : Bytes → Int}
  {law : StoreLaw ν} {past events : List (RouterEvent ν)}

/-- The dispatch result tells exactly what the call did to the rows. -/
structure DispatchExact (env : RouterEnv σ ν) (before after : StoreView)
    (events : List (RouterEvent ν)) (code : Int) (result : LearningDispatchResult) : Prop where
  named : result.signalId = code
  ordered : ∃ sinks, sinks.Sublist [cstr "reranker", cstr "supersede", cstr "rule", cstr "workflow"] ∧
    List.Forall₂ (fun id sink => ∃ row ∈ after.rows, row.id = id ∧ row.sink = sink)
      result.proposalIds sinks
  distinct : result.proposalIds.Nodup
  /-- A proposal is listed when it is new or its count was raised. -/
  proposals : ∀ id, id ∈ result.proposalIds ↔ ∃ row ∈ after.rows, row.id = id ∧
    ∀ former ∈ before.rows, former.id = id → former.corroborationCount < row.corroborationCount
  /-- It is listed as committed when it is now, and was pending if it was there. -/
  commits : ∀ id, id ∈ result.committedIds ↔ SettledId after.rows id stateCommitted ∧
    ∀ former ∈ before.rows, former.id = id → former.state = statePending
  distinctCommits : result.committedIds.Nodup
  listed : result.committedIds ⊆ result.proposalIds
  archived : ∀ row ∈ after.rows, row.state = stateArchived → row.id ∉ result.committedIds
  failed : ∀ id effect rc, .applied id effect rc ∈ events → rc ≠ 0 → id ∉ result.committedIds
  worked : ∀ id ∈ result.committedIds, ∃ row ∈ after.rows, row.id = id ∧ SinkWorked env events row
  fits : result.proposalIds.length ≤ learningMaxProposalIds ∧
    result.committedIds.length ≤ learningMaxProposalIds

variable {before after : StoreView} {outcomes : List (SinkOutcome ν)} {targets : List Route}
  {signal : Int}

theorem outcomes_touched (served : List.Forall₂ (Served env signal after.rows) outcomes targets)
    {id : Int} : Touched ((outcomes.map (·.trace)).flatten) id ↔ id ∈ outcomes.map (·.id) := by
  induction served with
  | nil => simp [Touched]
  | cons here _ ih =>
      rw [List.map_cons, List.map_cons, List.flatten_cons, List.mem_cons, ← ih, ← here.trace.touched]
      simp only [Touched, List.mem_append]
      tauto

theorem outcomes_marked (served : List.Forall₂ (Served env signal after.rows) outcomes targets)
    {id : Int} : .committed id 0 ∈ (outcomes.map (·.trace)).flatten ↔
      id ∈ (outcomes.filter (·.listed)).map (·.id) := by
  induction served with
  | nil => simp
  | @cons outcome _ _ _ here _ ih =>
      rw [List.map_cons, List.flatten_cons, List.mem_append, ih, here.trace.marked]
      cases marked : outcome.listed <;> simp [marked]

theorem outcomes_distinct (served : List.Forall₂ (Served env signal after.rows) outcomes targets)
    (lawful : after.Lawful) (sinks : (targets.map (·.sink)).Nodup) :
    (outcomes.map (·.id)).Nodup := by
  have related : List.Forall₂ (fun id sink => ∃ row ∈ after.rows, row.id = id ∧ row.sink = sink)
      (outcomes.map (·.id)) (targets.map (·.sink)) := by
    rw [List.forall₂_map_left_iff, List.forall₂_map_right_iff]
    exact served.imp fun _ _ here => here.row
  refine forall₂_nodup related sinks ?_
  rintro id sink other ⟨row, present, named, rfl⟩ ⟨again, there, same, rfl⟩
  rw [lawful.same present there (same.trans named.symm)]

theorem outcomes_failed (served : List.Forall₂ (Served env signal after.rows) outcomes targets)
    (distinct : (outcomes.map (·.id)).Nodup) {id rc : Int} {effect : SinkEffect ν}
    (applied : .applied id effect rc ∈ (outcomes.map (·.trace)).flatten) (wrong : rc ≠ 0) :
    id ∉ (outcomes.filter (·.listed)).map (·.id) := by
  intro marked
  obtain ⟨trace, member, applied⟩ := List.mem_flatten.mp applied
  obtain ⟨failing, present, rfl⟩ := List.mem_map.mp member
  obtain ⟨listed, kept, named⟩ := List.mem_map.mp marked
  obtain ⟨there, done⟩ := List.mem_filter.mp kept
  obtain ⟨route, -, here⟩ := forall₂_forward served present
  obtain ⟨same, open'⟩ := here.trace.failed applied wrong
  obtain rfl := List.inj_on_of_nodup_map distinct there present (named.trans same)
  simp [open'] at done

theorem exact_of_served {code : Int} (sure : ¬ law.fails) (lawful : before.Lawful)
    (path : Path (Evolution law) past before
      ([.archivedExpired, .signalInserted code] ++ (outcomes.map (·.trace)).flatten) after)
    (served : List.Forall₂ (Served env signal after.rows) outcomes targets)
    (sinks : (targets.map (·.sink)).Sublist
      [cstr "reranker", cstr "supersede", cstr "rule", cstr "workflow"]) :
    DispatchExact env before after
      ([.archivedExpired, .signalInserted code] ++ (outcomes.map (·.trace)).flatten) code
      ⟨code, outcomes.map (·.id), (outcomes.filter (·.listed)).map (·.id)⟩ := by
  have settled := path_lawful path lawful
  have distinct := outcomes_distinct served settled (sinks.nodup (by decide))
  have commits : ∀ id, id ∈ (outcomes.filter (·.listed)).map (·.id) ↔
      SettledId after.rows id stateCommitted ∧
        ∀ former ∈ before.rows, former.id = id → former.state = statePending := by
    intro id
    rw [← outcomes_marked served, ← path_marked_iff path lawful]
    simp
  have few : outcomes.length ≤ 4 := by
    rw [served.length_eq]
    simpa using sinks.length_le
  have sublist : ((outcomes.filter (·.listed)).map (·.id)).Sublist (outcomes.map (·.id)) :=
    List.filter_sublist.map _
  refine ⟨rfl, ⟨targets.map (·.sink), sinks, ?_⟩, distinct, fun id => ?_, commits,
    sublist.nodup distinct, sublist.subset, fun row present done listed => ?_,
    fun id effect rc applied wrong => ?_, fun id listed => ?_, ?_, ?_⟩
  · rw [List.forall₂_map_left_iff, List.forall₂_map_right_iff]
    exact served.imp fun _ _ here => here.row
  · rw [← outcomes_touched served, ← path_touched_iff sure path lawful]
    simp [Touched]
  · obtain ⟨other, there, same, committed⟩ := ((commits row.id).mp listed).1
    obtain rfl := settled.same present there same
    rw [done] at committed
    exact absurd committed (by decide)
  · exact outcomes_failed served distinct (by simpa using applied) wrong
  · obtain ⟨outcome, kept, rfl⟩ := List.mem_map.mp listed
    obtain ⟨member, marked⟩ := List.mem_filter.mp kept
    obtain ⟨route, -, here⟩ := forall₂_forward served member
    obtain ⟨row, present, named, work⟩ := here.worked marked
    refine ⟨row, present, named, work.mono fun event shown => List.mem_append_right _ ?_⟩
    exact List.mem_flatten.mpr ⟨_, List.mem_map_of_mem member, shown⟩
  · rw [List.length_map]
    exact few.trans (by decide)
  · have short := sublist.length_le.trans_eq (List.length_map _)
    exact (short.trans few).trans (by decide)

/-- Whatever the store and the classifier hold, a recorded signal's result is
exact when the store calls succeed. -/
theorem dispatch_exact (acts : ActsAsNamed env view instant False) {state final : σ}
    (lawful : (view state).Lawful) {rawInput : Option LearningSignalInput}
    {given : LearningDispatchResult} {noted : Option LearningDispatchResult} {code : Int}
    (ran : (learningRouterRecordSignal env rawInput (some given)).run state =
      ((code, noted), final, events)) (positive : 0 < code) :
    ∃ result, noted = some result ∧
      DispatchExact env (view state) (view final) events code result := by
  have acts : ActsAsNamed env view (freeLaw (ν := ν) instant False).instant
    (freeLaw (ν := ν) instant False).fails := acts
  have observed : CapObserved env view (freeLaw (ν := ν) instant False) :=
    capObserved_trivial acts fun _ _ _ => trivial
  obtain ⟨path, -⟩ := learningRouterRecordSignal_spec acts observed [] lawful
    (fun _ _ _ _ => trivial) ran
  rcases learningRouterRecordSignal_cases acts ran with
    ⟨rfl, -⟩ | ⟨raw, mask, classified, -, -, -, -, quiet, dispatch⟩
  · exact absurd positive (by decide)
  · obtain ⟨input, outcomes, rfl, served, rfl⟩ := dispatchSignal_served acts observed
      not_false (fun _ _ _ => trivial) (lawful.quiet quiet) positive dispatch
    have few : outcomes.length ≤ 4 := by
      rw [served.length_eq]
      exact routes_length
    have space : (0 : Nat) + outcomes.length ≤ learningMaxProposalIds := by
      rw [Nat.zero_add]
      exact few.trans (by decide)
    have listed := foldl_noting (⟨code, [], []⟩ : LearningDispatchResult) space space
    exact ⟨_, congrArg some listed,
      exact_of_served not_false lawful path served (routes_sinks env input _)⟩

/-- An explicit rule is inserted and committed at once. -/
theorem dispatch_exact_mark_rule :
    ∃ noted final events result,
      (learningRouterRecordSignal (memoryEnv afternoon)
        (some { bareSignal with signalType := cstr "mark_rule", description := cstr "tabs" })
        (some .zero)).run .empty = ((1, noted), final, events) ∧
      noted = some result ∧ result.proposalIds = [1] ∧ result.committedIds = [1] ∧
      DispatchExact (memoryEnv afternoon) (memoryView afternoon .empty) (memoryView afternoon final)
        events 1 result := by
  let ran := (learningRouterRecordSignal (memoryEnv afternoon)
    (some { bareSignal with signalType := cstr "mark_rule", description := cstr "tabs" })
    (some .zero)).run .empty
  have answered : ran.1.1 = 1 := by decide +kernel
  have same : ran = ((1, ran.1.2), ran.2.1, ran.2.2) := by rw [← answered]
  obtain ⟨result, noted, exactly⟩ := dispatch_exact
    (memoryEnv_actsSurely fun _ => rfl) memoryView_empty same (by decide)
  have listed : ran.1.2.map (fun result => (result.proposalIds, result.committedIds)) =
      some ([1], [1]) := by decide +kernel
  rw [noted] at listed
  obtain ⟨proposals, commits⟩ := Prod.mk.inj (Option.some.inj listed)
  exact ⟨_, _, _, result, same, noted, proposals, commits, exactly⟩

end AimeeLearning.Learning
