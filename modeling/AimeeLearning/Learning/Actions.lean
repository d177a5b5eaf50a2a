import AimeeLearning.Learning.MemoryStore
import AimeeLearning.Learning.RouterRuns

/-! The actions the router builds and the sinks that apply them. A built action
is faithful when its text is whole and applying it makes the store call with
what the signal carried. -/

set_option autoImplicit false

namespace AimeeLearning.Learning

open Library Observe Traced

variable {σ ν : Type} (env : RouterEnv σ ν) (input : LearningSignalInput)

section Carried

/-- The ids a signal carries: its memory, or the numbers among its evidence. -/
def signalIds : List Int :=
  if input.targetMemoryId > 0 then [input.targetMemoryId]
  else
    match input.evidenceRefsJson.bind env.cjsonParse with
    | some (.array items) => items.filterMap fun
        | .number value => some (env.toInt64 value)
        | _ => none
    | _ => []

def ruleText : Bytes :=
  if input.signalType = cstr "correction" then correctionRuleText env input
  else snprintf (env.collabRuleTextLen + 1)
    (if input.description ≠ [] then input.description else input.title)

def ruleReason : Bytes :=
  snprintf (env.collabRuleReasonLen + 1) <|
    if input.signalType = cstr "correction" then
      cstr "Repeated correction captured by learning router"
    else if input.signalType = cstr "mark_rule" then cstr "Explicit rule capture"
    else cstr "Explicit user preference"

/-- The store call a signal asks of a sink. -/
def signalEffect (session sink : Bytes) : SinkEffect ν :=
  if sink = cstr "reranker" then
    .memoryApplyFeedback (if input.signalType = cstr "thumb_up" then 1 else 0) (signalIds env input)
  else if sink = cstr "supersede" then
    .memorySupersede input.targetMemoryId input.correctionText (env.ofInt 1) session
  else if sink = cstr "rule" then
    .collabRulesPropose (ruleText env input) (ruleReason env input) (cstr "learning_router")
  else .memoryUpsertWorkflow input.workflowProject input.workflowSignalType input.description
    (env.ofInt 1) session

/-- The JSON value of the action built for a sink. -/
def signalAction (sink : Bytes) : CJson ν :=
  if sink = cstr "reranker" then
    .object [(cstr "success", .bool (input.signalType == cstr "thumb_up")),
      (cstr "citation_ids", .array (
        if input.targetMemoryId > 0 then [.number (env.ofInt input.targetMemoryId)]
        else
          match input.evidenceRefsJson.bind env.cjsonParse with
          | some (.array items) => items.filter fun
              | .number _ => true
              | _ => false
          | _ => []))]
  else if sink = cstr "supersede" then
    .object [(cstr "old_memory_id", .number (env.ofInt input.targetMemoryId)),
      (cstr "new_content", .string input.correctionText)]
  else if sink = cstr "rule" then
    .object [(cstr "text", .string (ruleText env input)),
      (cstr "reason", .string (ruleReason env input))]
  else .object [(cstr "project", .string input.workflowProject),
    (cstr "signal_type", .string input.workflowSignalType), (cstr "rule", .string input.description)]

def actionBuffer (sink : Bytes) : Nat :=
  if sink = cstr "reranker" then 512
  else if sink = cstr "supersede" then 2048
  else if sink = cstr "rule" then 2048
  else 1024

end Carried

/-- The action is the whole text of its value, and every proposal that carries
it makes the store call the signal asks for. -/
structure ActionFaithful (state : σ) (route : Route) : Prop where
  complete : env.cjsonPrintUnformatted (signalAction env input route.sink) = some route.actionJson
  applied : ∀ proposal : LearningProposal, proposal.sink = route.sink →
    proposal.actionJson = route.actionJson → proposal.targetMemoryId = route.targetMemoryId →
    let effect := signalEffect env input (env.sessionId state) route.sink
    let done := env.perform state effect
    (learningApplySink env proposal).run state =
      (effect.settle done.1, done.2, [.applied proposal.id effect (effect.settle done.1)])

/-- The signal says something a rule can be made of. -/
def RuleGiven : Prop :=
  if input.signalType = cstr "correction" then input.correctionText ≠ [] ∨ input.description ≠ []
  else input.description ≠ [] ∨ input.title ≠ []

/-- The fields of the action survive the way to the sink. -/
def FieldsFit (sink : Bytes) : Prop :=
  if sink = cstr "reranker" then
    signalIds env input ≠ [] ∧ (signalIds env input).length ≤ 32 ∧
      (input.targetMemoryId > 0 → env.toInt64 (env.ofInt input.targetMemoryId) = input.targetMemoryId)
  else if sink = cstr "supersede" then
    env.toInt64 (env.ofInt input.targetMemoryId) = input.targetMemoryId
  else if sink = cstr "rule" then RuleGiven input
  else True

/-- The printed action fits its buffer and its fields fit the sink. -/
structure ActionFits (route : Route) : Prop where
  room : ∃ text, env.cjsonPrintUnformatted (signalAction env input route.sink) = some text ∧
    text.length < actionBuffer route.sink
  fields : FieldsFit env input route.sink

section Rendering

variable {env input} {action : CJson ν} {text : Bytes} {cap : Nat}

/-- A rendered action is whole exactly when its text fits the buffer. -/
theorem renderAction_complete (positive : 0 < cap) (rendered : renderAction env cap action = some text) :
    env.cjsonPrintUnformatted action = some text ↔
      ∃ whole, env.cjsonPrintUnformatted action = some whole ∧ whole.length < cap := by
  obtain ⟨whole, printed, rfl⟩ := Option.map_eq_some_iff.mp rendered
  constructor
  · intro complete
    have same : whole = snprintf cap whole := Option.some.inj (printed.symm.trans complete)
    have short := congrArg List.length same
    rw [snprintf, List.length_take] at short
    exact ⟨whole, printed, by omega⟩
  · rintro ⟨other, same, fits⟩
    obtain rfl := Option.some.inj (printed.symm.trans same)
    rw [printed, snprintf, List.take_of_length_le (by omega)]

theorem learningApplySink_run {proposal : LearningProposal} {state : σ}
    (parsed : env.cjsonParse proposal.actionJson = some action) :
    (learningApplySink env proposal).run state =
      match sinkPlan env (env.sessionId state) proposal action with
      | .malformed => (-1, state, [])
      | .nothing => (0, state, [])
      | .effect planned => (planned.settle (env.perform state planned).1,
          (env.perform state planned).2,
          [.applied proposal.id planned (planned.settle (env.perform state planned).1)]) := by
  unfold learningApplySink
  rw [parsed]
  show (Traced.run (match sinkPlan env (env.sessionId state) proposal action with
    | .malformed => _ | .nothing => _ | .effect _ => _) state) = _
  split <;> rfl

/-- Applying a proposal makes a store call exactly when its action plans it. -/
theorem learningApplySink_applies {proposal : LearningProposal} {state : σ} {effect : SinkEffect ν}
    (parsed : env.cjsonParse proposal.actionJson = some action) :
    (learningApplySink env proposal).run state =
      (effect.settle (env.perform state effect).1, (env.perform state effect).2,
        [.applied proposal.id effect (effect.settle (env.perform state effect).1)]) ↔
    sinkPlan env (env.sessionId state) proposal action = .effect effect := by
  rw [learningApplySink_run parsed]
  cases sinkPlan env (env.sessionId state) proposal action with
  | malformed => simp
  | nothing => simp
  | effect planned =>
      constructor
      · intro same
        simp only [Prod.mk.injEq, List.cons.injEq, RouterEvent.applied.injEq] at same
        rw [same.2.2.1.2.1]
      · intro same
        obtain rfl := SinkPlan.effect.inj same
        rfl

end Rendering

section Plans

variable {env input} {proposal : LearningProposal} {session : Bytes}

/-- The ids a list of JSON numbers stands for. -/
def numberIds (env : RouterEnv σ ν) (items : List (CJson ν)) : List Int :=
  items.filterMap fun
    | .number value => some (env.toInt64 value)
    | _ => none

theorem numberIds_filter (items : List (CJson ν)) :
    numberIds env (items.filter fun
      | .number _ => true
      | _ => false) = numberIds env items := by
  unfold numberIds
  rw [List.filterMap_filter]
  congr 1
  funext item
  cases item <;> rfl

theorem rerankerPlan_citations {success : Bool} {items : List (CJson ν)} :
    rerankerPlan env proposal (.object [(cstr "success", .bool success),
      (cstr "citation_ids", .array items)]) =
      (let cited := (numberIds env items).take 32
      let ids := if cited = [] ∧ proposal.targetMemoryId > 0 then [proposal.targetMemoryId] else cited
      if ids = [] then .nothing
      else .effect (.memoryApplyFeedback (if success then 1 else 0) ids)) := rfl

theorem plan_reranker (sink : proposal.sink = cstr "reranker")
    (memory : proposal.targetMemoryId = input.targetMemoryId) :
    sinkPlan env session proposal (signalAction env input (cstr "reranker")) =
        .effect (signalEffect env input session (cstr "reranker")) ↔
      FieldsFit env input (cstr "reranker") := by
  have success : (if (input.signalType == cstr "thumb_up") = true then 1 else 0 : Int) =
      if input.signalType = cstr "thumb_up" then 1 else 0 := by simp
  rw [sinkPlan, if_pos sink, signalAction, if_pos rfl, rerankerPlan_citations, signalEffect,
    if_pos rfl, FieldsFit, if_pos rfl, success, memory]
  by_cases targeted : input.targetMemoryId > 0
  · have ids : signalIds env input = [input.targetMemoryId] := if_pos targeted
    rw [ids, if_pos targeted]
    simp [numberIds, targeted]
  · have ids : signalIds env input = numberIds env (
        match input.evidenceRefsJson.bind env.cjsonParse with
        | some (.array items) => items.filter fun
            | .number _ => true
            | _ => false
        | _ => []) := by
      rw [signalIds, if_neg targeted]
      split
      · exact (numberIds_filter _).symm
      · rfl
    rw [if_neg targeted, ← ids]
    simp only [targeted, and_false, if_false, false_implies, and_true]
    have none : (signalIds env input).take 32 = [] ↔ signalIds env input = [] := by
      simp [List.take_eq_nil_iff]
    split
    · rename_i empty
      simp [none.mp empty]
    · rename_i some'
      simp only [SinkPlan.effect.injEq, SinkEffect.memoryApplyFeedback.injEq, true_and]
      constructor
      · intro same
        have short := congrArg List.length same
        rw [List.length_take] at short
        exact ⟨fun empty => some' (none.mpr empty), by omega⟩
      · exact fun short => List.take_of_length_le short.2

theorem plan_supersede (sink : proposal.sink = cstr "supersede")
    (corrected : input.correctionText ≠ []) :
    sinkPlan env session proposal (signalAction env input (cstr "supersede")) =
        .effect (signalEffect env input session (cstr "supersede")) ↔
      FieldsFit env input (cstr "supersede") := by
  have planned : supersedePlan env session (.object
      [(cstr "old_memory_id", .number (env.ofInt input.targetMemoryId)),
        (cstr "new_content", .string input.correctionText)]) =
      if input.correctionText = [] then .malformed
      else .effect (.memorySupersede (env.toInt64 (env.ofInt input.targetMemoryId))
        input.correctionText (env.ofInt 1) session) := rfl
  have action : signalAction env input (cstr "supersede") = .object
      [(cstr "old_memory_id", .number (env.ofInt input.targetMemoryId)),
        (cstr "new_content", .string input.correctionText)] := rfl
  have effect : signalEffect env input session (cstr "supersede") =
      .memorySupersede input.targetMemoryId input.correctionText (env.ofInt 1) session := rfl
  have fits : FieldsFit env input (cstr "supersede") ↔
      env.toInt64 (env.ofInt input.targetMemoryId) = input.targetMemoryId := Iff.rfl
  rw [sinkPlan, sink, if_neg (by decide), if_pos rfl, action, planned, if_neg corrected, effect, fits]
  simp

theorem snprintf_eq_nil {cap : Nat} {text : Bytes} (positive : 0 < cap) :
    snprintf (cap + 1) text = [] ↔ text = [] := by
  simp [snprintf, List.take_eq_nil_iff, positive.ne']

theorem ruleText_eq_nil (positive : 0 < env.collabRuleTextLen) :
    ruleText env input = [] ↔ ¬ RuleGiven input := by
  unfold ruleText RuleGiven correctionRuleText
  have phrase : cstr "For " ≠ [] := by decide
  split
  · rw [snprintf_eq_nil positive]
    split_ifs <;> simp_all
  · rw [snprintf_eq_nil positive]
    split_ifs <;> simp_all

theorem plan_rule (positive : 0 < env.collabRuleTextLen) (sink : proposal.sink = cstr "rule") :
    sinkPlan env session proposal (signalAction env input (cstr "rule")) =
        .effect (signalEffect env input session (cstr "rule")) ↔
      FieldsFit env input (cstr "rule") := by
  have action : signalAction env input (cstr "rule") = .object
      [(cstr "text", .string (ruleText env input)),
        (cstr "reason", .string (ruleReason env input))] := rfl
  have planned : rulePlan (.object [(cstr "text", .string (ruleText env input)),
      (cstr "reason", .string (ruleReason env input))] : CJson ν) =
      if ruleText env input = [] then .malformed
      else .effect (.collabRulesPropose (ruleText env input) (ruleReason env input)
        (cstr "learning_router")) := rfl
  have effect : signalEffect env input session (cstr "rule") =
      .collabRulesPropose (ruleText env input) (ruleReason env input) (cstr "learning_router") := rfl
  have fits : FieldsFit env input (cstr "rule") ↔ RuleGiven input := Iff.rfl
  rw [sinkPlan, sink, if_neg (by decide), if_neg (by decide), if_pos rfl, action, planned, effect,
    fits]
  split
  · rename_i empty
    simp [(ruleText_eq_nil positive).mp empty]
  · rename_i given
    simpa using not_not.mp (mt (ruleText_eq_nil positive).mpr given)

theorem plan_workflow (sink : proposal.sink = cstr "workflow")
    (given : input.workflowProject ≠ [] ∧ input.workflowSignalType ≠ [] ∧ input.description ≠ []) :
    sinkPlan env session proposal (signalAction env input (cstr "workflow")) =
        .effect (signalEffect env input session (cstr "workflow")) ↔
      FieldsFit env input (cstr "workflow") := by
  have action : signalAction env input (cstr "workflow") = .object
      [(cstr "project", .string input.workflowProject),
        (cstr "signal_type", .string input.workflowSignalType),
        (cstr "rule", .string input.description)] := rfl
  have planned : workflowPlan env session (.object
      [(cstr "project", .string input.workflowProject),
        (cstr "signal_type", .string input.workflowSignalType),
        (cstr "rule", .string input.description)]) =
      if input.workflowProject = [] ∨ input.workflowSignalType = [] ∨ input.description = [] then
        .malformed
      else .effect (.memoryUpsertWorkflow input.workflowProject input.workflowSignalType
        input.description (env.ofInt 1) session) := rfl
  have effect : signalEffect env input session (cstr "workflow") =
      .memoryUpsertWorkflow input.workflowProject input.workflowSignalType input.description
        (env.ofInt 1) session := rfl
  have fits : FieldsFit env input (cstr "workflow") := trivial
  rw [sinkPlan, sink, if_neg (by decide), if_neg (by decide), if_neg (by decide), if_pos rfl, action,
    planned, if_neg (by simp [given]), effect]
  exact iff_of_true rfl fits

end Plans

section Routes

variable {env input}

/-- A built action is faithful exactly when it fits, given what its sink plans. -/
theorem faithful_of_plan {state : σ} {route : Route}
    (inverse : ∀ value text, env.cjsonPrintUnformatted value = some text →
      env.cjsonParse text = some value)
    (rendered : renderAction env (actionBuffer route.sink) (signalAction env input route.sink) =
      some route.actionJson)
    (memory : route.targetMemoryId = input.targetMemoryId ∨ route.sink = cstr "workflow")
    (plans : ∀ proposal : LearningProposal, proposal.sink = route.sink →
      (proposal.targetMemoryId = input.targetMemoryId ∨ route.sink = cstr "workflow") →
      (sinkPlan env (env.sessionId state) proposal (signalAction env input route.sink) =
          .effect (signalEffect env input (env.sessionId state) route.sink) ↔
        FieldsFit env input route.sink)) :
    ActionFaithful env input state route ↔ ActionFits env input route := by
  have positive : 0 < actionBuffer route.sink := by
    unfold actionBuffer
    split_ifs <;> decide
  have whole := renderAction_complete positive rendered
  constructor
  · rintro ⟨complete, applied⟩
    refine ⟨whole.mp complete, ?_⟩
    -- the proposal the route itself asks for
    let proposal : LearningProposal :=
      ⟨0, 0, route.sink, [], [], route.targetMemoryId, route.actionJson, [], 0, [], [], [], [], []⟩
    exact (plans proposal rfl memory).mp ((learningApplySink_applies (inverse _ _ complete)).mp
      (applied proposal rfl rfl rfl))
  · rintro ⟨room, fields⟩
    have complete := whole.mpr room
    refine ⟨complete, fun proposal sink action target => ?_⟩
    rw [← action] at complete
    refine (learningApplySink_applies (inverse _ _ complete)).mpr ((plans proposal sink ?_).mpr fields)
    exact memory.imp_left target.trans

theorem mem_ifMasked {mask sink : UInt32} {built : Option Route} {route : Route}
    (member : route ∈ (ifMasked mask sink built).toList) : built = some route := by
  unfold ifMasked at member
  split at member
  · exact Option.mem_toList.mp member
  · cases member

theorem rerankerRoute_rendered {route : Route} (built : rerankerRoute env input = some route) :
    route.targetMemoryId = input.targetMemoryId ∧
      renderAction env 512 (signalAction env input (cstr "reranker")) = some route.actionJson := by
  unfold rerankerRoute at built
  dsimp only at built
  split at built
  · obtain ⟨action, made, rfl⟩ := Option.map_eq_some_iff.mp built
    exact ⟨rfl, made⟩
  · cases built

theorem supersedeRoute_rendered {route : Route} (built : supersedeRoute env input = some route) :
    route.targetMemoryId = input.targetMemoryId ∧ input.correctionText ≠ [] ∧
      renderAction env 2048 (signalAction env input (cstr "supersede")) = some route.actionJson := by
  unfold supersedeRoute at built
  split at built
  · rename_i given
    obtain ⟨action, made, rfl⟩ := Option.map_eq_some_iff.mp built
    exact ⟨rfl, given.2, made⟩
  · cases built

theorem ruleRoute_rendered {route : Route} (built : ruleRoute env input = some route) :
    route.targetMemoryId = input.targetMemoryId ∧
      renderAction env 2048 (signalAction env input (cstr "rule")) = some route.actionJson := by
  have action : signalAction env input (cstr "rule") = .object
      [(cstr "text", .string (ruleText env input)),
        (cstr "reason", .string (ruleReason env input))] := rfl
  unfold ruleRoute at built
  dsimp only at built
  rw [action]
  split at built
  · rename_i correction
    obtain ⟨text, made, rfl⟩ := Option.map_eq_some_iff.mp built
    refine ⟨rfl, ?_⟩
    rw [ruleText, ruleReason, if_pos correction.1, if_pos correction.1]
    exact made
  · split at built
    · rename_i stated
      obtain ⟨text, made, rfl⟩ := Option.map_eq_some_iff.mp built
      have other : input.signalType ≠ cstr "correction" := by
        rcases stated with same | same <;>
          · rw [same]
            decide
      refine ⟨rfl, ?_⟩
      rw [ruleText, ruleReason, if_neg other, if_neg other]
      by_cases marked : input.signalType = cstr "mark_rule"
      · simpa [learningMakeRuleAction, marked] using made
      · simpa [learningMakeRuleAction, marked] using made
    · cases built

theorem workflowRoute_rendered {route : Route} (built : workflowRoute env input = some route) :
    (input.workflowProject ≠ [] ∧ input.workflowSignalType ≠ [] ∧ input.description ≠ []) ∧
      renderAction env 1024 (signalAction env input (cstr "workflow")) = some route.actionJson := by
  unfold workflowRoute at built
  split at built
  · rename_i given
    obtain ⟨action, made, rfl⟩ := Option.map_eq_some_iff.mp built
    exact ⟨given, made⟩
  · cases built

end Routes

/-- Every action a signal is queued with is faithful exactly when its text fits
the buffer of its sink and its fields fit the sink. -/
theorem action_faithful_iff
    (inverse : ∀ value text, env.cjsonPrintUnformatted value = some text →
      env.cjsonParse text = some value)
    (positive : 0 < env.collabRuleTextLen) (mask : UInt32) (state : σ) :
    ∀ route ∈ routes env input mask,
      (ActionFaithful env input state route ↔ ActionFits env input route) := by
  intro route member
  simp only [routes, List.append_assoc, List.mem_append] at member
  rcases member with reranker | supersede | rule | workflow
  · have built := mem_ifMasked reranker
    have sink := rerankerRoute_sink built
    obtain ⟨memory, rendered⟩ := rerankerRoute_rendered built
    refine faithful_of_plan inverse (by rw [sink]; exact rendered) (.inl memory) ?_
    rw [sink]
    exact fun proposal same target => plan_reranker same (target.resolve_right (by decide))
  · have built := mem_ifMasked supersede
    have sink := supersedeRoute_sink built
    obtain ⟨memory, corrected, rendered⟩ := supersedeRoute_rendered built
    refine faithful_of_plan inverse (by rw [sink]; exact rendered) (.inl memory) ?_
    rw [sink]
    exact fun proposal same _ => plan_supersede same corrected
  · have built := mem_ifMasked rule
    have sink := ruleRoute_sink built
    obtain ⟨memory, rendered⟩ := ruleRoute_rendered built
    refine faithful_of_plan inverse (by rw [sink]; exact rendered) (.inl memory) ?_
    rw [sink]
    exact fun proposal same _ => plan_rule positive same
  · have built := mem_ifMasked workflow
    have sink := workflowRoute_sink built
    obtain ⟨given, rendered⟩ := workflowRoute_rendered built
    refine faithful_of_plan inverse (by rw [sink]; exact rendered) (.inr sink) ?_
    rw [sink]
    exact fun proposal same _ => plan_workflow same given

/-- The action of a preference goes to the rule sink whole. -/
theorem action_faithful_preference :
    let route : Route := ⟨cstr "rule", [], 0,
      cstr "\x7b\"text\":\"tabs\",\"reason\":\"Explicit user preference\"\x7d", false⟩
    route ∈ routes (memoryEnv afternoon) (preference "tabs") sinkRule ∧
      ActionFaithful (memoryEnv afternoon) (preference "tabs") .empty route := by
  intro route
  have member : route ∈ routes (memoryEnv afternoon) (preference "tabs") sinkRule := by
    decide +kernel
  refine ⟨member, (action_faithful_iff (memoryEnv afternoon) (preference "tabs") ?_ (by decide)
    sinkRule .empty route member).mpr ⟨⟨route.actionJson, ?_, ?_⟩, ?_⟩⟩
  · intro value text printed
    obtain rfl := Option.some.inj printed
    exact parseText_print value
  · decide +kernel
  · decide +kernel
  · exact .inl (by decide)

def titleOnly : LearningSignalInput :=
  { bareSignal with signalType := cstr "correction", title := cstr "use tabs" }

/-- It is queued for the rule sink with an empty text, which the sink refuses. -/
theorem title_only_refused :
    (routes (memoryEnv afternoon) titleOnly sinkRule).map (fun route =>
      let proposal : LearningProposal :=
        ⟨1, 1, route.sink, [], [], 0, route.actionJson, [], 1, [], [], [], [], []⟩
      let applied := (learningApplySink (memoryEnv afternoon) proposal).run .empty
      (route.sink, applied.1, applied.2.2)) = [(cstr "rule", -1, [])] := by
  decide +kernel

end AimeeLearning.Learning
