import AimeeLearning.Learning.MemoryStore
import AimeeLearning.Learning.RouterRuns

/-! The weekly cap. The router looks at one window, the one that ends when it
commits; the windows that end later hold no more of the commits counted there. -/

set_option autoImplicit false

namespace AimeeLearning.Learning

open Library Observe

variable {σ ν : Type} {env : RouterEnv σ ν} {view : σ → StoreView} {instant : Bytes → Int}

/-- Seven days in seconds. -/
def learningWeek : Int := 604800

def isCommittedSince (instant : Bytes → Int) (sink : Bytes) (since : Int)
    (row : LearningProposal) : Bool :=
  row.sink = sink && row.state = stateCommitted && since ≤ instant row.committedAt

/-- The proposal was committed in the week that ends at a time. -/
def inWeek (instant : Bytes → Int) (sink : Bytes) (time : Int) (row : LearningProposal) : Bool :=
  isCommittedSince instant sink (time - learningWeek) row && instant row.committedAt ≤ time

def committedInWeek (instant : Bytes → Int) (sink : Bytes) (time : Int)
    (rows : List LearningProposal) : Nat :=
  rows.countP (inWeek instant sink time)

/-- The store counts the last seven days of a sink, at a time of the call. -/
def CommitsCounted (env : RouterEnv σ ν) (view : σ → StoreView) (instant : Bytes → Int) : Prop :=
  ∀ state sink, ∃ counted,
    let looked := env.commitsInLast7Days state sink
    (view state).now ≤ counted ∧ counted ≤ (view looked.2).now ∧
      looked.1 = (view state).rows.countP (isCommittedSince instant sink (counted - learningWeek))

def capLaw (instant : Bytes → Int) (cap : Int) : StoreLaw ν where
  instant := instant
  fails := False
  under sink counted rows :=
    rows.countP (isCommittedSince instant sink (counted - learningWeek)) < cap
  reason _ _ _ := True

theorem capObserved {cap : Int} (counts : CommitsCounted env view instant)
    (fixed : ∀ state, learningMaxCommitsPerWeek env state = cap) :
    CapObserved env view (capLaw instant cap) := by
  intro state sink looked room
  obtain ⟨counted, began, ended, same⟩ := counts state sink
  refine ⟨counted, began, ended, ?_⟩
  rw [fixed] at room
  show _ < cap
  rw [← same]
  exact room

section Windows

variable {past events : List (RouterEvent ν)} {before after : StoreView} {law : StoreLaw ν}

/-- A test that only committed rows pass. -/
def ForCommitted (test : LearningProposal → Bool) : Prop :=
  ∀ row, test row = true → row.state = stateCommitted

theorem uncommitted_countP (step : Evolution law past before events after) (lawful : before.Lawful)
    (uncommitted : ∀ id, .committed id 0 ∉ events) {test : LearningProposal → Bool}
    (tests : ForCommitted test) : after.rows.countP test ≤ before.rows.countP test := by
  obtain ⟨kept, added, rows, steps, grown⟩ := step.rowSteps lawful
  have old : kept.countP test ≤ before.rows.countP test := by
    refine forall₂_countP_le (fun row next moved holds => ?_) steps
    have done := (moved.committed (tests next holds)).resolve_right (uncommitted row.id)
    have closed : row.state ≠ statePending := by
      rw [done]
      decide
    exact moved.settled closed ▸ holds
  have new : added.countP test = 0 := by
    rcases grown with rfl | ⟨row, _, _, _, rfl, -, inserted, -⟩
    · rfl
    · rw [List.countP_singleton, if_neg]
      intro holds
      have clash := inserted.state.symm.trans (tests row holds)
      exact absurd clash (by decide)
  rw [rows, List.countP_append, new]
  exact old

theorem committed_elsewhere {id time : Int} {rows next : List LearningProposal}
    (rewritten : Rewrites (·.id) id (Committed instant time) rows next)
    {test : LearningProposal → Bool}
    (elsewhere : ∀ row changed, row ∈ rows → row.id = id → Committed instant time row changed →
      test changed = false) : next.countP test ≤ rows.countP test := by
  have moved : List.Forall₂ (fun row changed => changed = row ∨ test changed = false) rows next :=
    rewritten.imp (fun row changed member named change =>
      .inr (elsewhere row changed member named change)) fun _ => .inl rfl
  refine forall₂_countP_le (fun row changed step holds => ?_) moved
  rcases step with rfl | other
  · exact holds
  · rw [other] at holds
    cases holds

end Windows

theorem inWeek_committed {sink : Bytes} {time : Int} : ForCommitted (inWeek instant sink time) := by
  intro row holds
  simp only [inWeek, isCommittedSince, Bool.and_eq_true, decide_eq_true_eq] at holds
  exact holds.1.1.2

theorem committedInWeek_le (instant : Bytes → Int) (sink : Bytes) {counted time : Int} (later : counted ≤ time)
    (rows : List LearningProposal) : committedInWeek instant sink time rows ≤
      rows.countP (isCommittedSince instant sink (counted - learningWeek)) := by
  refine List.countP_mono_left fun row _ holds => ?_
  simp only [inWeek, isCommittedSince, Bool.and_eq_true, decide_eq_true_eq] at holds ⊢
  exact ⟨holds.1.1, by omega⟩

def WithinCap (instant : Bytes → Int) (cap : Int) (view : StoreView) : Prop :=
  ∀ sink time, (committedInWeek instant sink time view.rows : Int) ≤ cap

theorem WithinCap.step {cap : Int} {past events : List (RouterEvent ν)} {before after : StoreView}
    (within : WithinCap instant cap before) (lawful : before.Lawful)
    (step : Evolution (capLaw instant cap) past before events after) :
    WithinCap instant cap after := by
  intro sink time
  have still : committedInWeek instant sink time after.rows ≤
      committedInWeek instant sink time before.rows →
      (committedInWeek instant sink time after.rows : Int) ≤ cap :=
    fun fewer => (Int.ofNat_le.mpr fewer).trans (within sink time)
  by_cases commits : ∃ id, .committed id 0 ∈ events
  · obtain ⟨id, committed⟩ := commits
    obtain ⟨row, present, rfl, counted, stamp, -, ahead, -, room, rows⟩ :=
      (step.of_commit committed).allowed
    obtain ⟨-, rewritten⟩ := rows.resolve_right (·.1)
    by_cases inside : row.sink = sink ∧ stamp ≤ time
    · -- the window holds the new commit: the look at the cap left room for it
      obtain ⟨rfl, later⟩ := inside
      have grown : committedInWeek instant row.sink time after.rows ≤
          committedInWeek instant row.sink time before.rows + 1 :=
        Rewrites.countP_le lawful.unique rewritten
      have seen := committedInWeek_le instant row.sink (ahead.trans later)
        before.rows
      have room : (before.rows.countP (isCommittedSince instant row.sink
        (counted - learningWeek)) : Int) < cap := room
      omega
    · refine still (committed_elsewhere rewritten fun other changed member named change => ?_)
      obtain rfl := lawful.same present member named
      by_contra holds
      simp only [inWeek, isCommittedSince, Bool.not_eq_false, Bool.and_eq_true,
        decide_eq_true_eq] at holds
      have sinks : changed.sink = other.sink := by rw [change.2]
      exact inside ⟨sinks ▸ holds.1.1.1, change.1 ▸ holds.2⟩
  · exact still (uncommitted_countP step lawful (fun id member => commits ⟨id, member⟩)
      inWeek_committed)

theorem path_withinCap {cap : Int} {past events : List (RouterEvent ν)} {before after : StoreView}
    (path : Path (Evolution (capLaw instant cap)) past before events after)
    (lawful : before.Lawful) (within : WithinCap instant cap before) :
    WithinCap instant cap after :=
  (path.invariant (fun _ view => view.Lawful ∧ WithinCap instant cap view) ⟨lawful, within⟩
    fun _ _ _ _ both step => ⟨step.lawful both.1, both.2.step both.1 step⟩).2

section Refusals

variable {law : StoreLaw ν} {past events : List (RouterEvent ν)} {before after : StoreView}

theorem path_archived (path : Path (Evolution law) past before events after)
    (lawful : before.Lawful) (kept : ¬ law.fails) {id : Int} {reason : Bytes}
    (archived : .archived id reason ∈ events) :
    SettledId after.rows id stateArchived ∧ ∀ effect, .applied id effect 0 ∉ events := by
  obtain ⟨early, emitted, late, moment, settled, rfl, here, front, step, back⟩ := path.split archived
  have reached := path_lawful front lawful
  obtain ⟨rfl, pending, rows⟩ := step.of_archive here
  have gone := archived_settles pending (rows.resolve_right fun lost => kept lost.1)
  refine ⟨gone.later (by decide) back (step.lawful reached), fun effect applied => ?_⟩
  rcases List.mem_append.mp applied with sooner | later
  · rcases List.mem_append.mp sooner with sooner | now
    · -- applied before: the proposal was committed, so it was not pending to archive
      obtain ⟨_, own, _, first, second, rfl, fired, began, taken, onward⟩ := front.split sooner
      obtain ⟨rc, rfl⟩ := taken.of_effect fired
      have commit : CommitStep law _ id rc _ _ _ := taken.of_commit (by simp)
      obtain ⟨_, -, -, _, _, -, -, -, -, marked⟩ := commit.allowed
      obtain rfl := (marked.resolve_right fun lost => kept lost.1).1
      have done := commit.settles.later (by decide) onward
        (taken.lawful (path_lawful began lawful))
      exact done.not_pending (by decide) pending
    · simp at now
  · -- applied after: it would have to be pending again
    obtain ⟨_, own, _, first, second, rfl, fired, began, taken, -⟩ := back.split later
    obtain ⟨rc, rfl⟩ := taken.of_effect fired
    have commit : CommitStep law _ id rc _ _ _ := taken.of_commit (by simp)
    have still := gone.later (by decide) began (step.lawful reached)
    exact still.not_pending (by decide) commit.pending

theorem learningCommitProposal_full (acts : ActsAsNamed env view instant False) {id : Int}
    {state fetched final : σ} {proposal : LearningProposal} {result : Option LearningProposal}
    {sweep events : List (RouterEvent ν)} (lawful : (view state).Lawful)
    (got : (learningGetProposal env id).run state = (some proposal, fetched, sweep))
    (pending : proposal.state = statePending)
    (full : learningMaxCommitsPerWeek env (env.commitsInLast7Days fetched proposal.sink).2 ≤
      (env.commitsInLast7Days fetched proposal.sink).1)
    (ran : (learningCommitProposal env id).run state = (result, final, events)) :
    SettledId (view final).rows id stateArchived ∧
      events = [.archivedExpired, .archived id (cstr "weekly_cap"), .archivedExpired] := by
  have acts' : ActsAsNamed env view (freeLaw (ν := ν) instant False).instant
    (freeLaw (ν := ν) instant False).fails := acts
  obtain ⟨rfl, swept, -⟩ := learningGetProposal_spec acts' got
  obtain ⟨rfl, -, -, alone⟩ := found_pending acts' lawful got pending
  obtain ⟨_, _, rest, again, rfl, ways⟩ := learningCommitProposal_cases acts' ran
  obtain ⟨rfl, rfl⟩ : _ ∧ _ := by simpa using got.symm.trans again
  have look := acts.commits fetched proposal.sink
  obtain ⟨_, same, -, branches⟩ :=
    ways.resolve_left fun settled => settled.2.2.2 proposal rfl pending
  obtain rfl := Option.some.inj same
  obtain ⟨-, branched⟩ := branches.resolve_right fun room => absurd full (not_le.mpr room.1)
  obtain ⟨_, archived, _, _, refused, looking, rfl⟩ := Traced.run_bind_iff.mp branched
  obtain ⟨rfl, step⟩ := archiveProposal_spec acts' [] (look.rows ▸ alone) refused
  obtain ⟨rfl, swept', -⟩ := learningGetProposal_spec acts' looking
  obtain ⟨-, open', rows⟩ := step.of_archive (List.mem_singleton_self _)
  have gone := archived_settles open' (rows.resolve_right (·.1))
  have settled := step.lawful ((swept.lawful lawful).quiet look)
  have last : Path (Evolution (freeLaw instant False)) [] (view archived) [.archivedExpired]
      (view final) := .single swept'.step
  exact ⟨gone.later (by decide) last settled, rfl⟩

end Refusals

/-- A pending proposal that finds its week full is archived by the commit that
looked, which applies nothing. -/
def RefusesWhenFull (env : RouterEnv σ ν) (view : σ → StoreView) : Prop :=
  ∀ state fetched final id proposal result sweep events, (view state).Lawful →
    (learningGetProposal env id).run state = (some proposal, fetched, sweep) →
    proposal.state = statePending →
    learningMaxCommitsPerWeek env (env.commitsInLast7Days fetched proposal.sink).2 ≤
      (env.commitsInLast7Days fetched proposal.sink).1 →
    (learningCommitProposal env id).run state = (result, final, events) →
    SettledId (view final).rows id stateArchived ∧
      events = [.archivedExpired, .archived id (cstr "weekly_cap"), .archivedExpired]

/-- From an empty store every week of every sink stays within the cap, and a
proposal refused for it is archived without its effect, then and ever. -/
theorem weekly_cap {cap : Int} (acts : ActsAsNamed env view instant False)
    (counts : CommitsCounted env view instant)
    (fixed : ∀ state, learningMaxCommitsPerWeek env state = cap) (positive : 0 < cap)
    {start state : σ} (empty : (view start).rows = []) {actions : List RouterOp}
    {outputs : List (RouterEvent ν)} (run : (routerMachine env).Run start actions state outputs) :
    (∀ sink time, (committedInWeek instant sink time (view state).rows : Int) ≤ cap) ∧
      RefusesWhenFull env view ∧ ∀ id, .archived id (cstr "weekly_cap") ∈ outputs →
        SettledId (view state).rows id stateArchived ∧ ∀ effect, .applied id effect 0 ∉ outputs := by
  have lawful : (view start).Lawful := .of_empty empty
  have within : WithinCap instant cap (view start) := by
    intro sink time
    rw [empty]
    exact Int.le_of_lt positive
  have path : Path (Evolution (capLaw instant cap)) [] (view start) outputs (view state) :=
    run_path acts (capObserved counts fixed) (fun _ _ _ => trivial) lawful run
  exact ⟨path_withinCap path lawful within,
    fun _ _ _ _ _ _ _ _ lawful got pending full ran =>
      learningCommitProposal_full acts lawful got pending full ran,
    fun id refused => path_archived path lawful (fun lost => lost) refused⟩

theorem memoryEnv_counts (world : MemoryWorld) :
    CommitsCounted (memoryEnv world) (memoryView world) readTimestamp :=
  fun _ _ => ⟨world.time, le_refl _, le_refl _, rfl⟩

/-- With a cap of one, the second preference of the afternoon is refused. -/
theorem weekly_cap_refusal :
    let signal (text : String) : RouterOp := .recordSignal (some (preference text)) none
    let run := memoryRun afternoon [signal "tabs", signal "tabs", signal "rebase", signal "rebase"]
    let rows := (memoryView afternoon run.1).rows
    .archived 2 (cstr "weekly_cap") ∈ run.2 ∧
      (∀ sink time, (committedInWeek readTimestamp sink time rows : Int) ≤ 1) ∧
      RefusesWhenFull (memoryEnv afternoon) (memoryView afternoon) ∧
      ∀ id, .archived id (cstr "weekly_cap") ∈ run.2 →
        SettledId rows id stateArchived ∧ ∀ effect, .applied id effect 0 ∉ run.2 := by
  intro signal run rows
  have ran := memoryRun_run afternoon [signal "tabs", signal "tabs", signal "rebase", signal "rebase"]
  have one : ∀ state, learningMaxCommitsPerWeek (memoryEnv afternoon) state = 1 := fun _ => rfl
  exact ⟨by decide +kernel, weekly_cap (memoryEnv_actsSurely fun _ => rfl)
    (memoryEnv_counts afternoon) one (by decide) rfl ran⟩

end AimeeLearning.Learning
