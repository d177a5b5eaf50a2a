import AimeeLearning.Learning.ProcessRuns
import AimeeLearning.Learning.WeeklyCap

/-! The metrics an operator watches: the use of the weekly cap sink by sink and
the share of settled proposals that were committed. In every reachable state they
agree with each other and with what the next commit does. Ratios are exact. -/

set_option autoImplicit false

namespace AimeeLearning.Learning

open Library Traced Observe

variable {σ ν : Type}

section Metrics

variable (env : RouterEnv σ ν)

def learningCanonicalSinks : List Bytes :=
  [cstr "reranker", cstr "supersede", cstr "rule", cstr "workflow"]

structure LearningSinkCap where
  sink : Bytes
  committedThisWeek : Int
  weeklyCap : Int
  utilization : Rat
  deriving DecidableEq

def sinkCapRow (cap : Int) (sink : Bytes) (committed : Int) : LearningSinkCap where
  sink := snprintf 32 sink
  committedThisWeek := committed
  weeklyCap := cap
  utilization := if cap > 0 then committed / cap else 0

/-- The loop over the sinks. -/
def sinkCapRows (cap : Int) : List Bytes → RouterM σ ν (List LearningSinkCap)
  | [] => pure []
  | sink :: rest => do
      let committed ← call (env.commitsInLast7Days · sink)
      let rows ← sinkCapRows cap rest
      pure (sinkCapRow cap sink committed :: rows)

/-- The rows written to `out`; `none` for -1. -/
def learningMetricsPerSinkCaps (out : Bool) (max : Int) :
    RouterM σ ν (Option (List LearningSinkCap)) :=
  if !out || max ≤ 0 then pure none
  else do
    let cap ← read (learningMaxCommitsPerWeek env)
    let n := if max < learningCanonicalSinks.length then max else learningCanonicalSinks.length
    let rows ← sinkCapRows env cap (learningCanonicalSinks.take n.toNat)
    pure (some rows)

def learningMetricsDefaultWindowDays : Int := 7

structure LearningCommitRatio where
  proposalsTerminal : Int
  proposalsCommitted : Int
  commitRatio : Rat
  windowDays : Int
  deriving DecidableEq

/-- What is written to `out`; `none` for -1. The store counts the committed and the
settled proposals of a window. -/
def learningMetricsCommitRatio (settledCounts : σ → Int → Option (Int × Int) × σ)
    (windowDays : Int) (out : Bool) : RouterM σ ν (Option LearningCommitRatio) :=
  if !out then pure none
  else do
    let days := if windowDays ≤ 0 then learningMetricsDefaultWindowDays else windowDays
    match ← call (settledCounts · days) with
    | none => pure none
    | some (committed, terminal) =>
        pure (some ⟨terminal, committed,
          if terminal > 0 then committed / terminal else 0, days⟩)

end Metrics

section Paths

variable {law : StoreLaw ν} {past events : List (RouterEvent ν)} {before after : StoreView}
  {test : LearningProposal → Bool}

/-- No proposal was committed later than now. -/
def Stamped (instant : Bytes → Int) (view : StoreView) : Prop :=
  ∀ row ∈ view.rows, row.state = stateCommitted → instant row.committedAt ≤ view.now

theorem Stamped.step (stamped : Stamped law.instant before) (lawful : before.Lawful)
    (step : Evolution law past before events after) : Stamped law.instant after := by
  intro next member done
  rcases step.backward lawful member with ⟨row, present, moved⟩ | ⟨_, _, _, -, inserted, -⟩
  · rcases moved.committed done with already | reported
    · have closed : row.state ≠ statePending := by
        rw [already]
        decide
      obtain rfl := moved.settled closed
      exact (stamped next present already).trans step.later
    · -- committed by this very step, and stamped by it
      obtain ⟨other, there, named, counted, time, -, -, ended, -, rows⟩ :=
        (step.of_commit reported).allowed
      obtain ⟨-, rewritten⟩ := rows.resolve_right fun lost => lost.2.1 rfl
      obtain ⟨earlier, here, change⟩ := forall₂_backward rewritten member
      split at change
      · exact change.1 ▸ ended
      · rename_i elsewhere
        obtain rfl := change
        exact absurd moved.id elsewhere
  · have clash := inserted.state.symm.trans done
    exact absurd clash (by decide)

theorem path_stamped (path : Path (Evolution law) past before events after)
    (lawful : before.Lawful) (stamped : Stamped law.instant before) :
    Stamped law.instant after :=
  (path.invariant (fun _ view => view.Lawful ∧ Stamped law.instant view) ⟨lawful, stamped⟩
    fun _ _ _ _ both step => ⟨step.lawful both.1, both.2.step both.1 step⟩).2

theorem Evolution.committed_kept (step : Evolution law past before events after)
    (lawful : before.Lawful) (tests : ForCommitted test) :
    before.rows.countP test ≤ after.rows.countP test := by
  obtain ⟨kept, added, rows, steps, -⟩ := step.rowSteps lawful
  have old : before.rows.countP test ≤ kept.countP test := by
    refine forall₂_countP_le (fun next row moved holds => ?_) steps.flip
    have closed : row.state ≠ statePending := by
      rw [tests row holds]
      decide
    exact (moved.settled closed).symm ▸ holds
  rw [rows, List.countP_append]
  omega

/-- Between commits the committed proposals stay the same. -/
theorem path_countP (path : Path (Evolution law) past before events after)
    (lawful : before.Lawful) (uncommitted : ∀ id, .committed id 0 ∉ events)
    (tests : ForCommitted test) : after.rows.countP test = before.rows.countP test := by
  induction path with
  | nil => rfl
  | snoc front step ih =>
      have earlier := ih fun id member => uncommitted id (List.mem_append_left _ member)
      have reached := path_lawful front lawful
      have fewer := uncommitted_countP step reached
        (fun id member => uncommitted id (List.mem_append_right _ member)) tests
      have more := step.committed_kept reached tests
      omega

variable {instant : Bytes → Int} {sink : Bytes} {since : Int}

theorem isCommittedSince_committed : ForCommitted (isCommittedSince instant sink since) := by
  intro row holds
  simp only [isCommittedSince, Bool.and_eq_true, decide_eq_true_eq] at holds
  exact holds.1.2

theorem isCommittedSince_antitone (instant : Bytes → Int) (sink : Bytes) {later : Int}
    (ahead : since ≤ later) (rows : List LearningProposal) : rows.countP (isCommittedSince instant sink later) ≤
      rows.countP (isCommittedSince instant sink since) := by
  refine List.countP_mono_left fun row _ holds => ?_
  simp only [isCommittedSince, Bool.and_eq_true, decide_eq_true_eq] at holds ⊢
  exact ⟨holds.1, ahead.trans holds.2⟩

/-- The commits that are counted are those of the week. -/
theorem Stamped.inWeek {view : StoreView} (stamped : Stamped instant view) {counted : Int}
    (later : view.now ≤ counted) :
    view.rows.countP (isCommittedSince instant sink (counted - learningWeek)) =
      committedInWeek instant sink counted view.rows := by
  refine List.countP_congr fun row member => ?_
  simp only [Learning.inWeek, Bool.and_eq_true, decide_eq_true_eq]
  refine ⟨fun holds => ⟨holds, ?_⟩, fun both => both.1⟩
  exact (stamped row member (isCommittedSince_committed row holds)).trans later

end Paths

section Counts

variable {env : RouterEnv σ ν} {view : σ → StoreView} {instant : Bytes → Int} {cap : Int}

/-- The rows count their sinks, each at some time between two clock readings. -/
def CountedRows (instant : Bytes → Int) (cap began ended : Int) (rows : List LearningProposal) :
    List Bytes → List LearningSinkCap → Prop :=
  List.Forall₂ fun sink row => ∃ counted, began ≤ counted ∧ counted ≤ ended ∧
    row = sinkCapRow cap sink (rows.countP (isCommittedSince instant sink (counted - learningWeek)))

theorem sinkCapRows_spec (acts : ActsAsNamed env view instant False)
    (counts : CommitsCounted env view instant) {sinks : List Bytes} {state final : σ}
    {rows : List LearningSinkCap} {events : List (RouterEvent ν)}
    (ran : (sinkCapRows env cap sinks).run state = (rows, final, events)) :
    (view state).Quiet (view final) ∧ events = [] ∧
      CountedRows instant cap (view state).now (view final).now (view state).rows sinks rows := by
  induction sinks generalizing state rows events with
  | nil =>
      obtain ⟨rfl, rfl, rfl⟩ := run_pure_iff.mp ran
      exact ⟨⟨le_refl _, rfl, rfl⟩, rfl, .nil⟩
  | cons sink rest ih =>
      obtain ⟨committed, middle, _, _, looked, further, rfl⟩ := run_bind_iff.mp ran
      obtain ⟨found, rfl⟩ := run_call_iff.mp looked
      obtain ⟨others, _, _, _, listed, ended, rfl⟩ := run_bind_iff.mp further
      obtain ⟨rfl, rfl, rfl⟩ := run_pure_iff.mp ended
      have quiet := acts.commits state sink
      obtain ⟨counted, began, before, same⟩ := counts state sink
      rw [found] at quiet before same
      obtain ⟨after, rfl, counting⟩ := ih listed
      refine ⟨quiet.trans after, rfl, .cons ?_ (counting.imp fun other row here => ?_)⟩
      · exact ⟨counted, began, before.trans after.later, by rw [← same]⟩
      · obtain ⟨time, early, late, told⟩ := here
        exact ⟨time, quiet.later.trans early, late, quiet.rows ▸ told⟩

theorem learningMetricsPerSinkCaps_spec (acts : ActsAsNamed env view instant False)
    (counts : CommitsCounted env view instant)
    (fixed : ∀ state, learningMaxCommitsPerWeek env state = cap) {limit : Int} (asked : 0 < limit)
    {state final : σ} {found : Option (List LearningSinkCap)} {events : List (RouterEvent ν)}
    (ran : (learningMetricsPerSinkCaps env true limit).run state = (found, final, events)) :
    (view state).Quiet (view final) ∧ events = [] ∧ ∃ rows, found = some rows ∧
      CountedRows instant cap (view state).now (view final).now (view state).rows
        (learningCanonicalSinks.take limit.toNat) rows := by
  have open_ : (!true || decide (limit ≤ 0)) = false := by simpa using asked
  unfold learningMetricsPerSinkCaps at ran
  rw [open_, if_neg Bool.false_ne_true] at ran
  obtain ⟨limited, _, _, _, reading, listing, rfl⟩ := run_bind_iff.mp ran
  obtain ⟨rfl, rfl, rfl⟩ := run_read_iff.mp reading
  obtain ⟨rows, _, _, _, listed, ended, rfl⟩ := run_bind_iff.mp listing
  obtain ⟨rfl, rfl, rfl⟩ := run_pure_iff.mp ended
  rw [fixed] at listed
  obtain ⟨quiet, rfl, counting⟩ := sinkCapRows_spec acts counts listed
  refine ⟨quiet, rfl, rows, rfl, ?_⟩
  have same : learningCanonicalSinks.take (if limit < learningCanonicalSinks.length then limit
      else learningCanonicalSinks.length : Int).toNat = learningCanonicalSinks.take limit.toNat := by
    split
    · rfl
    · rename_i most
      rw [Int.toNat_natCast, List.take_length, List.take_of_length_le]
      omega
  rw [same] at counting
  exact counting

end Counts

section Commits

variable {env : RouterEnv σ ν} {view : σ → StoreView} {instant : Bytes → Int} {cap : Int}
  {state final : σ} {proposal : LearningProposal} {result : Option LearningProposal}
  {events : List (RouterEvent ν)}

theorem SweptTo.countP {law : StoreLaw ν} {before after : StoreView}
    {test : LearningProposal → Bool} (swept : SweptTo law before after) (lawful : before.Lawful)
    (tests : ForCommitted test) : after.rows.countP test = before.rows.countP test := by
  have path : Path (Evolution law) [] before [.archivedExpired] after := .single swept.step
  exact path_countP path lawful (by simp) tests

/-- A commit that goes on to apply archives nothing. -/
theorem applied_unarchived (acts : ActsAsNamed env view instant False) {id : Int}
    (ran : (applyAndMark env id proposal).run state = (result, final, events)) :
    (view state).now ≤ (view final).now ∧ ∀ other reason, .archived other reason ∉ events := by
  have acts' : ActsAsNamed env view (freeLaw (ν := ν) instant False).instant
    (freeLaw (ν := ν) instant False).fails := acts
  obtain ⟨rc, worked, applied, _, performed, ended, rfl⟩ := run_bind_iff.mp ran
  obtain ⟨quiet, effects⟩ := learningApplySink_spec acts' performed
  have plain : ∀ other reason, .archived other reason ∉ applied := by
    rcases effects with rfl | ⟨effect, rfl⟩ <;> simp
  split at ended
  · obtain ⟨rfl, rfl, rfl⟩ := run_pure_iff.mp ended
    exact ⟨quiet.later, by simpa using plain⟩
  · obtain ⟨code, marked, _, _, marking, noted, rfl⟩ := run_bind_iff.mp ended
    obtain ⟨done, rfl⟩ := run_call_iff.mp marking
    obtain ⟨_, _, _, _, reported, got, rfl⟩ := run_bind_iff.mp noted
    obtain ⟨rfl, rfl⟩ := run_emit_iff.mp reported
    obtain ⟨rfl, ⟨time, began, ahead, -⟩, -⟩ := learningGetProposal_spec acts' got
    obtain ⟨stamp, later, act⟩ := acts.markCommitted worked id
    rw [done] at act
    refine ⟨(quiet.later.trans (later.trans act.1)).trans (began.trans ahead), ?_⟩
    simpa using plain

/-- A proposal of a sink is pending under an id. -/
def PendingFor (rows : List LearningProposal) (sink : Bytes) (id : Int) : Prop :=
  ∃ row ∈ rows, row.id = id ∧ row.sink = sink ∧ row.state = statePending

variable {sink : Bytes} {id : Int}

/-- What a try to commit a pending proposal comes to: the sweep takes it, or it goes
on by what the look at the sink shows, which comes no earlier than the try. -/
theorem pending_cases (acts : ActsAsNamed env view instant False)
    (counts : CommitsCounted env view instant)
    (fixed : ∀ state, learningMaxCommitsPerWeek env state = cap) (lawful : (view state).Lawful)
    (pending : PendingFor (view state).rows sink id)
    (ran : (learningCommitProposal env id).run state = (result, final, events)) :
    (SettledId (view final).rows id stateArchived ∧ events = [.archivedExpired]) ∨
      ∃ counted, (view state).now ≤ counted ∧ counted ≤ (view final).now ∧
        ((cap ≤ (view state).rows.countP (isCommittedSince instant sink (counted - learningWeek)) ∧
            SettledId (view final).rows id stateArchived ∧
            events = [.archivedExpired, .archived id (cstr "weekly_cap"), .archivedExpired]) ∨
          (((view state).rows.countP (isCommittedSince instant sink (counted - learningWeek)) : Int) <
              cap ∧ ∀ other reason, .archived other reason ∉ events)) := by
  have acts' : ActsAsNamed env view (freeLaw (ν := ν) instant False).instant
    (freeLaw (ν := ν) instant False).fails := acts
  obtain ⟨row, present, rfl, rfl, open_⟩ := pending
  obtain ⟨found, fetched, rest, got, rfl, ways⟩ := learningCommitProposal_cases acts' ran
  obtain ⟨-, swept, answer⟩ := learningGetProposal_spec acts' got
  have settled := swept.lawful lawful
  rcases ways with ⟨rfl, rfl, rfl, closed⟩ | ⟨proposal, rfl, waits, branches⟩
  · -- the sweep archived it: its row is still there, and not pending
    refine .inl ⟨?_, by simp⟩
    obtain ⟨time, -, -, -, moved⟩ := swept
    obtain ⟨next, there, step⟩ := forall₂_forward (moved.resolve_right (·.1)) present
    have timely : Swept (freeLaw (ν := ν) instant False).instant time row next := step
    have stepped : RowStep (ν := ν) [] row next := timely.step
    have here := (find?_eq_some_iff_mem settled.unique).mpr ⟨there, stepped.id⟩
    have gone := closed next (answer.trans here)
    by_cases expired : Expired instant time row
    · exact ⟨next, there, stepped.id, by rw [step.1 expired]⟩
    · exact absurd (step.2 expired ▸ open_) gone
  · obtain ⟨same, -, before, alone⟩ := found_pending acts' lawful got waits
    obtain rfl := lawful.same present before same
    have look := acts.commits fetched proposal.sink
    obtain ⟨counted, began, ended, counting⟩ := counts fetched proposal.sink
    rw [swept.countP lawful isCommittedSince_committed] at counting
    rw [fixed, counting] at branches
    obtain ⟨_, early, late, -⟩ := swept
    refine .inr ⟨counted, (early.trans late).trans began, ?_⟩
    rcases branches with ⟨full, branched⟩ | ⟨room, branched⟩
    · obtain ⟨path, -⟩ := refuse_spec acts' [] (look.rows ▸ alone) branched
      have limit : learningMaxCommitsPerWeek env (env.commitsInLast7Days fetched proposal.sink).2 ≤
          (env.commitsInLast7Days fetched proposal.sink).1 := by
        rw [fixed, counting]
        exact full
      have refused := learningCommitProposal_full acts lawful got waits limit ran
      exact ⟨ended.trans (path_later path), .inl ⟨full, refused⟩⟩
    · obtain ⟨later, unarchived⟩ := applied_unarchived acts branched
      refine ⟨ended.trans later, .inr ⟨room, ?_⟩⟩
      simpa using unarchived

end Commits

section Sinks

variable {env : RouterEnv σ ν} {view : σ → StoreView} {instant : Bytes → Int} {fails : Prop}
  {events : List (RouterEvent ν)} {signal : Int} {route : Route}

theorem RouteEvents.routed {signalId : Int} {targets : List Route}
    (shown : RouteEvents signalId targets events) (member : .routed signal route ∈ events) :
    route ∈ targets := by
  induction shown with
  | nil => cases member
  | cons here _ ih =>
      rcases List.mem_append.mp member with first | later
      · rw [here.routed first]
        exact List.mem_cons_self
      · exact List.mem_cons_of_mem _ (ih later)

theorem RecordEvents.routed {raw : LearningSignalInput} {code : Int}
    (shown : RecordEvents env raw code events) (member : .routed signal route ∈ events) :
    route.sink ∈ learningCanonicalSinks := by
  cases shown with
  | refused => cases member
  | unstored => simp at member
  | stored signalId targetKey mask later positive classified routed =>
      have inside : .routed signal route ∈ later := by simpa using member
      exact (routes_sinks env _ mask).subset (List.mem_map_of_mem (routed.routed inside))

theorem runRouterOp_routed {op : RouterOp} {state final : σ}
    (ran : (runRouterOp env op).run state = ((), final, events))
    (member : .routed signal route ∈ events) : route.sink ∈ learningCanonicalSinks := by
  by_cases records : ∃ rawInput out, op = .recordSignal rawInput out
  · obtain ⟨rawInput, out, rfl⟩ := records
    obtain ⟨⟨code, noted⟩, _, early, _, recorded, ended, rfl⟩ := run_bind_iff.mp ran
    obtain ⟨-, -, rfl⟩ := run_pure_iff.mp ended
    rw [List.append_nil] at member
    cases rawInput with
    | none =>
        obtain ⟨-, -, rfl⟩ := run_pure_iff.mp recorded
        cases member
    | some raw => exact (learningRouterRecordSignal_events recorded).routed member
  · obtain ⟨id, emits⟩ := runRouterOp_emits env op fun rawInput out same =>
      records ⟨rawInput, out, same⟩
    cases emits _ _ _ _ ran _ member

theorem run_routed {start state : σ} {calls : List RouterOp}
    (run : (routerMachine env).Run start calls state events)
    (member : .routed signal route ∈ events) : route.sink ∈ learningCanonicalSinks := by
  induction run with
  | nil => cases member
  | snoc _ taken ih =>
      rcases List.mem_append.mp member with earlier | here
      · exact ih earlier
      · exact runRouterOp_routed (routerMachine_step.mp taken) here

/-- From an empty store every proposal is of one of the four sinks. -/
theorem run_canonical (acts : ActsAsNamed env view instant fails) {start state : σ}
    (empty : (view start).rows = []) {calls : List RouterOp}
    (run : (routerMachine env).Run start calls state events) :
    ∀ row ∈ (view state).rows, row.sink ∈ learningCanonicalSinks := by
  intro row member
  have lawful : (view start).Lawful := .of_empty empty
  rcases path_backward (run_freePath acts lawful run) lawful member with
    ⟨first, there, -⟩ | ⟨first, signal, route, expiresAt, early, late, rfl, inserted, moved⟩
  · rw [empty] at there
    exact absurd there List.not_mem_nil
  · have routed : .routed signal route ∈
        early ++ [.routed signal route, .inserted row.id] ++ late := by simp
    rw [moved.target.1, inserted.sink]
    exact run_routed run routed

end Sinks

section Agreement

variable {env : RouterEnv σ ν} {view : σ → StoreView} {instant : Bytes → Int} {cap : Int}
  {settledCounts : σ → Int → Option (Int × Int) × σ}
  {archivedSince : Int → LearningProposal → Bool}

/-- A row is of use: its cap and its share of it. -/
structure CapRow (cap : Int) (row : LearningSinkCap) : Prop where
  weeklyCap : row.weeklyCap = cap
  within : 0 ≤ row.committedThisWeek ∧ row.committedThisWeek ≤ cap
  utilization : row.utilization * cap = row.committedThisWeek
  share : 0 ≤ row.utilization ∧ row.utilization ≤ 1

/-- What a row foretells of a commit of its sink, with the clock as it was shown. -/
structure Foretells (env : RouterEnv σ ν) (view : σ → StoreView) (row : LearningSinkCap)
    (shown : Int) (state : σ) : Prop where
  room : row.utilization < 1 → ∀ id result final events, PendingFor (view state).rows row.sink id →
    (learningCommitProposal env id).run state = (result, final, events) →
    ∀ other reason, .archived other reason ∉ events
  full : row.utilization = 1 → ∀ id result final events, PendingFor (view state).rows row.sink id →
    (learningCommitProposal env id).run state = (result, final, events) →
    (view final).now = shown → SettledId (view final).rows id stateArchived ∧
      ∀ other rc, .committed other rc ∉ events ∧ ∀ effect, .applied other effect rc ∉ events

/-- The proposal of any sink was committed since. -/
def isSettledSince (instant : Bytes → Int) (since : Int) (row : LearningProposal) : Bool :=
  row.state = stateCommitted && since ≤ instant row.committedAt

/-- The store counts the committed proposals of a window, and with them those
archived in it. -/
def SettledCounted (view : σ → StoreView) (instant : Bytes → Int)
    (settledCounts : σ → Int → Option (Int × Int) × σ)
    (archivedSince : Int → LearningProposal → Bool) : Prop :=
  ∀ state days, (view state).Quiet (view (settledCounts state days).2) ∧
    ∀ committed terminal, (settledCounts state days).1 = some (committed, terminal) →
      ∃ counted, (view state).now ≤ counted ∧ counted ≤ (view (settledCounts state days).2).now ∧
        committed = (view state).rows.countP (isSettledSince instant (counted - days * 86400)) ∧
        terminal = committed + (view state).rows.countP (archivedSince (counted - days * 86400))

theorem sinkCapRow_sink {sink : Bytes} (canonical : sink ∈ learningCanonicalSinks)
    (committed : Int) : (sinkCapRow cap sink committed).sink = sink := by
  have short : ∀ name ∈ learningCanonicalSinks, snprintf 32 name = name := by decide
  exact short sink canonical

theorem sinkCapRow_capRow (positive : 0 < cap) {committed : Int} (nonneg : 0 ≤ committed)
    (within : committed ≤ cap) (sink : Bytes) : CapRow cap (sinkCapRow cap sink committed) := by
  have here : (0 : Rat) < cap := by exact_mod_cast positive
  have share : (sinkCapRow cap sink committed).utilization = committed / cap := if_pos positive
  refine ⟨rfl, ⟨nonneg, within⟩, ?_, ?_, ?_⟩
  · rw [share]
    exact div_mul_cancel₀ _ here.ne'
  · rw [share]
    exact div_nonneg (by exact_mod_cast nonneg) here.le
  · rw [share, div_le_one here]
    exact_mod_cast within

theorem CapRow.full_iff {row : LearningSinkCap} (told : CapRow cap row) (positive : 0 < cap) :
    row.utilization = 1 ↔ row.committedThisWeek = cap := by
  have here : (cap : Rat) ≠ 0 := by exact_mod_cast positive.ne'
  constructor
  · intro full
    have same := told.utilization
    rw [full, one_mul] at same
    exact_mod_cast same.symm
  · intro same
    have used := told.utilization
    rw [same] at used
    exact (mul_eq_right₀ here).mp used

/-- The window only moves on: what it held when it was shown bounds what a later
commit finds there, and is what a commit finds before the clock has moved. -/
theorem sinkCapRow_foretells (acts : ActsAsNamed env view instant False)
    (counts : CommitsCounted env view instant)
    (fixed : ∀ state, learningMaxCommitsPerWeek env state = cap) (positive : 0 < cap)
    {state : σ} (lawful : (view state).Lawful) {sink : Bytes}
    (canonical : sink ∈ learningCanonicalSinks) {shown counted : Int} (began : shown ≤ counted)
    (past : counted ≤ (view state).now)
    (within : ((view state).rows.countP
      (isCommittedSince instant sink (counted - learningWeek)) : Int) ≤ cap) :
    Foretells env view (sinkCapRow cap sink ((view state).rows.countP
      (isCommittedSince instant sink (counted - learningWeek)))) shown state := by
  have told := sinkCapRow_capRow positive (Int.natCast_nonneg _) within sink
  have full := told.full_iff positive
  constructor
  · intro spare id result final events pending ran
    have room : ((view state).rows.countP
        (isCommittedSince instant sink (counted - learningWeek)) : Int) < cap :=
      lt_of_le_of_ne within fun same => absurd (full.mpr same) spare.ne
    rw [sinkCapRow_sink canonical] at pending
    rcases pending_cases acts counts fixed lawful pending ran with
      ⟨-, rfl⟩ | ⟨looked, later, -, ⟨crowded, -⟩ | ⟨-, unarchived⟩⟩
    · simp
    · have slid : counted - learningWeek ≤ looked - learningWeek := by omega
      have fewer := isCommittedSince_antitone instant sink slid
        (view state).rows
      omega
    · exact unarchived
  · intro used id result final events pending ran still
    rw [sinkCapRow_sink canonical] at pending
    rcases pending_cases acts counts fixed lawful pending ran with
      ⟨gone, rfl⟩ | ⟨looked, later, ended, ⟨-, gone, rfl⟩ | ⟨room, -⟩⟩
    · exact ⟨gone, by simp⟩
    · exact ⟨gone, by simp⟩
    · obtain rfl : looked = counted := by omega
      exact absurd (full.mp used) room.ne

theorem CountedRows.sinks {began ended : Int} {rows : List LearningProposal} {sinks : List Bytes}
    {told : List LearningSinkCap} (counting : CountedRows instant cap began ended rows sinks told)
    (canonical : ∀ sink ∈ sinks, sink ∈ learningCanonicalSinks) : told.map (·.sink) = sinks := by
  induction counting with
  | nil => rfl
  | cons here _ ih =>
      obtain ⟨counted, -, -, rfl⟩ := here
      rw [List.map_cons, sinkCapRow_sink (canonical _ List.mem_cons_self),
        ih fun sink member => canonical sink (List.mem_cons_of_mem _ member)]

theorem CountedRows.sum {now : Int} {rows : List LearningProposal} {sinks : List Bytes}
    {told : List LearningSinkCap} (counting : CountedRows instant cap now now rows sinks told) :
    (told.map (·.committedThisWeek)).sum = ((sinks.map fun sink =>
      rows.countP (isCommittedSince instant sink (now - learningWeek))).sum : Nat) := by
  induction counting with
  | nil => rfl
  | cons here _ ih =>
      obtain ⟨counted, began, ended, rfl⟩ := here
      obtain rfl := Int.le_antisymm began ended
      rw [List.map_cons, List.map_cons, List.sum_cons, List.sum_cons, ih, Nat.cast_add]
      rfl

/-- While the clock stands still the rows of all sinks together count every
committed proposal of the week. -/
theorem CountedRows.total {now : Int} {rows : List LearningProposal}
    {told : List LearningSinkCap}
    (counting : CountedRows instant cap now now rows learningCanonicalSinks told)
    (canonical : ∀ row ∈ rows, row.sink ∈ learningCanonicalSinks) :
    (told.map (·.committedThisWeek)).sum =
      rows.countP (isSettledSince instant (now - learningWeek)) := by
  have distinct : learningCanonicalSinks.Nodup := by decide
  have parts : ∀ sink, isCommittedSince instant sink (now - learningWeek) = fun row =>
      decide (row.sink = sink) && isSettledSince instant (now - learningWeek) row := by
    intro sink
    funext row
    rw [isCommittedSince, isSettledSince, Bool.and_assoc]
  rw [counting.sum, ← countP_classes distinct canonical]
  simp only [parts]

/-- What the share of the committed says of a window. -/
structure RatioOf (ratio : LearningCommitRatio) : Prop where
  counts : 0 ≤ ratio.proposalsCommitted ∧ ratio.proposalsCommitted ≤ ratio.proposalsTerminal
  quotient : ratio.commitRatio * ratio.proposalsTerminal = ratio.proposalsCommitted
  share : 0 ≤ ratio.commitRatio ∧ ratio.commitRatio ≤ 1

theorem learningMetricsCommitRatio_spec
    (settled : SettledCounted view instant settledCounts archivedSince) {windowDays : Int}
    {state final : σ} {found : Option LearningCommitRatio} {events : List (RouterEvent ν)}
    (ran : (learningMetricsCommitRatio settledCounts windowDays true).run state =
      (found, final, events)) :
    (view state).Quiet (view final) ∧ events = [] ∧ ∀ ratio, found = some ratio →
      RatioOf ratio ∧ ratio.windowDays = (if windowDays ≤ 0 then 7 else windowDays) ∧
        ∃ counted, (view state).now ≤ counted ∧ counted ≤ (view final).now ∧
          ratio.proposalsCommitted = (view state).rows.countP
            (isSettledSince instant (counted - ratio.windowDays * 86400)) := by
  unfold learningMetricsCommitRatio at ran
  rw [Bool.not_true, if_neg Bool.false_ne_true] at ran
  obtain ⟨answer, middle, _, _, asked, ended, rfl⟩ := run_bind_iff.mp ran
  obtain ⟨told, rfl⟩ := run_call_iff.mp asked
  obtain ⟨quiet, counting⟩ := settled state
    (if windowDays ≤ 0 then learningMetricsDefaultWindowDays else windowDays)
  rw [told] at quiet counting
  cases answer with
  | none =>
      obtain ⟨rfl, rfl, rfl⟩ := run_pure_iff.mp ended
      exact ⟨quiet, rfl, fun _ same => by cases same⟩
  | some pair =>
      obtain ⟨committed, terminal⟩ := pair
      obtain ⟨rfl, rfl, rfl⟩ := run_pure_iff.mp ended
      refine ⟨quiet, rfl, fun ratio same => ?_⟩
      obtain rfl := Option.some.inj same
      obtain ⟨counted, began, before, these, those⟩ := counting committed terminal rfl
      have nonneg : 0 ≤ committed := these ▸ Int.natCast_nonneg _
      have most : committed ≤ terminal := by omega
      refine ⟨⟨⟨nonneg, most⟩, ?_, ?_⟩, rfl, counted, began, before, these⟩
      · by_cases decided : terminal > 0
        · have here : (0 : Rat) < terminal := by exact_mod_cast decided
          dsimp only
          rw [if_pos decided]
          exact div_mul_cancel₀ _ here.ne'
        · have none_ : committed = 0 := by omega
          dsimp only
          rw [if_neg decided, zero_mul, none_, Int.cast_zero]
      · by_cases decided : terminal > 0
        · have here : (0 : Rat) < terminal := by exact_mod_cast decided
          dsimp only
          rw [if_pos decided, div_le_one here]
          exact ⟨div_nonneg (by exact_mod_cast nonneg) here.le, by exact_mod_cast most⟩
        · dsimp only
          rw [if_neg decided]
          exact ⟨le_refl _, zero_le_one⟩

variable {detectors : DetectorEnv σ} {start process : LearningProcess σ} {ops : List ProcessOp}
  {events : List (ProcessEvent ν)}

/-- In every state the process reaches, the metrics read the store as it is: every
sink is within its cap; until the next commit a sink shown with room has no
proposal refused, and one shown full commits none before the clock moves; the
sinks leave no commit of the week out, and the share of the week counts the same. -/
theorem sink_caps_agree (acts : ActsAsNamed env view instant False)
    (counts : CommitsCounted env view instant)
    (settled : SettledCounted view instant settledCounts archivedSince)
    (fixed : ∀ world, learningMaxCommitsPerWeek env world = cap) (positive : 0 < cap)
    (empty : (view start.world).rows = [])
    (run : (learningProcessMachine env detectors).Run start ops process events) {limit : Int}
    (asked : 0 < limit) {found : Option (List LearningSinkCap)} {shown : σ}
    {reported : List (RouterEvent ν)}
    (ran : (learningMetricsPerSinkCaps env true limit).run process.world =
      (found, shown, reported)) :
    (view process.world).Quiet (view shown) ∧ reported = [] ∧ ∃ rows, found = some rows ∧
      rows.map (·.sink) = learningCanonicalSinks.take limit.toNat ∧ (∀ row ∈ rows, CapRow cap row) ∧
      (∀ more later further, (learningProcessMachine env detectors).Run
          { process with world := shown } more later further →
        (∀ id, .committed id 0 ∉ routerEvents further) → ∀ row ∈ rows,
          Foretells env view row (view process.world).now later.world) ∧
      ∀ windowDays ratio last (noted : List (RouterEvent ν)),
        (learningMetricsCommitRatio settledCounts windowDays true).run shown =
          (some ratio, last, noted) → RatioOf ratio ∧
        (4 ≤ limit → ratio.windowDays = 7 → (view last).now = (view process.world).now →
          (rows.map (·.committedThisWeek)).sum = ratio.proposalsCommitted) := by
  obtain ⟨calls, -, router⟩ := process_calls run
  have begun : (view start.world).Lawful := .of_empty empty
  have path : Path (Evolution (capLaw instant cap)) [] (view start.world) (routerEvents events)
      (view process.world) :=
    run_path acts (capObserved counts fixed) (fun _ _ _ => trivial) begun router
  have lawful := path_lawful path begun
  have stamped : Stamped instant (view process.world) := by
    refine path_stamped path begun fun row member => ?_
    rw [empty] at member
    exact absurd member List.not_mem_nil
  have capped : WithinCap instant cap (view process.world) := by
    refine path_withinCap path begun fun sink time => ?_
    rw [empty]
    exact Int.le_of_lt positive
  have within : ∀ sink counted, (view process.world).now ≤ counted →
      ((view process.world).rows.countP
        (isCommittedSince instant sink (counted - learningWeek)) : Int) ≤ cap :=
    fun sink counted later => stamped.inWeek later ▸ capped sink counted
  obtain ⟨quiet, rfl, rows, rfl, counting⟩ :=
    learningMetricsPerSinkCaps_spec acts counts fixed asked ran
  have canonical : ∀ sink ∈ learningCanonicalSinks.take limit.toNat,
      sink ∈ learningCanonicalSinks := fun sink member => List.mem_of_mem_take member
  refine ⟨quiet, rfl, rows, rfl, counting.sinks canonical, fun row member => ?_,
    fun more later further onward uncommitted row member => ?_,
    fun windowDays ratio last noted divided => ?_⟩
  · obtain ⟨sink, -, counted, began, -, rfl⟩ := forall₂_backward counting member
    exact sinkCapRow_capRow positive (Int.natCast_nonneg _) (within sink counted began) sink
  · obtain ⟨sink, among, counted, began, before, rfl⟩ := forall₂_backward counting member
    obtain ⟨calls, -, router⟩ := process_calls onward
    have onward : Path (Evolution (freeLaw instant False)) [] (view shown) (routerEvents further)
        (view later.world) := run_freePath acts (lawful.quiet quiet) router
    have same : (view later.world).rows.countP
          (isCommittedSince instant sink (counted - learningWeek)) =
        (view process.world).rows.countP
          (isCommittedSince instant sink (counted - learningWeek)) := by
      rw [path_countP onward (lawful.quiet quiet) uncommitted isCommittedSince_committed,
        quiet.rows]
    rw [← same]
    exact sinkCapRow_foretells acts counts fixed positive
      (path_lawful onward (lawful.quiet quiet)) (canonical sink among) began
      (before.trans (path_later onward)) (same ▸ within sink counted began)
  · obtain ⟨still, -, told⟩ := learningMetricsCommitRatio_spec settled divided
    obtain ⟨ratioOf, -, counted, began, before, committed⟩ := told ratio rfl
    refine ⟨ratioOf, fun all week frozen => ?_⟩
    have here : (view shown).now = (view process.world).now :=
      le_antisymm (still.later.trans frozen.le) quiet.later
    have now : counted = (view process.world).now :=
      le_antisymm (before.trans frozen.le) (here ▸ began)
    have whole : learningCanonicalSinks.take limit.toNat = learningCanonicalSinks := by
      rw [List.take_of_length_le]
      show 4 ≤ limit.toNat
      omega
    rw [whole, here] at counting
    rw [counting.total (run_canonical acts empty router), committed, quiet.rows, week, now]
    rfl

/-- A store that counts every archived proposal with the settled ones. -/
def memorySettled (world : MemoryWorld) (store : MemoryStore) (days : Int) :
    Option (Int × Int) × MemoryStore :=
  let rows := (memoryView world store).rows
  let committed : Int := rows.countP (isSettledSince readTimestamp (world.time - days * 86400))
  (some (committed, committed + rows.countP (·.state = stateArchived)), store)

theorem memorySettled_counts (world : MemoryWorld) :
    SettledCounted (memoryView world) readTimestamp (memorySettled world)
      (fun _ row => row.state = stateArchived) := by
  refine fun store days => ⟨⟨le_refl _, rfl, rfl⟩, fun committed terminal counted => ?_⟩
  obtain ⟨rfl, rfl⟩ := Prod.mk.inj (Option.some.inj counted)
  exact ⟨world.time, le_refl _, le_refl _, rfl, rfl⟩

/-- The repeated workflow fills its sink. -/
theorem sink_caps_agree_full :
    ∃ rows shown, (learningMetricsPerSinkCaps (memoryEnv policyWorld) true 4).run
        (processRun implicitOps).1.world = (some rows, shown, []) ∧
      rows.map (·.utilization) = [0, 0, 0, 1] ∧ ∀ row ∈ rows, CapRow 1 row ∧
        Foretells (memoryEnv policyWorld) (memoryView policyWorld) row policyWorld.time shown := by
  have one : ∀ world, learningMaxCommitsPerWeek (memoryEnv policyWorld) world = 1 := fun _ => rfl
  have used : ((learningMetricsPerSinkCaps (memoryEnv policyWorld) true 4).run
      (processRun implicitOps).1.world).1.map (·.map (·.utilization)) = some [0, 0, 0, 1] := by
    decide +kernel
  rcases told : (learningMetricsPerSinkCaps (memoryEnv policyWorld) true 4).run
    (processRun implicitOps).1.world with ⟨found, shown, reported⟩
  rw [told] at used
  obtain ⟨-, rfl, rows, rfl, -, caps, foretold, -⟩ := sink_caps_agree
    (memoryEnv_actsSurely fun _ => rfl) (memoryEnv_counts policyWorld)
    (memorySettled_counts policyWorld) one (by decide) rfl (processRun_run implicitOps)
    (by decide) told
  refine ⟨rows, shown, rfl, Option.some.inj used, fun row member => ⟨caps row member, ?_⟩⟩
  exact foretold _ _ _ .nil (fun _ => List.not_mem_nil) row member

end Agreement

end AimeeLearning.Learning
