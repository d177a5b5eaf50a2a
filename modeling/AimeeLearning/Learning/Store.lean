import AimeeLearning.Learning.Router
import AimeeLearning.Library.Table

/-! What the calls of the proposal store do to the rows it holds, and the steps
the rows take under the router. A write may be lost, with its rows left alone,
where `fails` allows it. -/

set_option autoImplicit false

namespace AimeeLearning.Learning

open Library

/-- The part of the world the store's behaviour is stated in. -/
structure StoreView where
  /-- The clock. -/
  now : Int
  /-- The ids of the stored signals. -/
  signals : List Int
  rows : List LearningProposal

/-- Nothing but the clock moves. -/
structure StoreView.Quiet (before after : StoreView) : Prop where
  later : before.now ≤ after.now
  signals : after.signals = before.signals
  rows : after.rows = before.rows

/-- The rows have one id each and one of the three states. -/
structure StoreView.Lawful (view : StoreView) : Prop where
  unique : (view.rows.map (·.id)).Nodup
  states : ∀ row ∈ view.rows,
    row.state = statePending ∨ row.state = stateCommitted ∨ row.state = stateArchived

theorem StoreView.Lawful.of_empty {view : StoreView} (empty : view.rows = []) : view.Lawful where
  unique := by
    rw [empty]
    exact List.nodup_nil
  states row member := by
    rw [empty] at member
    exact absurd member List.not_mem_nil

section Changes

variable (instant : Bytes → Int)

def Bumped (row next : LearningProposal) : Prop :=
  next = { row with
    corroborationCount := row.corroborationCount + 1, updatedAt := next.updatedAt }

def Archived (row next : LearningProposal) : Prop :=
  next = { row with
    state := stateArchived, archiveReason := next.archiveReason, updatedAt := next.updatedAt }

/-- The row is committed and stamped with the time. -/
def Committed (time : Int) (row next : LearningProposal) : Prop :=
  instant next.committedAt = time ∧
    next = { row with
      state := stateCommitted, committedAt := next.committedAt, updatedAt := next.updatedAt }

/-- The row is pending and its time has passed. -/
def Expired (time : Int) (row : LearningProposal) : Prop :=
  row.state = statePending ∧ instant row.expiresAt ≤ time

/-- The expiry sweep at a time. -/
def Swept (time : Int) (row next : LearningProposal) : Prop :=
  (Expired instant time row → Archived row next) ∧ (¬ Expired instant time row → next = row)

end Changes

/-- A row as an insert stores it. -/
structure Inserted (id signal : Int) (route : Route) (expiresAt : Bytes)
    (row : LearningProposal) : Prop where
  id : row.id = id
  signal : row.signalId = signal
  sink : row.sink = route.sink
  state : row.state = statePending
  targetKey : row.targetKey = route.targetKey
  targetMemoryId : row.targetMemoryId = route.targetMemoryId
  action : row.actionJson = route.actionJson
  corroboration : row.corroborationCount = 1
  expires : row.expiresAt = expiresAt

/-- The row is for the same sink and target. -/
def LearningProposal.isFor (row : LearningProposal) (sink targetKey : Bytes)
    (targetMemoryId : Int) : Prop :=
  row.sink = sink ∧ row.targetKey = targetKey ∧ row.targetMemoryId = targetMemoryId

variable {σ ν : Type}

/-- The store calls act as named, or are lost where `fails` allows it. `instant`
is the time a stored timestamp stands for. -/
structure ActsAsNamed (env : RouterEnv σ ν) (view : σ → StoreView) (instant : Bytes → Int)
    (fails : Prop) : Prop where
  classifier : ∀ classify, env.signalClassifier = some classify →
    ∀ state signal, (view state).Quiet (view (classify state signal).2)
  memoryGet : ∀ state id, (view state).Quiet (view (env.memoryGet state id).2)
  perform : ∀ state effect, (view state).Quiet (view (env.perform state effect).2)
  dogfoodLog : ∀ state moment, (view state).Quiet (view (env.dogfoodLogMoment state moment))
  signalInsert : ∀ state input session,
    let stored := env.signalInsert state input session
    (view state).now ≤ (view stored.2).now ∧ (view stored.2).rows = (view state).rows ∧
      (stored.1 > 0 ∧ stored.1 ∉ (view state).signals ∧
          (view stored.2).signals = (view state).signals ++ [stored.1] ∨
        fails ∧ stored.1 ≤ 0 ∧ (view stored.2).signals = (view state).signals)
  archiveExpired : ∀ state, ∃ time ≥ (view state).now,
    let swept := env.proposalsArchiveExpired state
    time ≤ (view swept).now ∧ (view swept).signals = (view state).signals ∧
      (List.Forall₂ (Swept instant time) (view state).rows (view swept).rows ∨
        fails ∧ (view swept).rows = (view state).rows)
  findPending : ∀ state sink targetKey targetMemoryId,
    let found := env.proposalFindPending state sink targetKey targetMemoryId
    (view state).Quiet (view found.2) ∧
      (found.1 > 0 → ∃ row ∈ (view state).rows, row.id = found.1 ∧ row.state = statePending ∧
        row.isFor sink targetKey targetMemoryId) ∧
      (found.1 ≤ 0 → ∀ row ∈ (view state).rows,
        row.state = statePending → ¬ row.isFor sink targetKey targetMemoryId)
  insert : ∀ state signal (route : Route) evidenceRefs expiresAt,
    let stored := env.proposalInsert state signal route.sink route.targetKey
      route.targetMemoryId route.actionJson evidenceRefs expiresAt
    (view state).now ≤ (view stored.2).now ∧ (view stored.2).signals = (view state).signals ∧
      ((stored.1 > 0 ∧ stored.1 ∉ (view state).rows.map (·.id) ∧
          ∃ row, Inserted stored.1 signal route expiresAt row ∧
            (view stored.2).rows = (view state).rows ++ [row]) ∨
        fails ∧ stored.1 ≤ 0 ∧ (view stored.2).rows = (view state).rows)
  bump : ∀ state id,
    let bumped := env.proposalBumpCorroboration state id
    (view state).now ≤ (view bumped.2).now ∧ (view bumped.2).signals = (view state).signals ∧
      (Rewrites (·.id) id Bumped (view state).rows (view bumped.2).rows ∨
        fails ∧ (view bumped.2).rows = (view state).rows)
  markCommitted : ∀ state id, ∃ time ≥ (view state).now,
    let marked := env.proposalMarkCommitted state id
    time ≤ (view marked.2).now ∧ (view marked.2).signals = (view state).signals ∧
      (marked.1 = 0 ∧
          Rewrites (·.id) id (Committed instant time) (view state).rows (view marked.2).rows ∨
        fails ∧ marked.1 ≠ 0 ∧ (view marked.2).rows = (view state).rows)
  archive : ∀ state id reason,
    let archived := env.proposalArchive state id reason
    (view state).now ≤ (view archived.2).now ∧ (view archived.2).signals = (view state).signals ∧
      (Rewrites (·.id) id Archived (view state).rows (view archived.2).rows ∨
        fails ∧ (view archived.2).rows = (view state).rows)
  get : ∀ state id, (view state).Quiet (view (env.proposalGet state id).2) ∧
    (env.proposalGet state id).1 = (view state).rows.find? (·.id = id)
  list : ∀ state stateFilter sink limit max,
    (view state).Quiet (view (env.proposalList state stateFilter sink limit max).2)
  commits : ∀ state sink, (view state).Quiet (view (env.commitsInLast7Days state sink).2)

/-- What a development knows of the store beyond its calls. -/
structure StoreLaw (ν : Type) where
  instant : Bytes → Int
  fails : Prop
  /-- What the look at the weekly cap of a sink showed of the rows at a time. -/
  under : Bytes → Int → List LearningProposal → Prop
  /-- Why the rows may have a proposal committed after the events so far. -/
  reason : List (RouterEvent ν) → List LearningProposal → Int → Prop

/-- The signal was stored and routed to other sinks only since. -/
def Unrouted (history : List (RouterEvent ν)) (signal : Int) (sink : Bytes) : Prop :=
  ∃ early late, history = early ++ .signalInserted signal :: late ∧
    ∀ other route, .routed other route ∈ late → route.sink ≠ sink

def PendingId (rows : List LearningProposal) (id : Int) : Prop :=
  (∃ row ∈ rows, row.id = id) ∧ ∀ row ∈ rows, row.id = id → row.state = statePending

/-- A step of the rows under the router, after the events of the past. -/
inductive Evolution (law : StoreLaw ν) (history : List (RouterEvent ν)) :
    StoreView → List (RouterEvent ν) → StoreView → Prop where
  | quiet {before after : StoreView} (quiet : before.Quiet after) :
      Evolution law history before [] after
  | signal {before after : StoreView} (id : Int) (later : before.now ≤ after.now)
      (fresh : id ∉ before.signals) (signals : after.signals = before.signals ++ [id])
      (rows : after.rows = before.rows) :
      Evolution law history before [.signalInserted id] after
  | sweep {before after : StoreView} (time : Int) (began : before.now ≤ time)
      (ended : time ≤ after.now) (signals : after.signals = before.signals)
      (rows : List.Forall₂ (Swept law.instant time) before.rows after.rows ∨
        law.fails ∧ after.rows = before.rows) :
      Evolution law history before [.archivedExpired] after
  | join {before after : StoreView} (signal id : Int) (route : Route)
      (later : before.now ≤ after.now) (signals : after.signals = before.signals)
      (unrouted : Unrouted history signal route.sink) (row : LearningProposal)
      (present : row ∈ before.rows) (named : row.id = id) (pending : row.state = statePending)
      (target : row.isFor route.sink route.targetKey route.targetMemoryId)
      (rows : Rewrites (·.id) id Bumped before.rows after.rows ∨
        law.fails ∧ after.rows = before.rows) :
      Evolution law history before [.routed signal route, .bumped id] after
  | open {before after : StoreView} (signal : Int) (route : Route) (row : LearningProposal)
      (expiresAt : Bytes) (later : before.now ≤ after.now)
      (signals : after.signals = before.signals)
      (unrouted : Unrouted history signal route.sink) (fresh : row.id ∉ before.rows.map (·.id))
      (inserted : Inserted row.id signal route expiresAt row)
      (rows : after.rows = before.rows ++ [row]) :
      Evolution law history before [.routed signal route, .inserted row.id] after
  | drop {before after : StoreView} (signal : Int) (route : Route) (lost : law.fails)
      (unrouted : Unrouted history signal route.sink) (quiet : before.Quiet after) :
      Evolution law history before [.routed signal route] after
  | archive {before after : StoreView} (id : Int) (reason : Bytes)
      (later : before.now ≤ after.now) (signals : after.signals = before.signals)
      (pending : PendingId before.rows id)
      (rows : Rewrites (·.id) id Archived before.rows after.rows ∨
        law.fails ∧ after.rows = before.rows) :
      Evolution law history before [.archived id reason] after
  | refuse {before after : StoreView} (id : Int) (effect : SinkEffect ν) (rc : Int)
      (quiet : before.Quiet after) (wrong : rc ≠ 0) (pending : PendingId before.rows id) :
      Evolution law history before [.applied id effect rc] after
  | commit {before after : StoreView} {applied : List (RouterEvent ν)}
      (id rc counted time : Int) (began : before.now ≤ counted) (ahead : counted ≤ time)
      (ended : time ≤ after.now) (signals : after.signals = before.signals)
      (row : LearningProposal) (present : row ∈ before.rows) (named : row.id = id)
      (pending : PendingId before.rows id) (allowed : law.under row.sink counted before.rows)
      (reason : law.reason history before.rows id)
      (effects : applied = [] ∨ ∃ effect, applied = [.applied id effect 0])
      (rows : rc = 0 ∧ Rewrites (·.id) id (Committed law.instant time) before.rows after.rows ∨
        law.fails ∧ rc ≠ 0 ∧ after.rows = before.rows) :
      Evolution law history before (applied ++ [.committed id rc]) after

end AimeeLearning.Learning
