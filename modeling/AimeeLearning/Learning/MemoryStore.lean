import AimeeLearning.Learning.JsonText
import AimeeLearning.Learning.Store

/-! A world that keeps signals and proposals in memory and acts as named. The
clock stands still, and a marking may be lost. -/

set_option autoImplicit false

namespace AimeeLearning.Learning

open Library

section Clock

def daysOfCivil (year month day : Int) : Int :=
  let shifted := if month ≤ 2 then year - 1 else year
  let era := shifted / 400
  let yearOfEra := shifted - era * 400
  let dayOfYear := (153 * (if month > 2 then month - 3 else month + 9) + 2) / 5 + day - 1
  era * 146097 + (yearOfEra * 365 + yearOfEra / 4 - yearOfEra / 100 + dayOfYear) - 719468

/-- The time a timestamp text stands for. -/
def readTimestamp (text : Bytes) : Int :=
  let field (start width : Nat) : Int := (readDecimal 0 ((text.drop start).take width)).1
  daysOfCivil (field 0 4) (field 5 2) (field 8 2) * 86400 +
    field 11 2 * 3600 + field 14 2 * 60 + field 17 2

end Clock

/-- What the world answers besides its store. -/
structure MemoryWorld where
  time : Int
  maxCommitsPerWeek : Int
  classify : Bytes → Option UInt32
  /-- Whether the marking call of a number is lost. -/
  losesMark : Nat → Bool
  readable : readTimestamp (timestamp time) = time

/-- Signals, proposals and the number of marking calls. -/
structure MemoryStore where
  signals : List Int
  rows : List LearningProposal
  marks : Nat
  positive : ∀ row ∈ rows, 0 < row.id

namespace MemoryStore

def empty : MemoryStore := ⟨[], [], 0, nofun⟩

/-- An id above all others. -/
def freshId (ids : List Int) : Int := ids.foldr max 0 + 1

theorem freshId_above {ids : List Int} {id : Int} (member : id ∈ ids) : id < freshId ids := by
  induction ids with
  | nil => cases member
  | cons first rest ih =>
      rcases List.mem_cons.mp member with rfl | later
      · exact Int.lt_add_one_of_le (le_max_left _ _)
      · have below := ih later
        have grown := le_max_right first (rest.foldr max 0)
        simp only [freshId, List.foldr_cons] at below ⊢
        omega

theorem freshId_positive (ids : List Int) : 0 < freshId ids := by
  cases ids with
  | nil => decide
  | cons first rest =>
      induction rest generalizing first with
      | nil =>
          have low := le_max_right first 0
          simp only [freshId, List.foldr_cons, List.foldr_nil]
          omega
      | cons second rest ih =>
          have above := ih second
          have low := le_max_right first ((second :: rest).foldr max 0)
          simp only [freshId, List.foldr_cons] at above low ⊢
          omega

/-- Change every row, keeping its id. -/
def mapRows (store : MemoryStore) (change : LearningProposal → LearningProposal)
    (keeps : ∀ row, (change row).id = row.id) : MemoryStore where
  signals := store.signals
  rows := store.rows.map change
  marks := store.marks
  positive := by
    intro row member
    obtain ⟨before, present, rfl⟩ := List.mem_map.mp member
    rw [keeps]
    exact store.positive before present

def changeRow (store : MemoryStore) (id : Int) (change : LearningProposal → LearningProposal)
    (keeps : ∀ row, (change row).id = row.id) : MemoryStore :=
  store.mapRows (fun row => if row.id = id then change row else row) fun row => by
    split
    · exact keeps row
    · rfl

def isExpired (time : Int) (row : LearningProposal) : Bool :=
  row.state = statePending && readTimestamp row.expiresAt ≤ time

def archiveExpired (time : Int) (store : MemoryStore) : MemoryStore :=
  store.mapRows (fun row => if isExpired time row then
    { row with state := stateArchived, archiveReason := cstr "expired" } else row) fun row => by
      split <;> rfl

def isPendingFor (sink targetKey : Bytes) (targetMemoryId : Int) (row : LearningProposal) : Bool :=
  row.state = statePending && row.sink = sink && row.targetKey = targetKey &&
    row.targetMemoryId = targetMemoryId

def insert (time : Int) (store : MemoryStore) (signalId : Int) (sink targetKey : Bytes)
    (targetMemoryId : Int) (actionJson : Bytes) (evidenceRefs : Option Bytes) (expiresAt : Bytes) :
    Int × MemoryStore :=
  let id := freshId (store.rows.map (·.id))
  let row : LearningProposal :=
    { id, signalId, sink, state := statePending, targetKey, targetMemoryId, actionJson
      evidenceRefs := evidenceRefs.getD [], corroborationCount := 1, expiresAt
      committedAt := [], archiveReason := [], createdAt := timestamp time
      updatedAt := timestamp time }
  (id, { store with
    rows := store.rows ++ [row]
    positive := by
      intro other member
      rcases List.mem_append.mp member with before | here
      · exact store.positive other before
      · rw [List.mem_singleton.mp here]
        exact freshId_positive _ })

def commitsSince (time : Int) (store : MemoryStore) (sink : Bytes) : Nat :=
  store.rows.countP fun row =>
    row.sink = sink && row.state = stateCommitted && time - 604800 ≤ readTimestamp row.committedAt

end MemoryStore

/-- The world around a memory store. -/
def memoryEnv (world : MemoryWorld) : RouterEnv MemoryStore Int where
  sessionId _ := cstr "session"
  time _ := world.time
  configPresent _ := true
  configProposalTtlDays _ := 7
  configMaxCommitsPerWeek _ := world.maxCommitsPerWeek
  configIntegrityEnabled _ := false
  configIntegrityDryRun _ := false
  integrityGateCheck _ _ _ := .accept
  signalClassifier := some fun store signal => (world.classify signal, store)
  memoryGet store _ := (none, store)
  perform store effect :=
    match effect with
    | .memoryUpsertWorkflow _ _ _ _ _ => (1, store)
    | _ => (0, store)
  dogfoodLogMoment store _ := store
  signalInsert store _ _ :=
    let id := MemoryStore.freshId store.signals
    (id, { store with signals := store.signals ++ [id] })
  proposalsArchiveExpired store := store.archiveExpired world.time
  proposalFindPending store sink targetKey targetMemoryId :=
    match store.rows.find? (MemoryStore.isPendingFor sink targetKey targetMemoryId) with
    | some row => (row.id, store)
    | none => (-1, store)
  proposalInsert := MemoryStore.insert world.time
  proposalBumpCorroboration store id :=
    (0, store.changeRow id (fun row =>
      { row with corroborationCount := row.corroborationCount + 1 }) fun _ => rfl)
  proposalMarkCommitted store id :=
    let counted := { store with marks := store.marks + 1 }
    if world.losesMark store.marks then (-1, counted)
    else (0, counted.changeRow id (fun row =>
      { row with state := stateCommitted, committedAt := timestamp world.time }) fun _ => rfl)
  proposalArchive store id reason :=
    (0, store.changeRow id (fun row =>
      { row with state := stateArchived, archiveReason := reason }) fun _ => rfl)
  proposalGet store id := (store.rows.find? (·.id = id), store)
  proposalList store state sink limit max :=
    let found := (store.rows.filter fun row =>
      (state.isNone || state = some row.state) && (sink.isNone || sink = some row.sink)).take
        (min limit max).toNat
    ((found.length, found), store)
  commitsInLast7Days store sink := (store.commitsSince world.time sink, store)
  cjsonParse := parseText
  cjsonPrintUnformatted value := some (printValue value)
  ofInt value := value
  toInt64 value := value
  valueInt value := value
  half := 0
  collabRuleTextLen := 1024
  collabRuleReasonLen := 256

def memoryView (world : MemoryWorld) (store : MemoryStore) : StoreView :=
  ⟨world.time, store.signals, store.rows⟩

section Acts

variable {world : MemoryWorld} {store : MemoryStore}

theorem mapRows_forall₂ {Related : LearningProposal → LearningProposal → Prop}
    {rows : List LearningProposal} {change : LearningProposal → LearningProposal}
    (related : ∀ row, Related row (change row)) : List.Forall₂ Related rows (rows.map change) := by
  rw [List.forall₂_map_right_iff]
  exact List.forall₂_same.mpr fun row _ => related row

theorem rewrites_map {id : Int} {rows : List LearningProposal}
    {change : LearningProposal → LearningProposal}
    {Change : LearningProposal → LearningProposal → Prop} (changes : ∀ row, Change row (change row)) :
    Rewrites (·.id) id Change rows (rows.map fun row => if row.id = id then change row else row) :=
  mapRows_forall₂ fun row => by
    split
    · exact changes row
    · rfl

theorem archiveExpired_swept :
    List.Forall₂ (Swept readTimestamp world.time) store.rows (store.archiveExpired world.time).rows :=
  mapRows_forall₂ fun row => by
    have agrees : MemoryStore.isExpired world.time row = true ↔ Expired readTimestamp world.time row := by
      simp [MemoryStore.isExpired, Expired]
    split
    · rename_i expired
      exact ⟨fun _ => rfl, fun current => absurd (agrees.mp expired) current⟩
    · rename_i current
      exact ⟨fun expired => absurd (agrees.mpr expired) current, fun _ => rfl⟩

theorem isPendingFor_iff {sink targetKey : Bytes} {targetMemoryId : Int} {row : LearningProposal} :
    MemoryStore.isPendingFor sink targetKey targetMemoryId row = true ↔
      row.state = statePending ∧ row.isFor sink targetKey targetMemoryId := by
  simp [MemoryStore.isPendingFor, LearningProposal.isFor, and_assoc]

theorem memoryView_quiet : (memoryView world store).Quiet (memoryView world store) :=
  ⟨le_refl _, rfl, rfl⟩

theorem memoryEnv_acts (world : MemoryWorld) :
    ActsAsNamed (memoryEnv world) (memoryView world) readTimestamp
      (∃ number, world.losesMark number = true) where
  classifier classify registered state signal := by
    obtain rfl := Option.some.inj registered
    exact memoryView_quiet
  memoryGet _ _ := memoryView_quiet
  perform _ effect := by cases effect <;> exact memoryView_quiet
  dogfoodLog _ _ := memoryView_quiet
  signalInsert store _ _ :=
    ⟨le_refl _, rfl, .inl ⟨MemoryStore.freshId_positive _,
      fun member => absurd (MemoryStore.freshId_above member) (lt_irrefl _), rfl⟩⟩
  archiveExpired store := ⟨world.time, le_refl _, le_refl _, rfl, .inl archiveExpired_swept⟩
  findPending store sink targetKey targetMemoryId := by
    dsimp only [memoryEnv]
    split
    · rename_i row found
      have member := List.mem_of_find?_eq_some found
      obtain ⟨pending, target⟩ := isPendingFor_iff.mp (List.find?_some found)
      exact ⟨memoryView_quiet, fun _ => ⟨row, member, rfl, pending, target⟩,
        fun low => absurd (store.positive row member) (not_lt.mpr low)⟩
    · rename_i missing
      refine ⟨memoryView_quiet, fun high => absurd high (by simp), fun _ row member pending target => ?_⟩
      exact List.find?_eq_none.mp missing row member (isPendingFor_iff.mpr ⟨pending, target⟩)
  insert store signal route evidenceRefs expiresAt :=
    ⟨le_refl _, rfl, .inl ⟨MemoryStore.freshId_positive _,
      fun member => absurd (MemoryStore.freshId_above member) (lt_irrefl _), _,
      ⟨rfl, rfl, rfl, rfl, rfl, rfl, rfl, rfl, rfl⟩, rfl⟩⟩
  bump store id := ⟨le_refl _, rfl, .inl (rewrites_map fun _ => rfl)⟩
  markCommitted store id := by
    refine ⟨world.time, le_refl _, ?_⟩
    dsimp only [memoryEnv]
    split
    · rename_i lost
      exact ⟨le_refl _, rfl, .inr ⟨⟨_, lost⟩, by simp, rfl⟩⟩
    · exact ⟨le_refl _, rfl, .inl ⟨rfl, rewrites_map fun _ => ⟨world.readable, rfl⟩⟩⟩
  archive store id reason := ⟨le_refl _, rfl, .inl (rewrites_map fun _ => rfl)⟩
  get _ _ := ⟨memoryView_quiet, rfl⟩
  list _ _ _ _ _ := memoryView_quiet
  commits _ _ := memoryView_quiet

theorem memoryEnv_actsSurely (kept : ∀ number, world.losesMark number = false) :
    ActsAsNamed (memoryEnv world) (memoryView world) readTimestamp False := by
  have never : (∃ number, world.losesMark number = true) = False := by simp [kept]
  exact never ▸ memoryEnv_acts world

theorem memoryView_empty : (memoryView world .empty).Lawful := .of_empty rfl

end Acts

section Runs

/-- What calls lead to from an empty store, and what they report. -/
def memoryRun (world : MemoryWorld) (ops : List RouterOp) :
    MemoryStore × List (RouterEvent Int) :=
  ((routerMachine (memoryEnv world)).execute .empty ops).getD (.empty, [])

theorem execute_isSome {σ ν : Type} (env : RouterEnv σ ν) (start : σ) (ops : List RouterOp) :
    ((routerMachine env).execute start ops).isSome := by
  induction ops generalizing start with
  | nil => rfl
  | cons op rest ih =>
      obtain ⟨⟨final, outputs⟩, same⟩ := Option.isSome_iff_exists.mp
        (ih ((runRouterOp env op).run start).2.1)
      simp [Machine.execute, routerMachine] at same ⊢
      simp [same]

theorem memoryRun_run (world : MemoryWorld) (ops : List RouterOp) :
    (routerMachine (memoryEnv world)).Run .empty ops (memoryRun world ops).1
      (memoryRun world ops).2 := by
  obtain ⟨result, same⟩ := Option.isSome_iff_exists.mp (execute_isSome (memoryEnv world) .empty ops)
  unfold memoryRun
  rw [same]
  exact Machine.run_of_execute same

/-- The same run, where each of its calls is allowed. -/
theorem memoryRun_restricted {world : MemoryWorld} {ops : List RouterOp}
    {allowed : MemoryStore → RouterOp → Bool}
    (permitted : (((routerMachine (memoryEnv world)).restrict allowed).execute .empty ops).isSome) :
    ((routerMachine (memoryEnv world)).restrict allowed).Run .empty ops (memoryRun world ops).1
      (memoryRun world ops).2 := by
  obtain ⟨⟨final, outputs⟩, same⟩ := Option.isSome_iff_exists.mp permitted
  have run := Machine.run_of_execute same
  obtain ⟨rfl, rfl⟩ := run.unrestricted.unique (memoryRun_run world ops)
  exact run

end Runs

section Signals

/-- A signal with every field empty. -/
def bareSignal : LearningSignalInput :=
  ⟨[], [], [], [], [], [], 0, [], [], [], none, false⟩

/-- An afternoon in which one week's cap is small and no marking is lost. -/
def afternoon : MemoryWorld where
  time := 1700000000
  maxCommitsPerWeek := 1
  classify signal :=
    if signal = cstr "thumb_up" ∨ signal = cstr "thumb_down" then some Observe.sinkReranker
    else some Observe.sinkRule
  losesMark _ := false
  readable := by decide +kernel

def preference (text : String) : LearningSignalInput :=
  { bareSignal with signalType := cstr "preference_statement", description := cstr text }

def thumb (signalType : String) (memory : Int) : LearningSignalInput :=
  { bareSignal with signalType := cstr signalType, targetMemoryId := memory }

end Signals

end AimeeLearning.Learning
