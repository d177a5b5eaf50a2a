import AimeeLearning.Learning.Proposal
import AimeeLearning.Library.Ranking

/-! The evidence neighbourhood of a query: stored vectors of the query's dimension
are ranked by cosine similarity and the best are returned. The embedder, the store,
`strtof`, `qsort` and the arithmetic of floats are given as an environment. -/

set_option autoImplicit false

namespace AimeeLearning.Learning

open Library

/-- The fields read of `db2_evidence_vector_row_t`; the embedding may be NULL. -/
structure EvidenceVectorRow where
  artifactId : Bytes
  kind : Bytes
  collection : Bytes
  embedding : Option Bytes

/-- What the bundle calls, over floats `φ` and doubles `δ`. -/
structure BundleEnv (φ δ : Type) where
  embedMaxDim : Nat
  configEmbedderCommandCurrent : Option Bytes → Bytes
  /-- The vector of a query, empty where the embedder fails. -/
  memoryEmbedText : Bytes → Bytes → List φ
  /-- Whether an allocation of so many entries succeeds. -/
  calloc : Nat → Bool
  db2EvidenceVectorsList : Nat → Option (List EvidenceVectorRow)
  /-- The value and the number of bytes read, none where there is no number. -/
  strtof : Bytes → φ × Nat
  qsort : ∀ {α : Type}, (α → α → Int) → List α → List α
  toDouble : φ → δ
  add : δ → δ → δ
  mul : δ → δ → δ
  div : δ → δ → δ
  sqrt : δ → δ
  zero : δ
  /-- 1e-9 -/
  tiny : δ

structure LearningBundleItem (δ : Type) where
  artifactId : Bytes
  kind : Bytes
  collection : Bytes
  score : δ

structure LearningBundle (δ : Type) where
  items : List (LearningBundleItem δ)
  count : Int
  distinctKinds : Int
  scanned : Int

/-- `memset` to zero. -/
def LearningBundle.zero {δ : Type} : LearningBundle δ := ⟨[], 0, 0, 0⟩

/-- A row of the table and its score. -/
structure BundleScored (rows : Nat) (δ : Type) where
  row : Fin rows
  score : δ

def learningBundleMax : Int := 32
def bundleScanMax : Nat := 512

section Build

variable {φ δ : Type} [LinearOrder δ] (env : BundleEnv φ δ)

def isSeparator (byte : UInt8) : Bool :=
  byte = 0x5b || byte = 0x5d || byte = 0x2c || byte = 0x20

/-- Read floats from a text while there is room for them. -/
def bundleParseFloats : Nat → Bytes → List φ
  | 0, _ => []
  | room + 1, text =>
      match text.dropWhile isSeparator with
      | [] => []
      | rest =>
          let (value, used) := env.strtof rest
          if used = 0 then [] else value :: bundleParseFloats room (rest.drop used)

def bundleParseVec (text : Option Bytes) : List φ :=
  match text with
  | none => []
  | some text => bundleParseFloats env env.embedMaxDim text

/-- The cosine of vectors of one dimension. -/
def bundleCosine (left right : List φ) : δ :=
  let sum (products : List (φ × φ)) : δ :=
    products.foldl (fun total pair =>
      env.add total (env.mul (env.toDouble pair.1) (env.toDouble pair.2))) env.zero
  let denom := env.mul (env.sqrt (sum (left.zip left))) (env.sqrt (sum (right.zip right)))
  if denom > env.tiny then env.div (sum (left.zip right)) denom else env.zero

def bundleCmpDesc {rows : Nat} (left right : BundleScored rows δ) : Int :=
  if left.score < right.score then 1 else if left.score > right.score then -1 else 0

/-- The vector of a row has the dimension of the query's. -/
def sameDimension (query : List φ) (row : EvidenceVectorRow) : Bool :=
  (bundleParseVec env row.embedding).length = query.length

/-- The rows of the query's dimension with their scores, in their order. -/
def bundleScore (query : List φ) (rows : List EvidenceVectorRow) :
    List (BundleScored rows.length δ) :=
  ((List.finRange rows.length).filter fun row => sameDimension env query (rows.get row)).map
    fun row => ⟨row, bundleCosine env query (bundleParseVec env (rows.get row).embedding)⟩

omit [LinearOrder δ] in
/-- A row in the fixed fields of an item. -/
def bundleItem (row : EvidenceVectorRow) (score : δ) : LearningBundleItem δ where
  artifactId := snprintf 37 row.artifactId
  kind := snprintf 64 row.kind
  collection := snprintf 64 row.collection
  score := score

def clampBundle (k : Int) : Int :=
  let k := if k < 1 then 1 else k
  if k > learningBundleMax then learningBundleMax else k

/-- The bundle of scanned rows. -/
def bundleOf (query : List φ) (rows : List EvidenceVectorRow) (k : Int) : LearningBundle δ :=
  let scored := env.qsort bundleCmpDesc (bundleScore env query rows)
  let take : Int := if scored.length < k then scored.length else k
  let items := (scored.take take.toNat).map fun entry => bundleItem (rows.get entry.row) entry.score
  ⟨items, take, countFirsts (·.kind) [] items, rows.length⟩

/-- The return code and `*out`; a NULL pointer is `none`. -/
def learningBundleBuild (query embedCmd : Option Bytes) (k : Int)
    (out : Option (LearningBundle δ)) : Int × Option (LearningBundle δ) :=
  match out, query with
  | some _, some query =>
      if query = [] then (-1, out)
      else
        let vector := env.memoryEmbedText query (env.configEmbedderCommandCurrent embedCmd)
        if vector = [] then (-1, some .zero)
        else if !env.calloc bundleScanMax then (-1, some .zero)
        else
          match env.db2EvidenceVectorsList bundleScanMax with
          | none => (-1, some .zero)
          | some rows =>
              if rows = [] then (0, some .zero)
              else if !env.calloc rows.length then (-1, some { LearningBundle.zero with
                scanned := rows.length })
              else (0, some (bundleOf env vector rows (clampBundle k)))
  | _, _ => (-1, out)

end Build

section Ranking

variable {φ δ : Type} [LinearOrder δ] {env : BundleEnv φ δ} {query : List φ}
  {rows : List EvidenceVectorRow}

theorem bundleCmpDesc_le_iff {count : Nat} {left right : BundleScored count δ} :
    bundleCmpDesc left right ≤ 0 ↔ right.score ≤ left.score := by
  unfold bundleCmpDesc
  split
  · rename_i below
    exact iff_of_false (by decide) (not_le.mpr below)
  · rename_i above
    refine iff_of_true ?_ (not_lt.mp above)
    split <;> decide

theorem bundleCmpDesc_comparator {count : Nat} :
    Comparator (bundleCmpDesc : BundleScored count δ → BundleScored count δ → Int) where
  total left right := by
    rw [bundleCmpDesc_le_iff, bundleCmpDesc_le_iff]
    exact le_total _ _
  trans first second third early late := by
    rw [bundleCmpDesc_le_iff] at early late ⊢
    exact late.trans early

def rowScore (env : BundleEnv φ δ) (query : List φ) (rows : List EvidenceVectorRow)
    (row : Fin rows.length) : δ :=
  bundleCosine env query (bundleParseVec env (rows.get row).embedding)

theorem mem_bundleScore {entry : BundleScored rows.length δ} :
    entry ∈ bundleScore env query rows ↔
      sameDimension env query (rows.get entry.row) = true ∧
        entry.score = rowScore env query rows entry.row := by
  simp only [bundleScore, List.mem_map, List.mem_filter, List.mem_finRange, true_and]
  constructor
  · rintro ⟨row, same, rfl⟩
    exact ⟨same, rfl⟩
  · rintro ⟨same, score⟩
    exact ⟨entry.row, same, by rw [← rowScore, ← score]⟩

theorem bundleScore_rows :
    (bundleScore env query rows).map (·.row) =
      (List.finRange rows.length).filter fun row => sameDimension env query (rows.get row) := by
  simp [bundleScore, Function.comp_def]

theorem bundleScore_length :
    (bundleScore env query rows).length = rows.countP (sameDimension env query) := by
  rw [← List.length_map (f := (·.row)), bundleScore_rows, ← List.countP_eq_length_filter]
  conv_rhs => rw [← List.map_get_finRange rows, List.countP_map]
  rfl

/-- The best rows of the query's dimension, each once. -/
structure TopRows (env : BundleEnv φ δ) (query : List φ) (rows : List EvidenceVectorRow)
    (chosen : List (Fin rows.length)) : Prop where
  distinct : chosen.Nodup
  eligible : ∀ row ∈ chosen, sameDimension env query (rows.get row) = true
  descending : chosen.Pairwise fun left right =>
    rowScore env query rows right ≤ rowScore env query rows left
  best : ∀ row, sameDimension env query (rows.get row) = true → row ∉ chosen →
    ∀ kept ∈ chosen, rowScore env query rows row ≤ rowScore env query rows kept

theorem topRows_of_sorted {sorted : List (BundleScored rows.length δ)} (count : Nat)
    (ranked : SortedBy bundleCmpDesc (bundleScore env query rows) sorted) :
    TopRows env query rows ((sorted.take count).map (·.row)) := by
  have scored : ∀ entry ∈ sorted.take count, entry ∈ bundleScore env query rows :=
    fun entry kept => ranked.perm.mem_iff.mp (List.mem_of_mem_take kept)
  have score : ∀ entry ∈ sorted.take count, entry.score = rowScore env query rows entry.row :=
    fun entry kept => (mem_bundleScore.mp (scored entry kept)).2
  constructor
  · have every : (sorted.map (·.row)).Nodup := by
      rw [(ranked.perm.map _).nodup_iff, bundleScore_rows]
      exact (List.nodup_finRange _).filter _
    exact ((List.take_sublist count sorted).map _).nodup every
  · intro row kept
    obtain ⟨entry, taken, rfl⟩ := List.mem_map.mp kept
    exact (mem_bundleScore.mp (scored entry taken)).1
  · rw [List.pairwise_map]
    refine (ranked.ascending.sublist (List.take_sublist count sorted)).imp_of_mem ?_
    intro left right before after ordered
    rw [← score left before, ← score right after]
    exact bundleCmpDesc_le_iff.mp ordered
  · intro row same out kept taken
    obtain ⟨entry, here, rfl⟩ := List.mem_map.mp taken
    have left : (⟨row, rowScore env query rows row⟩ : BundleScored rows.length δ) ∈
        bundleScore env query rows := mem_bundleScore.mpr ⟨same, rfl⟩
    have ordered := ranked.taken_before left (fun again =>
      out (List.mem_map.mpr ⟨_, again, rfl⟩)) here
    rw [← score entry here]
    exact bundleCmpDesc_le_iff.mp ordered

end Ranking

section Correct

variable {φ δ : Type} [LinearOrder δ] {env : BundleEnv φ δ} {rows : List EvidenceVectorRow}

/-- The texts of a row fit the fields of an item. -/
structure EvidenceVectorRow.Fits (row : EvidenceVectorRow) : Prop where
  artifactId : row.artifactId.length < 37
  kind : row.kind.length < 64
  collection : row.collection.length < 64

omit [LinearOrder δ] in
theorem bundleItem_fits {row : EvidenceVectorRow} (fits : row.Fits) (score : δ) :
    bundleItem row score = ⟨row.artifactId, row.kind, row.collection, score⟩ := by
  simp only [bundleItem, snprintf_fits fits.artifactId, snprintf_fits fits.kind,
    snprintf_fits fits.collection]

/-- The bundle holds the best rows of the query's dimension. -/
structure BundleCorrect (env : BundleEnv φ δ) (query : List φ) (rows : List EvidenceVectorRow)
    (k : Int) (bundle : LearningBundle δ) : Prop where
  count : bundle.count = min (max 1 (min k 32)) (rows.countP (sameDimension env query))
  items : bundle.items.length = bundle.count
  /-- Texts longer than the fields of an item are cut. -/
  chosen : ∃ chosen : List (Fin rows.length), TopRows env query rows chosen ∧
    bundle.items = (chosen.map fun row =>
      bundleItem (rows.get row) (rowScore env query rows row)) ∧
    ((∀ row ∈ rows, row.Fits) → bundle.items = chosen.map fun row =>
      ⟨(rows.get row).artifactId, (rows.get row).kind, (rows.get row).collection,
        rowScore env query rows row⟩)
  descending : bundle.items.Pairwise fun left right => right.score ≤ left.score
  scanned : bundle.scanned = rows.length
  distinctKinds : bundle.distinctKinds = (bundle.items.map (·.kind)).toFinset.card

theorem clampBundle_eq (k : Int) : clampBundle k = max 1 (min k 32) := by
  unfold clampBundle learningBundleMax
  dsimp only
  split <;> split <;> omega

theorem bundleOf_correct (sorts : Sorts env.qsort) (query : List φ) (k : Int) :
    BundleCorrect env query rows k (bundleOf env query rows (clampBundle k)) := by
  have ranked : SortedBy bundleCmpDesc (bundleScore env query rows)
      (env.qsort bundleCmpDesc (bundleScore env query rows)) :=
    sorts bundleCmpDesc bundleCmpDesc_comparator _
  have length : (env.qsort bundleCmpDesc (bundleScore env query rows)).length =
      rows.countP (sameDimension env query) := by
    rw [ranked.perm.length_eq, bundleScore_length]
  have clamped := clampBundle_eq k
  unfold bundleOf
  dsimp only
  generalize env.qsort bundleCmpDesc (bundleScore env query rows) = sorted at ranked length ⊢
  generalize taken : (if (sorted.length : Int) < clampBundle k then (sorted.length : Int)
    else clampBundle k) = take
  have few : take = min (clampBundle k) sorted.length := by
    rw [← taken]
    split <;> omega
  have top := topRows_of_sorted take.toNat ranked
  have scored : ∀ entry ∈ sorted.take take.toNat, entry.score = rowScore env query rows entry.row :=
    fun entry kept =>
      (mem_bundleScore.mp (ranked.perm.mem_iff.mp (List.mem_of_mem_take kept))).2
  have items : (sorted.take take.toNat).map (fun entry => bundleItem (rows.get entry.row) entry.score) =
      ((sorted.take take.toNat).map (·.row)).map fun row =>
        bundleItem (rows.get row) (rowScore env query rows row) := by
    rw [List.map_map]
    refine List.map_congr_left fun entry kept => ?_
    rw [Function.comp_apply, scored entry kept]
  constructor
  · rw [few, clamped, length]
  · simp only [List.length_map, List.length_take]
    omega
  · refine ⟨_, top, items, fun fits => ?_⟩
    rw [items]
    exact List.map_congr_left fun row _ => bundleItem_fits (fits _ (List.get_mem rows row)) _
  · rw [items]
    exact List.pairwise_map.mpr top.descending
  · rfl
  · exact congrArg Nat.cast (countFirsts_distinct _)

theorem zero_correct (env : BundleEnv φ δ) (query : List φ) (k : Int) :
    BundleCorrect env query [] k .zero where
  count := by
    have none : (0 : Int) = min (max 1 (min k 32)) ((0 : Nat) : Int) := by omega
    exact none
  items := rfl
  chosen := ⟨[], ⟨List.nodup_nil, nofun, .nil, fun row => row.elim0⟩, rfl, fun _ => rfl⟩
  descending := .nil
  scanned := rfl
  distinctKinds := rfl

/-- The call gets as far as ranking rows. -/
structure BundleReady (env : BundleEnv φ δ) (query : Bytes) (embedCmd : Option Bytes)
    (rows : List EvidenceVectorRow) : Prop where
  asked : query ≠ []
  embedded : env.memoryEmbedText query (env.configEmbedderCommandCurrent embedCmd) ≠ []
  listed : env.db2EvidenceVectorsList bundleScanMax = some rows
  scanning : env.calloc bundleScanMax = true
  scoring : env.calloc rows.length = true

/-- Whatever the stored rows, the query's vector and the number asked for, the
bundle holds the best rows. -/
theorem learning_bundle_build_correct (sorts : Sorts env.qsort) {query : Bytes}
    {embedCmd : Option Bytes} (ready : BundleReady env query embedCmd rows) (k : Int)
    (given : LearningBundle δ) :
    ∃ bundle, learningBundleBuild env (some query) embedCmd k (some given) = (0, some bundle) ∧
      BundleCorrect env
        (env.memoryEmbedText query (env.configEmbedderCommandCurrent embedCmd)) rows k bundle := by
  unfold learningBundleBuild
  dsimp only
  rw [if_neg ready.asked, if_neg ready.embedded, ready.scanning, ready.listed]
  dsimp only [Bool.not_true]
  by_cases empty : rows = []
  · subst empty
    exact ⟨.zero, rfl, zero_correct env _ k⟩
  · rw [if_neg empty, ready.scoring]
    exact ⟨_, rfl, bundleOf_correct sorts _ k⟩

end Correct

section Digits

/-- `strtof` on a number of one digit. -/
def readDigit : Bytes → Int × Nat
  | byte :: _ => if 48 ≤ byte ∧ byte ≤ 57 then (byte.toNat - 48, 1) else (0, 0)
  | [] => (0, 0)

def digitRow (kind embedding : String) : EvidenceVectorRow :=
  ⟨cstr kind, cstr kind, cstr "evidence", some (cstr embedding)⟩

def digitRows : List EvidenceVectorRow :=
  [digitRow "session_turn" "[0,1]", digitRow "feedback_negative" "[1,0]",
    digitRow "legacy" "[1]", digitRow "guardrail_event" "[1,0]"]

/-- Unit vectors along two axes, where a square root is the number itself. -/
def digitEnv : BundleEnv Int Int where
  embedMaxDim := 8
  configEmbedderCommandCurrent command := command.getD (cstr "builtin")
  memoryEmbedText _ _ := [1, 0]
  calloc _ := true
  db2EvidenceVectorsList _ := some digitRows
  strtof := readDigit
  qsort := insertionSortBy
  toDouble value := value
  add left right := left + right
  mul left right := left * right
  div left right := left / right
  sqrt value := value
  zero := 0
  tiny := 0

/-- Two rows of three eligible ones come back, the nearest. -/
theorem learning_bundle_build_digits :
    ∃ bundle, learningBundleBuild digitEnv (some (cstr "q")) none 2 (some .zero) = (0, some bundle) ∧
      bundle.count = 2 ∧ BundleCorrect digitEnv [1, 0] digitRows 2 bundle := by
  have ready : BundleReady digitEnv (cstr "q") none digitRows :=
    ⟨by decide, by decide, rfl, rfl, rfl⟩
  have sorts : Sorts digitEnv.qsort := insertionSortBy_sorts
  obtain ⟨bundle, built, correct⟩ := learning_bundle_build_correct sorts ready 2 .zero
  have correct : BundleCorrect digitEnv [1, 0] digitRows 2 bundle := correct
  have eligible : digitRows.countP (sameDimension digitEnv [1, 0]) = 3 := by decide +kernel
  refine ⟨bundle, built, ?_, correct⟩
  rw [correct.count, eligible]
  decide

end Digits

end AimeeLearning.Learning
