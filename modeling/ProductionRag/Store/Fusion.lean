import Mathlib.Data.Prod.Lex
import Mathlib.Data.String.Basic
import Mathlib.Tactic.Linarith
import Mathlib.Tactic.Positivity
import ProductionRag.Basis.Ranks
import ProductionRag.Store.Postgres
import ProductionRag.Terms

/-!
# Hybrid search

Two statements find rows by meaning and by keywords, and `search_hybrid` fuses the two lists.  A
row that one list does not have takes defaults there: a rank behind all others, and a score of
zero.  For keywords zero is the least score, for cosines it is not.
-/

set_option autoImplicit false

namespace ProductionRag

open Basis

/-! ## Fusing two lists -/

/-- A row of either statement. -/
structure SearchRow extends Chunk where
  allowedGroups : List String
  deriving DecidableEq

structure Hit where
  row : SearchRow
  score : Option ℚ
  deriving DecidableEq

/-- `float(row[column] or 0.0)` -/
def Hit.value (hit : Hit) : ℚ := hit.score.getD 0

def Hit.id (hit : Hit) : String := hit.row.id

structure Candidate extends SearchRow where
  semanticScore : ℚ
  keywordScore : ℚ
  semanticRank : Option Nat
  keywordRank : Option Nat
  deriving DecidableEq

namespace Candidate

/-- What the first loop stores for a row. -/
def ofSemantic (entry : Hit × Nat) : Candidate :=
  { entry.1.row with
    semanticScore := entry.1.value
    keywordScore := 0
    semanticRank := some entry.2
    keywordRank := none }

/-- `setdefault`, and then the two columns that the second loop assigns. -/
def withKeyword (held : Option Candidate) (entry : Hit × Nat) : Candidate :=
  let candidate := held.getD
    { entry.1.row with
      semanticScore := 0
      keywordScore := entry.1.value
      semanticRank := none
      keywordRank := none }
  { candidate with keywordScore := entry.1.value, keywordRank := some entry.2 }

/-- `rank or candidate_limit + 1` -/
def rankOr (candidateLimit : Nat) : Option Nat → Nat
  | some (rank + 1) => rank + 1
  | _ => candidateLimit + 1

def keywordShare (maxKeywordScore : ℚ) (candidate : Candidate) : ℚ :=
  if maxKeywordScore ≠ 0 then candidate.keywordScore / maxKeywordScore else 0

def rankSignal (candidateLimit : Nat) (candidate : Candidate) : ℚ :=
  let semanticRank := rankOr candidateLimit candidate.semanticRank
  let keywordRank := rankOr candidateLimit candidate.keywordRank
  61 * (13 / 20 / (60 + semanticRank) + 1 / 4 / (60 + keywordRank))

def fusedScore (lower : String → String) (queryText : String) (candidateLimit : Nat)
    (maxKeywordScore : ℚ) (candidate : Candidate) : ℚ :=
  3 / 5 * candidate.semanticScore + 1 / 4 * candidate.keywordShare maxKeywordScore +
    1 / 10 * overlap lower queryText candidate.text + 1 / 20 * candidate.rankSignal candidateLimit

end Candidate

/-- The dictionary after the first loop. -/
def semanticTable (semantic : List Hit) : Table String Candidate :=
  (semantic.zipIdx 1).foldl
    (fun candidates entry => candidates.set entry.1.id (Candidate.ofSemantic entry)) .empty

/-- The dictionary after the second loop. -/
def fusedTable (semantic keyword : List Hit) : Table String Candidate :=
  (keyword.zipIdx 1).foldl
    (fun candidates entry => candidates.set entry.1.id
      (Candidate.withKeyword (candidates.find? entry.1.id) entry)) (semanticTable semantic)

def fusedCandidates (semantic keyword : List Hit) : List Candidate :=
  (fusedTable semantic keyword).entries.map Prod.snd

/-- `max((candidate["keyword_score"] for ...), default=0.0)` -/
def maxKeywordScore (candidates : List Candidate) : ℚ :=
  (candidates.map Candidate.keywordScore).max?.getD 0

def scoredCandidates (lower : String → String) (queryText : String) (candidateLimit : Nat)
    (semantic keyword : List Hit) : List (Candidate × ℚ) :=
  let candidates := fusedCandidates semantic keyword
  candidates.map fun candidate =>
    (candidate, candidate.fusedScore lower queryText candidateLimit (maxKeywordScore candidates))

/-- `key=lambda row: (-row["score"], row["document_id"], row["chunk_index"])` -/
def fusionKey (entry : Candidate × ℚ) : ℚ ×ₗ String ×ₗ Nat :=
  toLex (-entry.2, toLex (entry.1.documentId, entry.1.index))

def fusedFirst (left right : Candidate × ℚ) : Prop := fusionKey left ≤ fusionKey right

instance : DecidableRel fusedFirst := fun left right =>
  inferInstanceAs (Decidable (fusionKey left ≤ fusionKey right))

def fuse (lower : String → String) (queryText : String) (limit candidateLimit : Nat)
    (semantic keyword : List Hit) : List (Candidate × ℚ) :=
  ((scoredCandidates lower queryText candidateLimit semantic keyword).insertionSort
    fusedFirst).take limit

/-- What the two statements return. -/
structure HybridStatements where
  semantic (tenantId modelName : String) (embedding : Embedding) (groups : List String)
    (candidateLimit : Nat) : List Hit
  keyword (tenantId queryText : String) (groups : List String) (candidateLimit : Nat) : List Hit

/-- `search_hybrid` -/
def searchHybrid (statements : HybridStatements) (lower : String → String)
    (tenantId queryText : String) (embedding : Embedding) (limit candidateLimit : Nat)
    (model : String) (groups : List String) : Except PyError (List (Candidate × ℚ)) :=
  if strip tenantId = "" then .error (.valueError "tenant_id is required")
  else if strip queryText = "" then .error (.valueError "query_text is required")
  else if limit = 0 ∨ candidateLimit < limit then
    .error (.valueError "candidate_limit must be at least limit")
  else if embedding.length ≠ dimensions ∨ FloatValue.nonfinite ∈ embedding then
    .error (.valueError "query embedding must be a finite 384-dimension vector")
  else
    .ok (fuse lower queryText limit candidateLimit
      (statements.semantic tenantId model embedding groups candidateLimit)
      (statements.keyword tenantId queryText groups candidateLimit))

/-! ## What a candidate holds -/

def rankIn (hits : List Hit) (id : String) : Option Nat := (place Hit.id hits id).map Prod.snd

/-- The score of a row in a list, zero where the list does not have it. -/
def valueIn (hits : List Hit) (id : String) : ℚ :=
  ((place Hit.id hits id).map fun entry => entry.1.value).getD 0

/-- A list as a statement returns it: best first, no row twice, and no more than asked for. -/
structure Ranking (candidateLimit : Nat) (hits : List Hit) : Prop where
  distinct : (hits.map Hit.id).Nodup
  falling : hits.Pairwise fun left right => right.value ≤ left.value
  short : hits.length ≤ candidateLimit

/-- Two lists as the statements return them: cosines, and keyword scores that are not negative. -/
structure SearchLists (candidateLimit : Nat) (semantic keyword : List Hit) : Prop where
  cosines : ∀ hit ∈ semantic, -1 ≤ hit.value ∧ hit.value ≤ 1
  nonneg : ∀ hit ∈ keyword, 0 ≤ hit.value
  semantic : Ranking candidateLimit semantic
  keyword : Ranking candidateLimit keyword

/-- A candidate is a row of one of the lists, with what the lists say of its id. -/
structure Candidate.MergedFrom (semantic keyword : List Hit) (id : String)
    (candidate : Candidate) : Prop where
  row : ∃ hit ∈ semantic ++ keyword, hit.row = candidate.toSearchRow
  own : candidate.id = id
  semanticScore : candidate.semanticScore = valueIn semantic id
  keywordScore : candidate.keywordScore = valueIn keyword id
  semanticRank : candidate.semanticRank = rankIn semantic id
  keywordRank : candidate.keywordRank = rankIn keyword id

section Fusion

variable {semantic keyword : List Hit} {candidateLimit : Nat}

theorem map_id_zipIdx (hits : List Hit) :
    (hits.zipIdx 1).map (fun entry => entry.1.id) = hits.map Hit.id := by
  have rows : (hits.zipIdx 1).map Prod.fst = hits := List.zipIdx_map_fst ..
  have ids := congrArg (List.map Hit.id) rows
  rw [List.map_map] at ids
  exact ids

theorem find?_semanticTable (distinct : (semantic.map Hit.id).Nodup) (id : String) :
    (semanticTable semantic).find? id = (place Hit.id semantic id).map Candidate.ofSemantic := by
  have looped := Table.find?_foldl_set (fun entry : Hit × Nat => entry.1.id)
    (fun _ => Candidate.ofSemantic) ((map_id_zipIdx semantic).symm ▸ distinct) .empty id
  exact looped.trans (Option.or_none ..)

/-- The dictionary holds of an id what the two lists make of it. -/
theorem find?_fusedTable (distinct : (semantic.map Hit.id).Nodup)
    (distinct' : (keyword.map Hit.id).Nodup) (id : String) :
    (fusedTable semantic keyword).find? id =
      ((place Hit.id keyword id).map
        (Candidate.withKeyword ((place Hit.id semantic id).map Candidate.ofSemantic))).or
        ((place Hit.id semantic id).map Candidate.ofSemantic) := by
  have looped := Table.find?_foldl_set (fun entry : Hit × Nat => entry.1.id)
    Candidate.withKeyword ((map_id_zipIdx keyword).symm ▸ distinct') (semanticTable semantic) id
  rw [find?_semanticTable distinct] at looped
  exact looped

theorem mem_keys_fusedTable (distinct : (semantic.map Hit.id).Nodup)
    (distinct' : (keyword.map Hit.id).Nodup) (id : String) :
    id ∈ (fusedTable semantic keyword).keys ↔
      id ∈ semantic.map Hit.id ++ keyword.map Hit.id := by
  rw [← Table.find?_isSome_iff, find?_fusedTable distinct distinct', Option.isSome_or,
    Option.isSome_map, Option.isSome_map, Bool.or_eq_true, place_isSome_iff, place_isSome_iff,
    List.mem_append, or_comm]

theorem mergedFrom (distinct : (semantic.map Hit.id).Nodup)
    (distinct' : (keyword.map Hit.id).Nodup) {id : String} {candidate : Candidate}
    (held : (id, candidate) ∈ (fusedTable semantic keyword).entries) :
    candidate.MergedFrom semantic keyword id := by
  have found := Table.find?_eq_some_iff.mpr held
  rw [find?_fusedTable distinct distinct'] at found
  cases inSemantic : place Hit.id semantic id with
  | none =>
      cases inKeyword : place Hit.id keyword id with
      | none => simp [inSemantic, inKeyword] at found
      | some entry =>
          obtain ⟨isId, _, here⟩ := place_some inKeyword
          rw [inSemantic, inKeyword] at found
          obtain rfl := Option.some.inj found
          refine ⟨⟨entry.1, List.mem_append_right _ (List.mem_of_getElem? here), rfl⟩, isId,
            ?_, ?_, ?_, ?_⟩
          · simp [valueIn, inSemantic, Candidate.withKeyword]
          · simp [valueIn, inKeyword, Candidate.withKeyword]
          · simp [rankIn, inSemantic, Candidate.withKeyword]
          · simp [rankIn, inKeyword, Candidate.withKeyword]
  | some entry =>
      obtain ⟨isId, _, here⟩ := place_some inSemantic
      have inLists : entry.1 ∈ semantic ++ keyword :=
        List.mem_append_left _ (List.mem_of_getElem? here)
      cases inKeyword : place Hit.id keyword id with
      | none =>
          rw [inSemantic, inKeyword] at found
          obtain rfl := Option.some.inj found
          refine ⟨⟨entry.1, inLists, rfl⟩, isId, ?_, ?_, ?_, ?_⟩
          · simp [valueIn, inSemantic, Candidate.ofSemantic]
          · simp [valueIn, inKeyword, Candidate.ofSemantic]
          · simp [rankIn, inSemantic, Candidate.ofSemantic]
          · simp [rankIn, inKeyword, Candidate.ofSemantic]
      | some entry' =>
          rw [inSemantic, inKeyword] at found
          obtain rfl := Option.some.inj found
          refine ⟨⟨entry.1, inLists, rfl⟩, isId, ?_, ?_, ?_, ?_⟩
          · simp [valueIn, inSemantic, Candidate.withKeyword, Candidate.ofSemantic]
          · simp [valueIn, inKeyword, Candidate.withKeyword]
          · simp [rankIn, inSemantic, Candidate.withKeyword, Candidate.ofSemantic]
          · simp [rankIn, inKeyword, Candidate.withKeyword]

/-! ## Order -/

theorem rankIn_bounds (ranking : Ranking candidateLimit semantic) {id : String} {rank : Nat}
    (isRank : rankIn semantic id = some rank) : 1 ≤ rank ∧ rank ≤ candidateLimit := by
  obtain ⟨⟨hit, rank⟩, found, rfl⟩ := Option.map_eq_some_iff.mp isRank
  exact ⟨(place_some found).2.1, (place_rank_le found).trans ranking.short⟩

/-- A row that the list has scores at most as much as a row that ranks no worse there. -/
theorem valueIn_le {hits : List Hit} (ranking : Ranking candidateLimit hits) {id id' : String}
    (noWorse : NoWorse (rankIn hits id) (rankIn hits id')) (present : rankIn hits id' ≠ none) :
    valueIn hits id' ≤ valueIn hits id := by
  obtain ⟨rank', isRank'⟩ := Option.ne_none_iff_exists'.mp present
  rw [isRank'] at noWorse
  obtain ⟨rank, isRank, better⟩ := noWorse.some_of_some
  obtain ⟨⟨hit, rank⟩, found, rfl⟩ := Option.map_eq_some_iff.mp isRank
  obtain ⟨⟨hit', rank'⟩, found', rfl⟩ := Option.map_eq_some_iff.mp isRank'
  rw [valueIn, valueIn, found, found']
  exact score_le_of_rank_le ranking.falling found found' better

theorem valueIn_of_absent {hits : List Hit} {id : String} (absent : rankIn hits id = none) :
    valueIn hits id = 0 := by
  rw [valueIn, Option.map_eq_none_iff.mp absent]
  rfl

theorem valueIn_nonneg {hits : List Hit} (nonneg : ∀ hit ∈ hits, 0 ≤ hit.value) (id : String) :
    0 ≤ valueIn hits id := by
  rw [valueIn]
  cases found : place Hit.id hits id with
  | none => exact le_rfl
  | some entry => exact nonneg entry.1 (List.mem_of_getElem? (place_some found).2.2)

/-- The default rank lies behind all ranks of a list. -/
theorem rankOr_le {left right : Option Nat}
    (leftBounds : ∀ rank, left = some rank → 1 ≤ rank ∧ rank ≤ candidateLimit)
    (rightBounds : ∀ rank, right = some rank → 1 ≤ rank ∧ rank ≤ candidateLimit)
    (noWorse : NoWorse left right) :
    Candidate.rankOr candidateLimit left ≤ Candidate.rankOr candidateLimit right := by
  have known : ∀ rank, 1 ≤ rank → Candidate.rankOr candidateLimit (some rank) = rank := by
    intro rank counted
    cases rank with
    | zero => omega
    | succ rank => rfl
  cases right with
  | none =>
      cases left with
      | none => exact Nat.le_refl _
      | some rank =>
          have bounds := leftBounds rank rfl
          rw [known rank bounds.1]
          exact bounds.2.trans (Nat.le_succ _)
  | some rank' =>
      obtain ⟨rank, rfl, better⟩ := noWorse.some_of_some
      rw [known rank (leftBounds rank rfl).1, known rank' (rightBounds rank' rfl).1]
      exact better

/-! ## Soundness -/

instance : Std.Total fusedFirst := ⟨fun left right => le_total (fusionKey left) (fusionKey right)⟩

instance : IsTrans (Candidate × ℚ) fusedFirst :=
  ⟨fun _ _ _ first second => le_trans (α := ℚ ×ₗ String ×ₗ Nat) first second⟩

theorem score_le_of_fusedFirst {left right : Candidate × ℚ} (first : fusedFirst left right) :
    right.2 ≤ left.2 := by
  rcases Prod.Lex.le_iff.mp first with higher | ⟨same, _⟩
  · exact (neg_lt_neg_iff.mp higher).le
  · exact (neg_inj.mp same).ge

structure SoundFusion (limit : Nat) (semantic keyword : List Hit)
    (results : List (Candidate × ℚ)) : Prop where
  size : results.length = min limit (semantic.map Hit.id ++ keyword.map Hit.id).toFinset.card
  listed : ∀ entry ∈ results, ∃ hit ∈ semantic ++ keyword, hit.row = entry.1.toSearchRow
  once : (results.map fun entry => entry.1.id).Nodup
  falling : results.Pairwise fun left right => right.2 ≤ left.2

variable {lower : String → String} {queryText : String} {limit : Nat}

theorem mem_scoredCandidates (distinct : (semantic.map Hit.id).Nodup)
    (distinct' : (keyword.map Hit.id).Nodup) {entry : Candidate × ℚ}
    (member : entry ∈ scoredCandidates lower queryText candidateLimit semantic keyword) :
    entry.1 ∈ fusedCandidates semantic keyword ∧
      entry.1.MergedFrom semantic keyword entry.1.id ∧
      entry.2 = entry.1.fusedScore lower queryText candidateLimit
        (maxKeywordScore (fusedCandidates semantic keyword)) := by
  obtain ⟨candidate, inTable, rfl⟩ := List.mem_map.mp member
  obtain ⟨⟨id, candidate⟩, held, rfl⟩ := List.mem_map.mp inTable
  have merged := mergedFrom distinct distinct' held
  exact ⟨inTable, merged.own.symm ▸ merged, rfl⟩

theorem ids_scoredCandidates (distinct : (semantic.map Hit.id).Nodup)
    (distinct' : (keyword.map Hit.id).Nodup) :
    (scoredCandidates lower queryText candidateLimit semantic keyword).map
        (fun entry => entry.1.id) =
      (fusedTable semantic keyword).keys := by
  rw [scoredCandidates, List.map_map, fusedCandidates, List.map_map, Table.keys]
  apply List.map_congr_left
  intro entry held
  exact (mergedFrom distinct distinct' held).own

theorem fuse_sound (distinct : (semantic.map Hit.id).Nodup)
    (distinct' : (keyword.map Hit.id).Nodup) :
    SoundFusion limit semantic keyword
      (fuse lower queryText limit candidateLimit semantic keyword) where
  size := by
    have ids := @ids_scoredCandidates semantic keyword candidateLimit lower queryText distinct
      distinct'
    have once : (fusedTable semantic keyword).keys.Nodup := (fusedTable semantic keyword).nodupKeys
    have same : (fusedTable semantic keyword).keys.toFinset =
        (semantic.map Hit.id ++ keyword.map Hit.id).toFinset := by
      ext id
      rw [List.mem_toFinset, List.mem_toFinset, mem_keys_fusedTable distinct distinct']
    rw [← same, List.toFinset_card_of_nodup once, ← ids, fuse, List.length_take,
      List.length_insertionSort, List.length_map]
  listed entry member := by
    have scored := (List.mem_insertionSort fusedFirst).mp (List.mem_of_mem_take member)
    exact (mem_scoredCandidates distinct distinct' scored).2.1.row
  once := by
    have sorted := (List.perm_insertionSort fusedFirst
      (scoredCandidates lower queryText candidateLimit semantic keyword)).map
        fun entry => entry.1.id
    rw [ids_scoredCandidates distinct distinct'] at sorted
    exact (sorted.nodup_iff.mpr (fusedTable semantic keyword).nodupKeys).sublist
      ((List.take_sublist _ _).map _)
  falling := ((List.pairwise_insertionSort fusedFirst _).imp score_le_of_fusedFirst).sublist
    (List.take_sublist _ _)

/-! ## Dominance -/

namespace Candidate

/-- One row ranks no worse than the other in both lists and has as much of the question. -/
structure Dominates (lower : String → String) (queryText : String) (semantic keyword : List Hit)
    (left right : Candidate) : Prop where
  semantic : NoWorse (rankIn semantic left.id) (rankIn semantic right.id)
  keyword : NoWorse (rankIn keyword left.id) (rankIn keyword right.id)
  overlap : overlap lower queryText right.text ≤ overlap lower queryText left.text

instance (lower : String → String) (queryText : String) (semantic keyword : List Hit)
    (left right : Candidate) : Decidable (left.Dominates lower queryText semantic keyword right) :=
  decidable_of_iff
    (NoWorse (rankIn semantic left.id) (rankIn semantic right.id) ∧
      NoWorse (rankIn keyword left.id) (rankIn keyword right.id) ∧
      ProductionRag.overlap lower queryText right.text ≤
        ProductionRag.overlap lower queryText left.text)
    ⟨fun all => ⟨all.1, all.2.1, all.2.2⟩, fun all => ⟨all.semantic, all.keyword, all.overlap⟩⟩

/-- What one row gains on another, the cosines apart. -/
def lead (lower : String → String) (queryText : String) (candidateLimit : Nat)
    (maxKeywordScore : ℚ) (left right : Candidate) : ℚ :=
  1 / 4 * (left.keywordShare maxKeywordScore - right.keywordShare maxKeywordScore) +
    1 / 10 * (ProductionRag.overlap lower queryText left.text -
      ProductionRag.overlap lower queryText right.text) +
    1 / 20 * (left.rankSignal candidateLimit - right.rankSignal candidateLimit)

theorem fusedScore_le_iff {top : ℚ} {left right : Candidate} :
    right.fusedScore lower queryText candidateLimit top ≤
        left.fusedScore lower queryText candidateLimit top ↔
      3 / 5 * (right.semanticScore - left.semanticScore) ≤
        left.lead lower queryText candidateLimit top right := by
  rw [fusedScore, fusedScore, lead]
  constructor
  · intro le
    linarith
  · intro le
    linarith

theorem keywordShare_le {top : ℚ} (nonneg : 0 ≤ top) {left right : Candidate}
    (le : right.keywordScore ≤ left.keywordScore) :
    right.keywordShare top ≤ left.keywordShare top := by
  rw [keywordShare, keywordShare]
  split
  · exact div_le_div_of_nonneg_right le nonneg
  · exact le_rfl

theorem rankSignal_le {left right : Candidate}
    (semantic : rankOr candidateLimit left.semanticRank ≤
      rankOr candidateLimit right.semanticRank)
    (keyword : rankOr candidateLimit left.keywordRank ≤ rankOr candidateLimit right.keywordRank) :
    right.rankSignal candidateLimit ≤ left.rankSignal candidateLimit := by
  have reciprocal : ∀ (c : ℚ) (rank rank' : Nat), 0 ≤ c → rank ≤ rank' →
      c / (60 + rank') ≤ c / (60 + rank) := by
    intro c rank rank' nonneg le
    have positive : (0 : ℚ) < 60 + rank := by positivity
    have further : (60 : ℚ) + rank ≤ 60 + rank' := by
      have cast : (rank : ℚ) ≤ rank' := Nat.cast_le.mpr le
      linarith
    exact div_le_div_of_nonneg_left nonneg positive further
  have bySemantic := reciprocal (13 / 20) _ _ (by norm_num) semantic
  have byKeyword := reciprocal (1 / 4) _ _ (by norm_num) keyword
  rw [rankSignal, rankSignal]
  linarith

end Candidate

/-- A row that another one dominates has no higher score. -/
def ParetoConsistent (lower : String → String) (queryText : String) (candidateLimit : Nat)
    (semantic keyword : List Hit) : Prop :=
  ∀ left ∈ scoredCandidates lower queryText candidateLimit semantic keyword,
    ∀ right ∈ scoredCandidates lower queryText candidateLimit semantic keyword,
      left.1.Dominates lower queryText semantic keyword right.1 → right.2 ≤ left.2

namespace SearchLists

variable {left right : Candidate}

theorem mergedFrom (lists : SearchLists candidateLimit semantic keyword)
    (member : left ∈ fusedCandidates semantic keyword) :
    left.MergedFrom semantic keyword left.id := by
  obtain ⟨⟨id, candidate⟩, held, rfl⟩ := List.mem_map.mp member
  have merged := ProductionRag.mergedFrom lists.semantic.distinct lists.keyword.distinct held
  exact merged.own.symm ▸ merged

theorem maxKeywordScore_nonneg (lists : SearchLists candidateLimit semantic keyword) :
    0 ≤ maxKeywordScore (fusedCandidates semantic keyword) := by
  rw [maxKeywordScore]
  cases greatest : ((fusedCandidates semantic keyword).map Candidate.keywordScore).max? with
  | none => exact le_rfl
  | some score =>
      obtain ⟨candidate, member, rfl⟩ := List.mem_map.mp (List.max?_mem greatest)
      rw [(lists.mergedFrom member).keywordScore]
      exact valueIn_nonneg lists.nonneg _

/-- In keywords, words of the question and ranks a dominating row is nowhere behind. -/
theorem lead_nonneg (lists : SearchLists candidateLimit semantic keyword)
    (isLeft : left ∈ fusedCandidates semantic keyword)
    (isRight : right ∈ fusedCandidates semantic keyword)
    (dominates : left.Dominates lower queryText semantic keyword right) :
    0 ≤ left.lead lower queryText candidateLimit
      (maxKeywordScore (fusedCandidates semantic keyword)) right := by
  have fromLeft := lists.mergedFrom isLeft
  have fromRight := lists.mergedFrom isRight
  have keywordScore : right.keywordScore ≤ left.keywordScore := by
    rw [fromLeft.keywordScore, fromRight.keywordScore]
    by_cases absent : rankIn keyword right.id = none
    · rw [valueIn_of_absent absent]
      exact valueIn_nonneg lists.nonneg _
    · exact valueIn_le lists.keyword dominates.keyword absent
  have share := Candidate.keywordShare_le lists.maxKeywordScore_nonneg keywordScore
  have signal : right.rankSignal candidateLimit ≤ left.rankSignal candidateLimit := by
    apply Candidate.rankSignal_le
    · rw [fromLeft.semanticRank, fromRight.semanticRank]
      exact rankOr_le (fun _ => rankIn_bounds lists.semantic)
        (fun _ => rankIn_bounds lists.semantic) dominates.semantic
    · rw [fromLeft.keywordRank, fromRight.keywordRank]
      exact rankOr_le (fun _ => rankIn_bounds lists.keyword)
        (fun _ => rankIn_bounds lists.keyword) dominates.keyword
  have terms := dominates.overlap
  rw [Candidate.lead]
  linarith

/-- Only a negative cosine can put a row behind one that the semantic list does not have, whose
cosine counts as zero. -/
theorem pareto_iff (lists : SearchLists candidateLimit semantic keyword) :
    ParetoConsistent lower queryText candidateLimit semantic keyword ↔
      ∀ left ∈ fusedCandidates semantic keyword, ∀ right ∈ fusedCandidates semantic keyword,
        left.Dominates lower queryText semantic keyword right →
        valueIn semantic left.id < 0 → rankIn semantic right.id = none →
          3 / 5 * -valueIn semantic left.id ≤ left.lead lower queryText candidateLimit
            (maxKeywordScore (fusedCandidates semantic keyword)) right := by
  constructor
  · intro consistent left isLeft right isRight dominates _ absent
    have le := consistent _ (List.mem_map_of_mem isLeft) _ (List.mem_map_of_mem isRight) dominates
    rw [Candidate.fusedScore_le_iff, (lists.mergedFrom isLeft).semanticScore,
      (lists.mergedFrom isRight).semanticScore, valueIn_of_absent absent, zero_sub] at le
    exact le
  · intro enough entry isEntry entry' isEntry' dominates
    obtain ⟨left, isLeft, rfl⟩ := List.mem_map.mp isEntry
    obtain ⟨right, isRight, rfl⟩ := List.mem_map.mp isEntry'
    have ahead := lists.lead_nonneg isLeft isRight dominates
    change right.fusedScore _ _ _ _ ≤ left.fusedScore _ _ _ _
    rw [Candidate.fusedScore_le_iff, (lists.mergedFrom isLeft).semanticScore,
      (lists.mergedFrom isRight).semanticScore]
    by_cases absent : rankIn semantic right.id = none
    · rw [valueIn_of_absent absent, zero_sub]
      by_cases negative : valueIn semantic left.id < 0
      · exact enough left isLeft right isRight dominates negative absent
      · linarith
    · have cosine := valueIn_le lists.semantic dominates.semantic absent
      linarith

/-- Without negative cosines the missing ones are the least. -/
theorem pareto_of_nonneg (lists : SearchLists candidateLimit semantic keyword)
    (nonneg : ∀ hit ∈ semantic, 0 ≤ hit.value) :
    ParetoConsistent lower queryText candidateLimit semantic keyword := by
  rw [lists.pareto_iff]
  intro left _ right _ _ negative _
  exact absurd negative (not_lt.mpr (valueIn_nonneg nonneg left.id))

end SearchLists

/-- A search that passes its checks returns a sound fusion of what its statements return. -/
theorem searchHybrid_sound {statements : HybridStatements} {tenantId : String}
    {embedding : Embedding} {model : String} {groups : List String}
    (lists : SearchLists candidateLimit
      (statements.semantic tenantId model embedding groups candidateLimit)
      (statements.keyword tenantId queryText groups candidateLimit))
    {results : List (Candidate × ℚ)}
    (found : searchHybrid statements lower tenantId queryText embedding limit candidateLimit model
      groups = .ok results) :
    SoundFusion limit (statements.semantic tenantId model embedding groups candidateLimit)
      (statements.keyword tenantId queryText groups candidateLimit) results := by
  unfold searchHybrid at found
  split_ifs at found
  obtain rfl := Except.ok.inj found
  exact fuse_sound lists.semantic.distinct lists.keyword.distinct

/-- The fusion is sound, and it is Pareto-consistent exactly if each row of negative cosine makes
up for it before every row that it dominates and the semantic list does not have. -/
theorem hybrid_fusion_iff (lists : SearchLists candidateLimit semantic keyword)
    (lower : String → String) (queryText : String) (limit : Nat) :
    (SoundFusion limit semantic keyword
        (fuse lower queryText limit candidateLimit semantic keyword) ∧
      ParetoConsistent lower queryText candidateLimit semantic keyword) ↔
      ∀ left ∈ fusedCandidates semantic keyword, ∀ right ∈ fusedCandidates semantic keyword,
        left.Dominates lower queryText semantic keyword right →
        valueIn semantic left.id < 0 → rankIn semantic right.id = none →
          3 / 5 * -valueIn semantic left.id ≤ left.lead lower queryText candidateLimit
            (maxKeywordScore (fusedCandidates semantic keyword)) right := by
  rw [lists.pareto_iff]
  exact and_iff_right (fuse_sound lists.semantic.distinct lists.keyword.distinct)

/-- A row of a statement; all rows are pieces of one document. -/
def hitOf (id : String) (index : Nat) (score : ℚ) : Hit where
  row :=
    { text := "text", documentId := "d", index, tenantId := "t", source := "s", id, createdAt := 0
      allowedGroups := [] }
  score := some score

/-- Both rows have the keyword; only one of them has an embedding, and it points away from the
question. -/
theorem negative_cosine_falls_behind :
    ¬ ∀ (lower : String → String) (queryText : String) (limit candidateLimit : Nat)
      (semantic keyword : List Hit), SearchLists candidateLimit semantic keyword →
      SoundFusion limit semantic keyword
          (fuse lower queryText limit candidateLimit semantic keyword) ∧
        ParetoConsistent lower queryText candidateLimit semantic keyword := by
  intro claimed
  have lists : SearchLists 50 [hitOf "a" 0 (-1 / 2)] [hitOf "a" 0 1, hitOf "b" 1 1] :=
    ⟨by decide +kernel, by decide +kernel,
      ⟨by decide +kernel, by decide +kernel, by decide +kernel⟩,
      ⟨by decide +kernel, by decide +kernel, by decide +kernel⟩⟩
  have behind : ∃ left ∈ scoredCandidates id "text" 50 [hitOf "a" 0 (-1 / 2)]
        [hitOf "a" 0 1, hitOf "b" 1 1],
      ∃ right ∈ scoredCandidates id "text" 50 [hitOf "a" 0 (-1 / 2)]
        [hitOf "a" 0 1, hitOf "b" 1 1],
        left.1.Dominates id "text" [hitOf "a" 0 (-1 / 2)] [hitOf "a" 0 1, hitOf "b" 1 1] right.1 ∧
          left.2 < right.2 := by
    decide +kernel
  obtain ⟨left, isLeft, right, isRight, dominates, less⟩ := behind
  have consistent := (claimed id "text" 20 50 _ _ lists).2 left isLeft right isRight dominates
  exact absurd consistent (not_le.mpr less)

/-- The same rows, the embedding across the question. -/
theorem orthogonal_cosine_consistent :
    SoundFusion 20 [hitOf "a" 0 0] [hitOf "a" 0 1, hitOf "b" 1 1]
        (fuse id "text" 20 50 [hitOf "a" 0 0] [hitOf "a" 0 1, hitOf "b" 1 1]) ∧
      ParetoConsistent id "text" 50 [hitOf "a" 0 0] [hitOf "a" 0 1, hitOf "b" 1 1] := by
  have lists : SearchLists 50 [hitOf "a" 0 0] [hitOf "a" 0 1, hitOf "b" 1 1] :=
    ⟨by decide +kernel, by decide +kernel,
      ⟨by decide +kernel, by decide +kernel, by decide +kernel⟩,
      ⟨by decide +kernel, by decide +kernel, by decide +kernel⟩⟩
  have notNegative : ∀ candidate ∈ fusedCandidates [hitOf "a" 0 0] [hitOf "a" 0 1, hitOf "b" 1 1],
      0 ≤ valueIn [hitOf "a" 0 0] candidate.id := by
    decide +kernel
  refine (hybrid_fusion_iff lists id "text" 20).mpr ?_
  intro left isLeft right _ _ negative _
  exact absurd negative (not_lt.mpr (notNegative left isLeft))

end Fusion

end ProductionRag
