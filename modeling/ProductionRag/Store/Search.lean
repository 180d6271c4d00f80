import ProductionRag.Store.Fusion
import ProductionRag.Store.Integrity

/-!
# Searching the database

The statements of `search_similar`, `search_hybrid` and `list_chunks` join each chunk with its
document and filter before they sort and cut.  Distances, full-text matches and the order of
equal rows are the database's; an index is taken to find what a scan finds.
-/

set_option autoImplicit false

namespace ProductionRag

open Basis

/-- A row of `chunks AS c JOIN documents AS d USING (tenant_id, document_id)`. -/
structure JoinedRow where
  key : DocumentKey
  document : Document
  chunk : ChunkRow
  deriving DecidableEq

/-- The columns of the searches, under the display name of the document. -/
def JoinedRow.searchRow (row : JoinedRow) : SearchRow where
  text := row.chunk.text
  documentId := row.key.2
  index := row.chunk.index
  tenantId := row.key.1
  source := row.document.source
  page := row.chunk.page
  id := row.chunk.id
  createdAt := row.chunk.createdAt
  allowedGroups := row.document.allowedGroups

/-- What the database computes in a search. -/
structure SearchEngine where
  /-- `embedding <=> vector` -/
  distance : Embedding → Embedding → ℚ
  /-- `search_vector @@ plainto_tsquery('english', query)` -/
  matchesQuery : String → String → Bool
  /-- `ts_rank_cd(search_vector, plainto_tsquery('english', query))` -/
  rankCd : String → String → ℚ
  byDistance : OrderBy JoinedRow ℚ
  /-- `ORDER BY keyword_score DESC, c.chunk_index` -/
  byKeyword : OrderBy JoinedRow (ℚ ×ₗ Nat)

namespace Database

def joined (db : Database) : List JoinedRow :=
  db.documents.entries.flatMap fun entry =>
    ((db.chunks.find? entry.1).getD []).map fun chunk => ⟨entry.1, entry.2, chunk⟩

/-- The tenant and the access list. -/
def readable (tenantId : String) (groups : List String) (key : DocumentKey)
    (document : Document) : Bool :=
  inTenant tenantId key && document.visible groups

/-- The tenant, the status and the access list. -/
def searchable (tenantId : String) (groups : List String) (key : DocumentKey)
    (document : Document) : Bool :=
  inTenant tenantId key && document.isReady && document.visible groups

def searchableRows (db : Database) (tenantId : String) (groups : List String) : List JoinedRow :=
  db.joined.filter fun row => searchable tenantId groups row.key row.document

section Statements

variable (db : Database) (engine : SearchEngine)

/-- The rows of a search by meaning, nearest first. -/
def nearestRows (tenantId model : String) (embedding : Embedding) (groups : List String)
    (limit : Nat) : List JoinedRow :=
  engine.byDistance.top (fun row => engine.distance row.chunk.embedding embedding) limit
    ((db.searchableRows tenantId groups).filter fun row => row.chunk.embeddingModel == model)

/-- The rows of a search by keywords, best first. -/
def keywordRows (tenantId queryText : String) (groups : List String) (limit : Nat) :
    List JoinedRow :=
  engine.byKeyword.top
    (fun row => toLex (-engine.rankCd row.chunk.text queryText, row.chunk.index)) limit
    ((db.searchableRows tenantId groups).filter fun row =>
      engine.matchesQuery row.chunk.text queryText)

def statements : HybridStatements where
  semantic tenantId model embedding groups limit :=
    (db.nearestRows engine tenantId model embedding groups limit).map fun row =>
      ⟨row.searchRow, some (1 - engine.distance row.chunk.embedding embedding)⟩
  keyword tenantId queryText groups limit :=
    (db.keywordRows engine tenantId queryText groups limit).map fun row =>
      ⟨row.searchRow, some (engine.rankCd row.chunk.text queryText)⟩

/-- `search_similar` -/
def searchSimilar (tenantId : String) (embedding : Embedding) (limit : Nat) (model : String)
    (groups : List String) : Except PyError (List (SearchRow × ℚ)) :=
  if strip tenantId = "" then .error (.valueError "tenant_id is required")
  else if limit = 0 then .error (.valueError "limit must be positive")
  else if embedding.length ≠ dimensions ∨ FloatValue.nonfinite ∈ embedding then
    .error (.valueError "query embedding must be a finite 384-dimension vector")
  else
    .ok ((db.nearestRows engine tenantId model embedding groups limit).map fun row =>
      (row.searchRow, 1 - engine.distance row.chunk.embedding embedding))

/-- `ORDER BY document_id, chunk_index` -/
def chunkOrder (row : JoinedRow) : String ×ₗ Nat := toLex (row.key.2, row.chunk.index)

/-- `list_chunks`, which does not look at the status. -/
def listChunks (tenantId : String) (documentId : Option String) (groups : List String) :
    Except PyError (List SearchRow) :=
  if strip tenantId = "" then .error (.valueError "tenant_id is required")
  else
    let rows := db.joined.filter fun row =>
      readable tenantId groups row.key row.document &&
        documentId.all fun documentId => row.key.2 == documentId
    .ok ((rows.insertionSort fun left right => chunkOrder left ≤ chunkOrder right).map
      JoinedRow.searchRow)

end Statements

/-! ## What a search finds -/

/-- A chunk of a current document that the caller may read. -/
structure Found (db : Database) (tenantId : String) (groups : List String) (row : JoinedRow) :
    Prop where
  stored : db.documents.find? row.key = some row.document
  chunk : row.chunk ∈ (db.chunks.find? row.key).getD []
  tenant : row.key.1 = tenantId
  ready : row.document.isReady = true
  visible : row.document.visible groups = true

theorem mem_joined {db : Database} {row : JoinedRow} :
    row ∈ db.joined ↔
      db.documents.find? row.key = some row.document ∧
        row.chunk ∈ (db.chunks.find? row.key).getD [] := by
  simp only [joined, List.mem_flatMap, List.mem_map]
  constructor
  · rintro ⟨entry, stored, chunk, member, rfl⟩
    exact ⟨Table.find?_eq_some_iff.mpr stored, member⟩
  · rintro ⟨stored, member⟩
    exact ⟨(row.key, row.document), Table.find?_eq_some_iff.mp stored, row.chunk, member, rfl⟩

theorem inTenant_iff {tenantId : String} {key : DocumentKey} :
    inTenant tenantId key = true ↔ key.1 = tenantId ∧ strip tenantId = tenantId := by
  rw [inTenant, Bool.and_eq_true, beq_iff_eq, beq_iff_eq]
  constructor
  · rintro ⟨rfl, trimmed⟩
    exact ⟨rfl, trimmed.symm⟩
  · rintro ⟨rfl, trimmed⟩
    exact ⟨rfl, trimmed.symm⟩

theorem found_of_mem {db : Database} {tenantId : String} {groups : List String}
    {row : JoinedRow} (member : row ∈ db.searchableRows tenantId groups) :
    db.Found tenantId groups row := by
  obtain ⟨inJoin, passes⟩ := List.mem_filter.mp member
  simp only [searchable, Bool.and_eq_true] at passes
  obtain ⟨stored, chunk⟩ := mem_joined.mp inJoin
  exact ⟨stored, chunk, (inTenant_iff.mp passes.1.1).1, passes.1.2, passes.2⟩

theorem mem_searchableRows {db : Database} {tenantId : String} {groups : List String}
    {row : JoinedRow} (trimmed : strip tenantId = tenantId) :
    row ∈ db.searchableRows tenantId groups ↔ db.Found tenantId groups row := by
  refine ⟨found_of_mem, fun found => List.mem_filter.mpr ⟨?_, ?_⟩⟩
  · exact mem_joined.mpr ⟨found.stored, found.chunk⟩
  · have own : inTenant tenantId row.key = true := inTenant_iff.mpr ⟨found.tenant, trimmed⟩
    rw [searchable, own, found.ready, found.visible]
    rfl

/-- Whatever the ids of the rows, a candidate of the fusion is a row of a list, under its id. -/
theorem mem_fusedTable {semantic keyword : List Hit} {id : String} {candidate : Candidate}
    (held : (id, candidate) ∈ (fusedTable semantic keyword).entries) :
    candidate.id = id ∧ ∃ hit ∈ semantic ++ keyword, hit.row = candidate.toSearchRow := by
  let Listed := fun (id : String) (candidate : Candidate) =>
    candidate.id = id ∧ ∃ hit ∈ semantic ++ keyword, hit.row = candidate.toSearchRow
  have first : ∀ id, ∀ candidate ∈ (semanticTable semantic).find? id, Listed id candidate := by
    refine Table.forall_foldl_set (fun entry : Hit × Nat => entry.1.id)
      (fun _ => Candidate.ofSemantic) ?_ (fun _ _ wrong => by cases wrong)
    intro entry inList _ _
    exact ⟨rfl, entry.1, List.mem_append_left _ (List.fst_mem_of_mem_zipIdx inList), rfl⟩
  have second : ∀ id, ∀ candidate ∈ (fusedTable semantic keyword).find? id,
      Listed id candidate := by
    refine Table.forall_foldl_set (fun entry : Hit × Nat => entry.1.id)
      Candidate.withKeyword ?_ first
    intro entry inList held isListed
    cases held with
    | none => exact ⟨rfl, entry.1, List.mem_append_right _ (List.fst_mem_of_mem_zipIdx inList), rfl⟩
    | some candidate => exact isListed candidate rfl
  exact second id candidate (Table.find?_eq_some_iff.mpr held)

section Fuse

variable {lower : String → String} {queryText : String} {limit candidateLimit : Nat}
  {semantic keyword : List Hit}

theorem row_of_mem_fuse {entry : Candidate × ℚ}
    (member : entry ∈ fuse lower queryText limit candidateLimit semantic keyword) :
    ∃ hit ∈ semantic ++ keyword, hit.row = entry.1.toSearchRow := by
  have scored := (List.mem_insertionSort fusedFirst).mp (List.mem_of_mem_take member)
  obtain ⟨candidate, inTable, rfl⟩ := List.mem_map.mp scored
  obtain ⟨⟨id, candidate⟩, held, rfl⟩ := List.mem_map.mp inTable
  exact (mem_fusedTable held).2

theorem nodup_ids_fuse :
    ((fuse lower queryText limit candidateLimit semantic keyword).map fun entry =>
      entry.1.id).Nodup := by
  have ids : (scoredCandidates lower queryText candidateLimit semantic keyword).map
      (fun entry => entry.1.id) = (fusedTable semantic keyword).keys := by
    rw [scoredCandidates, List.map_map, fusedCandidates, List.map_map, Table.keys]
    apply List.map_congr_left
    intro entry held
    exact (mem_fusedTable held).1
  have sorted := (List.perm_insertionSort fusedFirst
    (scoredCandidates lower queryText candidateLimit semantic keyword)).map fun entry => entry.1.id
  rw [ids] at sorted
  exact (sorted.nodup_iff.mpr (fusedTable semantic keyword).nodupKeys).sublist
    ((List.take_sublist _ _).map _)

end Fuse

/-- What the hybrid search returns it found. -/
theorem found_of_searchHybrid {db : Database} {engine : SearchEngine} {lower : String → String}
    {tenantId queryText model : String} {embedding : Embedding} {limit candidateLimit : Nat}
    {groups : List String} {results : List (Candidate × ℚ)}
    (search : searchHybrid (db.statements engine) lower tenantId queryText embedding limit
      candidateLimit model groups = .ok results)
    {entry : Candidate × ℚ} (member : entry ∈ results) :
    ∃ row, db.Found tenantId groups row ∧ entry.1.toSearchRow = row.searchRow := by
  unfold searchHybrid at search
  split_ifs at search
  obtain rfl := Except.ok.inj search
  obtain ⟨hit, inLists, same⟩ := row_of_mem_fuse member
  rcases List.mem_append.mp inLists with inSemantic | inKeyword
  · obtain ⟨row, nearest, rfl⟩ := List.mem_map.mp inSemantic
    have inRows := engine.byDistance.mem_of_mem_top _ _ _ nearest
    exact ⟨row, found_of_mem (List.mem_of_mem_filter inRows), same.symm⟩
  · obtain ⟨row, best, rfl⟩ := List.mem_map.mp inKeyword
    have inRows := engine.byKeyword.mem_of_mem_top _ _ _ best
    exact ⟨row, found_of_mem (List.mem_of_mem_filter inRows), same.symm⟩

/-! ## Chunk numbers -/

theorem nodup_insertChunk {rows : List ChunkRow} {row : ChunkRow}
    (numbered : (rows.map (·.index)).Nodup) :
    ((insertChunk rows row).map (·.index)).Nodup := by
  rw [insertChunk]
  split
  · exact numbered
  · rename_i fresh
    rw [List.map_append, List.nodup_append]
    refine ⟨numbered, List.nodup_singleton _, ?_⟩
    intro index inRows other isRow same
    obtain ⟨stored, member, rfl⟩ := List.mem_map.mp inRows
    rw [List.map_singleton, List.mem_singleton] at isRow
    refine fresh (List.any_eq_true.mpr ⟨stored, member, ?_⟩)
    exact beq_iff_eq.mpr (same.trans isRow)

theorem nodup_foldl_insertChunk (new : List ChunkRow) {rows : List ChunkRow}
    (numbered : (rows.map (·.index)).Nodup) :
    ((new.foldl insertChunk rows).map (·.index)).Nodup := by
  induction new generalizing rows with
  | nil => exact numbered
  | cons row rest ih => exact ih (nodup_insertChunk numbered)

/-- The chunks of a document are numbered apart. -/
def Numbered (db : Database) : Prop :=
  ∀ key, (((db.chunks.find? key).getD []).map (·.index)).Nodup

/-- What a transaction does to the chunks. -/
theorem step_chunks (db : Database) (plan : VersionPlan) (delay : Nat) (call : StoreCall) :
    (db.step plan delay call).2.chunks = db.chunks ∨
      (∃ key, (db.step plan delay call).2.chunks = db.chunks.erase key) ∨
      ∃ key, ∃ new : List ChunkRow, (db.step plan delay call).2.chunks =
        db.chunks.set key (new.foldl insertChunk ((db.chunks.find? key).getD [])) := by
  cases call with
  | persist call =>
      simp only [step, settle]
      cases out : db.persistCall plan (db.nextNow delay) call with
      | error e => exact Or.inl rfl
      | ok pair =>
          obtain ⟨result, after⟩ := pair
          cases persistCall_persisted out with
          | current => exact Or.inl rfl
          | promoted => exact Or.inl rfl
          | inserted => exact Or.inr (Or.inr ⟨_, _, rfl⟩)
  | markChecked tenantId documentId =>
      left
      simp only [step, settle, markChecked, setTenant]
      by_cases blank : strip tenantId = ""
      · rw [if_pos blank]
        rfl
      · rw [if_neg blank]
        rfl
  | updateDocument tenantId documentId groups allowedGroups displayName =>
      left
      simp only [step, settle]
      cases out : db.updateDocument tenantId documentId groups allowedGroups displayName
          (db.nextNow delay) with
      | error e => rfl
      | ok pair =>
          obtain ⟨_, after⟩ := pair
          rcases updateDocument_ok out with rfl | ⟨found, rfl⟩ <;> rfl
  | deleteDocument tenantId documentId groups =>
      simp only [step, settle]
      cases out : db.deleteDocument tenantId documentId groups (db.nextNow delay) with
      | error e => exact Or.inl rfl
      | ok pair =>
          obtain ⟨_, after⟩ := pair
          rcases deleteDocument_ok out with rfl | ⟨row, _, _, rfl⟩
          · exact Or.inl rfl
          · exact Or.inr (Or.inl ⟨_, rfl⟩)
  | currentVersion tenantId source groups => exact Or.inl rfl
  | getDocument tenantId documentId groups => exact Or.inl rfl
  | listDocuments tenantId groups includeSuperseded => exact Or.inl rfl

theorem Reachable.numbered {legal : PersistCall → Prop} {db : Database}
    (reached : Reachable legal db) : db.Numbered := by
  refine reached.induct Numbered (fun _ => List.nodup_nil) ?_
  intro db plan delay call numbered _ key
  rcases step_chunks db plan delay call with same | ⟨erased, same⟩ | ⟨own, new, same⟩
  · rw [same]
    exact numbered key
  · rw [same, Table.find?_erase]
    split
    · exact List.nodup_nil
    · exact numbered key
  · rw [same, Table.find?_set]
    split
    · exact nodup_foldl_insertChunk new (numbered own)
    · exact numbered key

/-- Two chunks that a search finds under one document and number are the same. -/
theorem Numbered.found_unique {db : Database} (numbered : db.Numbered) {tenantId : String}
    {groups : List String} {row other : JoinedRow} (found : db.Found tenantId groups row)
    (found' : db.Found tenantId groups other) (document : row.key.2 = other.key.2)
    (index : row.chunk.index = other.chunk.index) : row = other := by
  have key : row.key = other.key := Prod.ext (found.tenant.trans found'.tenant.symm) document
  have stored := found.stored
  have chunk := found'.chunk
  rw [key, found'.stored] at stored
  rw [← key] at chunk
  have same := List.inj_on_of_nodup_map (numbered row.key) found.chunk chunk index
  cases row
  cases other
  simp only [JoinedRow.mk.injEq]
  exact ⟨key, (Option.some.inj stored).symm, same⟩

/-! ## Documents that a search does not find -/

/-- The databases agree on the documents that satisfy `p`, and on their chunks. -/
structure AgreeOn (p : DocumentKey → Document → Bool) (db db' : Database) : Prop where
  documents : db.documents.filter p = db'.documents.filter p
  chunks : ∀ key document, (key, document) ∈ db.documents.entries → p key document = true →
    db.chunks.find? key = db'.chunks.find? key

/-- A condition on the document can go before the join. -/
theorem filter_joined (db : Database) (p : DocumentKey → Document → Bool) :
    (db.joined.filter fun row => p row.key row.document) =
      (db.documents.filter p).entries.flatMap fun entry =>
        ((db.chunks.find? entry.1).getD []).map fun chunk => ⟨entry.1, entry.2, chunk⟩ := by
  rw [joined, List.filter_flatMap, Table.entries_filter]
  induction db.documents.entries with
  | nil => rfl
  | cons entry rest ih =>
      rw [List.flatMap_cons, ih, List.filter_cons, List.filter_map]
      cases passes : p entry.1 entry.2 with
      | true =>
          rw [if_pos rfl, List.flatMap_cons]
          congr 1
          refine congrArg _ (List.filter_eq_self.mpr ?_)
          exact fun chunk _ => passes
      | false =>
          rw [if_neg Bool.false_ne_true]
          have nothing : ((db.chunks.find? entry.1).getD []).filter
              ((fun row => p row.key row.document) ∘
                fun chunk => (⟨entry.1, entry.2, chunk⟩ : JoinedRow)) = [] := by
            refine List.filter_eq_nil_iff.mpr fun chunk _ => ?_
            exact (Bool.not_eq_true _).mpr passes
          rw [nothing, List.map_nil, List.nil_append]

section Agree

variable {db db' : Database} {tenantId : String} {groups : List String}

theorem AgreeOn.filter_joined_eq {p q : DocumentKey → Document → Bool} (agree : AgreeOn p db db')
    (inside : ∀ key document, q key document = true → p key document = true) :
    (db.joined.filter fun row => q row.key row.document) =
      db'.joined.filter fun row => q row.key row.document := by
  rw [filter_joined, filter_joined]
  have rows : db.documents.filter q = db'.documents.filter q := by
    have narrow := congrArg (Table.filter · q) agree.documents
    rwa [Table.filter_filter inside, Table.filter_filter inside] at narrow
  rw [← rows]
  refine List.flatMap_congr fun entry member => ?_
  obtain ⟨stored, passes⟩ := Table.mem_entries_filter.mp member
  rw [agree.chunks entry.1 entry.2 stored (inside _ _ passes)]

theorem searchableRows_eq (agree : AgreeOn (searchable tenantId groups) db db') :
    db.searchableRows tenantId groups = db'.searchableRows tenantId groups :=
  agree.filter_joined_eq fun _ _ => id

theorem searchSimilar_eq (agree : AgreeOn (searchable tenantId groups) db db')
    (engine : SearchEngine) (embedding : Embedding) (limit : Nat) (model : String) :
    db.searchSimilar engine tenantId embedding limit model groups =
      db'.searchSimilar engine tenantId embedding limit model groups := by
  rw [searchSimilar, searchSimilar, nearestRows, nearestRows, searchableRows_eq agree]

theorem searchHybrid_eq (agree : AgreeOn (searchable tenantId groups) db db')
    (engine : SearchEngine) (lower : String → String) (queryText : String)
    (embedding : Embedding) (limit candidateLimit : Nat) (model : String) :
    searchHybrid (db.statements engine) lower tenantId queryText embedding limit candidateLimit
        model groups =
      searchHybrid (db'.statements engine) lower tenantId queryText embedding limit
        candidateLimit model groups := by
  have rows := searchableRows_eq agree
  simp only [searchHybrid, statements, nearestRows, keywordRows, rows]

theorem listChunks_eq (agree : AgreeOn (readable tenantId groups) db db')
    (documentId : Option String) :
    db.listChunks tenantId documentId groups = db'.listChunks tenantId documentId groups := by
  let wanted := fun (key : DocumentKey) (document : Document) =>
    readable tenantId groups key document && documentId.all fun documentId => key.2 == documentId
  have rows := @AgreeOn.filter_joined_eq db db' _ wanted agree fun key document holds =>
    (Bool.and_eq_true_iff.mp holds).1
  simp only [wanted] at rows
  rw [listChunks, listChunks, rows]

end Agree

end Database

end ProductionRag
