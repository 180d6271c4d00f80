import ProductionRag.Basis.Table
import ProductionRag.Rag

/-!
# Documents, versions and who sees them

The columns of one stored version are the same in both stores.  A `Document` is a
`Version` with its three bookkeeping timestamps; rows are keyed by tenant and
`document_id`, and the versions of one logical document share its source.
-/

set_option autoImplicit false

namespace ProductionRag

open Basis

inductive Status where
  | ready
  | superseded
  deriving DecidableEq, Repr

/-- `SOURCE_SYSTEM_RE.fullmatch` -/
def sourceSystemRe (name : String) : Bool :=
  decide (1 ≤ name.length ∧ name.length ≤ 32) &&
    name.toList.all fun c =>
      ('a' ≤ c && c ≤ 'z') || ('0' ≤ c && c ≤ '9') || c == '_' || c == '-'

/-- A source system as `_source_fields` lets it through. -/
structure SourceSystem where
  name : String
  valid : sourceSystemRe name = true
  deriving DecidableEq

def SourceSystem.upload : SourceSystem := ⟨"upload", by decide⟩

structure SourceRef where
  system : SourceSystem := .upload
  id : String := ""
  version : Option String := none
  modifiedAt : Option Time := none
  deriving DecidableEq

/-- The identity `_ingest_document` hands to `ingest_segments`. -/
def SourceRef.identity (source : SourceRef) : String := source.system.name ++ "/" ++ source.id

structure Version where
  documentId : String
  source : String
  sourceSystem : String
  sourceId : String
  version : Nat
  status : Status
  contentType : String
  contentSha256 : String
  chunkCount : Nat
  allowedGroups : List String
  sourceVersion : Option String
  sourceModifiedAt : Option Time
  deriving DecidableEq, Repr

structure Document extends Version where
  lastCheckedAt : Time
  createdAt : Time
  updatedAt : Time
  deriving DecidableEq, Repr

/-- Freshness: only `last_checked_at` moves. -/
def Document.checkedAt (now : Time) (document : Document) : Document :=
  { document with lastCheckedAt := now }

@[simp] theorem Document.checkedAt_toVersion (now : Time) (document : Document) :
    (document.checkedAt now).toVersion = document.toVersion := rfl

/-- Tenant and `document_id`. -/
abbrev DocumentKey := String × String

abbrev Documents := Table DocumentKey Document

structure PersistResult where
  documentId : String
  chunksWritten : Nat
  alreadyExisted : Bool
  version : Nat := 1
  superseded : List String := []
  deriving DecidableEq, Repr

/-- What versions share: the tenant and where the document comes from. -/
structure LogicalDocument where
  tenantId : String
  sourceSystem : String
  sourceId : String
  deriving DecidableEq, Repr

def SourceRef.logical (source : SourceRef) (tenantId : String) : LogicalDocument :=
  ⟨tenantId, source.system.name, source.id⟩

/-! ## Access lists -/

/-- An access list lets a caller in when it is empty or shares a group with them. -/
def groupsMeet (allowedGroups groups : List String) : Bool :=
  allowedGroups.isEmpty || allowedGroups.any fun group => groups.contains group

def Version.visible (version : Version) (groups : List String) : Bool :=
  groupsMeet version.allowedGroups groups

def Version.isReady (version : Version) : Bool := decide (version.status = .ready)

/-- The row belongs to the logical document. -/
def Version.belongsTo (version : Version) (logical : LogicalDocument) (key : DocumentKey) :
    Bool :=
  key.1 == logical.tenantId && version.sourceSystem == logical.sourceSystem &&
    version.sourceId == logical.sourceId

/-- The row is a version of the logical document that the caller may see. -/
def Version.versionOf (logical : LogicalDocument) (groups : List String) (key : DocumentKey)
    (version : Version) : Bool :=
  version.belongsTo logical key && version.visible groups

/-- A sibling is any visible version other than the one being persisted. -/
def Version.siblingOf (logical : LogicalDocument) (groups : List String) (documentId : String)
    (key : DocumentKey) (version : Version) : Bool :=
  version.versionOf logical groups key && version.documentId != documentId

@[simp] theorem groupsMeet_nil (groups : List String) : groupsMeet [] groups = true := rfl

@[simp] theorem Version.isReady_iff (version : Version) :
    version.isReady = true ↔ version.status = .ready := by
  simp only [isReady, decide_eq_true_eq]

theorem Version.belongsTo_iff {version : Version} {logical : LogicalDocument}
    {key : DocumentKey} :
    version.belongsTo logical key = true ↔
      key.1 = logical.tenantId ∧ version.sourceSystem = logical.sourceSystem ∧
        version.sourceId = logical.sourceId := by
  simp only [belongsTo, Bool.and_eq_true, beq_iff_eq, and_assoc]

theorem Version.versionOf_iff {logical : LogicalDocument} {groups : List String}
    {key : DocumentKey} {version : Version} :
    version.versionOf logical groups key = true ↔
      version.belongsTo logical key = true ∧ version.visible groups = true := by
  simp only [versionOf, Bool.and_eq_true]

theorem Version.siblingOf_iff {logical : LogicalDocument} {groups : List String}
    {documentId : String} {key : DocumentKey} {version : Version} :
    version.siblingOf logical groups documentId key = true ↔
      version.versionOf logical groups key = true ∧ version.documentId ≠ documentId := by
  simp only [siblingOf, Bool.and_eq_true, bne_iff_ne, ne_eq]

/-! ## Identity of a source -/

/-- A source system holds no slash, so the identity determines system and id. -/
theorem SourceRef.identity_injective {left right : SourceRef}
    (same : left.identity = right.identity) :
    left.system.name = right.system.name ∧ left.id = right.id := by
  have noSlash : ∀ system : SourceSystem, ∀ c ∈ system.name.toList, c ≠ '/' := by
    intro system c member eq
    have valid := system.valid
    simp only [sourceSystemRe, Bool.and_eq_true, List.all_eq_true] at valid
    have allowed := valid.2 c member
    rw [eq] at allowed
    revert allowed
    decide
  have cut : ∀ (system : SourceSystem) (rest : List Char),
      (system.name.toList ++ "/".toList ++ rest).takeWhile (fun c => decide (c ≠ '/')) =
        system.name.toList := by
    intro system rest
    rw [List.append_assoc, List.takeWhile_append_of_pos]
    · simp
    · intro c member
      simpa using noSlash system c member
  have lists := congrArg String.toList same
  simp only [identity, String.toList_append] at lists
  have names : left.system.name.toList = right.system.name.toList := by
    rw [← cut left.system left.id.toList, ← cut right.system right.id.toList, lists]
  refine ⟨String.toList_injective names, ?_⟩
  rw [names, List.append_assoc, List.append_assoc] at lists
  have ids := List.append_cancel_left (List.append_cancel_left lists)
  exact String.toList_injective ids

theorem SourceRef.identity_ne_empty (source : SourceRef) : source.identity ≠ "" := by
  intro same
  have lists := congrArg String.toList same
  simp [identity, String.toList_append] at lists

/-- The `document_id` that `ingest_segments` gives content of a logical document. -/
def SourceRef.documentId (hash : Sha256) (source : SourceRef) (digest : String) : String :=
  hash.hexdigest24 (source.identity ++ "\x00" ++ digest)

theorem documentIdOf_identity (hash : Sha256) (source : SourceRef) (digest : String) :
    documentIdOf hash (some source.identity) digest = source.documentId hash digest := by
  simp only [documentIdOf, source.identity_ne_empty, if_false, SourceRef.documentId]

theorem SourceRef.documentId_injective (hash : Sha256) {left right : SourceRef}
    {leftDigest rightDigest : String}
    (leftHex : ∀ c ∈ leftDigest.toList, c ∈ hexDigits)
    (rightHex : ∀ c ∈ rightDigest.toList, c ∈ hexDigits)
    (same : left.documentId hash leftDigest = right.documentId hash rightDigest) :
    (left.system.name = right.system.name ∧ left.id = right.id) ∧ leftDigest = rightDigest := by
  have texts := hash.hexdigest24_injective same
  obtain ⟨identities, digests⟩ := identity_digest_injective leftHex rightHex texts
  exact ⟨identity_injective identities, digests⟩

end ProductionRag
