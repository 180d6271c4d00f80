import ProductionRag.Store.Calls

/-!
# The history of logical documents

What both stores are for, without timestamps: the stored versions with their
contents, and what an upload, a patch and a deletion do to them.  An upload is
described by the request and by two choices the stores make differently: the
access list it settles on, and what a repeated upload does to the stored change
marker.
-/

set_option autoImplicit false

namespace ProductionRag

open Basis

abbrev Versions := Table DocumentKey Version

/-- Stored rows without their timestamps. -/
def Documents.versions (documents : Documents) : Versions :=
  documents.mapValues fun _ document => document.toVersion

/-- A repeated upload may move the stored change marker. -/
def Version.marked (marker : Option String → Option String) (version : Version) : Version :=
  { version with sourceVersion := marker version.sourceVersion }

structure History (C : Type) where
  documents : Versions
  contents : Table DocumentKey C

structure UploadRequest (C : Type) where
  logical : LogicalDocument
  documentId : String
  filename : String
  contentType : String
  contentSha256 : String
  chunkCount : Nat
  groups : List String
  sourceVersion : Option String
  sourceModifiedAt : Option Time
  content : C

namespace UploadRequest

variable {C : Type} (request : UploadRequest C)

def key : DocumentKey := (request.logical.tenantId, request.documentId)

def siblingOf (key : DocumentKey) (version : Version) : Bool :=
  version.siblingOf request.logical request.groups request.documentId key

/-- The visible siblings that are current give way to the upload. -/
def supersedes (key : DocumentKey) (version : Version) : Bool :=
  request.siblingOf key version && version.isReady

def superseded (key : DocumentKey) (version : Version) : Version :=
  if request.supersedes key version then { version with status := .superseded } else version

/-- A stored version brought back as the current one. -/
def reinstated (marker : Option String → Option String) (number : Nat) (version : Version) :
    Version :=
  { version with
    status := .ready, version := number, source := request.filename
    sourceVersion := marker version.sourceVersion }

def created (allowedGroups : List String) (number : Nat) : Version :=
  { documentId := request.documentId, source := request.filename,
    sourceSystem := request.logical.sourceSystem, sourceId := request.logical.sourceId,
    version := number, status := .ready, contentType := request.contentType,
    contentSha256 := request.contentSha256, chunkCount := request.chunkCount, allowedGroups,
    sourceVersion := request.sourceVersion, sourceModifiedAt := request.sourceModifiedAt }

end UploadRequest

/-- The current versions a caller sees of a logical document, oldest first. -/
def Versions.current (versions : Versions) (logical : LogicalDocument) (groups : List String) :
    List Version :=
  versions.select fun key version => version.versionOf logical groups key && version.isReady

theorem Versions.mem_current {versions : Versions} {logical : LogicalDocument}
    {groups : List String} {version : Version} :
    version ∈ versions.current logical groups ↔
      ∃ key, (key, version) ∈ versions.entries ∧ version.versionOf logical groups key = true ∧
        version.status = .ready := by
  simp only [Versions.current, Table.mem_select, Bool.and_eq_true, Version.isReady_iff]

/-- One past the largest number among the visible siblings. -/
def UploadRequest.number {C : Type} (request : UploadRequest C) (versions : Versions) : Nat :=
  ((versions.select request.siblingOf).map (·.version)).foldr max 0 + 1

/-- The ids of the siblings that give way, in table order. -/
def UploadRequest.supersededIds {C : Type} (request : UploadRequest C) (versions : Versions) :
    List String :=
  (versions.select request.supersedes).map (·.documentId)

namespace UploadRequest

variable {C : Type} (request : UploadRequest C)

theorem siblingOf_own {version : Version} (own : version.documentId = request.documentId)
    (key : DocumentKey) : request.siblingOf key version = false := by
  simp [siblingOf, Version.siblingOf, own]

theorem number_set {versions : Versions} (version : Version)
    (own : version.documentId = request.documentId)
    (fresh : versions.find? request.key = none) :
    request.number (versions.set request.key version) = request.number versions := by
  rw [number, Table.select_set_of_not fresh (request.siblingOf_own own request.key), number]

theorem supersededIds_set {versions : Versions} (version : Version)
    (own : version.documentId = request.documentId)
    (fresh : versions.find? request.key = none) :
    request.supersededIds (versions.set request.key version) =
      request.supersededIds versions := by
  have outside : request.supersedes request.key version = false := by
    rw [supersedes, request.siblingOf_own own, Bool.false_and]
  rw [supersededIds, Table.select_set_of_not fresh outside, supersededIds]

/-- Numbers and superseded ids do not depend on the stored change markers. -/
theorem number_marked (versions : Versions) (key : DocumentKey)
    (marker : Option String → Option String) :
    request.number (versions.modify key (Version.marked marker)) = request.number versions := by
  simp only [number, Table.modify]
  congr 2
  apply Table.map_select_mapValues
  · intro other version
    split <;> rfl
  · intro other version
    split <;> rfl

theorem supersededIds_marked (versions : Versions) (key : DocumentKey)
    (marker : Option String → Option String) :
    request.supersededIds (versions.modify key (Version.marked marker)) =
      request.supersededIds versions := by
  simp only [supersededIds, Table.modify]
  apply Table.map_select_mapValues
  · intro other version
    split <;> rfl
  · intro other version
    split <;> rfl

theorem superseded_marked (key : DocumentKey) (marker : Option String → Option String)
    (version : Version) :
    request.superseded key (version.marked marker) =
      (request.superseded key version).marked marker := by
  have same : request.supersedes key (version.marked marker) = request.supersedes key version :=
    rfl
  simp only [superseded, same]
  split <;> rfl

end UploadRequest

namespace History

variable {C : Type}

/-- Accepting an upload.  `marker` is what a repeated upload does to the stored
change marker, `allowedGroups` the access list settled for a new version. -/
def upload (history : History C) (request : UploadRequest C)
    (marker : Option String → Option String) (allowedGroups : List String) :
    PersistResult × History C :=
  let number := request.number history.documents
  let superseded := request.supersededIds history.documents
  let documents := history.documents.mapValues request.superseded
  match history.documents.find? request.key with
  | some existing =>
    if existing.isReady then
      ({ documentId := request.documentId, chunksWritten := 0, alreadyExisted := true,
         version := existing.version },
        { history with
          documents := history.documents.modify request.key (Version.marked marker) })
    else
      ({ documentId := request.documentId, chunksWritten := 0, alreadyExisted := true,
         version := number, superseded },
        { history with
          documents := documents.modify request.key (request.reinstated marker number) })
  | none =>
    ({ documentId := request.documentId, chunksWritten := request.chunkCount,
       alreadyExisted := false, version := number, superseded },
      { documents := documents.set request.key (request.created allowedGroups number),
        contents := history.contents.set request.key request.content })

/-- The patch of one version: a field that is not sent stays. -/
def patched (allowedGroups : Option (List String)) (displayName : Option String)
    (version : Version) : Version :=
  { version with
    allowedGroups := allowedGroups.getD version.allowedGroups
    source := displayName.getD version.source }

def patch (history : History C) (logical : LogicalDocument) (groups : List String)
    (allowedGroups : Option (List String)) (displayName : Option String) : History C :=
  { history with
    documents := history.documents.mapValues fun key version =>
      if version.versionOf logical groups key then patched allowedGroups displayName version
      else version }

def delete (history : History C) (key : DocumentKey) : History C :=
  ⟨history.documents.erase key, history.contents.erase key⟩

end History

/-! ## What an upload does to each row -/

section Upload

variable {C : Type} (history : History C) (request : UploadRequest C)
  (marker : Option String → Option String) (allowedGroups : List String)

/-- The versions after the upload. -/
def History.uploaded : Versions :=
  (history.upload request marker allowedGroups).2.documents

theorem UploadRequest.superseded_key (version : Version)
    (own : version.documentId = request.documentId) (key : DocumentKey) :
    request.superseded key version = version := by
  simp [superseded, supersedes, siblingOf, Version.siblingOf, own]

theorem History.uploaded_ready {existing : Version}
    (found : history.documents.find? request.key = some existing)
    (ready : existing.status = .ready) (key : DocumentKey) :
    (history.uploaded request marker allowedGroups).find? key =
      if key = request.key then some (existing.marked marker)
      else history.documents.find? key := by
  have isReady : existing.isReady = true := by simp [ready]
  simp only [uploaded, upload, found, isReady, if_true]
  by_cases same : key = request.key
  · subst same
    rw [Table.find?_modify_self, found, if_pos rfl, Option.map_some]
  · rw [Table.find?_modify_ne _ _ same, if_neg same]

theorem History.uploaded_reinstated {existing : Version}
    (found : history.documents.find? request.key = some existing)
    (superseded : existing.status = .superseded)
    (own : existing.documentId = request.documentId) (key : DocumentKey) :
    (history.uploaded request marker allowedGroups).find? key =
      if key = request.key then
        some (request.reinstated marker (request.number history.documents) existing)
      else (history.documents.find? key).map (request.superseded key) := by
  have notReady : existing.isReady = false := by simp [Version.isReady, superseded]
  simp only [uploaded, upload, found, notReady, Bool.false_eq_true, if_false]
  by_cases same : key = request.key
  · subst same
    rw [Table.find?_modify_self, Table.find?_mapValues, found, if_pos rfl, Option.map_some,
      Option.map_some, request.superseded_key existing own]
  · rw [Table.find?_modify_ne _ _ same, Table.find?_mapValues, if_neg same]

theorem History.uploaded_created (fresh : history.documents.find? request.key = none)
    (key : DocumentKey) :
    (history.uploaded request marker allowedGroups).find? key =
      if key = request.key then
        some (request.created allowedGroups (request.number history.documents))
      else (history.documents.find? key).map (request.superseded key) := by
  simp only [uploaded, upload, fresh]
  rw [Table.find?_set, Table.find?_mapValues]

/-- The stored row is found ready: nothing but its change marker is written. -/
def UploadRequest.alreadyReady (versions : Versions) : Bool :=
  (versions.find? request.key).any fun existing => existing.isReady

/-- The row under the upload's own key afterwards. -/
def UploadRequest.ownRow (versions : Versions) : Version :=
  match versions.find? request.key with
  | some existing =>
    if existing.isReady then existing.marked marker
    else request.reinstated marker (request.number versions) existing
  | none => request.created allowedGroups (request.number versions)

/-- What an upload does to the rows of the other keys. -/
def UploadRequest.displaced (versions : Versions) (key : DocumentKey) (version : Version) :
    Version :=
  if request.alreadyReady versions then version else request.superseded key version

theorem UploadRequest.displaced_of_not {versions : Versions}
    (notReady : request.alreadyReady versions = false) :
    request.displaced versions = request.superseded := by
  funext key version
  simp only [displaced, notReady, Bool.false_eq_true, if_false]

theorem UploadRequest.displaced_of_ready {versions : Versions}
    (ready : request.alreadyReady versions = true) (key : DocumentKey) :
    request.displaced versions key = fun version => version := by
  funext version
  simp only [displaced, ready, if_true]

theorem History.uploaded_find?
    (own : ∀ existing, history.documents.find? request.key = some existing →
      existing.documentId = request.documentId) (key : DocumentKey) :
    (history.uploaded request marker allowedGroups).find? key =
      if key = request.key then some (request.ownRow marker allowedGroups history.documents)
      else (history.documents.find? key).map (request.displaced history.documents key) := by
  cases found : history.documents.find? request.key with
  | none =>
      have notReady : request.alreadyReady history.documents = false := by
        simp [UploadRequest.alreadyReady, found]
      rw [history.uploaded_created request marker allowedGroups found,
        request.displaced_of_not notReady]
      simp only [UploadRequest.ownRow, found]
  | some existing =>
      cases status : existing.status with
      | ready =>
          have ready : request.alreadyReady history.documents = true := by
            simp [UploadRequest.alreadyReady, found, status]
          rw [history.uploaded_ready request marker allowedGroups found status,
            request.displaced_of_ready ready, Option.map_id']
          simp only [UploadRequest.ownRow, found, (Version.isReady_iff existing).mpr status,
            if_true]
      | superseded =>
          have isReady : existing.isReady = false := by simp [Version.isReady, status]
          have notReady : request.alreadyReady history.documents = false := by
            simp [UploadRequest.alreadyReady, found, isReady]
          rw [history.uploaded_reinstated request marker allowedGroups found status
            (own existing found), request.displaced_of_not notReady]
          simp only [UploadRequest.ownRow, found, isReady, Bool.false_eq_true, if_false]

theorem History.uploaded_self
    (own : ∀ existing, history.documents.find? request.key = some existing →
      existing.documentId = request.documentId) :
    (history.uploaded request marker allowedGroups).find? request.key =
      some (request.ownRow marker allowedGroups history.documents) := by
  rw [history.uploaded_find? request marker allowedGroups own, if_pos rfl]

theorem History.uploaded_other
    (own : ∀ existing, history.documents.find? request.key = some existing →
      existing.documentId = request.documentId)
    {key : DocumentKey} (different : key ≠ request.key) :
    (history.uploaded request marker allowedGroups).find? key =
      (history.documents.find? key).map (request.displaced history.documents key) := by
  rw [history.uploaded_find? request marker allowedGroups own, if_neg different]

/-- The answer of an upload names its own row. -/
theorem History.upload_answer :
    (history.upload request marker allowedGroups).1.documentId = request.documentId ∧
      (history.upload request marker allowedGroups).1.version =
        (request.ownRow marker allowedGroups history.documents).version := by
  unfold upload UploadRequest.ownRow
  cases history.documents.find? request.key with
  | none => exact ⟨rfl, rfl⟩
  | some existing =>
      by_cases ready : existing.isReady = true
      · simp only [ready, if_true]
        exact ⟨trivial, rfl⟩
      · simp only [ready, Bool.false_eq_true, if_false]
        exact ⟨trivial, rfl⟩

theorem UploadRequest.ownRow_ready (versions : Versions) :
    (request.ownRow marker allowedGroups versions).status = .ready := by
  unfold ownRow
  split
  · split
    · rename_i isReady
      exact (Version.isReady_iff _).mp isReady
    · rfl
  · rfl

/-- Giving way changes the status of a row and nothing else. -/
theorem UploadRequest.displaced_eq (versions : Versions) (key : DocumentKey)
    (version : Version) :
    request.displaced versions key version =
      { version with status := (request.displaced versions key version).status } := by
  unfold displaced superseded
  split
  · rfl
  · split <;> rfl

theorem UploadRequest.displaced_versionOf (versions : Versions) (key : DocumentKey)
    (version : Version) (logical : LogicalDocument) (groups : List String) :
    (request.displaced versions key version).versionOf logical groups key =
      version.versionOf logical groups key := by
  rw [displaced_eq]
  rfl

end Upload

end ProductionRag
