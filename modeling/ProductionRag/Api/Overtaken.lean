import ProductionRag.Api.Uploads

/-!
# Checks that come too late

Two uploads of one document check what is current before either writes.  The write of the
first can make the check of the second one stale.  Here is when what the second one then does
is still what it would have done in its turn.
-/

set_option autoImplicit false

namespace ProductionRag

open Basis

/-- The content once the call is stored. -/
def PersistCall.stored (call : PersistCall) (content : StoreContent) : StoreContent :=
  (Effect.store call).apply content

/-- The version the call leaves under its own key. -/
def PersistCall.row (call : PersistCall) (versions : Versions) : Version :=
  call.request.ownRow id (call.settled versions) versions

namespace Upload

/-- Whatever `other` sees is seen by this upload too, or is named after `other` already. -/
def Covers (upload other : Upload) (versions : Versions) : Prop :=
  ∀ key row, (key, row) ∈ versions.entries →
    row.versionOf other.logical other.job.groups key = true →
      row.versionOf upload.logical upload.job.groups key = true ∨ row.source = other.job.filename

/-- Two renames, each decided on before the other. -/
def RenamesAgree (left right : Upload) (versions : Versions) (leftRow rightRow : Version) : Prop :=
  left.job.filename = right.job.filename → rightRow.visible left.job.groups = true →
    leftRow.visible right.job.groups = true →
      left.Covers right versions ∨ right.Covers left versions

/-- A rename decided on before the call was stored. -/
def RenamesInTime (services : Services) (upload : Upload) (call : PersistCall)
    (content : StoreContent) : Prop :=
  call.request.alreadyReady content.documents = false →
    (call.row content.documents).versionOf upload.logical upload.job.groups call.key = true →
      call.filename ≠ upload.job.filename →
        ∃ row, upload.finds services.hash (call.stored content).documents = some row ∧
          upload.job.filename ≠ row.source

/-- A store of `own` decided on before `call` was stored. -/
def StoresInTime (services : Services) (upload : Upload) (own call : PersistCall)
    (content : StoreContent) : Prop :=
  upload.finds services.hash (call.stored content).documents = none ∨
    own.request.alreadyReady (call.stored content).documents = true ∧
      (own.request.alreadyReady content.documents = true ∨
        ∀ row ∈ upload.finds services.hash (call.stored content).documents,
          row.source = upload.job.filename)

/-- The second upload may check before the first one writes and write after it. -/
def InTime (services : Services) (content : StoreContent) (first second : Upload) : Prop :=
  match first.finds services.hash content.documents,
    second.finds services.hash content.documents with
  | some row, some other => first.job.filename ≠ row.source → second.job.filename ≠ other.source →
      first.RenamesAgree second content.documents row other
  | none, some other => second.job.filename ≠ other.source →
      ∀ call ∈ first.prepared services, second.RenamesInTime services call content
  | none, none => ∀ call ∈ first.prepared services, ∀ own ∈ second.prepared services,
      second.StoresInTime services own call content
  | some _, none => True

section Effects

variable {services : Services} {upload : Upload} {content seen : StoreContent}

theorem effect_of_named {row : Version}
    (found : upload.finds services.hash seen.documents = some row)
    (named : upload.job.filename = row.source) :
    upload.effect services seen.documents = .nothing := by
  rw [effect, found]
  simp only [named, ne_eq, not_true_eq_false, if_false]

theorem effect_of_renames {row : Version}
    (found : upload.finds services.hash seen.documents = some row)
    (renames : upload.job.filename ≠ row.source) :
    upload.effect services seen.documents =
      .rename upload.job.tenantId row.documentId upload.job.groups upload.job.filename := by
  rw [effect, found]
  simp only [if_pos renames]

theorem effect_of_none (missing : upload.finds services.hash seen.documents = none) :
    upload.effect services seen.documents =
      ((upload.prepared services).map Effect.store).getD .nothing := by
  rw [effect, missing]
  cases upload.prepared services <;> rfl

/-- A decided rename lands on what the upload sees then, as long as its row is there. -/
theorem writes_patch {row later : Version}
    (found : upload.finds services.hash seen.documents = some row)
    (renames : upload.job.filename ≠ row.source)
    (stored : content.documents.find? (upload.job.tenantId, row.documentId) = some later)
    (sees : later.versionOf upload.logical upload.job.groups (upload.job.tenantId, row.documentId) =
      true) :
    upload.writes services seen content =
      content.patch upload.logical upload.job.groups none (some upload.job.filename) := by
  obtain ⟨belongs, visible⟩ := Version.versionOf_iff.mp sees
  obtain ⟨_, system, id⟩ := Version.belongsTo_iff.mp belongs
  have logical : InMemoryStore.logicalOf upload.job.tenantId later = upload.logical := by
    rw [InMemoryStore.logicalOf, system, id]
    rfl
  rw [writes, effect_of_renames found renames]
  simp only [Effect.apply, stored, visible, if_true, logical]

/-- Renaming what was just found. -/
theorem writes_found {row : Version} (identified : content.documents.Identified services.hash)
    (found : upload.finds services.hash content.documents = some row)
    (renames : upload.job.filename ≠ row.source) :
    upload.writes services content content =
      content.patch upload.logical upload.job.groups none (some upload.job.filename) := by
  obtain ⟨stored, sees⟩ := finds_stored identified found
  exact writes_patch found renames stored sees

end Effects

/-! ## Two renames -/

section Renames

variable {services : Services} {first second : Upload} {content : StoreContent}
  {row other : Version}

/-- A rename that was decided on before another one. -/
theorem writes_after_rename (identified : content.documents.Identified services.hash)
    (found : first.finds services.hash content.documents = some row)
    (renames : first.job.filename ≠ row.source)
    (found' : second.finds services.hash content.documents = some other)
    (renames' : second.job.filename ≠ other.source) :
    second.writes services content (first.writes services content content) =
      (content.patch first.logical first.job.groups none (some first.job.filename)).patch
        second.logical second.job.groups none (some second.job.filename) := by
  rw [writes_found identified found renames]
  obtain ⟨stored, sees⟩ := finds_stored identified found'
  have kept : (content.patch first.logical first.job.groups none
        (some first.job.filename)).documents.find? (second.job.tenantId, other.documentId) =
      some (renamedTo first.logical first.job.groups first.job.filename
        (second.job.tenantId, other.documentId) other) := by
    rw [patch_documents, Table.find?_mapValues, stored]
    rfl
  refine writes_patch found' renames' kept ?_
  rw [renamedTo_eq]
  exact sees

/-- What the second rename finds after the first. -/
theorem finds_after_rename (identified : content.documents.Identified services.hash)
    (found : first.finds services.hash content.documents = some row)
    (renames : first.job.filename ≠ row.source)
    (found' : second.finds services.hash content.documents = some other) :
    second.finds services.hash (first.writes services content content).documents =
      some (renamedTo first.logical first.job.groups first.job.filename
        (second.job.tenantId, "") other) := by
  rw [writes_found identified found renames, patch_documents, finds_renamed, found']
  rfl

/-- Two renames to one name. -/
theorem patch_patch_comm (left right : LogicalDocument) (groups groups' : List String)
    (name : String) :
    (content.patch left groups none (some name)).patch right groups' none (some name) =
      (content.patch right groups' none (some name)).patch left groups none (some name) := by
  have documents : ((content.patch left groups none (some name)).patch right groups' none
        (some name)).documents =
      ((content.patch right groups' none (some name)).patch left groups none
        (some name)).documents := by
    simp only [patch_documents, Table.mapValues_mapValues]
    refine Table.mapValues_congr fun key version _ => ?_
    have sees : ∀ (logical : LogicalDocument) (groups : List String) (named : String),
        Version.versionOf logical groups key { version with source := named } =
          version.versionOf logical groups key := fun _ _ _ => rfl
    unfold renamedTo
    split <;> split <;> simp_all
  exact congrArg (History.mk · content.contents) documents

/-- Nothing is left to rename. -/
theorem Covers.patch_patch (covers : first.Covers second content.documents)
    (sameName : first.job.filename = second.job.filename) :
    (content.patch first.logical first.job.groups none (some first.job.filename)).patch
        second.logical second.job.groups none (some second.job.filename) =
      content.patch first.logical first.job.groups none (some first.job.filename) := by
  have documents : ((content.patch first.logical first.job.groups none
        (some first.job.filename)).patch second.logical second.job.groups none
          (some second.job.filename)).documents =
      (content.patch first.logical first.job.groups none
        (some first.job.filename)).documents := by
    simp only [patch_documents, Table.mapValues_mapValues]
    refine Table.mapValues_congr fun key version member => ?_
    rw [renamedTo]
    split
    · rename_i sees
      rw [renamedTo_eq] at sees
      have named : (renamedTo first.logical first.job.groups first.job.filename key
          version).source = second.job.filename := by
        rw [renamedTo]
        split
        · exact sameName
        · rename_i hidden
          exact (covers key version member sees).resolve_left hidden
      rw [← named]
    · rfl
  exact congrArg (History.mk · content.contents) documents

/-- A row that only the second upload sees and names differently tells the renames apart. -/
theorem Covers.of_patch_patch
    (same : (content.patch first.logical first.job.groups none (some first.job.filename)).patch
        second.logical second.job.groups none (some second.job.filename) =
      content.patch first.logical first.job.groups none (some first.job.filename)) :
    first.Covers second content.documents := by
  intro key version member sees
  by_cases seen : version.versionOf first.logical first.job.groups key = true
  · exact Or.inl seen
  · right
    have documents := congrArg (fun history : StoreContent => history.documents.find? key) same
    simp only [patch_documents, Table.find?_mapValues, Table.find?_eq_some_iff.mpr member,
      Option.map_some, renamedTo, if_neg seen, if_pos sees, Option.some.injEq] at documents
    exact (congrArg Version.source documents).symm

/-- What the second rename decides when it waits for the first. -/
theorem effect_after_rename (identified : content.documents.Identified services.hash)
    (found : first.finds services.hash content.documents = some row)
    (renames : first.job.filename ≠ row.source)
    (found' : second.finds services.hash content.documents = some other)
    (renames' : second.job.filename ≠ other.source)
    (apart : first.job.filename ≠ second.job.filename ∨
      other.versionOf first.logical first.job.groups (second.job.tenantId, "") ≠ true) :
    second.effect services (first.writes services content content).documents =
      second.effect services content.documents := by
  have later := finds_after_rename identified found renames found'
  rw [effect_of_renames found' renames', effect_of_renames later, renamedTo_eq]
  rw [renamedTo]
  split
  · rename_i sees
    exact (apart.resolve_right (not_not.mpr sees)).symm
  · exact renames'

/-- Of one document, what one upload found is the other's to see as well if it may. -/
theorem versionOf_found (identified : content.documents.Identified services.hash)
    (sameDocument : first.logical = second.logical)
    (found' : second.finds services.hash content.documents = some other) :
    other.versionOf first.logical first.job.groups (second.job.tenantId, "") =
      other.visible first.job.groups := by
  obtain ⟨_, sees⟩ := finds_stored identified found'
  have belongs : other.belongsTo second.logical (second.job.tenantId, "") = true :=
    (Version.versionOf_iff.mp sees).1
  rw [sameDocument, Version.versionOf, belongs, Bool.true_and]

/-- The second rename waits, and finds nothing left to do. -/
theorem thenWrites_renamed (identified : content.documents.Identified services.hash)
    (sameDocument : first.logical = second.logical)
    (found : first.finds services.hash content.documents = some row)
    (renames : first.job.filename ≠ row.source)
    (found' : second.finds services.hash content.documents = some other)
    (sameName : first.job.filename = second.job.filename)
    (sees : other.visible first.job.groups = true) :
    first.thenWrites services second content =
      content.patch first.logical first.job.groups none (some first.job.filename) := by
  have later := finds_after_rename identified found renames found'
  have named : second.job.filename = (renamedTo first.logical first.job.groups first.job.filename
      (second.job.tenantId, "") other).source := by
    rw [renamedTo, if_pos ((versionOf_found identified sameDocument found').trans sees), sameName]
  rw [thenWrites, writes, effect_of_named later named]
  exact writes_found identified found renames

/-- Two renames end as in turns when they agree, and only then. -/
theorem renames_wait_iff (identified : content.documents.Identified services.hash)
    (sameDocument : first.logical = second.logical)
    (found : first.finds services.hash content.documents = some row)
    (renames : first.job.filename ≠ row.source)
    (found' : second.finds services.hash content.documents = some other)
    (renames' : second.job.filename ≠ other.source) :
    Waits services content first second ↔
      first.RenamesAgree second content.documents row other := by
  have both := writes_after_rename identified found renames found' renames'
  have firstSees := versionOf_found identified sameDocument found'
  have secondSees := versionOf_found identified sameDocument.symm found
  by_cases sameName : first.job.filename = second.job.filename
  · cases sees : other.visible first.job.groups with
    | false =>
        refine iff_of_true (waits_of_effect ?_) fun _ wrong => ?_
        · refine effect_after_rename identified found renames found' renames' (Or.inr ?_)
          rw [firstSees, sees]
          exact Bool.false_ne_true
        · rw [sees] at wrong
          cases wrong
    | true =>
        cases sees' : row.visible second.job.groups with
        | false =>
            refine iff_of_true (Or.inr ?_) fun _ _ wrong => ?_
            · have still := effect_after_rename identified found' renames' found renames (Or.inr (by
                rw [secondSees, sees']
                exact Bool.false_ne_true))
              have reversed := writes_after_rename identified found' renames' found renames
              rw [both, thenWrites]
              simp only [writes] at still reversed ⊢
              rw [still, reversed, ← sameName, patch_patch_comm]
            · rw [sees'] at wrong
              cases wrong
        | true =>
            have forth := thenWrites_renamed identified sameDocument found renames found' sameName
              sees
            have back := thenWrites_renamed identified sameDocument.symm found' renames' found
              sameName.symm sees'
            have swapped := @patch_patch_comm content first.logical second.logical
              first.job.groups second.job.groups first.job.filename
            rw [Waits, both, forth, back]
            constructor
            · intro waits _ _ _
              refine waits.imp Covers.of_patch_patch fun same => Covers.of_patch_patch ?_
              rw [← sameName] at same ⊢
              exact swapped.symm.trans same
            · intro agree
              refine (agree sameName sees sees').imp (fun covers => covers.patch_patch sameName)
                fun covers => ?_
              have absorbed := covers.patch_patch sameName.symm
              rw [← sameName] at absorbed ⊢
              exact swapped.trans absorbed
  · exact iff_of_true (waits_of_effect
      (effect_after_rename identified found renames found' renames' (Or.inl sameName)))
      fun wrong => absurd wrong sameName

end Renames

end Upload

/-! ## What a store leaves -/

namespace PersistCall

variable {call : PersistCall} {content : StoreContent} {hash : Sha256}

theorem stored_documents :
    (call.stored content).documents =
      content.uploaded call.request id (call.settled content.documents) :=
  rfl

/-- A current version that is stored again is left alone. -/
theorem stored_of_ready (ready : call.request.alreadyReady content.documents = true) :
    call.stored content = content := by
  cases found : content.documents.find? call.request.key with
  | none =>
      rw [UploadRequest.alreadyReady, found] at ready
      cases ready
  | some existing =>
      rw [UploadRequest.alreadyReady, found, Option.any_some] at ready
      have unmarked : content.documents.modify call.request.key (Version.marked id) =
          content.documents := Table.modify_eq_self _ _ _ fun _ => rfl
      simp only [stored, Effect.apply, History.upload, found, ready, if_true, unmarked]

theorem stored_own (identified : content.documents.Identified hash) :
    (call.stored content).documents.find? call.key = some (call.row content.documents) := by
  rw [stored_documents]
  exact content.uploaded_self call.request id _ identified.ownId

theorem stored_other (identified : content.documents.Identified hash)
    (notReady : call.request.alreadyReady content.documents = false) {key : DocumentKey}
    (different : key ≠ call.key) :
    (call.stored content).documents.find? key =
      (content.documents.find? key).map (call.request.superseded key) := by
  rw [stored_documents, content.uploaded_other call.request id _ identified.ownId different,
    UploadRequest.displaced_of_not _ notReady]

theorem alreadyReady_stored (identified : content.documents.Identified hash) :
    call.request.alreadyReady (call.stored content).documents = true := by
  have ready : (call.row content.documents).isReady = true :=
    (Version.isReady_iff _).mpr (UploadRequest.ownRow_ready ..)
  rw [UploadRequest.alreadyReady, request_key, stored_own identified, Option.any_some, ready]

theorem stored_identified (identified : content.documents.Identified hash)
    (own : call.Identified hash) (nonempty : call.result.chunks ≠ []) :
    (call.stored content).documents.Identified hash := by
  have move : History.Move (fun request => request = call.request) content (call.stored content) :=
    .upload call.request id _ rfl
  refine move.identified ?_ identified
  rintro request rfl
  exact PersistCall.Identified.requestWith _ own nonempty

/-! ## A store and a rename -/

section Rename

variable {logical : LogicalDocument} {groups : List String} {name : String}

theorem settled_renamed (versions : Versions) :
    call.settled (versions.mapValues (renamedTo logical groups name)) = call.settled versions := by
  rw [settled, renamedTo_current, List.head?_map, Option.map_map, settled]
  congr 3
  funext row
  rw [Function.comp_apply, renamedTo_eq]

theorem number_renamed (versions : Versions) :
    call.request.number (versions.mapValues (renamedTo logical groups name)) =
      call.request.number versions := by
  rw [UploadRequest.number, UploadRequest.number]
  congr 2
  apply Table.map_select_mapValues
  · intro key version
    rw [renamedTo_eq]
    rfl
  · intro key version
    rw [renamedTo_eq]

theorem alreadyReady_renamed (versions : Versions) :
    call.request.alreadyReady (versions.mapValues (renamedTo logical groups name)) =
      call.request.alreadyReady versions := by
  rw [UploadRequest.alreadyReady, UploadRequest.alreadyReady, Table.find?_mapValues, Option.any_map]
  congr 1
  funext version
  rw [renamedTo_eq]
  rfl

theorem superseded_renamed (key : DocumentKey) (version : Version) :
    call.request.superseded key (renamedTo logical groups name key version) =
      renamedTo logical groups name key (call.request.superseded key version) := by
  have sameSuperseded : call.request.supersedes key (renamedTo logical groups name key version) =
      call.request.supersedes key version := by
    rw [renamedTo_eq]
    rfl
  have sameSeen : (call.request.superseded key version).versionOf logical groups key =
      version.versionOf logical groups key := by
    unfold UploadRequest.superseded
    split <;> rfl
  rw [UploadRequest.superseded, sameSuperseded, renamedTo, renamedTo, sameSeen]
  unfold UploadRequest.superseded
  split <;> split <;> rfl

/-- A store overwrites the name of the row it brings back. -/
theorem row_renamed (versions : Versions)
    (notReady : call.request.alreadyReady versions = false) :
    call.row (versions.mapValues (renamedTo logical groups name)) = call.row versions := by
  rw [row, row, settled_renamed]
  unfold UploadRequest.ownRow
  rw [number_renamed, Table.find?_mapValues]
  cases found : versions.find? call.request.key with
  | none => rfl
  | some existing =>
      have isReady : existing.isReady = false := by
        rw [UploadRequest.alreadyReady, found, Option.any_some] at notReady
        exact notReady
      have isReady' :
          (renamedTo logical groups name call.request.key existing).isReady = false := by
        rw [renamedTo_eq]
        exact isReady
      simp only [Option.map_some, isReady, isReady', Bool.false_eq_true, if_false]
      rw [renamedTo_eq]
      rfl

/-- Only a new version takes a place of its own, and its chunks. -/
theorem stored_places (call : PersistCall) (content : StoreContent) :
    (call.stored content).documents.keys =
        (if call.key ∈ content.documents.keys then content.documents.keys
        else content.documents.keys ++ [call.key]) ∧
      (call.stored content).contents =
        if call.key ∈ content.documents.keys then content.contents
        else content.contents.set call.key call.request.content := by
  simp only [stored, Effect.apply, History.upload, request_key]
  cases found : content.documents.find? call.key with
  | none =>
      have absent :
          (content.documents.mapValues call.request.superseded).find? call.key = none := by
        rw [Table.find?_mapValues, found, Option.map_none]
      simp only [if_neg (Table.find?_eq_none_iff.mp found)]
      rw [Table.keys_set_of_fresh _ (Table.find?_eq_none_iff.mp absent), Table.keys_mapValues]
      exact ⟨rfl, trivial⟩
  | some existing =>
      have present := Table.mem_keys_of_mem (Table.find?_eq_some_iff.mp found)
      simp only [if_pos present]
      split
      · exact ⟨Table.keys_modify _ _ _, rfl⟩
      · exact ⟨(Table.keys_modify _ _ _).trans (Table.keys_mapValues _ _), rfl⟩

theorem patch_identified (identified : content.documents.Identified hash)
    (logical : LogicalDocument) (groups : List String) (name : String) :
    (content.patch logical groups none (some name)).documents.Identified hash := by
  have move : History.Move (fun _ => False) content
    (content.patch logical groups none (some name)) := .patch ..
  exact move.identified (fun _ wrong => wrong.elim) identified

/-- A store and a rename that does not touch the stored version can change places. -/
theorem stored_renamed (identified : content.documents.Identified hash)
    (notReady : call.request.alreadyReady content.documents = false)
    (untouched : renamedTo logical groups name call.key (call.row content.documents) =
      call.row content.documents) :
    call.stored (content.patch logical groups none (some name)) =
      (call.stored content).patch logical groups none (some name) := by
  have notReady' : call.request.alreadyReady
      (content.patch logical groups none (some name)).documents = false := by
    rw [patch_documents, alreadyReady_renamed, notReady]
  have identified' := patch_identified identified logical groups name
  obtain ⟨keys, contents⟩ := stored_places call content
  obtain ⟨keys', contents'⟩ := stored_places call (content.patch logical groups none (some name))
  have documents : (call.stored (content.patch logical groups none (some name))).documents =
      ((call.stored content).patch logical groups none (some name)).documents := by
    apply Table.ext_find?
    · rw [keys', patch_documents, patch_documents, Table.keys_mapValues, Table.keys_mapValues, keys]
    · intro key
      rw [patch_documents, Table.find?_mapValues]
      by_cases own : key = call.key
      · subst own
        rw [stored_own identified', stored_own identified, Option.map_some, untouched,
          patch_documents, row_renamed _ notReady]
      · rw [stored_other identified' notReady' own, stored_other identified notReady own,
          patch_documents, Table.find?_mapValues, Option.map_map, Option.map_map]
        congr 1
        funext version
        exact superseded_renamed key version
  have sameContents : (call.stored (content.patch logical groups none (some name))).contents =
      (call.stored content).contents := by
    rw [contents', contents, patch_documents, Table.keys_mapValues]
    rfl
  exact congrArg₂ History.mk documents sameContents

end Rename

end PersistCall

namespace Upload

section StoreAndRename

variable {services : Services} {first second : Upload} {content : StoreContent} {row : Version}
  {call : PersistCall}

theorem finds_ready {upload : Upload} {hash : Sha256}
    (found : upload.finds hash content.documents = some row) : row.isReady = true := by
  rw [finds, Option.bind_eq_some_iff] at found
  obtain ⟨data, _, read⟩ := found
  obtain ⟨first, _⟩ := Option.filter_eq_some_iff.mp read
  obtain ⟨_, _, _, ready⟩ := Versions.mem_current.mp (List.mem_of_mem_head? first)
  exact (Version.isReady_iff row).mpr ready

theorem writes_store (missing : first.finds services.hash content.documents = none)
    (prepared : first.prepared services = some call) (later : StoreContent) :
    first.writes services content later = call.stored later := by
  rw [writes, effect_of_none missing, prepared]
  rfl

/-- A rename never changes what is stored after it. -/
theorem store_waits (identified : content.documents.Identified services.hash)
    (found : first.finds services.hash content.documents = some row)
    (renames : first.job.filename ≠ row.source)
    (missing : second.finds services.hash content.documents = none) :
    Waits services content first second := by
  have later : second.finds services.hash (first.writes services content content).documents =
      none := by
    rw [writes_found identified found renames, patch_documents, finds_renamed, missing]
    rfl
  apply waits_of_effect
  rw [effect_of_none later, effect_of_none missing]

/-- A rename that was decided on before a store. -/
theorem writes_after_store (identified : content.documents.Identified services.hash)
    (notReady : call.request.alreadyReady content.documents = false)
    (found : second.finds services.hash content.documents = some row)
    (renames : second.job.filename ≠ row.source) :
    second.writes services content (call.stored content) =
      (call.stored content).patch second.logical second.job.groups none
        (some second.job.filename) := by
  obtain ⟨stored, sees⟩ := finds_stored identified found
  have different : (second.job.tenantId, row.documentId) ≠ call.key := by
    intro same
    rw [UploadRequest.alreadyReady, PersistCall.request_key, ← same, stored, Option.any_some,
      finds_ready found] at notReady
    cases notReady
  refine writes_patch found renames
    ((PersistCall.stored_other identified notReady different).trans
      (by rw [stored, Option.map_some])) ?_
  unfold UploadRequest.superseded
  split
  · exact sees
  · exact sees

/-- A store leaves the new version under the uploaded name. -/
theorem stored_source (identified : content.documents.Identified services.hash)
    (notReady : call.request.alreadyReady content.documents = false) :
    ((call.stored content).documents.find? call.key).map (·.source) = some call.filename := by
  rw [PersistCall.stored_own identified, Option.map_some, PersistCall.row,
    InMemoryStore.ownRow_source notReady]
  rfl

theorem prepared_prepares {upload : Upload} (prepared : upload.prepared services = some call) :
    call.Identified services.hash ∧ call.result.chunks ≠ [] := by
  rw [Upload.prepared, Option.bind_eq_some_iff] at prepared
  obtain ⟨data, _, built⟩ := prepared
  cases success : prepare services upload.uuid4 upload.createdAt upload.job data with
  | error e =>
      rw [success] at built
      cases built
  | ok made =>
      rw [success] at built
      obtain rfl := Option.some.inj built
      exact ⟨(prepare_prepares success).identified, (prepare_prepares success).nonempty⟩

/-- What the renamed store does not have in common with the store in turn. -/
theorem not_waits_of_renamed (identified : content.documents.Identified services.hash)
    (missing : first.finds services.hash content.documents = none)
    (prepared : first.prepared services = some call)
    (found : second.finds services.hash content.documents = some row)
    (renames : second.job.filename ≠ row.source)
    (notReady : call.request.alreadyReady content.documents = false)
    (seen : (call.row content.documents).versionOf second.logical second.job.groups call.key = true)
    (named : call.filename ≠ second.job.filename)
    (settled : ∀ other, second.finds services.hash (call.stored content).documents = some other →
      second.job.filename = other.source) :
    ¬ Waits services content first second := by
  have both := writes_after_store identified notReady found renames
  have renamedRow : (((call.stored content).patch second.logical second.job.groups none
      (some second.job.filename)).documents.find? call.key).map (·.source) =
        some second.job.filename := by
    rw [patch_documents, Table.find?_mapValues, PersistCall.stored_own identified, Option.map_some,
      Option.map_some, renamedTo, if_pos seen]
  have storedRow := stored_source identified notReady
  rintro (same | same)
  · rw [thenWrites, writes_store missing prepared, both] at same
    -- after the store, the second upload leaves the content or makes another row current
    have kept : call.stored content ≠ (call.stored content).patch second.logical
        second.job.groups none (some second.job.filename) := by
      intro unchanged
      rw [← unchanged, storedRow, Option.some.injEq] at renamedRow
      exact named renamedRow
    cases later : second.finds services.hash (call.stored content).documents with
    | some other =>
        rw [writes, effect_of_named later (settled other later)] at same
        exact kept same.symm
    | none =>
        rw [writes, effect_of_none later] at same
        cases own : second.prepared services with
        | none =>
            rw [own] at same
            exact kept same.symm
        | some next =>
            rw [own, Option.map_some, Option.getD_some] at same
            have again : (call.stored content).patch second.logical second.job.groups none
                (some second.job.filename) = next.stored (call.stored content) := same
            have ownCall := prepared_prepares prepared
            have identified' := PersistCall.stored_identified identified ownCall.1 ownCall.2
            cases ready : next.request.alreadyReady (call.stored content).documents with
            | true =>
                rw [PersistCall.stored_of_ready ready] at again
                exact kept again.symm
            | false =>
                have isReady := @PersistCall.alreadyReady_stored next _ _ identified'
                rw [← again, patch_documents, PersistCall.alreadyReady_renamed, ready] at isReady
                cases isReady
  · have written := writes_found identified found renames
    have later : first.finds services.hash
        (content.patch second.logical second.job.groups none
          (some second.job.filename)).documents = none := by
      rw [patch_documents, finds_renamed, missing]
      rfl
    rw [thenWrites, writes_store missing prepared, both, written,
      writes_store later prepared] at same
    have notReady' : call.request.alreadyReady (content.patch second.logical second.job.groups none
        (some second.job.filename)).documents = false := by
      rw [patch_documents, PersistCall.alreadyReady_renamed, notReady]
    have source := stored_source (PersistCall.patch_identified identified _ _ _) notReady'
    rw [← same, renamedRow, Option.some.injEq] at source
    exact named source.symm

/-- A rename that a store overtook ends as in turns when it is in time, and only then. -/
theorem rename_waits_iff (identified : content.documents.Identified services.hash)
    (missing : first.finds services.hash content.documents = none)
    (prepared : first.prepared services = some call)
    (found : second.finds services.hash content.documents = some row)
    (renames : second.job.filename ≠ row.source) :
    Waits services content first second ↔ second.RenamesInTime services call content := by
  constructor
  · intro waits notReady seen named
    by_contra settled
    refine not_waits_of_renamed identified missing prepared found renames notReady seen named ?_
      waits
    intro other later
    by_contra differs
    exact settled ⟨other, later, differs⟩
  · intro inTime
    cases ready : call.request.alreadyReady content.documents with
    | true =>
        apply waits_of_effect
        rw [writes_store missing prepared, PersistCall.stored_of_ready ready]
    | false =>
        have both := writes_after_store identified ready found renames
        by_cases touched : (call.row content.documents).versionOf second.logical second.job.groups
            call.key = true ∧ call.filename ≠ second.job.filename
        · obtain ⟨other, later, differs⟩ := inTime ready touched.1 touched.2
          have own := prepared_prepares prepared
          left
          rw [thenWrites, writes_store missing prepared, both, writes_found
            (PersistCall.stored_identified identified own.1 own.2) later differs]
        · have later : first.finds services.hash
              (second.writes services content content).documents = none := by
            rw [writes_found identified found renames, patch_documents, finds_renamed, missing]
            rfl
          have untouched : renamedTo second.logical second.job.groups second.job.filename call.key
              (call.row content.documents) = call.row content.documents := by
            rw [renamedTo]
            split
            · rename_i seen
              have named : call.filename = second.job.filename :=
                not_not.mp fun differs => touched ⟨seen, differs⟩
              have source : (call.row content.documents).source = call.filename :=
                InMemoryStore.ownRow_source ready
              rw [← named, ← source]
            · rfl
          right
          have written : (second.writes services content content) =
            content.patch second.logical second.job.groups none (some second.job.filename) :=
              writes_found identified found renames
          rw [thenWrites, writes_store missing prepared, both, written,
            ← PersistCall.stored_renamed identified ready untouched]
          rw [written] at later
          exact (writes_store later prepared _).symm

/-! ## Two stores -/

theorem stores_wait {own : PersistCall}
    (missing : first.finds services.hash content.documents = none)
    (prepared : first.prepared services = some call)
    (missing' : second.finds services.hash content.documents = none)
    (prepared' : second.prepared services = some own)
    (inTime : second.StoresInTime services own call content) :
    Waits services content first second := by
  have stored := writes_store missing prepared content
  rcases inTime with later | ⟨ready, before | named⟩
  · apply waits_of_effect
    rw [stored, effect_of_none later, effect_of_none missing']
  · right
    rw [thenWrites, stored, writes_store missing' prepared', writes_store missing' prepared',
      PersistCall.stored_of_ready before, PersistCall.stored_of_ready ready, stored]
  · left
    rw [thenWrites, stored, writes_store missing' prepared', PersistCall.stored_of_ready ready]
    cases later : second.finds services.hash (call.stored content).documents with
    | some other =>
        rw [writes, effect_of_named later (named other later).symm]
        rfl
    | none => rw [writes_store later prepared', PersistCall.stored_of_ready ready]

end StoreAndRename

/-! ## Any two uploads -/

section InTime

variable {services : Services} {first second : Upload} {content : StoreContent}

theorem waits_of_nothing (nothing : first.effect services content.documents = .nothing) :
    Waits services content first second := by
  apply waits_of_effect
  rw [writes, nothing]
  rfl

theorem waits_for_nothing (nothing : second.effect services content.documents = .nothing) :
    Waits services content first second := by
  right
  rw [thenWrites]
  simp only [writes, nothing, Effect.apply]

theorem effect_of_unprepared {upload : Upload}
    (missing : upload.finds services.hash content.documents = none)
    (unprepared : upload.prepared services = none) :
    upload.effect services content.documents = .nothing := by
  rw [effect_of_none missing, unprepared]
  rfl

/-- Checks that come in time leave the content of a serial execution. -/
theorem InTime.waits (identified : content.documents.Identified services.hash)
    (sameDocument : first.logical = second.logical)
    (inTime : first.InTime services content second) : Waits services content first second := by
  rw [InTime] at inTime
  cases found : first.finds services.hash content.documents with
  | some row =>
      by_cases renames : first.job.filename ≠ row.source
      · cases found' : second.finds services.hash content.documents with
        | some other =>
            by_cases renames' : second.job.filename ≠ other.source
            · simp only [found, found'] at inTime
              exact (renames_wait_iff identified sameDocument found renames found' renames').mpr
                (inTime renames renames')
            · exact waits_for_nothing (effect_of_named found' (not_not.mp renames'))
        | none => exact store_waits identified found renames found'
      · exact waits_of_nothing (effect_of_named found (not_not.mp renames))
  | none =>
      cases prepared : first.prepared services with
      | none => exact waits_of_nothing (effect_of_unprepared found prepared)
      | some call =>
          cases found' : second.finds services.hash content.documents with
          | some other =>
              by_cases renames' : second.job.filename ≠ other.source
              · simp only [found, found'] at inTime
                exact (rename_waits_iff identified found prepared found' renames').mpr
                  (inTime renames' call prepared)
              · exact waits_for_nothing (effect_of_named found' (not_not.mp renames'))
          | none =>
              cases prepared' : second.prepared services with
              | none => exact waits_for_nothing (effect_of_unprepared found' prepared')
              | some own =>
                  simp only [found, found'] at inTime
                  exact stores_wait found prepared found' prepared'
                    (inTime call prepared own prepared')

end InTime

end Upload

end ProductionRag
