import ProductionRag.Api.Failures
import ProductionRag.Queue.Redelivery

/-!
# Jobs in memory

`_document_job` checks an upload where it arrives; the worker reads the checked fields again
when it takes the job from its queue.
-/

set_option autoImplicit false

namespace ProductionRag

open Basis

/-! ## What a job is accepted for -/

theorem Except.mapError_eq_ok {ε ε' α : Type} {first : Except ε α} {f : ε → ε'} {result : α} :
    first.mapError f = .ok result ↔ first = .ok result := by
  cases first with
  | error e =>
      constructor
      · intro wrong
        cases wrong
      · intro wrong
        cases wrong
  | ok value =>
      constructor
      · intro same
        exact congrArg Except.ok (Except.ok.inj same)
      · intro same
        exact congrArg Except.ok (Except.ok.inj same)

theorem length_strip_le (text : String) : (strip text).length ≤ text.length := by
  rw [strip, String.length_ofList, ← String.length_toList]
  exact ((List.rdropWhile_prefix _ _).length_le).trans (List.dropWhile_sublist _).length_le

theorem Json.string?_eq_some {value : Json} {text : String} :
    value.string? = some text ↔ value = .string text := by
  cases value with
  | string held =>
      constructor
      · intro same
        exact congrArg Json.string (Option.some.inj same)
      · rintro ⟨⟩
        rfl
  | _ =>
      constructor
      · intro wrong
        cases wrong
      · intro wrong
        cases wrong

theorem nonblank_iff {text : String} : nonblank text = true ↔ strip text ≠ "" := by
  rw [nonblank, decide_eq_true_eq]

/-- The timestamp of a job: none, or a value whose text is an ISO timestamp. -/
def Surroundings.ReadsTimestamp (surroundings : Surroundings) (modified : Json) : Prop :=
  modified = .null ∨ ∃ time, surroundings.fromisoformat (surroundings.str modified) = .ok time

/-- What `_source_fields` lets through. -/
structure SourceFields.Accepted (surroundings : Surroundings) (request : Request)
    (fields : SourceFields) : Prop where
  sourceId : fields.sourceId ≠ "" ∧ strip fields.sourceId = fields.sourceId ∧
    fields.sourceId.length ≤ 512
  sourceVersion : ∀ version ∈ fields.sourceVersion, version.length ≤ 256
  modified : fields.sourceModifiedAt = request.get "source_modified_at"
  timestamp : surroundings.ReadsTimestamp fields.sourceModifiedAt

theorem sourceFields_accepted {surroundings : Surroundings} {request : Request}
    {filename : String} {fields : SourceFields}
    (read : sourceFields surroundings request filename = .ok fields) :
    fields.Accepted surroundings request := by
  unfold sourceFields at read
  extract_lets modified withSystem at read
  have isModified : modified = request.get "source_modified_at" := rfl
  clear_value modified
  have fromSystem : ∀ system, withSystem system = .ok fields →
      fields.Accepted surroundings request := by
    intro system read
    unfold withSystem at read
    extract_lets withId at read
    have fromId : ∀ sourceId, strip sourceId ≠ "" → sourceId.length ≤ 512 →
        withId sourceId = .ok fields → fields.Accepted surroundings request := by
      intro sourceId named short read
      unfold withId at read
      extract_lets withVersion at read
      have fromVersion : ∀ version : Option String, (∀ text ∈ version, text.length ≤ 256) →
          withVersion version = .ok fields → fields.Accepted surroundings request := by
        intro version shortVersion read
        have accepted : ∀ readable : surroundings.ReadsTimestamp modified,
            SourceFields.Accepted surroundings request
              { sourceSystem := system, sourceId := strip sourceId, sourceVersion := version,
                sourceModifiedAt := modified } := by
          intro readable
          exact ⟨⟨named, strip_strip _, (length_strip_le _).trans short⟩, shortVersion, isModified,
            readable⟩
        dsimp only [withVersion] at read
        split at read
        · obtain rfl := Except.ok.inj read
          exact accepted (Or.inl rfl)
        · split at read
          · rename_i time parsed
            obtain rfl := Except.ok.inj read
            exact accepted (Or.inr ⟨time, parsed⟩)
          · cases read
          · cases read
      split at read
      · exact fromVersion none (by simp) read
      · split at read
        · rename_i text _ shortVersion
          exact fromVersion (some text) (by simpa using shortVersion) read
        · cases read
      · cases read
    split at read
    · cases read
    · split at read
      · rename_i text _ checked
        rw [Bool.and_eq_true, nonblank_iff, decide_eq_true_eq] at checked
        exact fromId text checked.1 checked.2 read
      · cases read
  split at read
  · cases read
  · split at read
    · exact fromSystem _ read
    · cases read

/-- What `_document_job` lets through: a validated job whose timestamp is still to be read. -/
structure DocumentJob.Accepted (surroundings : Surroundings) (request : Request)
    (job : DocumentJob) : Prop where
  filename : ∃ text, request.get "filename" = .string text ∧ job.payload.filename = strip text
  validated : job.payload.Validated
  modified : job.modified = request.get "source_modified_at"
  timestamp : surroundings.ReadsTimestamp job.modified

theorem documentJob_accepted {surroundings : Surroundings} {request : Request}
    {job : DocumentJob} (read : documentJob surroundings request = .ok job) :
    job.Accepted surroundings request := by
  unfold documentJob at read
  extract_lets withFilename at read
  have fromFilename : ∀ filename, request.get "filename" = .string filename →
      strip filename ≠ "" → withFilename filename = .ok job →
      job.Accepted surroundings request := by
    intro filename isFilename named read
    unfold withFilename at read
    obtain ⟨data, uploaded, read⟩ := Except.bind_ok_iff.mp read
    extract_lets withType at read
    have fromType : ∀ contentType, withType contentType = .ok job →
        job.Accepted surroundings request := by
      intro contentType read
      unfold withType at read
      obtain ⟨principal, isCaller, read⟩ := Except.bind_ok_iff.mp read
      obtain ⟨tenantId, isTenant, read⟩ := Except.bind_ok_iff.mp read
      extract_lets withGroups at read
      have fromGroups : ∀ groups, withGroups groups = .ok job →
          job.Accepted surroundings request := by
        intro groups read
        unfold withGroups at read
        obtain ⟨source, fields, built⟩ := Except.bind_ok_iff.mp read
        have accepted := sourceFields_accepted (Except.mapError_eq_ok.mp fields)
        obtain ⟨named', trimmed, short⟩ := accepted.sourceId
        obtain rfl := Except.ok.inj built
        exact ⟨⟨filename, isFilename, rfl⟩,
          ⟨named, strip_strip _, named', trimmed, short, accepted.sourceVersion, rfl⟩,
          accepted.modified, accepted.timestamp⟩
      split at read
      · obtain ⟨groups, _, read⟩ := Except.bind_ok_iff.mp read
        exact fromGroups groups read
      · exact fromGroups none read
    split at read
    · exact fromType none read
    · exact fromType _ read
    · cases read
  split at read
  · rename_i filename isText
    obtain ⟨isString, named⟩ := Option.filter_eq_some_iff.mp isText
    exact fromFilename filename (Json.string?_eq_some.mp isString) (nonblank_iff.mp named) read
  · cases read

/-! ## The worker -/

/-- What `_run` reports of a job whose handler ended. -/
def MemoryJob.reported (now : Time) (job : MemoryJob) : Outcome → MemoryJob
  | .success result => { job with status := "completed", result := some result, updatedAt := now }
  | .inputError message => { job with status := "failed", error := some message, updatedAt := now }
  | .otherError =>
    { job with
      status := "failed", error := some "internal error during ingestion", updatedAt := now }

/-- One round of `_run`, unless the queue is empty. -/
def Application.work (surroundings : Surroundings) (application : Application)
    (startedAt finishedAt : Time) : Option Application :=
  match application.worker.queue with
  | [] => none
  | (jobId, payload) :: rest =>
    let running : IngestionWorker :=
      { queue := rest
        jobs := application.worker.jobs.modify jobId fun job =>
          { job with status := "running", updatedAt := startedAt } }
    let out := Application.ingestJob surroundings { application with worker := running } payload
    some { out.2 with
      worker := { running with
        jobs := running.jobs.modify jobId fun job => job.reported finishedAt (outcomeOf out.1) } }

/-! ## Failures that nobody expects -/

/-- A result, a `ValueError` or a `UnicodeError`. -/
def Expected : Except PyError JobResult → Prop
  | .ok _ => True
  | .error (.valueError _) => True
  | .error (.unicodeError _) => True
  | .error _ => False

/-- The parser raises nothing but `UnsupportedDocumentError`, which is a `ValueError`. -/
def Services.RaisesUnsupported (services : Services) : Prop :=
  ∀ data filename contentType e, services.parse data filename contentType = .error e →
    ∃ message, e = .valueError message

theorem normalizeIdentifier_error {value field : String} {e : PyError}
    (refused : normalizeIdentifier value field = .error e) :
    ∃ message, e = .valueError message := by
  simp only [normalizeIdentifier] at refused
  split at refused
  · cases refused
    exact ⟨_, rfl⟩
  · split at refused
    · cases refused
      exact ⟨_, rfl⟩
    · cases refused

theorem prepare_error {services : Services} (supported : services.RaisesUnsupported)
    {uuid4 : Nat → String} {createdAt : Time} {job : JobPayload} {data : List UInt8} {e : PyError}
    (failed : prepare services uuid4 createdAt job data = .error e) :
    ∃ message, e = .valueError message := by
  unfold prepare at failed
  cases parsed : services.parse data job.filename job.contentType with
  | error raised =>
      rw [parsed] at failed
      obtain rfl := Except.error.inj failed
      exact supported _ _ _ _ parsed
  | ok document =>
      simp only [parsed, bind, Except.bind, ingestSegments] at failed
      cases named : normalizeIdentifier job.filename "filename" with
      | error raised =>
          simp only [named] at failed
          obtain rfl := Except.error.inj failed
          exact normalizeIdentifier_error named
      | ok filename =>
          cases owned : normalizeIdentifier job.tenantId "tenant_id" with
          | error raised =>
              simp only [named, owned] at failed
              obtain rfl := Except.error.inj failed
              exact normalizeIdentifier_error owned
          | ok tenantId =>
              simp only [named, owned] at failed
              split at failed
              · obtain rfl := Except.error.inj failed
                exact ⟨_, rfl⟩
              · cases failed

/-- Once the timestamp is read, a validated job ends as expected in every store. -/
theorem ingest_expected {services : Services} (supported : services.RaisesUnsupported)
    (store : InMemoryStore) (uuid4 : Nat → String) (createdAt : Time) (turns : Nat → Time)
    {job : JobPayload} (validated : job.Validated) :
    Expected (store.ingest services uuid4 createdAt turns job).1 := by
  obtain ⟨data, content⟩ := Option.isSome_iff_exists.mp validated.content
  rw [InMemoryStore.ingest_eq _ _ _ _ _ content]
  split
  · trivial
  · split
    · rename_i e failed
      obtain ⟨message, rfl⟩ := prepare_error supported failed
      trivial
    · rename_i call prepared
      rw [InMemoryStore.persistCall_eq _ _ call (prepare_prepares prepared).nonempty]
      trivial

/-- `fromisoformat` takes the timestamp, or is not called. -/
def Consumable (modified : Json) : Prop := modified.truthy = true → ∃ text, modified = .string text

theorem modifiedAt_ok_iff {surroundings : Surroundings} {modified : Json}
    (readable : surroundings.ReadsTimestamp modified) :
    (∃ time, surroundings.modifiedAt modified = .ok time) ↔ Consumable modified := by
  unfold Surroundings.modifiedAt Consumable
  by_cases truthy : modified.truthy = true
  · rw [if_pos truthy]
    constructor
    · rintro ⟨time, read⟩ _
      cases modified with
      | string text => exact ⟨text, rfl⟩
      | _ => cases read
    · intro isText
      obtain ⟨text, rfl⟩ := isText truthy
      rcases readable with wrong | ⟨time, parsed⟩
      · cases wrong
      · have parsedText : surroundings.fromisoformat text = .ok time := parsed
        refine ⟨some time, ?_⟩
        dsimp only
        rw [parsedText]
        rfl
  · rw [if_neg truthy]
    exact iff_of_true ⟨none, rfl⟩ fun wrong => absurd wrong truthy

theorem modifiedAt_error {surroundings : Surroundings} {modified : Json}
    (unread : ¬ Consumable modified) : ∃ message,
      surroundings.modifiedAt modified = .error (.typeError message) := by
  obtain ⟨truthy, noText⟩ := Classical.not_imp.mp unread
  unfold Surroundings.modifiedAt
  rw [if_pos truthy]
  cases modified with
  | string text => exact absurd ⟨text, rfl⟩ noText
  | _ => exact ⟨_, rfl⟩

/-- Stored or refreshed, or unprocessable. -/
def Handled.Processed : Handled → Prop
  | .ok (status, _) => status = 200 ∨ status = 201
  | .error (.api error) => error.status = 422
  | .error (.raised _) => False

/-- Sent directly or queued, the upload ends in one of the ways the API documents. -/
structure EndsAsExpected (surroundings : Surroundings) (application : Application)
    (request : Request) (job : DocumentJob) : Prop where
  ingested : Expected (application.ingestJob surroundings job).1
  direct : Handled.Processed (application.createDocument surroundings request).1
  queued : outcomeOf (application.ingestJob surroundings job).1 ≠ .otherError

theorem endsAsExpected_iff {surroundings : Surroundings} {application : Application}
    {request : Request} {job : DocumentJob}
    (read : documentJob surroundings request = .ok job) :
    EndsAsExpected surroundings application request job ↔
      Expected (application.ingestJob surroundings job).1 := by
  refine ⟨EndsAsExpected.ingested, fun expected => ⟨expected, ?_, ?_⟩⟩
  · rw [Application.createDocument, read]
    change Handled.Processed (((application.ingestJob surroundings job).1.mapError fun e =>
      (AnswerError.raised e).unprocessable).map _)
    cases ended : (application.ingestJob surroundings job).1 with
    | ok stored =>
        cases existed : stored.alreadyExisted with
        | true => exact Or.inl (if_pos existed)
        | false => exact Or.inr (if_neg (Bool.eq_false_iff.mp existed))
    | error e =>
        rw [ended] at expected
        cases e with
        | valueError message => rfl
        | unicodeError message => rfl
        | _ => exact expected.elim
  · intro internal
    cases ended : (application.ingestJob surroundings job).1 with
    | ok stored =>
        rw [ended] at internal
        cases internal
    | error e =>
        rw [ended] at expected internal
        cases e with
        | valueError message => cases internal
        | unicodeError message => cases internal
        | _ => exact expected

/-- An accepted upload ends as expected exactly when its timestamp is a text, or is not used. -/
theorem accepted_upload_iff {surroundings : Surroundings}
    (supported : surroundings.services.RaisesUnsupported) {request : Request} {job : DocumentJob}
    (read : documentJob surroundings request = .ok job) (application : Application) :
    EndsAsExpected surroundings application request job ↔
      Consumable (request.get "source_modified_at") := by
  have accepted := documentJob_accepted read
  rw [endsAsExpected_iff read, ← accepted.modified]
  constructor
  · intro expected
    by_contra unread
    obtain ⟨message, raised⟩ := @modifiedAt_error surroundings job.modified unread
    rw [Application.ingestJob, raised] at expected
    exact expected
  · intro consumable
    obtain ⟨time, isRead⟩ := (modifiedAt_ok_iff accepted.timestamp).mpr consumable
    rw [Application.ingestJob, isRead]
    obtain ⟨named, trimmed, sourceId, sourceTrimmed, short, version, content⟩ := accepted.validated
    exact ingest_expected supported _ _ _ _
      ⟨named, trimmed, sourceId, sourceTrimmed, short, version, content⟩

/-- Python reads eight digits as a date. -/
def compactDates : Surroundings :=
  { Application.unreadable with
    fromisoformat := fun text =>
      if text = "20240101" then .ok 0 else .error (.valueError "Invalid isoformat string") }

/-- An upload of one line that names its last change. -/
def changedOn (modified : Json) : Request where
  payload := [("filename", .string "a.txt"), ("content", .string "x"),
    ("source_modified_at", modified)]
  principal := some { tenantId := "t", userId := "u" }

theorem compactDates_supported : compactDates.services.RaisesUnsupported := by
  rintro data filename contentType e ⟨⟩
  exact ⟨_, rfl⟩

/-- A number that reads as a date is let through, and cannot be read again. -/
theorem numeric_date_raises :
    ¬ ∀ (surroundings : Surroundings) (request : Request) (job : DocumentJob)
      (application : Application), surroundings.services.RaisesUnsupported →
      documentJob surroundings request = .ok job →
      EndsAsExpected surroundings application request job := by
  intro claimed
  have accepted : (documentJob compactDates (changedOn (.number "20240101"))).toOption.isSome =
      true := by
    decide +kernel
  cases read : documentJob compactDates (changedOn (.number "20240101")) with
  | error e =>
      rw [read] at accepted
      cases accepted
  | ok job =>
      have expected := (claimed compactDates _ job Application.emptyApplication
        compactDates_supported read).ingested
      have modified := (documentJob_accepted read).modified
      rw [Application.ingestJob, modified] at expected
      exact expected

theorem textual_date_processed : ∃ job,
    documentJob compactDates (changedOn (.string "20240101")) = .ok job ∧
      EndsAsExpected compactDates Application.emptyApplication (changedOn (.string "20240101"))
        job := by
  have accepted : (documentJob compactDates (changedOn (.string "20240101"))).toOption.isSome =
      true := by
    decide +kernel
  cases read : documentJob compactDates (changedOn (.string "20240101")) with
  | error e =>
      rw [read] at accepted
      cases accepted
  | ok job =>
      refine ⟨job, rfl, (accepted_upload_iff compactDates_supported read
        Application.emptyApplication).mpr fun _ => ⟨"20240101", rfl⟩⟩

end ProductionRag
