import ProductionRag.Api.Conversations
import ProductionRag.Api.Origins
import ProductionRag.Ingestion.Parsers
import ProductionRag.Ingestion.Sanitize

/-!
# From the pages to the citations

The chunks of a stored document hold its whole text: page by page they are windows over the
words, and without the overlaps the words come back.  So a citation quotes the page that it
names of a document that a request uploaded.
-/

set_option autoImplicit false

namespace ProductionRag

open Basis

/-! ## The chunks of a document -/

/-- The words of a page after its role labels are replaced. -/
def pageWords (text : String) : List (List Char) := runs isSpace (sanitizeDocument text).toList

namespace RagIngestionPipeline

variable {pipeline : RagIngestionPipeline}

/-- The chunks show the whole segment, each of them one of the windows. -/
structure Covers (pipeline : RagIngestionPipeline) (segment : Option Nat × String)
    (entries : List (Window × Chunk)) : Prop where
  page : ∀ entry ∈ entries, entry.2.page = segment.1
  text : ∀ entry ∈ entries, entry.2.text = entry.1.chunk (pageWords segment.2)
  inside : ∀ entry ∈ entries,
    entry.1.start < entry.1.stop ∧ entry.1.stop ≤ (pageWords segment.2).length
  cover : pipeline.Cover (pageWords segment.2).length (entries.map Prod.fst)
  words : withoutOverlaps 0 (entries.map fun entry => (entry.1, entry.2.text)) =
    pageWords segment.2

/-- The chunks hold all segments, one after the other. -/
def Holds (pipeline : RagIngestionPipeline) (segments : List (Option Nat × String))
    (chunks : List Chunk) : Prop :=
  ∃ entries : List (List (Window × Chunk)),
    chunks = entries.flatten.map Prod.snd ∧ List.Forall₂ pipeline.Covers segments entries

theorem withoutOverlaps_windows (words : List (List Char))
    (areRuns : ∀ word ∈ words, IsRun isSpace word) :
    withoutOverlaps 0 ((pipeline.windows words).map fun window =>
      (window, window.chunk words)) = words := by
  by_cases inside : 0 < words.length
  · exact withoutOverlaps_windowsFrom areRuns inside 0 (Nat.le_refl 0) (Nat.zero_le _)
  · have none : words = [] := List.length_eq_zero_iff.mp (by omega)
    rw [none, windows, windowsFrom, if_neg (by simp)]
    rfl

theorem pieces_eq (text : String) :
    pipeline.pieces text =
      (pipeline.windows (pageWords text)).map fun window => window.chunk (pageWords text) := by
  rw [pieces, split, splitTokens_eq]
  rfl

theorem covers_segment (segment : Option Nat × String) {chunks : List Chunk}
    (pages : ∀ chunk ∈ chunks, chunk.page = segment.1)
    (texts : chunks.map (·.text) = pipeline.pieces segment.2) :
    pipeline.Covers segment ((pipeline.windows (pageWords segment.2)).zip chunks) := by
  let words := pageWords segment.2
  have lengths : (pipeline.windows words).length = chunks.length := by
    have same := congrArg List.length texts
    rw [pieces_eq, List.length_map, List.length_map] at same
    exact same.symm
  have shown : ((pipeline.windows words).zip chunks).map (fun entry => (entry.1, entry.2.text)) =
      (pipeline.windows words).map fun window => (window, window.chunk words) := by
    calc ((pipeline.windows words).zip chunks).map (fun entry => (entry.1, entry.2.text))
        = (pipeline.windows words).zip (chunks.map (·.text)) := by
          rw [List.zip_map_right]
          rfl
      _ = (pipeline.windows words).zip
            ((pipeline.windows words).map fun window => window.chunk words) := by
          rw [texts, pieces_eq]
      _ = _ := List.map_prod_left_eq_zip.symm
  refine ⟨?_, ?_, ?_, ?_, ?_⟩
  · intro entry member
    exact pages _ (List.of_mem_zip member).2
  · intro entry member
    have inShown := List.mem_map_of_mem (f := fun entry : Window × Chunk =>
      (entry.1, entry.2.text)) member
    rw [shown] at inShown
    obtain ⟨window, _, same⟩ := List.mem_map.mp inShown
    obtain ⟨rfl, isText⟩ := Prod.mk.inj same
    exact isText.symm
  · intro entry member
    obtain ⟨before, isStop⟩ := mem_windowsFrom (List.of_mem_zip member).1
    obtain ⟨past, _, within⟩ := windowEnd_bounds pipeline before
    rw [isStop]
    exact ⟨past, within⟩
  · rw [List.map_fst_zip (Nat.le_of_eq lengths)]
    exact windows_cover pipeline words
  · rw [shown]
    exact withoutOverlaps_windows words fun _ member => isRun_of_mem_runs member

/-- The pieces of all segments, numbered through and made chunks of. -/
theorem holds_pieces {make : (Option Nat × String) × Nat → Chunk}
    (page : ∀ entry, (make entry).page = entry.1.1) (text : ∀ entry, (make entry).text = entry.1.2)
    (segments : List (Option Nat × String)) (first : Nat) :
    pipeline.Holds segments (((segments.flatMap fun segment =>
      (pipeline.pieces segment.2).map fun piece => (segment.1, piece)).zipIdx first).map make) := by
  induction segments generalizing first with
  | nil => exact ⟨[], rfl, .nil⟩
  | cons segment rest ih =>
      rw [List.flatMap_cons, List.zipIdx_append, List.map_append]
      let own := (pipeline.pieces segment.2).map fun piece => (segment.1, piece)
      obtain ⟨entries, same, covers⟩ := ih (first + own.length)
      have texts : ((own.zipIdx first).map make).map (·.text) = pipeline.pieces segment.2 := by
        have shown : ((own.zipIdx first).map make).map (·.text) =
            ((own.zipIdx first).map Prod.fst).map Prod.snd := by
          rw [List.map_map, List.map_map]
          exact List.map_congr_left fun entry _ => text entry
        rw [shown, List.zipIdx_map_fst, List.map_map]
        exact List.map_id _
      have pages : ∀ chunk ∈ (own.zipIdx first).map make, chunk.page = segment.1 := by
        intro chunk member
        obtain ⟨entry, inOwn, rfl⟩ := List.mem_map.mp member
        obtain ⟨piece, _, isPiece⟩ := List.mem_map.mp (List.fst_mem_of_mem_zipIdx inOwn)
        rw [page, ← isPiece]
      have whole := covers_segment segment pages texts
      refine ⟨_ :: entries, ?_, .cons whole covers⟩
      rw [List.flatten_cons, List.map_append, List.map_snd_zip, same]
      have lengths := congrArg List.length texts
      simp only [pieces_eq, List.length_map] at lengths ⊢
      exact Nat.le_of_eq lengths

theorem holds_ingested {hash : Sha256} {uuid4 : Nat → String} {createdAt : Time}
    {original : List UInt8} {segments : List (Option Nat × String)} {filename tenantId : String}
    {identity : Option String} {result : IngestResult}
    (success : ingestSegments hash pipeline.pieces uuid4 createdAt original segments filename
      tenantId identity = .ok result) : pipeline.Holds segments result.chunks := by
  unfold ingestSegments at success
  split at success
  · cases success
  · split at success
    · cases success
    · obtain rfl := Except.ok.inj success
      exact holds_pieces (fun _ => rfl) (fun _ => rfl) segments 0

/-- A chunk of a document is a window over the words of one of its segments. -/
theorem Holds.window {segments : List (Option Nat × String)} {chunks : List Chunk}
    (holds : pipeline.Holds segments chunks) {chunk : Chunk} (member : chunk ∈ chunks) :
    ∃ text, ∃ window : Window, (chunk.page, text) ∈ segments ∧ window.start < window.stop ∧
      window.stop ≤ (pageWords text).length ∧ chunk.text = window.chunk (pageWords text) := by
  obtain ⟨entries, rfl, covers⟩ := holds
  obtain ⟨⟨window, chunk⟩, inAll, rfl⟩ := List.mem_map.mp member
  obtain ⟨own, inEntries, inOwn⟩ := List.mem_flatten.mp inAll
  obtain ⟨lengths, alike⟩ := List.forall₂_iff_get.mp covers
  obtain ⟨index, isOwn⟩ := List.mem_iff_get.mp inEntries
  have inside : index < segments.length := index.isLt.trans_eq lengths.symm
  have whole := alike index inside index.isLt
  rw [isOwn] at whole
  have isPage := whole.page _ inOwn
  obtain ⟨starts, ends⟩ := whole.inside _ inOwn
  refine ⟨_, window, ?_, starts, ends, whole.text _ inOwn⟩
  rw [isPage]
  exact List.get_mem segments ⟨index, inside⟩

end RagIngestionPipeline

/-! ## The server -/

/-- Uploads are parsed, cut and identified as the application does. -/
structure Surroundings.Ingests (hash : Sha256) (library : ParserLibrary)
    (pipeline : RagIngestionPipeline) (surroundings : Surroundings) : Prop where
  hash : surroundings.services.hash = hash
  parse : ∃ sandbox, surroundings.services.parse = library.parse sandbox
  split : surroundings.services.split = pipeline.pieces

def ServerEvent.surroundings : ServerEvent → Surroundings
  | .request surroundings _ _ => surroundings
  | .job surroundings _ _ => surroundings

/-- A request of the run brought the bytes that the document was stored from. -/
def BroughtBytes (hash : Sha256) (events : List ServerEvent) (key : DocumentKey) (row : Version)
    (data : List UInt8) : Prop :=
  ∃ job : DocumentJob, job.BroughtBy events ∧ key.1 = strip job.payload.tenantId ∧
    row.sourceSystem = job.payload.sourceSystem.name ∧ row.sourceId = job.payload.source.id ∧
    job.payload.contentBase64 = some data ∧ row.contentSha256 = hash.hexdigest data

/-- The chunks hold the whole text that the parsers found in the bytes. -/
def HoldsText (library : ParserLibrary) (pipeline : RagIngestionPipeline) (data : List UInt8)
    (chunks : List Chunk) : Prop :=
  ∃ sandbox kind segments, library.Parsed sandbox data kind segments ∧
    pipeline.Holds segments chunks

theorem ServerEvent.upload_surroundings {application : Application} {event : ServerEvent}
    {surroundings : Surroundings} {job : DocumentJob}
    (isUpload : event.upload application = some (surroundings, job)) :
    event.surroundings = surroundings := by
  cases event with
  | job worker startedAt finishedAt =>
      obtain ⟨entry, _, same⟩ := Option.map_eq_some_iff.mp isUpload
      exact (Prod.mk.inj same).1
  | request asking endpoint request =>
      cases endpoint with
      | createDocument =>
          obtain ⟨read, _, same⟩ := Option.map_eq_some_iff.mp isUpload
          exact (Prod.mk.inj same).1
      | _ => cases isUpload

theorem prepare_holds {library : ParserLibrary} {pipeline : RagIngestionPipeline}
    {services : Services} (parses : ∃ sandbox, services.parse = library.parse sandbox)
    (splits : services.split = pipeline.pieces) {uuid4 : Nat → String} {createdAt : Time}
    {job : JobPayload} {data : List UInt8} {call : PersistCall}
    (success : prepare services uuid4 createdAt job data = .ok call) :
    HoldsText library pipeline data call.result.chunks := by
  obtain ⟨sandbox, isParse⟩ := parses
  obtain ⟨parsed, accepted, ingested⟩ := Except.bind_ok_iff.mp success
  obtain ⟨result, segmented, built⟩ := Except.bind_ok_iff.mp ingested
  rw [isParse] at accepted
  rw [splits] at segmented
  obtain ⟨kind, _, _, _, isText⟩ := ParserLibrary.parse_ok_iff.mp accepted
  have holds := RagIngestionPipeline.holds_ingested segmented
  split at built
  · cases built
  · obtain rfl := Except.ok.inj built
    exact ⟨sandbox, kind, parsed.segments, isText, holds⟩

theorem Application.holds_of_found {library : ParserLibrary} {pipeline : RagIngestionPipeline}
    {hash : Sha256} {configured state : Application} {events : List ServerEvent}
    (ingests : ∀ event ∈ events, event.surroundings.Ingests hash library pipeline)
    (ran : (server configured).exec (server configured).start events = some state)
    {key : DocumentKey} {row : Document} (found : state.memory.documents.find? key = some row) :
    ∃ data chunks, BroughtBytes hash events key row.toVersion data ∧
      state.memory.chunks.find? key = some chunks ∧ HoldsText library pipeline data chunks := by
  obtain ⟨past, event, future, before, _, surroundings, job, chunks, rfl, _, isUpload, brought,
    isChunks, stores, _⟩ := Application.uploaded_of_found ran found
  obtain ⟨modifiedAt, data, call, _, isData, prepared, digest, rfl⟩ := stores.prepared
  obtain ⟨asking, request, read, sent⟩ := brought
  have whole : past ++ event :: future = (past ++ [event]) ++ future := by
    rw [List.append_assoc]
    rfl
  have ingest := ingests event (List.mem_append_right _ List.mem_cons_self)
  rw [ServerEvent.upload_surroundings isUpload] at ingest
  rw [ingest.hash] at digest
  refine ⟨data, _, ⟨job, ⟨asking, request, read, ?_⟩, stores.tenant, stores.sourceSystem,
    stores.sourceId, isData, digest⟩, isChunks, prepare_holds ingest.parse ingest.split prepared⟩
  rw [whole]
  exact sent.imp (List.mem_append_left _) (List.mem_append_left _)

/-- Whatever requests come and whenever the worker runs: the chunks of every stored document hold
the whole text of bytes that a request brought, page by page. -/
theorem stored_documents_whole {library : ParserLibrary} {pipeline : RagIngestionPipeline}
    {hash : Sha256} {configured state : Application} {events : List ServerEvent}
    (ingests : ∀ event ∈ events, event.surroundings.Ingests hash library pipeline)
    (ran : (server configured).exec (server configured).start events = some state)
    {key : DocumentKey} {row : Document} (found : state.memory.documents.find? key = some row) :
    ∃ data chunks, BroughtBytes hash events key row.toVersion data ∧
      state.memory.chunks.find? key = some chunks ∧ HoldsText library pipeline data chunks :=
  Application.holds_of_found ingests ran found

/-- Nothing but text. -/
def textLibrary : ParserLibrary where
  lower := id
  decodeReplace _ := ""
  htmlEvents _ := .ok []
  pdfReader _ := .error "PdfReadError"

/-- The first source is cited. -/
def quotingReply (question : AnswerQuestion) : Except PyError (AnswerReply question) :=
  match question with
  | .remaining _ => .ok none
  | .complete .. => .ok (.ok { text := "A month [1]", model := "m" })
  | .spend .. => .ok ()
  | _ => .error (.other "unreachable")

def quotingServer : Surroundings :=
  { Application.unreadable with
    services := { oneLine with parse := textLibrary.parse fun _ _ => .timedOut
                               split := twoWords.pieces }
    score := fun _ _ => 1
    encode := fun text => .ok text.toUTF8.data.toList
    reply := fun _ question => quotingReply question }

def noticeUpload : Request where
  payload := [("filename", .string "notice.txt"), ("content", .string "Notice is a month.")]
  principal := some { tenantId := "t", userId := "u" }

def noticeRun : List ServerEvent := [.request quotingServer .createDocument noticeUpload]

theorem noticeRun_ingests : ∀ event ∈ noticeRun,
    event.surroundings.Ingests .spelling textLibrary twoWords :=
  List.forall_mem_singleton.mpr ⟨rfl, ⟨_, rfl⟩, rfl⟩

/-- The two chunks of the notice. -/
theorem notice_stored_whole : ∃ state key row,
    (server Application.emptyApplication).exec (server Application.emptyApplication).start
        noticeRun = some state ∧
      state.memory.documents.find? key = some row ∧ row.source = "notice.txt" ∧
      ∃ data chunks, BroughtBytes .spelling noticeRun key row.toVersion data ∧
        state.memory.chunks.find? key = some chunks ∧
        HoldsText textLibrary twoWords data chunks := by
  have runs : (((server Application.emptyApplication).exec
      (server Application.emptyApplication).start noticeRun).bind fun state =>
        state.memory.documents.entries.head?.map (·.2.source)) = some "notice.txt" := by
    decide +kernel
  obtain ⟨state, ran, runs⟩ := Option.bind_eq_some_iff.mp runs
  obtain ⟨⟨key, row⟩, isEntry, name⟩ := Option.map_eq_some_iff.mp runs
  have found := Table.find?_eq_some_iff.mpr (List.mem_of_head? isEntry)
  exact ⟨state, key, row, ran, found, name, stored_documents_whole noticeRun_ingests ran found⟩

/-- What `/v1/query` and `/v1/chat` cite are words of the page that they name, of a document that
the principal may read and a request uploaded. -/
theorem citations_quote_pages {library : ParserLibrary} {pipeline : RagIngestionPipeline}
    {hash : Sha256} {configured state after : Application} {events : List ServerEvent}
    (ingests : ∀ event ∈ events, event.surroundings.Ingests hash library pipeline)
    (ran : (server configured).exec (server configured).start events = some state)
    {surroundings : Surroundings} {request : Request} {isChat : Bool} {status : Nat}
    {response : AnswerResponse} {principal : Principal} (known : request.principal = some principal)
    (served : Application.answerTo surroundings state request isChat =
      (.ok (status, .answered response), after))
    {citation : Citation} (cited : citation ∈ response.citations) :
    ∃ row data text, ∃ window : Window,
      state.memory.documents.find? (principal.tenantId, citation.documentId) = some row ∧
        (row.allowedGroups = [] ∨ ∃ group ∈ row.allowedGroups, group ∈ principal.groups) ∧
        BroughtBytes hash events (principal.tenantId, citation.documentId) row.toVersion data ∧
        library.OnPage data citation.page text ∧
        window.start < window.stop ∧ window.stop ≤ (pageWords text).length ∧
        citation.excerpt = sliceTo (window.chunk (pageWords text)) 240 := by
  have hashes : (server configured).Meets (fun _ event => event.Hashes hash)
      (server configured).start events := by
    refine System.meets_of_forall fun past event future middle whole _ => ?_
    have ingest := ingests event (whole ▸ List.mem_append_right _ List.mem_cons_self)
    cases event with
    | request _ _ _ => exact ingest.hash
    | job _ _ _ => exact ingest.hash
  have sound := InMemoryStore.sound_of_server ⟨events, ran, hashes⟩
  obtain ⟨chunk, permitted, shows⟩ := Application.answerTo_shown known sound served citation cited
  have memory : after.memory = state.memory := by
    have same : (Application.answerTo surroundings state request isChat).2.memory = state.memory :=
      Application.answerTo_memory isChat
    rw [served] at same
    exact same
  rw [memory] at permitted
  obtain ⟨key, row, stored, original, found, tenant, _, groups, isStored, member, rfl⟩ := permitted
  have documentId := (sound.own key stored isStored).document original member
  have isKey : key = (principal.tenantId, citation.documentId) :=
    Prod.ext tenant (documentId.symm.trans shows.documentId.symm)
  subst isKey
  obtain ⟨data, chunks, brought, isChunks, _, kind, segments, parsed, holds⟩ :=
    Application.holds_of_found ingests ran found
  obtain rfl := Option.some.inj (isStored.symm.trans isChunks)
  obtain ⟨text, window, inSegments, starts, ends, isText⟩ := holds.window member
  refine ⟨row, data, text, window, found, groups, brought, ?_, starts, ends, ?_⟩
  · rw [shows.page]
    exact parsed.onPage inSegments
  · rw [shows.excerpt, ← isText]

/-- The first chunk of the notice is cited. -/
theorem notice_quoted : ∃ state status response after,
    (server Application.emptyApplication).exec (server Application.emptyApplication).start
        noticeRun = some state ∧
      Application.answerTo quotingServer state noticeQuestion false =
        (.ok (status, .answered response), after) ∧
      ∃ citation ∈ response.citations, citation.excerpt = "Notice is" ∧
        ∃ row data text, ∃ window : Window,
          state.memory.documents.find? ("t", citation.documentId) = some row ∧
            (row.allowedGroups = [] ∨ ∃ group ∈ row.allowedGroups, group ∈ []) ∧
            BroughtBytes .spelling noticeRun ("t", citation.documentId) row.toVersion data ∧
            textLibrary.OnPage data citation.page text ∧
            window.start < window.stop ∧ window.stop ≤ (pageWords text).length ∧
            citation.excerpt = sliceTo (window.chunk (pageWords text)) 240 := by
  have runs : (((server Application.emptyApplication).exec
      (server Application.emptyApplication).start noticeRun).bind fun state =>
        (Application.answerTo quotingServer state noticeQuestion false).1.toOption.bind fun out =>
          out.2.answered?.bind fun response => response.citations.head?.map (·.excerpt)) =
      some "Notice is" := by
    decide +kernel
  obtain ⟨state, ran, runs⟩ := Option.bind_eq_some_iff.mp runs
  obtain ⟨⟨status, body⟩, isBody, runs⟩ := Option.bind_eq_some_iff.mp runs
  obtain ⟨response, isResponse, runs⟩ := Option.bind_eq_some_iff.mp runs
  obtain ⟨citation, isFirst, isExcerpt⟩ := Option.map_eq_some_iff.mp runs
  have served : Application.answerTo quotingServer state noticeQuestion false =
      (.ok (status, .answered response),
        (Application.answerTo quotingServer state noticeQuestion false).2) := by
    refine Prod.ext ?_ rfl
    cases answer : (Application.answerTo quotingServer state noticeQuestion false).1 with
    | error e =>
        rw [answer] at isBody
        cases isBody
    | ok given =>
        rw [answer] at isBody
        obtain rfl := Option.some.inj isBody
        cases body with
        | answered given => rw [Option.some.inj isResponse]
        | _ => cases isResponse
  have cited := List.mem_of_head? isFirst
  exact ⟨state, status, response, _, ran, served, citation, cited, isExcerpt,
    citations_quote_pages noticeRun_ingests ran rfl served cited⟩

end ProductionRag
