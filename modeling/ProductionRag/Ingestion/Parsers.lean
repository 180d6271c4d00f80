import ProductionRag.Api.Ingest
import ProductionRag.Digits
import ProductionRag.Ingestion.Html
import ProductionRag.Ingestion.Split

/-!
# From uploaded bytes to pages

The bytes of an upload say what it is, and a declared type or an extension may only agree.
Text is decoded here; PDF and HTML are parsed in a process of their own, which may run out of
time or be killed.  The reader of PDF files and the tokenizer of HTML are parameters.
-/

set_option autoImplicit false

namespace ProductionRag

open Basis

/-! ## What the bytes are -/

inductive DocumentKind where
  | pdf | html | markdown | text
  deriving DecidableEq, Repr

namespace DocumentKind

def contentType : DocumentKind → String
  | pdf => "application/pdf"
  | html => "text/html"
  | markdown => "text/markdown"
  | text => "text/plain"

def ofContentType (declared : String) : Option DocumentKind :=
  [pdf, html, markdown, text].find? fun kind => kind.contentType = declared

/-- The `EXTENSIONS`. -/
def extensions : List (String × DocumentKind) :=
  [(".pdf", pdf), (".html", html), (".htm", html), (".md", markdown), (".markdown", markdown),
    (".txt", text)]

def ofExtension (suffix : String) : Option DocumentKind :=
  (extensions.find? fun entry => entry.1 = suffix).map Prod.snd

def textual (kind : DocumentKind) : Bool := kind = text ∨ kind = markdown

/-- The two are the same, or both of them plain text. -/
def agrees (claimed kind : DocumentKind) : Bool :=
  claimed = kind ∨ (claimed.textual ∧ kind.textual)

end DocumentKind

/-- A `bytes` literal. -/
def byteString (text : String) : List UInt8 := text.toList.map fun c => UInt8.ofNat c.toNat

def pdfSignature : List UInt8 := byteString "%PDF-"

def rejectedSignatures : List (List UInt8) :=
  ["PK\x03\x04", "MZ", "\x7fELF", "\u0089PNG", "GIF8", "\u00ff\u00d8\u00ff"].map byteString

/-- `\s` of a `bytes` pattern -/
def isByteSpace (b : UInt8) : Bool := b == 32 || (9 ≤ b && b ≤ 13)

/-- A character of a `bytes` pattern under `re.I`. -/
def ignoreByteCase (letter : Char) (b : UInt8) : Bool :=
  b.toNat == letter.toNat || b.toNat == letter.toUpper.toNat

def byteLetters (word : String) : Regex UInt8 :=
  word.toList.foldr (fun letter rest => .seq (.char (ignoreByteCase letter)) rest) .empty

/-- `\s*(<!doctype\s+html|<html[\s>])` -/
def htmlOpening : Regex UInt8 :=
  .seq (.star (.char isByteSpace))
    (.alt
      (.seq (byteLetters "<!doctype") (.seq (.plus (.char isByteSpace)) (byteLetters "html")))
      (.seq (byteLetters "<html") (.char fun b => isByteSpace b || b.toNat == '>'.toNat)))

/-- `data.decode("utf-8", errors="strict")` -/
def decodeUtf8 (data : List UInt8) : Option String := String.fromUTF8? ⟨data.toArray⟩

theorem decodeUtf8_encoded (text : String) :
    decodeUtf8 text.toUTF8.data.toList = some text := by
  have valid : text.toUTF8.IsValidUTF8 := text.isValidUTF8
  rw [decodeUtf8, Array.toArray_toList, String.fromUTF8?, dif_pos valid]
  rfl

/-- `Path(filename).name` -/
def pathName (filename : String) : List Char :=
  ((filename.toList.splitOn '/').filter fun part => part ≠ [] ∧ part ≠ ['.']).getLast?.getD []

/-- `Path(filename).suffix` -/
def pathSuffix (filename : String) : String :=
  let name := pathName filename
  let suffix := (name.reverse.takeWhile (· ≠ '.')).reverse
  let before := name.length - (suffix.length + 1)
  if suffix.length + 1 ≤ name.length ∧ 0 < before ∧ suffix ≠ [] then String.ofList ('.' :: suffix)
  else ""

/-- What the parsers take from libraries; an exception is known by its class. -/
structure ParserLibrary where
  /-- `str.lower` -/
  lower : String → String
  /-- `data.decode("utf-8", errors="replace")` -/
  decodeReplace : List UInt8 → String
  /-- `HTMLParser.feed` and `close` -/
  htmlEvents : String → Except String (List HtmlEvent)
  /-- `PdfReader`: whether the file is encrypted, and the text of each page. -/
  pdfReader : List UInt8 → Except String (Bool × List (Except String (Option String)))

/-- How the process of the parser ends, if it does. -/
inductive SandboxEnd where
  | timedOut
  | failed (stderr : String)
  | exited (logged : String)

abbrev Sandbox := DocumentKind → List UInt8 → SandboxEnd

namespace ParserLibrary

variable (library : ParserLibrary)

def unsupportedDocument (message : String) : PyError := .valueError message

/-- The first part of `sniff`. -/
def sniffBytes (data : List UInt8) (filename : String) : Except PyError DocumentKind :=
  if pdfSignature <+: data then .ok .pdf
  else if rejectedSignatures.any fun signature => signature <+: data then
    .error (unsupportedDocument "unsupported file type")
  else if htmlOpening.starts (data.take 1024) then .ok .html
  else if (decodeUtf8 data).isNone then
    .error (unsupportedDocument "text documents must be valid UTF-8")
  else
    .ok (if library.lower (pathSuffix filename) ∈ [".md", ".markdown"] then .markdown else .text)

/-- `declared.split(";")[0].strip().lower()` -/
def declaredType (declared : String) : String :=
  library.lower (strip (String.ofList (declared.toList.takeWhile (· ≠ ';'))))

def sniff (data : List UInt8) (filename : String) (declared : Option String) :
    Except PyError DocumentKind := do
  let kind ← library.sniffBytes data filename
  if (DocumentKind.ofExtension (library.lower (pathSuffix filename))).any fun extension =>
      !extension.agrees kind then
    .error (unsupportedDocument
      ("file extension does not match its " ++ kind.contentType ++ " content"))
  else
    match declared.filter (· ≠ "") with
    | none => .ok kind
    | some declared =>
      match DocumentKind.ofContentType (library.declaredType declared) with
      | none =>
        .error (unsupportedDocument ("unsupported content type " ++ library.declaredType declared))
      | some claimed =>
        if claimed.agrees kind then .ok kind
        else .error (unsupportedDocument "declared content type does not match the content")

end ParserLibrary

/-! ## The pages of a PDF file -/

/-- How the process of the parser reports a failure: exit code 2 or 3. -/
inductive ParserFailure where
  | unsupported (message : String)
  | raised (name : String)
  deriving DecidableEq, Repr

/-- What is printed to `stderr`. -/
def ParserFailure.line : ParserFailure → String
  | unsupported message => message
  | raised name => name

def maxPages : Nat := 500

/-- `(page.extract_text() or "").strip()` -/
def pageText (extracted : Option String) : String := strip (extracted.getD "")

/-- The loop of `parse_pdf`. -/
def readPages : Nat → Nat → List (Option Nat × String) → List (Except String (Option String)) →
    Except ParserFailure (List (Option Nat × String))
  | _, _, segments, [] => .ok segments
  | _, _, _, .error name :: _ => .error (.raised name)
  | number, total, segments, .ok extracted :: rest =>
    let text := pageText extracted
    if maxExtractedChars < total + text.length then
      .error (.unsupported "document has too much text")
    else
      readPages (number + 1) (total + text.length)
        (if text = "" then segments else segments ++ [(some number, text)]) rest

/-- The segments of pages with these texts. -/
def numbered (number : Nat) (texts : List String) : List (Option Nat × String) :=
  ((texts.zipIdx number).filter fun page => page.1 ≠ "").map fun page => (some page.2, page.1)

/-- The number of characters on the pages. -/
def charsOf (texts : List String) : Nat := (texts.map String.length).sum

theorem numbered_cons (number : Nat) (text : String) (texts : List String) :
    numbered number (text :: texts) =
      (if text = "" then [] else [(some number, text)]) ++ numbered (number + 1) texts := by
  rw [numbered, List.zipIdx_cons]
  by_cases blank : text = ""
  · rw [List.filter_cons_of_neg (by simp [blank]), if_pos blank]
    rfl
  · rw [List.filter_cons_of_pos (by simp [blank]), if_neg blank]
    rfl

theorem mem_numbered {first : Nat} {texts : List String} {page : Option Nat} {text : String} :
    (page, text) ∈ numbered first texts ↔
      ∃ index, texts[index]? = some text ∧ page = some (first + index) ∧ text ≠ "" := by
  rw [numbered, List.mem_map]
  constructor
  · rintro ⟨⟨shown, number⟩, member, same⟩
    obtain ⟨rfl, rfl⟩ := Prod.mk.inj same
    obtain ⟨inPages, nonblank⟩ := List.mem_filter.mp member
    obtain ⟨atLeast, found⟩ := List.mk_mem_zipIdx_iff_le_and_getElem?_sub.mp inPages
    exact ⟨number - first, found, congrArg some (by omega), of_decide_eq_true nonblank⟩
  · rintro ⟨index, found, rfl, nonblank⟩
    refine ⟨(text, first + index), List.mem_filter.mpr ⟨?_, decide_eq_true nonblank⟩, rfl⟩
    exact List.mk_mem_zipIdx_iff_le_and_getElem?_sub.mpr
      ⟨Nat.le_add_right _ _, by rwa [Nat.add_sub_cancel_left]⟩

/-- How the loop ends: all pages are read, or one of them ends it. -/
inductive ReadsPages (number total : Nat) (segments : List (Option Nat × String))
    (pages : List (Except String (Option String))) :
    Except ParserFailure (List (Option Nat × String)) → Prop where
  | all (extracted : List (Option String)) (read : pages = extracted.map Except.ok)
      (fits : total + charsOf (extracted.map pageText) ≤ maxExtractedChars) :
      ReadsPages number total segments pages
        (.ok (segments ++ numbered number (extracted.map pageText)))
  | tooMuch (extracted : List (Option String)) (rest : List (Except String (Option String)))
      (read : pages = extracted.map Except.ok ++ rest)
      (exceeds : maxExtractedChars < total + charsOf (extracted.map pageText)) :
      ReadsPages number total segments pages
        (.error (.unsupported "document has too much text"))
  | raised (extracted : List (Option String)) (name : String)
      (rest : List (Except String (Option String)))
      (read : pages = extracted.map Except.ok ++ .error name :: rest)
      (fits : total + charsOf (extracted.map pageText) ≤ maxExtractedChars) :
      ReadsPages number total segments pages (.error (.raised name))

theorem readPages_reads (number total : Nat) (segments : List (Option Nat × String))
    (pages : List (Except String (Option String))) (fits : total ≤ maxExtractedChars) :
    ReadsPages number total segments pages (readPages number total segments pages) := by
  induction pages generalizing number total segments with
  | nil =>
      have all : ReadsPages number total segments [] (.ok (segments ++ numbered number [])) :=
        .all [] rfl fits
      rwa [show numbered number [] = [] from rfl, List.append_nil] at all
  | cons page rest ih =>
      cases page with
      | error name => exact .raised [] name rest rfl fits
      | ok extracted =>
          rw [readPages]
          by_cases exceeds : maxExtractedChars < total + (pageText extracted).length
          · rw [if_pos exceeds]
            exact .tooMuch [extracted] rest rfl (by simpa [charsOf] using exceeds)
          · rw [if_neg exceeds]
            have sum : ∀ texts : List String, total + charsOf (pageText extracted :: texts) =
                total + (pageText extracted).length + charsOf texts := by
              intro texts
              rw [charsOf, List.map_cons, List.sum_cons, Nat.add_assoc]
              rfl
            have later := ih (number + 1) (total + (pageText extracted).length)
              (if pageText extracted = "" then segments
                else segments ++ [(some number, pageText extracted)]) (Nat.le_of_not_lt exceeds)
            generalize readPages (number + 1) (total + (pageText extracted).length) _ rest =
              result at later ⊢
            cases later with
            | all others read fits =>
                have all : ReadsPages number total segments (.ok extracted :: rest)
                    (.ok (segments ++ numbered number ((extracted :: others).map pageText))) :=
                  .all (extracted :: others) (by rw [read, List.map_cons])
                    (by rwa [List.map_cons, sum])
                rw [List.map_cons, numbered_cons, ← List.append_assoc] at all
                convert all using 3
                split
                · rw [List.append_nil]
                · rfl
            | tooMuch others left read exceeds =>
                exact .tooMuch (extracted :: others) left (by rw [read]; rfl)
                  (by rwa [List.map_cons, sum])
            | raised others name left read fits =>
                exact .raised (extracted :: others) name left (by rw [read]; rfl)
                  (by rwa [List.map_cons, sum])

theorem charsOf_append (texts more : List String) :
    charsOf (texts ++ more) = charsOf texts + charsOf more := by
  rw [charsOf, List.map_append, List.sum_append]
  rfl

/-- The pages are read exactly if each of them has a text and they are not too long. -/
theorem readPages_ok_iff {pages : List (Except String (Option String))}
    {result : List (Option Nat × String)} :
    readPages 1 0 [] pages = .ok result ↔
      ∃ extracted : List (Option String), pages = extracted.map Except.ok ∧
        charsOf (extracted.map pageText) ≤ maxExtractedChars ∧
        result = numbered 1 (extracted.map pageText) := by
  have reads := readPages_reads 1 0 [] pages (Nat.zero_le _)
  constructor
  · intro success
    rw [success] at reads
    cases reads with
    | all extracted read fits => exact ⟨extracted, read, by omega, List.nil_append _⟩
  · rintro ⟨extracted, rfl, fits, rfl⟩
    have okInjective : Function.Injective
        (List.map fun text => (.ok text : Except String (Option String))) :=
      List.map_injective_iff.mpr fun _ _ same => Except.ok.inj same
    generalize readPages 1 0 [] (extracted.map Except.ok) = outcome at reads ⊢
    cases reads with
    | all others read _ =>
        rw [okInjective read]
        rfl
    | tooMuch others rest read exceeds =>
        obtain ⟨first, last, rfl, isFirst, _⟩ := List.map_eq_append_iff.mp read
        rw [okInjective isFirst, List.map_append, charsOf_append] at fits
        omega
    | raised others name rest read _ =>
        have member : (.error name : Except String (Option String)) ∈ extracted.map Except.ok := by
          rw [read]
          exact List.mem_append_right _ List.mem_cons_self
        obtain ⟨_, _, wrong⟩ := List.mem_map.mp member
        cases wrong

namespace ParserLibrary

variable (library : ParserLibrary)

def parsePdf (data : List UInt8) : Except ParserFailure (List (Option Nat × String)) :=
  match library.pdfReader data with
  | .error name => .error (.raised name)
  | .ok (isEncrypted, pages) =>
    if isEncrypted then .error (.unsupported "encrypted PDFs are not supported")
    else readPages 1 0 [] (pages.take maxPages)

/-- `_main`, up to its exit code. -/
def main (kind : DocumentKind) (data : List UInt8) :
    Except ParserFailure (List (Option Nat × String)) :=
  match kind with
  | .pdf => library.parsePdf data
  | _ =>
    match library.htmlEvents (library.decodeReplace data) with
    | .error name => .error (.raised name)
    | .ok events => .ok (parseHtml events)

/-- The error for a process that did not exit with 0. -/
def couldNotParse (stderr : String) : PyError :=
  let message := splitlines (strip stderr).toList
  let reason := (message.getLast?.map String.ofList).getD "parser crashed"
  unsupportedDocument ("could not parse document: " ++ sliceTo reason 200)

def runSandboxed (sandbox : Sandbox) (kind : DocumentKind) (data : List UInt8) :
    Except PyError (List (Option Nat × String)) :=
  match sandbox kind data with
  | .timedOut => .error (unsupportedDocument "document parsing timed out")
  | .failed stderr => .error (couldNotParse stderr)
  | .exited logged =>
    (library.main kind data).mapError fun failure =>
      couldNotParse (logged ++ failure.line ++ "\n")

def segmentsOf (sandbox : Sandbox) (kind : DocumentKind) (data : List UInt8) :
    Except PyError (List (Option Nat × String)) :=
  if kind.textual then
    match decodeUtf8 data with
    | some text => .ok [(none, text)]
    | none => .error (.unicodeError "invalid utf-8")
  else library.runSandboxed sandbox kind data

def parse (sandbox : Sandbox) (data : List UInt8) (filename : String) (declared : Option String) :
    Except PyError ParsedDocument := do
  let kind ← library.sniff data filename declared
  let segments ← library.segmentsOf sandbox kind data
  .ok ⟨kind.contentType, segments⟩

/-! ## What is accepted -/

/-- What a PDF file without a password has on its first pages. -/
def PdfTexts (data : List UInt8) (texts : List String) : Prop :=
  ∃ pages, ∃ extracted : List (Option String), library.pdfReader data = .ok (false, pages) ∧
    pages.take maxPages = extracted.map Except.ok ∧ texts = extracted.map pageText

/-- The extension and the declared type say nothing else than the bytes. -/
structure Claimed (filename : String) (declared : Option String) (kind : DocumentKind) :
    Prop where
  extension : ∀ claimed,
    DocumentKind.ofExtension (library.lower (pathSuffix filename)) = some claimed →
      claimed.agrees kind = true
  declared : ∀ text, declared = some text → text ≠ "" → ∃ claimed,
    DocumentKind.ofContentType (library.declaredType text) = some claimed ∧
      claimed.agrees kind = true

/-- The segments of a document of the kind. -/
inductive Parsed (sandbox : Sandbox) (data : List UInt8) :
    DocumentKind → List (Option Nat × String) → Prop where
  | text (kind : DocumentKind) (textual : kind.textual = true) (text : String)
      (decoded : decodeUtf8 data = some text) : Parsed sandbox data kind [(none, text)]
  | html (logged : String) (exited : sandbox .html data = .exited logged)
      (events : List HtmlEvent)
      (tokenized : library.htmlEvents (library.decodeReplace data) = .ok events) :
      Parsed sandbox data .html (parseHtml events)
  | pdf (logged : String) (exited : sandbox .pdf data = .exited logged) (texts : List String)
      (reads : library.PdfTexts data texts) (fits : charsOf texts ≤ maxExtractedChars) :
      Parsed sandbox data .pdf (numbered 1 texts)

/-- The text stands on the page of the document; pages without number are whole documents. -/
inductive OnPage (data : List UInt8) : Option Nat → String → Prop where
  | text (text : String) (decoded : decodeUtf8 data = some text) : OnPage data none text
  | html (events : List HtmlEvent)
      (tokenized : library.htmlEvents (library.decodeReplace data) = .ok events)
      (page : Option Nat) (text : String) (shown : (page, text) ∈ parseHtml events) :
      OnPage data page text
  | pdf (pages : List (Except String (Option String))) (number : Nat)
      (opened : library.pdfReader data = .ok (false, pages)) (first : 1 ≤ number)
      (last : number ≤ maxPages) (extracted : Option String)
      (there : pages[number - 1]? = some (.ok extracted)) (nonblank : pageText extracted ≠ "") :
      OnPage data (some number) (pageText extracted)

variable {library} {sandbox : Sandbox} {data : List UInt8} {filename : String}
  {declared : Option String} {kind : DocumentKind} {segments : List (Option Nat × String)}

theorem sniff_ok_iff :
    library.sniff data filename declared = .ok kind ↔
      library.sniffBytes data filename = .ok kind ∧ library.Claimed filename declared kind := by
  rw [sniff, Except.bind_ok_iff]
  constructor
  · rintro ⟨found, isFound, rest⟩
    split at rest
    · cases rest
    · rename_i agreed
      have extension : ∀ claimed,
          DocumentKind.ofExtension (library.lower (pathSuffix filename)) = some claimed →
            claimed.agrees found = true := by
        intro claimed isClaimed
        by_contra apart
        exact agreed ((Option.any_eq_true _ _).mpr ⟨claimed, isClaimed, by simp [apart]⟩)
      cases stated : declared.filter (· ≠ "") with
      | none =>
          simp only [stated] at rest
          obtain rfl := Except.ok.inj rest
          refine ⟨isFound, extension, fun text isText nonempty => ?_⟩
          rw [isText, Option.filter_some, if_pos (decide_eq_true nonempty)] at stated
          cases stated
      | some text =>
          simp only [stated] at rest
          obtain ⟨isText, _⟩ := Option.filter_eq_some_iff.mp stated
          split at rest
          · cases rest
          · rename_i claimed isClaimed
            split at rest
            · rename_i agrees
              obtain rfl := Except.ok.inj rest
              refine ⟨isFound, extension, fun other isOther _ => ⟨claimed, ?_, agrees⟩⟩
              rw [isText] at isOther
              obtain rfl := Option.some.inj isOther
              exact isClaimed
            · cases rest
  · rintro ⟨isFound, claims⟩
    refine ⟨kind, isFound, ?_⟩
    rw [if_neg]
    · cases stated : declared.filter (· ≠ "") with
      | none => rfl
      | some text =>
          obtain ⟨isText, nonempty⟩ := Option.filter_eq_some_iff.mp stated
          obtain ⟨claimed, isClaimed, agrees⟩ :=
            claims.declared text isText (of_decide_eq_true nonempty)
          simp only [isClaimed, if_pos agrees]
    · intro apart
      obtain ⟨claimed, isClaimed, differs⟩ := (Option.any_eq_true _ _).mp apart
      rw [claims.extension claimed isClaimed] at differs
      cases differs

theorem parsePdf_ok_iff :
    library.parsePdf data = .ok segments ↔ ∃ texts, library.PdfTexts data texts ∧
      charsOf texts ≤ maxExtractedChars ∧ segments = numbered 1 texts := by
  constructor
  · intro success
    unfold parsePdf at success
    split at success
    · cases success
    · rename_i isEncrypted pages opened
      split at success
      · cases success
      · rename_i isOpen
        obtain ⟨extracted, read, fits, rfl⟩ := readPages_ok_iff.mp success
        rw [Bool.not_eq_true] at isOpen
        rw [isOpen] at opened
        exact ⟨_, ⟨pages, extracted, opened, read, rfl⟩, fits, rfl⟩
  · rintro ⟨_, ⟨pages, extracted, opened, read, rfl⟩, fits, rfl⟩
    simp only [parsePdf, opened]
    exact readPages_ok_iff.mpr ⟨extracted, read, fits, rfl⟩

theorem runSandboxed_ok_iff :
    library.runSandboxed sandbox kind data = .ok segments ↔
      ∃ logged, sandbox kind data = .exited logged ∧ library.main kind data = .ok segments := by
  unfold runSandboxed
  cases ended : sandbox kind data with
  | timedOut => exact ⟨fun wrong => (nomatch wrong), fun ⟨_, wrong, _⟩ => (nomatch wrong)⟩
  | failed stderr => exact ⟨fun wrong => (nomatch wrong), fun ⟨_, wrong, _⟩ => (nomatch wrong)⟩
  | exited logged =>
      cases finished : library.main kind data with
      | error failure => exact ⟨fun wrong => (nomatch wrong), fun ⟨_, _, wrong⟩ => (nomatch wrong)⟩
      | ok found =>
          constructor
          · intro success
            exact ⟨logged, rfl, congrArg Except.ok (Except.ok.inj success)⟩
          · rintro ⟨_, _, same⟩
            exact congrArg Except.ok (Except.ok.inj same)

theorem segmentsOf_ok_iff :
    library.segmentsOf sandbox kind data = .ok segments ↔
      library.Parsed sandbox data kind segments := by
  rw [segmentsOf]
  constructor
  · intro success
    split at success
    · rename_i textual
      split at success
      · rename_i text decoded
        obtain rfl := Except.ok.inj success
        exact .text kind textual text decoded
      · cases success
    · rename_i marked
      obtain ⟨logged, exited, finished⟩ := runSandboxed_ok_iff.mp success
      cases kind with
      | pdf =>
          obtain ⟨texts, reads, fits, rfl⟩ := parsePdf_ok_iff.mp finished
          exact .pdf logged exited texts reads fits
      | html =>
          dsimp only [main] at finished
          split at finished
          · cases finished
          · rename_i events tokenized
            obtain rfl := Except.ok.inj finished
            exact .html logged exited events tokenized
      | markdown => exact absurd rfl marked
      | text => exact absurd rfl marked
  · intro parsed
    cases parsed with
    | text _ textual text decoded => rw [if_pos textual, decoded]
    | html logged exited events tokenized =>
        refine runSandboxed_ok_iff.mpr ⟨logged, exited, ?_⟩
        simp only [main, tokenized]
    | pdf logged exited texts reads fits =>
        refine runSandboxed_ok_iff.mpr ⟨logged, exited, ?_⟩
        exact parsePdf_ok_iff.mpr ⟨texts, reads, fits, rfl⟩

/-- What the parsers accept, and what they make of it. -/
theorem parse_ok_iff {document : ParsedDocument} :
    library.parse sandbox data filename declared = .ok document ↔
      ∃ kind, library.sniffBytes data filename = .ok kind ∧
        library.Claimed filename declared kind ∧ document.contentType = kind.contentType ∧
        library.Parsed sandbox data kind document.segments := by
  rw [parse, Except.bind_ok_iff]
  constructor
  · rintro ⟨kind, sniffed, rest⟩
    obtain ⟨segments, found, same⟩ := Except.bind_ok_iff.mp rest
    obtain rfl := Except.ok.inj same
    obtain ⟨isKind, claims⟩ := sniff_ok_iff.mp sniffed
    exact ⟨kind, isKind, claims, rfl, segmentsOf_ok_iff.mp found⟩
  · rintro ⟨kind, isKind, claims, isType, parsed⟩
    refine ⟨kind, sniff_ok_iff.mpr ⟨isKind, claims⟩, ?_⟩
    refine Except.bind_ok_iff.mpr ⟨document.segments, segmentsOf_ok_iff.mpr parsed, ?_⟩
    rw [← isType]

/-- A segment shows the page that it names. -/
theorem Parsed.onPage (parsed : library.Parsed sandbox data kind segments) {page : Option Nat}
    {text : String} (member : (page, text) ∈ segments) : library.OnPage data page text := by
  cases parsed with
  | text _ _ whole decoded =>
      obtain ⟨rfl, rfl⟩ := Prod.mk.inj (List.mem_singleton.mp member)
      exact .text text decoded
  | html _ _ events tokenized => exact .html events tokenized page text member
  | pdf _ _ texts reads _ =>
      obtain ⟨pages, extracted, opened, read, rfl⟩ := reads
      obtain ⟨index, found, rfl, nonblank⟩ := mem_numbered.mp member
      rw [List.getElem?_map] at found
      obtain ⟨shown, there, rfl⟩ := Option.map_eq_some_iff.mp found
      have isPage : (pages.take maxPages)[index]? = some (.ok shown) := by
        rw [read, List.getElem?_map, there]
        rfl
      rw [List.getElem?_take] at isPage
      split at isPage
      · rename_i inside
        exact .pdf pages (1 + index) opened (Nat.le_add_right _ _) (by omega) shown
          (by rwa [Nat.add_sub_cancel_left]) nonblank
      · cases isPage

end ParserLibrary

end ProductionRag
