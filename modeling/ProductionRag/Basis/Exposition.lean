import ProductionRag.Basis.Decimals

/-!
# The text format of metrics

A reader of the line-oriented text that metrics are scraped as.  A sample is a name, labels
in braces, and a number; a label value is quoted, and a backslash in it keeps the next quote or
backslash, or stands for a line break before an `n`.  Values that were quoted with
the first two escapes alone are read back as long as they have one line.
-/

set_option autoImplicit false

namespace Basis

/-- A sample line that was read. -/
structure Exposed where
  name : List Char
  labels : List (List Char × List Char)
  value : ℚ
  deriving DecidableEq

/-! ## Reading a line -/

def isBlank (c : Char) : Bool := c == ' ' || c == '\t'

def skipBlanks (text : List Char) : List Char := text.dropWhile isBlank

def isLabelStart (c : Char) : Bool := c.isAlpha || c == '_'

def isLabelChar (c : Char) : Bool := isLabelStart c || c.isDigit

def isMetricStart (c : Char) : Bool := isLabelStart c || c == ':'

def isMetricChar (c : Char) : Bool := isMetricStart c || c.isDigit

/-- A name in front of the text, and the text behind it. -/
def takeName (start inside : Char → Bool) : List Char → Option (List Char × List Char)
  | [] => none
  | c :: text => if start c then some (c :: text.takeWhile inside, text.dropWhile inside) else none

/-- The quoted value up to its closing quote, and the text behind it. -/
def labelValue : List Char → Option (List Char × List Char)
  | [] => none
  | '"' :: text => some ([], text)
  | '\\' :: '\\' :: text => (labelValue text).map fun found => ('\\' :: found.1, found.2)
  | '\\' :: '"' :: text => (labelValue text).map fun found => ('"' :: found.1, found.2)
  | '\\' :: 'n' :: text => (labelValue text).map fun found => ('\n' :: found.1, found.2)
  | '\\' :: _ => none
  | c :: text => (labelValue text).map fun found => (c :: found.1, found.2)

/-- `name="value"` in front of the text. -/
def labelPair (text : List Char) : Option ((List Char × List Char) × List Char) := do
  let (name, text) ← takeName isLabelStart isLabelChar text
  match skipBlanks text with
  | '=' :: text =>
    match skipBlanks text with
    | '"' :: text =>
      let (value, text) ← labelValue text
      some ((name, value), text)
    | _ => none
  | _ => none

/-- The labels up to the closing brace; a comma may come before it. -/
def labelPairs : ℕ → List Char → Option (List (List Char × List Char) × List Char)
  | 0, _ => none
  | limit + 1, text =>
    match skipBlanks text with
    | '}' :: text => some ([], text)
    | text => do
      let (pair, text) ← labelPair text
      match skipBlanks text with
      | ',' :: text =>
        let (pairs, text) ← labelPairs limit text
        some (pair :: pairs, text)
      | '}' :: text => some ([pair], text)
      | _ => none

def readLabels (text : List Char) : Option (List (List Char × List Char) × List Char) :=
  match skipBlanks text with
  | '{' :: text => labelPairs (text.length + 1) text
  | _ => some ([], text)

/-- The time a sample may carry behind its value. -/
def isTimestamp : List Char → Bool
  | [] => true
  | '-' :: text => (readDigits text).isSome
  | text => (readDigits text).isSome

def readValue (text : List Char) : Option ℚ :=
  let number := (skipBlanks text).takeWhile fun c => !isBlank c
  let behind := skipBlanks ((skipBlanks text).dropWhile fun c => !isBlank c)
  if isTimestamp (behind.takeWhile fun c => !isBlank c) &&
      (skipBlanks (behind.dropWhile fun c => !isBlank c)).isEmpty then
    readNumber number
  else none

def readSample (text : List Char) : Option Exposed := do
  let (name, text) ← takeName isMetricStart isMetricChar text
  let (labels, text) ← readLabels text
  let value ← readValue text
  some { name, labels, value }

/-- A sample, or no sample where the line is empty or a comment. -/
def readLine (line : List Char) : Option (Option Exposed) :=
  match skipBlanks line with
  | [] => some none
  | '#' :: _ => some none
  | text => (readSample text).map some

def readLines : List (List Char) → Option (List Exposed)
  | [] => some []
  | line :: lines => do
    let first ← readLine line
    let others ← readLines lines
    some (first.toList ++ others)

/-- The samples of a text, if every line can be read. -/
def readText (text : List Char) : Option (List Exposed) := readLines (text.splitOn '\n')

/-! ## Line by line -/

theorem readLines_append (lines others : List (List Char)) :
    readLines (lines ++ others) =
      (readLines lines).bind fun first => (readLines others).map (first ++ ·) := by
  induction lines with
  | nil => simp [readLines]
  | cons line lines ih =>
      simp only [List.cons_append, readLines, ih]
      cases readLine line with
      | none => rfl
      | some first =>
          cases readLines lines with
          | none => rfl
          | some middle =>
              cases readLines others <;> simp

/-- The first line of a text is read by itself. -/
theorem readText_append (line rest : List Char) :
    readText (line ++ '\n' :: rest) =
      (readText line).bind fun first => (readText rest).map (first ++ ·) := by
  rw [readText, List.splitOn_append_cons_self, readLines_append]
  rfl

theorem readText_line {line : List Char} (oneLine : '\n' ∉ line) :
    readText line = (readLine line).map Option.toList := by
  rw [readText, List.splitOn_eq_singleton oneLine, readLines, readLines]
  cases readLine line with
  | none => rfl
  | some sample => cases sample <;> rfl

/-- A text is not read when its first line is not. -/
theorem readText_of_first {line : List Char} (oneLine : '\n' ∉ line)
    (bad : readLine line = none) (rest : List Char) : readText (line ++ '\n' :: rest) = none := by
  rw [readText_append, readText_line oneLine, bad]
  rfl

/-! ## Quoted values -/

/-- Backslashes and quotes escaped, line breaks left as they are. -/
def quoteEscaped (value : List Char) : List Char :=
  value.flatMap fun c => if c = '\\' then ['\\', '\\'] else if c = '"' then ['\\', '"'] else [c]

theorem quoteEscaped_cons (c : Char) (value : List Char) :
    quoteEscaped (c :: value) =
      (if c = '\\' then ['\\', '\\'] else if c = '"' then ['\\', '"'] else [c]) ++
        quoteEscaped value := rfl

/-- What is escaped is read back, before whatever follows. -/
theorem labelValue_append (value tail : List Char) :
    labelValue (quoteEscaped value ++ tail) =
      (labelValue tail).map fun read => (value ++ read.1, read.2) := by
  induction value with
  | nil => exact Option.map_id'.symm
  | cons c value ih =>
      rw [quoteEscaped_cons]
      by_cases backslash : c = '\\'
      · subst backslash
        simp [labelValue, ih, Function.comp_def]
      · by_cases quote : c = '"'
        · subst quote
          simp [labelValue, ih, Function.comp_def]
        · simp [labelValue, backslash, quote, ih, Function.comp_def]

theorem labelValue_quoteEscaped (value rest : List Char) :
    labelValue (quoteEscaped value ++ '"' :: rest) = some (value, rest) := by
  rw [labelValue_append, labelValue, Option.map_some, List.append_nil]

/-- Without its closing quote a value does not end. -/
theorem labelValue_unclosed (value : List Char) : labelValue (quoteEscaped value) = none := by
  have ends := labelValue_append value []
  rwa [List.append_nil] at ends

theorem mem_quoteEscaped_lineBreak {value : List Char} :
    '\n' ∈ quoteEscaped value ↔ '\n' ∈ value := by
  rw [quoteEscaped, List.mem_flatMap]
  constructor
  · rintro ⟨c, member, inside⟩
    split_ifs at inside with backslash quote
    · simp at inside
    · simp at inside
    · rwa [List.mem_singleton.mp inside]
  · intro member
    exact ⟨'\n', member, by simp⟩

theorem quoteEscaped_append (value other : List Char) :
    quoteEscaped (value ++ other) = quoteEscaped value ++ quoteEscaped other :=
  List.flatMap_append

/-! ## Names -/

def isName (start inside : Char → Bool) : List Char → Bool
  | [] => false
  | c :: name => start c && name.all inside

def isLabelName : List Char → Bool := isName isLabelStart isLabelChar

def isMetricName : List Char → Bool := isName isMetricStart isMetricChar

theorem takeName_append {start inside : Char → Bool} {name : List Char}
    (named : isName start inside name = true) {c : Char} (stop : inside c = false)
    (rest : List Char) : takeName start inside (name ++ c :: rest) = some (name, c :: rest) := by
  cases name with
  | nil => cases named
  | cons first name =>
      rw [isName, Bool.and_eq_true, List.all_eq_true] at named
      obtain ⟨starts, inner⟩ := named
      rw [List.cons_append, takeName, if_pos starts, List.takeWhile_append_of_pos inner,
        List.dropWhile_append_of_pos inner]
      simp [stop]

/-- The characters of a name are none of those the format gives a meaning to. -/
theorem isMetricChar_of_mem {name : List Char} (named : isMetricName name = true) {c : Char}
    (member : c ∈ name) : isMetricChar c = true := by
  cases name with
  | nil => cases named
  | cons first name =>
      rw [isMetricName, isName, Bool.and_eq_true, List.all_eq_true] at named
      rcases List.mem_cons.mp member with rfl | inner
      · rw [isMetricChar, named.1, Bool.true_or]
      · exact named.2 c inner

theorem isMetricName_of_isLabelName {name : List Char} (named : isLabelName name = true) :
    isMetricName name = true := by
  cases name with
  | nil => cases named
  | cons first name =>
      rw [isLabelName, isName, Bool.and_eq_true, List.all_eq_true] at named
      rw [isMetricName, isName, Bool.and_eq_true, List.all_eq_true]
      refine ⟨by rw [isMetricStart, named.1, Bool.true_or], fun c member => ?_⟩
      have inner := named.2 c member
      rw [isLabelChar, Bool.or_eq_true] at inner
      rw [isMetricChar, isMetricStart]
      rcases inner with start | digit
      · simp [start]
      · simp [digit]

theorem skipBlanks_name {name : List Char} (named : isMetricName name = true)
    (rest : List Char) : skipBlanks (name ++ rest) = name ++ rest := by
  cases name with
  | nil => cases named
  | cons first name =>
      have start := isMetricChar_of_mem named (c := first) List.mem_cons_self
      have notBlank : isBlank first = false := by
        rw [← Bool.not_eq_true, isBlank, Bool.or_eq_true, beq_iff_eq, beq_iff_eq]
        rintro (rfl | rfl) <;> exact absurd start (by decide)
      rw [skipBlanks, List.cons_append, List.dropWhile_cons_of_neg (by simp [notBlank])]

/-! ## Labels -/

/-- `name="value"` with the closing quote left to come. -/
def openPair (pair : List Char × List Char) : List Char :=
  pair.1 ++ '=' :: '"' :: quoteEscaped pair.2

theorem labelPair_closed {pair : List Char × List Char} (named : isLabelName pair.1 = true)
    (rest : List Char) : labelPair (openPair pair ++ '"' :: rest) = some (pair, rest) := by
  have equals : isLabelChar '=' = false := by decide
  have split : openPair pair ++ '"' :: rest =
      pair.1 ++ '=' :: '"' :: (quoteEscaped pair.2 ++ '"' :: rest) := by
    simp [openPair]
  rw [labelPair, split, takeName_append named equals]
  simp [skipBlanks, isBlank, labelValue_quoteEscaped]

theorem labelPair_unclosed {pair : List Char × List Char} (named : isLabelName pair.1 = true) :
    labelPair (openPair pair) = none := by
  have equals : isLabelChar '=' = false := by decide
  rw [labelPair, openPair, takeName_append named equals]
  simp [skipBlanks, isBlank, labelValue_unclosed]

/-- Before a label, neither a blank nor the closing brace is found. -/
theorem labelPairs_openPair (limit : ℕ) {pair : List Char × List Char}
    (named : isLabelName pair.1 = true) (rest : List Char) :
    labelPairs (limit + 1) (openPair pair ++ rest) =
      (labelPair (openPair pair ++ rest)).bind fun found =>
        match skipBlanks found.2 with
        | ',' :: text => (labelPairs limit text).map fun more => (found.1 :: more.1, more.2)
        | '}' :: text => some ([found.1], text)
        | _ => none := by
  have metric := isMetricName_of_isLabelName named
  have noBlank : skipBlanks (openPair pair ++ rest) = openPair pair ++ rest := by
    rw [openPair, List.append_assoc]
    exact skipBlanks_name metric _
  have noBrace : ∀ text, openPair pair ++ rest ≠ '}' :: text := by
    intro text same
    cases name : pair.1 with
    | nil => rw [name] at named; cases named
    | cons first others =>
        have member : first ∈ pair.1 := by
          rw [name]
          exact List.mem_cons_self
        have inName := isMetricChar_of_mem metric member
        rw [openPair, name] at same
        obtain rfl : first = '}' := (List.cons.inj same).1
        exact absurd inName (by decide)
  rw [labelPairs, noBlank]
  split
  · rename_i text brace
    exact absurd brace (noBrace text)
  · cases labelPair (openPair pair ++ rest) with
    | none => rfl
    | some found =>
        simp only [Option.bind_eq_bind, Option.bind_some]
        split
        · rename_i text _
          cases labelPairs limit text <;> rfl
        · rfl
        · rfl

theorem labelPairs_more (limit : ℕ) {pair : List Char × List Char}
    (named : isLabelName pair.1 = true) (rest : List Char) :
    labelPairs (limit + 1) (openPair pair ++ '"' :: ',' :: rest) =
      (labelPairs limit rest).map fun more => (pair :: more.1, more.2) := by
  rw [labelPairs_openPair limit named, labelPair_closed named]
  simp [skipBlanks, isBlank]

theorem labelPairs_last (limit : ℕ) {pair : List Char × List Char}
    (named : isLabelName pair.1 = true) (rest : List Char) :
    labelPairs (limit + 1) (openPair pair ++ '"' :: '}' :: rest) = some ([pair], rest) := by
  rw [labelPairs_openPair limit named, labelPair_closed named]
  simp [skipBlanks, isBlank]

/-- Label pairs as they stand between the braces. -/
def pairsText (pairs : List (List Char × List Char)) : List Char :=
  [','].intercalate (pairs.map fun pair => openPair pair ++ ['"'])

theorem pairsText_cons_cons (pair next : List Char × List Char)
    (pairs : List (List Char × List Char)) :
    pairsText (pair :: next :: pairs) =
      openPair pair ++ '"' :: ',' :: pairsText (next :: pairs) := by
  simp [pairsText, List.intercalate_cons_cons]

theorem labelPairs_pairsText {pairs : List (List Char × List Char)} (nonempty : pairs ≠ [])
    (named : ∀ pair ∈ pairs, isLabelName pair.1 = true) {limit : ℕ}
    (enough : pairs.length ≤ limit) (rest : List Char) :
    labelPairs limit (pairsText pairs ++ '}' :: rest) = some (pairs, rest) := by
  induction pairs generalizing limit with
  | nil => exact absurd rfl nonempty
  | cons pair pairs ih =>
      obtain ⟨limit, rfl⟩ : ∃ less, limit = less + 1 :=
        ⟨limit - 1, by simp only [List.length_cons] at enough; omega⟩
      have own := named pair List.mem_cons_self
      cases pairs with
      | nil =>
          have text : pairsText [pair] ++ '}' :: rest = openPair pair ++ '"' :: '}' :: rest := by
            simp [pairsText]
          rw [text, labelPairs_last limit own]
      | cons next pairs =>
          have short : (next :: pairs).length ≤ limit := by simpa using enough
          have later := ih (List.cons_ne_nil _ _)
            (fun other member => named other (List.mem_cons_of_mem _ member)) short
          rw [pairsText_cons_cons, List.append_assoc, List.cons_append, List.cons_append,
            labelPairs_more limit own, later]
          rfl

theorem length_le_pairsText (pairs : List (List Char × List Char)) :
    pairs.length ≤ (pairsText pairs).length := by
  induction pairs with
  | nil => exact Nat.zero_le _
  | cons pair pairs ih =>
      cases pairs with
      | nil => simp [pairsText]
      | cons next pairs =>
          simp only [pairsText_cons_cons, List.length_append, List.length_cons] at ih ⊢
          omega

/-- A value that the text ends in is not read, whatever pairs come before it. -/
theorem labelPairs_unclosed (before : List (List Char × List Char))
    {pair : List Char × List Char} (named : ∀ other ∈ before, isLabelName other.1 = true)
    (own : isLabelName pair.1 = true) (limit : ℕ) :
    labelPairs limit (before.flatMap (fun other => openPair other ++ ['"', ',']) ++ openPair pair) =
      none := by
  induction before generalizing limit with
  | nil =>
      cases limit with
      | zero => rfl
      | succ limit =>
          have read := labelPairs_openPair limit own []
          rw [List.append_nil, labelPair_unclosed own] at read
          exact read
  | cons other before ih =>
      cases limit with
      | zero => rfl
      | succ limit =>
          have more := labelPairs_more limit (named other List.mem_cons_self)
            (before.flatMap (fun other => openPair other ++ ['"', ',']) ++ openPair pair)
          rw [ih (fun later member => named later (List.mem_cons_of_mem _ member))] at more
          simpa using more

/-! ## Samples -/

/-- A sample as it is written on a line. -/
def sampleText (name : List Char) (pairs : List (List Char × List Char)) (number : List Char) :
    List Char :=
  name ++ (if pairs = [] then [] else '{' :: (pairsText pairs ++ ['}'])) ++ ' ' :: number

/-- A number without the blanks that separate it from the rest of its line. -/
structure IsNumber (number : List Char) (value : ℚ) : Prop where
  solid : ∀ c ∈ number, isBlank c = false
  oneLine : '\n' ∉ number
  reads : readNumber number = some value

theorem isNumber_of_chars {number : List Char} {value : ℚ}
    (numeral : ∀ c ∈ number, isNumeralChar c = true) (reads : readNumber number = some value) :
    IsNumber number value where
  solid c member := by
    have inside := numeral c member
    rw [← Bool.not_eq_true, isBlank, Bool.or_eq_true, beq_iff_eq, beq_iff_eq]
    rintro (rfl | rfl) <;> exact absurd inside (by decide)
  oneLine member := absurd (numeral _ member) (by decide)
  reads := reads

theorem readNumber_brace (text : List Char) : readNumber ('{' :: text) = none := by
  have mantissa : readPlain ('{' :: text.takeWhile (· != 'e')) = none := by
    rw [readPlain, List.dropWhile_cons_of_neg (by decide)]
    rfl
  have unsigned : readUnsigned ('{' :: text) = none := by
    rw [readUnsigned, List.takeWhile_cons_of_pos (by decide), mantissa]
    split <;> rfl
  exact unsigned

theorem skipBlanks_number {number : List Char} {value : ℚ} (isNumber : IsNumber number value) :
    skipBlanks (' ' :: number) = number := by
  rw [skipBlanks, List.dropWhile_cons_of_pos (by decide)]
  cases number with
  | nil => rfl
  | cons c number =>
      rw [List.dropWhile_cons_of_neg (by simp [isNumber.solid c List.mem_cons_self])]

theorem readValue_number {number : List Char} {value : ℚ} (isNumber : IsNumber number value) :
    readValue (' ' :: number) = some value := by
  have solid : ∀ c ∈ number, (!isBlank c) = true := by
    intro c member
    rw [isNumber.solid c member]
    rfl
  rw [readValue, skipBlanks_number isNumber, List.takeWhile_eq_self_iff.mpr solid,
    List.dropWhile_eq_nil_iff.mpr solid]
  exact isNumber.reads

section Sample

variable {name : List Char} {pairs : List (List Char × List Char)} {number : List Char} {value : ℚ}

/-- A line that starts with a name is read as a sample. -/
theorem readLine_name (named : isMetricName name = true) (rest : List Char) :
    readLine (name ++ rest) = (readSample (name ++ rest)).map some := by
  rw [readLine, skipBlanks_name named]
  cases name with
  | nil => cases named
  | cons first name =>
      have inName := isMetricChar_of_mem named (c := first) List.mem_cons_self
      split
      · rename_i nothing
        cases nothing
      · rename_i text comment
        obtain rfl : first = '#' := (List.cons.inj comment).1
        exact absurd inName (by decide)
      · rfl

theorem readLine_sampleText (named : isMetricName name = true)
    (labelled : ∀ pair ∈ pairs, isLabelName pair.1 = true) (isNumber : IsNumber number value) :
    readLine (sampleText name pairs number) = some (some { name, labels := pairs, value }) := by
  rw [sampleText, List.append_assoc, readLine_name named, readSample]
  by_cases none : pairs = []
  · have blank : isMetricChar ' ' = false := by decide
    subst none
    rw [if_pos rfl, List.nil_append, takeName_append named blank]
    have noLabels : readLabels (' ' :: number) = some ([], ' ' :: number) := by
      rw [readLabels, skipBlanks_number isNumber]
      split
      · rename_i text
        have reads := isNumber.reads
        rw [readNumber_brace] at reads
        cases reads
      · rfl
    simp [noLabels, readValue_number isNumber]
  · have brace : isMetricChar '{' = false := by decide
    have text : (if pairs = [] then [] else '{' :: (pairsText pairs ++ ['}'])) ++ ' ' :: number =
        '{' :: (pairsText pairs ++ '}' :: ' ' :: number) := by
      simp [none]
    rw [text, takeName_append named brace]
    have labels : readLabels ('{' :: (pairsText pairs ++ '}' :: ' ' :: number)) =
        some (pairs, ' ' :: number) := by
      have enough : pairs.length ≤ (pairsText pairs ++ '}' :: ' ' :: number).length + 1 := by
        have shorter := length_le_pairsText pairs
        rw [List.length_append]
        omega
      have noBlank : skipBlanks ('{' :: (pairsText pairs ++ '}' :: ' ' :: number)) =
          '{' :: (pairsText pairs ++ '}' :: ' ' :: number) :=
        List.dropWhile_cons_of_neg (by decide)
      rw [readLabels, noBlank]
      exact labelPairs_pairsText none labelled enough _
    simp [labels, readValue_number isNumber]

/-- A line that stops inside a value is not read. -/
theorem readLine_unclosed (named : isMetricName name = true)
    {before : List (List Char × List Char)} {pair : List Char × List Char}
    (labelled : ∀ other ∈ before, isLabelName other.1 = true) (own : isLabelName pair.1 = true) :
    readLine (name ++ '{' ::
        (before.flatMap (fun other => openPair other ++ ['"', ',']) ++ openPair pair)) = none := by
  have brace : isMetricChar '{' = false := by decide
  have labels : ∀ text, readLabels ('{' :: text) = labelPairs (text.length + 1) text := by
    intro text
    rw [readLabels, skipBlanks, List.dropWhile_cons_of_neg (by decide)]
    rfl
  rw [readLine_name named, readSample, takeName_append named brace]
  simp [labels, labelPairs_unclosed before labelled own]

/-- The text of some pairs up to the value of one of them. -/
theorem pairsText_append (before : List (List Char × List Char)) (pair : List Char × List Char)
    (behind : List (List Char × List Char)) :
    ∃ rest, pairsText (before ++ pair :: behind) =
      before.flatMap (fun other => openPair other ++ ['"', ',']) ++ openPair pair ++
        '"' :: rest := by
  induction before with
  | nil =>
      cases behind with
      | nil => exact ⟨[], by simp [pairsText]⟩
      | cons next behind => exact ⟨_, by rw [List.nil_append, pairsText_cons_cons]; rfl⟩
  | cons other before ih =>
      obtain ⟨rest, same⟩ := ih
      refine ⟨rest, ?_⟩
      obtain ⟨next, later, split⟩ : ∃ next later, before ++ pair :: behind = next :: later := by
        cases before with
        | nil => exact ⟨pair, behind, rfl⟩
        | cons next before => exact ⟨next, before ++ pair :: behind, rfl⟩
      rw [List.cons_append, split, pairsText_cons_cons, ← split, same]
      simp

theorem lineBreak_notMem_name {name : List Char} (named : isMetricName name = true) :
    '\n' ∉ name :=
  fun member => absurd (isMetricChar_of_mem named member) (by decide)

theorem lineBreak_mem_openPair {pair : List Char × List Char} (named : isLabelName pair.1 = true) :
    '\n' ∈ openPair pair ↔ '\n' ∈ pair.2 := by
  have inName := lineBreak_notMem_name (isMetricName_of_isLabelName named)
  simp [openPair, inName, mem_quoteEscaped_lineBreak]

theorem lineBreak_mem_pairsText (labelled : ∀ pair ∈ pairs, isLabelName pair.1 = true) :
    '\n' ∈ pairsText pairs ↔ ∃ pair ∈ pairs, '\n' ∈ pair.2 := by
  induction pairs with
  | nil => simp [pairsText]
  | cons pair pairs ih =>
      have own := lineBreak_mem_openPair (labelled pair List.mem_cons_self)
      cases pairs with
      | nil => simp [pairsText, own]
      | cons next pairs =>
          have later := ih fun other member => labelled other (List.mem_cons_of_mem _ member)
          rw [pairsText_cons_cons, List.exists_mem_cons_iff, ← later, ← own]
          simp

/-- A sample has one line when its values have. -/
theorem sampleText_oneLine (named : isMetricName name = true)
    (labelled : ∀ pair ∈ pairs, isLabelName pair.1 = true) (isNumber : IsNumber number value)
    (clean : ∀ pair ∈ pairs, '\n' ∉ pair.2) : '\n' ∉ sampleText name pairs number := by
  have inPairs : '\n' ∉ pairsText pairs := by
    rw [lineBreak_mem_pairsText labelled]
    rintro ⟨pair, member, inside⟩
    exact clean pair member inside
  have inName := lineBreak_notMem_name named
  have inNumber := isNumber.oneLine
  rw [sampleText]
  split <;> simp [inPairs, inName, inNumber]

/-- A line break in a value cuts its sample, and what comes before the cut is not read. -/
theorem readText_sampleText_broken (named : isMetricName name = true)
    (labelled : ∀ pair ∈ pairs, isLabelName pair.1 = true)
    (broken : ∃ pair ∈ pairs, '\n' ∈ pair.2) (rest : List Char) :
    readText (sampleText name pairs number ++ '\n' :: rest) = none := by
  obtain ⟨pair, found⟩ : ∃ pair, pairs.find? (fun pair => decide ('\n' ∈ pair.2)) = some pair := by
    rw [← Option.isSome_iff_exists, List.find?_isSome]
    simpa using broken
  obtain ⟨isBroken, before, behind, rfl, clean⟩ := List.find?_eq_some_iff_append.mp found
  obtain ⟨first, last, value, outside⟩ :=
    List.eq_append_cons_of_mem (of_decide_eq_true isBroken)
  obtain ⟨others, text⟩ := pairsText_append before pair behind
  have own := labelled pair (by simp)
  have earlier : ∀ other ∈ before, isLabelName other.1 = true :=
    fun other member => labelled other (List.mem_append_left _ member)
  have cut : openPair pair = openPair (pair.1, first) ++ '\n' :: quoteEscaped last := by
    rw [openPair, openPair, value, quoteEscaped_append, quoteEscaped_cons]
    simp
  let piece := name ++ '{' ::
    (before.flatMap (fun other => openPair other ++ ['"', ',']) ++ openPair (pair.1, first))
  have oneLine : '\n' ∉ piece := by
    have inName := lineBreak_notMem_name named
    have inFirst : '\n' ∉ openPair (pair.1, first) := by
      have ownName : isLabelName (pair.1, first).1 = true := own
      rw [lineBreak_mem_openPair ownName]
      exact outside
    have inBefore : ∀ other ∈ before, '\n' ∉ openPair other := by
      intro other member
      rw [lineBreak_mem_openPair (earlier other member)]
      simpa using clean other member
    simp only [piece, List.mem_append, List.mem_cons, List.mem_flatMap, not_or, not_exists]
    refine ⟨inName, by decide, ?_, inFirst⟩
    rintro other ⟨member, inside | inside⟩
    · exact inBefore other member inside
    · simp at inside
  have split : sampleText name (before ++ pair :: behind) number ++ '\n' :: rest =
      piece ++ '\n' :: (quoteEscaped last ++ '"' :: others ++ '}' :: ' ' :: number ++
        '\n' :: rest) := by
    rw [sampleText, if_neg (by simp), text, cut]
    simp [piece]
  rw [split]
  exact readText_of_first oneLine (readLine_unclosed named earlier own) _

end Sample

end Basis
