import ProductionRag.Providers.Scanning

/-!
# Markers that cannot be read

`\s` matches the separators 28 to 31 and `\d+` matches runs of any length; `int` takes neither
such a separator nor more than 4300 digits, so either function raises on a marker with one.
-/

set_option autoImplicit false

namespace ProductionRag

open Basis

/-- White space for `\s` that `int` does not skip. -/
def isSeparator (c : Char) : Bool := 28 ≤ c.toNat && c.toNat ≤ 31

/-- Short numbers and no separators. -/
structure Modest (found : List Char) : Prop where
  short : ∀ part ∈ parts found, (part.filter isDecimal).length ≤ maxIntDigits
  noSeparator : ∀ c ∈ found, isSeparator c = false

/-- A number of a marker, with the white space around it. -/
def Padded (part : List Char) : Prop :=
  ∃ left ∈ spaces.language, ∃ numeral ∈ digits.language, ∃ right ∈ spaces.language,
    part = left ++ numeral ++ right

theorem padded_numeral {left numeral right : List Char} (isLeft : left ∈ spaces.language)
    (isNumeral : numeral ∈ digits.language) (isRight : right ∈ spaces.language) :
    Padded (left ++ numeral ++ right) :=
  ⟨left, isLeft, numeral, isNumeral, right, isRight, rfl⟩

/-- The numbers of a list that begins with a padded number. -/
theorem padded_list {words : List (List Char)} (left : List Char)
    (isLeft : left ∈ spaces.language) (numeral : List Char) (isNumeral : numeral ∈ digits.language)
    (inWords : ∀ word ∈ words,
      word ∈ (Regex.seq spaces (.seq (.char (· == ',')) (.seq spaces digits))).language) :
    ∃ texts, texts ≠ [] ∧ left ++ numeral ++ words.flatten = [','].intercalate texts ∧
      ∀ text ∈ texts, Padded text := by
  have noSpaces : [] ∈ spaces.language := Language.nil_mem_kstar _
  induction words generalizing left numeral with
  | nil =>
      refine ⟨[left ++ numeral], List.cons_ne_nil _ _, ?_, ?_⟩
      · rw [List.flatten_nil, List.append_nil, join_single]
      · have alone := padded_numeral isLeft isNumeral noSpaces
        rw [List.append_nil] at alone
        exact List.forall_mem_singleton.mpr alone
  | cons word words ih =>
      obtain ⟨first, others⟩ := List.forall_mem_cons.mp inWords
      obtain ⟨right, isRight, _, inTail, rfl⟩ := Language.mem_mul.mp first
      obtain ⟨_, ⟨comma, isComma, rfl⟩, _, inNumber, rfl⟩ := Language.mem_mul.mp inTail
      obtain ⟨left', isLeft', numeral', isNumeral', rfl⟩ := Language.mem_mul.mp inNumber
      rw [beq_iff_eq] at isComma
      subst isComma
      obtain ⟨texts, some, same, padded⟩ := ih left' isLeft' numeral' isNumeral' others
      refine ⟨(left ++ numeral ++ right) :: texts, List.cons_ne_nil _ _, ?_, ?_⟩
      · obtain ⟨second, later, rfl⟩ := List.exists_cons_of_ne_nil some
        rw [List.intercalate_cons_cons, ← same]
        simp
      · exact List.forall_mem_cons.mpr ⟨padded_numeral isLeft isNumeral isRight, padded⟩

theorem space_of_spaces {text : List Char} (inSpaces : text ∈ spaces.language) :
    ∀ c ∈ text, isSpace c = true :=
  List.all_eq_true.mp (Regex.mem_star_char.mp inSpaces)

theorem decimal_of_digits {text : List Char} (inDigits : text ∈ digits.language) :
    ∀ c ∈ text, isDecimal c = true :=
  List.all_eq_true.mp (mem_digits.mp inDigits).2

theorem not_decimal_of_space {c : Char} (space : isSpace c = true) : isDecimal c = false := by
  rw [Bool.eq_false_iff]
  intro decimal
  rw [not_isSpace_of_decimal decimal] at space
  cases space

theorem not_separator_of_decimal {c : Char} (decimal : isDecimal c = true) :
    isSeparator c = false := by
  rw [Bool.eq_false_iff]
  intro separator
  have space : isSpace c = true := by
    simp only [isSeparator, Bool.and_eq_true, decide_eq_true_eq] at separator
    simp only [isSpace, Bool.or_eq_true, Bool.and_eq_true, decide_eq_true_eq]
    omega
  rw [not_isSpace_of_decimal decimal] at space
  cases space

theorem comma_not_mem_padded {part : List Char} (padded : Padded part) : ',' ∉ part := by
  obtain ⟨left, isLeft, numeral, isNumeral, right, isRight, rfl⟩ := padded
  have notSpace : ∀ text ∈ spaces.language, ',' ∉ text := by
    intro text inSpaces member
    have space := space_of_spaces inSpaces ',' member
    revert space
    decide
  rw [List.mem_append, List.mem_append, not_or, not_or]
  exact ⟨⟨notSpace left isLeft, comma_not_mem_digits isNumeral⟩, notSpace right isRight⟩

theorem not_separator_of_numberSpace {c : Char} (space : isNumberSpace c = true) :
    isSeparator c = false := by
  rw [isNumberSpace, Bool.and_eq_true, Bool.not_eq_true'] at space
  exact space.2

theorem numberSpace_of_not_separator {c : Char} (space : isSpace c = true)
    (noSeparator : isSeparator c = false) : isNumberSpace c = true := by
  rw [isSeparator] at noSeparator
  rw [isNumberSpace, space, noSeparator]
  rfl

theorem no_decimals_of_spaces {text : List Char} (areSpaces : ∀ c ∈ text, isSpace c = true) :
    text.filter isDecimal = [] := by
  rw [List.filter_eq_nil_iff]
  intro c member
  rw [not_decimal_of_space (areSpaces c member)]
  exact Bool.false_ne_true

/-- What `int` reads has at most 4300 digits and no separators. -/
theorem modest_of_int {part : List Char} {number : Nat} (read : intOfDigits part = .ok number) :
    (part.filter isDecimal).length ≤ maxIntDigits ∧ ∀ c ∈ part, isSeparator c = false := by
  obtain ⟨_, decimals, short, _⟩ := isNumber_of_int read
  have whole : part.takeWhile isNumberSpace ++ (numberDigits part ++
      (part.dropWhile isNumberSpace).rtakeWhile isNumberSpace) = part := by
    rw [numberDigits, List.rdropWhile_append_rtakeWhile, List.takeWhile_append_dropWhile]
  have before : ∀ c ∈ part.takeWhile isNumberSpace, isNumberSpace c = true :=
    fun c member => List.mem_takeWhile_imp member
  have after : ∀ c ∈ (part.dropWhile isNumberSpace).rtakeWhile isNumberSpace,
      isNumberSpace c = true := fun c member => List.mem_rtakeWhile_imp member
  rw [← whole]
  simp only [List.filter_append,
    no_decimals_of_spaces fun c member => isSpace_of_numberSpace (before c member),
    no_decimals_of_spaces fun c member => isSpace_of_numberSpace (after c member),
    List.filter_eq_self.mpr decimals, List.nil_append, List.append_nil, List.forall_mem_append]
  exact ⟨short, fun c member => not_separator_of_numberSpace (before c member),
    fun c member => not_separator_of_decimal (decimals c member),
    fun c member => not_separator_of_numberSpace (after c member)⟩

/-- `int` reads a padded number of at most 4300 digits between spaces that it skips. -/
theorem int_padded_iff {part : List Char} (padded : Padded part) :
    (∃ number, intOfDigits part = .ok number) ↔
      (part.filter isDecimal).length ≤ maxIntDigits ∧ ∀ c ∈ part, isSeparator c = false := by
  constructor
  · rintro ⟨number, read⟩
    exact modest_of_int read
  · rintro ⟨short, noSeparator⟩
    obtain ⟨left, isLeft, numeral, isNumeral, right, isRight, rfl⟩ := padded
    have decimals := decimal_of_digits isNumeral
    simp only [List.forall_mem_append] at noSeparator
    have before : ∀ c ∈ left, isNumberSpace c = true := fun c member =>
      numberSpace_of_not_separator (space_of_spaces isLeft c member) (noSeparator.1.1 c member)
    have after : ∀ c ∈ right, isNumberSpace c = true := fun c member =>
      numberSpace_of_not_separator (space_of_spaces isRight c member) (noSeparator.2 c member)
    have inside : ∀ c ∈ numeral, isNumberSpace c = false := by
      intro c member
      rw [isNumberSpace, not_isSpace_of_decimal (decimals c member), Bool.false_and]
    have trimmed : numberDigits (left ++ numeral ++ right) = numeral :=
      trim_between before after inside
    have fits : numeral.length ≤ maxIntDigits := by
      refine Nat.le_trans ?_ short
      rw [List.filter_append, List.filter_append, List.filter_eq_self.mpr decimals,
        List.length_append, List.length_append]
      omega
    have isNumber : isNumber (left ++ numeral ++ right) = true := by
      rw [ProductionRag.isNumber, trimmed, (mem_digits.mp isNumeral).2, Bool.and_true,
        Bool.not_eq_true', List.isEmpty_eq_false_iff]
      exact (mem_digits.mp isNumeral).1
    refine ⟨decimalValue numeral, ?_⟩
    rw [intOfDigits, isNumber, trimmed, Bool.true_and, decide_eq_true fits, if_pos rfl]

/-- `int` reads all of a marker exactly when the marker is modest. -/
theorem readable_iff {body : List Char} (inBody : body ∈ citationBody.language) :
    Readable (parts (marker body)) ↔ Modest (marker body) := by
  obtain ⟨numeral, isNumeral, _, inOthers, rfl⟩ := Language.mem_mul.mp inBody
  obtain ⟨words, rfl, inWords⟩ := Language.mem_kstar.mp inOthers
  obtain ⟨texts, some, same, padded⟩ :=
    padded_list [] (Language.nil_mem_kstar _) numeral isNumeral inWords
  rw [List.nil_append] at same
  have split : parts (marker (numeral ++ words.flatten)) = texts := by
    rw [parts, group_marker, same]
    exact List.splitOn_intercalate ','
      (fun text member => comma_not_mem_padded (padded text member)) some
  constructor
  · intro readable
    rw [split] at readable
    have each := fun text member => (int_padded_iff (padded text member)).mp (readable text member)
    refine ⟨fun part member => (each part (split ▸ member)).1, ?_⟩
    intro c member
    rw [marker, List.mem_cons, List.mem_append, List.mem_singleton, same] at member
    rcases member with rfl | inBody | rfl
    · decide
    · rcases mem_intercalate_comma inBody with rfl | ⟨text, inTexts, inText⟩
      · decide
      · exact (each text inTexts).2 c inText
    · decide
  · intro modest part member
    rw [split] at member
    refine (int_padded_iff (padded part member)).mpr ⟨modest.short part (split ▸ member), ?_⟩
    intro c inPart
    refine modest.noSeparator c ?_
    rw [marker, same]
    exact List.mem_cons_of_mem _ (List.mem_append_left _ (mem_intercalate_of_mem member inPart))

/-- Every marker of the text is modest, and every one that stripping joins. -/
structure Tame (sourceCount : Int) (text : List Char) : Prop where
  markers : ∀ found ∈ citationRe.findAll text, Modest found
  nested : ∀ body, Nested sourceCount text body → Modest (marker body)

theorem tame_iff {sourceCount : Int} {text : List Char} :
    Tame sourceCount text ↔
      AllReadable (citationRe.scan text) ∧
        ∀ found, .joined found ∈ mentions sourceCount none (citationRe.scan text) →
          Readable (parts found) := by
  constructor
  · rintro ⟨markers, nested⟩
    constructor
    · intro found member
      have inText := mem_findAll.mpr member
      obtain ⟨body, inBody, rfl⟩ := body_of_found inText
      exact (readable_iff inBody).mpr (markers _ inText)
    · intro found member
      obtain ⟨body, rfl, isNested⟩ := joined_iff.mp member
      exact (readable_iff isNested.1).mpr (nested body isNested)
  · rintro ⟨readable, joined⟩
    constructor
    · intro found member
      obtain ⟨body, inBody, rfl⟩ := body_of_found member
      exact (readable_iff inBody).mp (readable _ (mem_findAll.mp member))
    · intro body isNested
      exact (readable_iff isNested.1).mp (joined _ (joined_iff.mpr ⟨body, rfl, isNested⟩))

/-! ## Answers that can be handled -/

/-- Stripping and citing return, also one after the other. -/
def HandlesCitations (answer : String) (sourceCount : Int) : Prop :=
  (∃ stripped, stripInvalidCitations answer sourceCount = .ok stripped ∧
    ∃ used, citedSources stripped sourceCount = .ok used) ∧
  ∃ used, citedSources answer sourceCount = .ok used

theorem citedSources_returns {answer : String} {sourceCount : Int} :
    (∃ used, citedSources answer sourceCount = .ok used) ↔
      ∀ found ∈ citationRe.findAll answer.toList, Readable (parts found) := by
  constructor
  · rintro ⟨used, cites⟩
    exact (citedSources_ok_iff.mp cites).1
  · exact fun readable => ⟨_, citedSources_ok_iff.mpr ⟨readable, rfl⟩⟩

/-- Kept markers are written with numbers that `int` reads. -/
theorem readable_mentions_iff {sourceCount : Int} (pieces : List (Piece Char)) :
    (∀ mention ∈ mentions sourceCount none pieces,
        Readable (parts (mention.text sourceCount))) ↔
      ∀ found, .joined found ∈ mentions sourceCount none pieces → Readable (parts found) := by
  constructor
  · exact fun all found member => all _ member
  · intro joined mention member
    cases mention with
    | joined found => exact joined found member
    | kept found => exact readable_of_onlyLists (onlyLists_of_kept member)

theorem strip_returns {answer : String} {sourceCount : Int} :
    (∃ stripped, stripInvalidCitations answer sourceCount = .ok stripped) ↔
      AllReadable (citationRe.scan answer.toList) := by
  constructor
  · rintro ⟨stripped, done⟩
    exact (stripInvalidCitations_ok_iff.mp done).1
  · intro readable
    exact ⟨String.ofList _, stripInvalidCitations_ok_iff.mpr ⟨readable, String.toList_ofList⟩⟩

/-- A stripped answer can be cited when the joined markers can be read. -/
theorem cites_stripped_iff {answer stripped : String} {sourceCount : Int}
    (done : stripInvalidCitations answer sourceCount = .ok stripped) :
    (∃ used, citedSources stripped sourceCount = .ok used) ↔
      ∀ found, .joined found ∈ mentions sourceCount none (citationRe.scan answer.toList) →
        Readable (parts found) := by
  rw [citedSources_returns, findAll_stripped done, List.forall_mem_map, readable_mentions_iff]

/-- An answer that is tame can be stripped and then cited, and no other. -/
theorem tame_iff_returns {answer : String} {sourceCount : Int} :
    Tame sourceCount answer.toList ↔
      ∃ stripped, stripInvalidCitations answer sourceCount = .ok stripped ∧
        ∃ used, citedSources stripped sourceCount = .ok used := by
  rw [tame_iff]
  constructor
  · rintro ⟨readable, joined⟩
    obtain ⟨stripped, done⟩ := strip_returns.mpr readable
    exact ⟨stripped, done, (cites_stripped_iff done).mpr joined⟩
  · rintro ⟨stripped, done, used⟩
    exact ⟨strip_returns.mp ⟨stripped, done⟩, (cites_stripped_iff done).mp used⟩

/-- Nothing is raised exactly when every marker is modest, nested ones included. -/
theorem handles_citations_iff (answer : String) (sourceCount : Int) :
    HandlesCitations answer sourceCount ↔ Tame sourceCount answer.toList := by
  rw [HandlesCitations, ← tame_iff_returns]
  refine and_iff_left_of_imp fun tame => citedSources_returns.mpr ?_
  intro found member
  obtain ⟨body, inBody, rfl⟩ := body_of_found member
  exact (readable_iff inBody).mpr (tame.markers _ member)

/-- A marker of one digit too many. -/
theorem long_marker_raises :
    ¬ ∀ answer sourceCount, HandlesCitations answer sourceCount := by
  intro claimed
  obtain ⟨_, used⟩ := claimed (String.ofList (markerOf (10 ^ maxIntDigits))) 1
  have readable := citedSources_returns.mp used
  obtain ⟨split, found, _⟩ := markerOf_spec (10 ^ maxIntDigits)
  rw [String.toList_ofList, found, List.forall_mem_singleton, split] at readable
  obtain ⟨number, read⟩ := readable _ List.mem_cons_self
  have decimals := decimal_of_digits (mem_digits_toDigits (10 ^ maxIntDigits))
  obtain ⟨_, _, _, same⟩ := isNumber_of_int read
  rw [numberDigits_decimals decimals, decimalValue_toDigits] at same
  exact absurd (intOfDigits_lt read) (by rw [same]; exact lt_irrefl _)

end ProductionRag
