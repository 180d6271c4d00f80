import ProductionRag.Providers.Citations

/-!
# Stripping invalid citations

Stripping makes one pass.  Where it removes a marker, the brackets around it can join to a
new marker, which no pass has looked at.  Stripping is exact when these joined markers are
harmless: they cite valid numbers, in the order of the rest of the answer, without spaces.
-/

set_option autoImplicit false

namespace ProductionRag

open Basis

/-! ## Markers, read with an automaton -/

/-- The marker that a bracket closes. -/
def closed (inside : Option (List Char)) : List (List Char) :=
  ((inside.filter isBody).map marker).toList

theorem closed_body {body : List Char} (holds : isBody body = true) :
    closed (some body) = [marker body] := by
  simp [closed, Option.filter, holds]

/-- The markers of a text; the first argument is what follows the last opening bracket. -/
def markersFrom : Option (List Char) → List Char → List (List Char)
  | _, [] => []
  | inside, c :: rest =>
    if c = '[' then markersFrom (some []) rest
    else if c = ']' then closed inside ++ markersFrom none rest
    else markersFrom (inside.map (· ++ [c])) rest

@[simp] theorem markersFrom_open (inside : Option (List Char)) (rest : List Char) :
    markersFrom inside ('[' :: rest) = markersFrom (some []) rest := by
  simp [markersFrom]

@[simp] theorem markersFrom_close (inside : Option (List Char)) (rest : List Char) :
    markersFrom inside (']' :: rest) = closed inside ++ markersFrom none rest := by
  simp [markersFrom]

theorem markersFrom_other {c : Char} (outside : isBracket c = false)
    (inside : Option (List Char)) (rest : List Char) :
    markersFrom inside (c :: rest) = markersFrom (inside.map (· ++ [c])) rest := by
  simp only [isBracket, Bool.or_eq_false_iff, beq_eq_false_iff_ne] at outside
  simp [markersFrom, outside]

theorem bracket_cases (c : Char) : c = '[' ∨ c = ']' ∨ isBracket c = false := by
  by_cases isOpen : c = '['
  · exact Or.inl isOpen
  · by_cases isClose : c = ']'
    · exact Or.inr (Or.inl isClose)
    · exact Or.inr (Or.inr (by simp [isBracket, isOpen, isClose]))

theorem markersFrom_inside {body : List Char} (outside : ∀ c ∈ body, isBracket c = false)
    (inside : Option (List Char)) (rest : List Char) :
    markersFrom inside (body ++ rest) = markersFrom (inside.map (· ++ body)) rest := by
  induction body generalizing inside with
  | nil => cases inside <;> simp
  | cons c body ih =>
      obtain ⟨first, others⟩ := List.forall_mem_cons.mp outside
      rw [List.cons_append, markersFrom_other first, ih others]
      cases inside <;> simp

theorem markersFrom_marker {body : List Char} (inBody : body ∈ citationBody.language)
    (inside : Option (List Char)) (rest : List Char) :
    markersFrom inside (marker body ++ rest) = marker body :: markersFrom none rest := by
  rw [marker, List.cons_append, markersFrom_open, List.append_assoc,
    markersFrom_inside (not_bracket_of_body inBody)]
  simp [closed_body (isBody_iff.mpr inBody), marker]

/-- An opening bracket that starts no marker does not matter. -/
theorem markersFrom_unmatched {body rest : List Char}
    (unmatched : ∀ text after, (∀ c ∈ text, isBracket c = false) →
      rest = text ++ ']' :: after → isBody (body ++ text) = false) :
    markersFrom (some body) rest = markersFrom none rest := by
  induction rest generalizing body with
  | nil => rfl
  | cons c rest ih =>
      rcases bracket_cases c with rfl | rfl | outside
      · rw [markersFrom_open, markersFrom_open]
      · have bad := unmatched [] rest (by simp) rfl
        rw [List.append_nil] at bad
        rw [markersFrom_close, markersFrom_close]
        simp [closed, bad]
      · rw [markersFrom_other outside, markersFrom_other outside]
        refine ih ?_
        intro text after others same
        have bad := unmatched (c :: text) after (List.forall_mem_cons.mpr ⟨outside, others⟩)
          (by rw [same]; rfl)
        rw [List.append_assoc]
        exact bad

theorem findAll_eq_markersFrom (text : List Char) :
    citationRe.findAll text = markersFrom none text := by
  rw [Regex.findAll, citationRe_local.scan_eq]
  induction size : text.length using Nat.strong_induction_on generalizing text with
  | _ size ih =>
      subst size
      cases found : citationStep text with
      | some after =>
          obtain ⟨body, inBody, rfl⟩ := citationStep_iff.mp found
          rw [Regex.split_found citationRe_local.shrinks found, markersFrom_marker inBody,
            List.filterMap_cons, ← ih _ (citationRe_local.shrinks found) _ rfl]
          rfl
      | none =>
          cases text with
          | nil => rfl
          | cons c rest =>
              rw [Regex.split_plain citationRe_local.shrinks found, List.filterMap_cons,
                Piece.found?, ih rest.length (Nat.lt_succ_self _) rest rfl]
              rcases bracket_cases c with rfl | rfl | outside
              · rw [markersFrom_open, markersFrom_unmatched]
                intro body after outside same
                by_contra isMarker
                rw [Bool.not_eq_false, List.nil_append] at isMarker
                have starts : citationStep ('[' :: rest) = some after := by
                  refine citationStep_iff.mpr ⟨body, isBody_iff.mp isMarker, ?_⟩
                  rw [same]
                  simp [marker]
                rw [found] at starts
                cases starts
              · rw [markersFrom_close]
                rfl
              · rw [markersFrom_other outside]
                rfl

/-! ## White space -/

theorem not_isSpace_of_decimal {c : Char} (decimal : isDecimal c = true) : isSpace c = false := by
  have disjoint : ∀ first ∈ decimalZeros, ∀ k < 10, isSpace (Char.ofNat (first + k)) = false := by
    decide +kernel
  rw [isDecimal, decimalDigit?, Option.isSome_map, List.find?_isSome] at decimal
  obtain ⟨first, member, between⟩ := decimal
  rw [Bool.and_eq_true, decide_eq_true_eq, decide_eq_true_eq] at between
  have none := disjoint first member (c.toNat - first) (by omega)
  rw [Nat.add_sub_cancel' between.1, Char.ofNat_toNat] at none
  exact none

theorem isSpace_of_numberSpace {c : Char} (space : isNumberSpace c = true) : isSpace c = true :=
  (Bool.and_eq_true _ _ ▸ space : _ ∧ _).1

/-- What is trimmed off both ends is gone, and nothing else. -/
theorem trim_between {p : Char → Bool} {left middle right : List Char}
    (isLeft : ∀ c ∈ left, p c = true) (isRight : ∀ c ∈ right, p c = true)
    (inside : ∀ c ∈ middle, p c = false) :
    ((left ++ middle ++ right).dropWhile p).rdropWhile p = middle := by
  have dropsLeft : ∀ tail : List Char,
      (middle ++ tail).dropWhile p = if middle = [] then tail.dropWhile p else middle ++ tail := by
    intro tail
    cases middle with
    | nil => rfl
    | cons c rest => simp [inside c]
  rw [List.append_assoc, List.dropWhile_append_of_pos isLeft, dropsLeft]
  split
  · rename_i isEmpty
    rw [isEmpty, List.dropWhile_eq_nil_iff.mpr isRight]
    rfl
  · rw [List.rdropWhile, List.reverse_append, List.dropWhile_append_of_pos (by simpa using isRight),
      List.dropWhile_eq_self_iff.mpr, List.reverse_reverse]
    intro some
    have last := inside _ (List.mem_reverse.mp (List.getElem_mem some))
    rw [last]
    exact Bool.false_ne_true

theorem stripChars_between {left middle right : List Char} (isLeft : ∀ c ∈ left, isSpace c = true)
    (isRight : ∀ c ∈ right, isSpace c = true) (inside : ∀ c ∈ middle, isSpace c = false) :
    stripChars (left ++ middle ++ right) = middle :=
  trim_between isLeft isRight inside

theorem isNumber_of_int {part : List Char} {number : Nat} (read : intOfDigits part = .ok number) :
    numberDigits part ≠ [] ∧ (∀ c ∈ numberDigits part, isDecimal c = true) ∧
      (numberDigits part).length ≤ maxIntDigits ∧ number = decimalValue (numberDigits part) := by
  rw [intOfDigits] at read
  split at read
  · rename_i valid
    simp only [isNumber, Bool.and_eq_true, Bool.not_eq_true', List.isEmpty_eq_false_iff,
      List.all_eq_true, decide_eq_true_eq] at valid
    exact ⟨valid.1.1, valid.1.2, valid.2, (Except.ok.inj read).symm⟩
  · cases read

theorem stripChars_of_noSpace {text : List Char} (inside : ∀ c ∈ text, isSpace c = false) :
    stripChars text = text := by
  have between := @stripChars_between [] text [] (by simp) (by simp) inside
  rwa [List.nil_append, List.append_nil] at between

/-- The digits of a part are what `str.strip` leaves of it. -/
theorem stripChars_part {part : List Char} {number : Nat} (read : intOfDigits part = .ok number) :
    stripChars part = numberDigits part := by
  have isNumber := isNumber_of_int read
  have whole : part.takeWhile isNumberSpace ++ numberDigits part ++
      (part.dropWhile isNumberSpace).rtakeWhile isNumberSpace = part := by
    rw [List.append_assoc, numberDigits, List.rdropWhile_append_rtakeWhile,
      List.takeWhile_append_dropWhile]
  have stripped := @stripChars_between (part.takeWhile isNumberSpace) (numberDigits part)
    ((part.dropWhile isNumberSpace).rtakeWhile isNumberSpace)
    (fun c member => isSpace_of_numberSpace (List.mem_takeWhile_imp member))
    (fun c member => isSpace_of_numberSpace (List.mem_rtakeWhile_imp member))
    (fun c member => not_isSpace_of_decimal (isNumber.2.1 c member))
  rw [whole] at stripped
  exact stripped

/-! ## Markers as stripping writes them -/

/-- What stripping writes for a marker. -/
def kept (sourceCount : Int) (found : List Char) : List Char :=
  joinParts ((parts found).filter fun part => (validNumber sourceCount part).isSome)

def rewritten (sourceCount : Int) : Piece Char → List Char
  | .plain c => [c]
  | .found text => kept sourceCount text

/-- `int` reads every part of every marker. -/
def AllReadable (pieces : List (Piece Char)) : Prop :=
  ∀ found, .found found ∈ pieces → Readable (parts found)

/-- The marker lists valid numbers only. -/
def OnlyLists (sourceCount : Int) (found : List Char) : Prop :=
  ∀ part ∈ parts found, ∃ number, intOfDigits part = .ok number ∧ inRange sourceCount number = true

theorem keepValid_ok_iff {sourceCount : Int} {found text : List Char} :
    keepValid sourceCount found = .ok text ↔
      Readable (parts found) ∧ text = kept sourceCount found := by
  rw [keepValid, Except.bind_ok_iff]
  constructor
  · rintro ⟨valid, filtered, ended⟩
    obtain ⟨readable, rfl⟩ := validParts_ok_iff.mp filtered
    exact ⟨readable, (Except.ok.inj ended).symm⟩
  · rintro ⟨readable, rfl⟩
    exact ⟨_, validParts_ok_iff.mpr ⟨readable, rfl⟩, rfl⟩

theorem substitute_ok_iff {sourceCount : Int} {pieces : List (Piece Char)} {text : List Char} :
    substitute sourceCount pieces = .ok text ↔
      AllReadable pieces ∧ text = pieces.flatMap (rewritten sourceCount) := by
  induction pieces generalizing text with
  | nil =>
      rw [substitute]
      constructor
      · intro same
        cases same
        exact ⟨fun _ member => (nomatch member), rfl⟩
      · rintro ⟨_, rfl⟩
        rfl
  | cons piece later ih =>
      cases piece with
      | plain c =>
          rw [substitute, Except.bind_ok_iff]
          have readable : AllReadable (.plain c :: later) ↔ AllReadable later := by
            simp [AllReadable]
          rw [readable]
          constructor
          · rintro ⟨rest, done, ended⟩
            obtain ⟨others, rfl⟩ := ih.mp done
            exact ⟨others, (Except.ok.inj ended).symm⟩
          · rintro ⟨others, rfl⟩
            exact ⟨_, ih.mpr ⟨others, rfl⟩, rfl⟩
      | found found =>
          rw [substitute, Except.bind_ok_iff]
          have readable : AllReadable (.found found :: later) ↔
              Readable (parts found) ∧ AllReadable later := by
            simp [AllReadable]
          rw [readable]
          constructor
          · rintro ⟨first, doneFirst, ended⟩
            obtain ⟨rest, done, ended⟩ := Except.bind_ok_iff.mp ended
            obtain ⟨readable, rfl⟩ := keepValid_ok_iff.mp doneFirst
            obtain ⟨others, rfl⟩ := ih.mp done
            exact ⟨⟨readable, others⟩, (Except.ok.inj ended).symm⟩
          · rintro ⟨⟨readable, others⟩, rfl⟩
            exact ⟨_, keepValid_ok_iff.mpr ⟨readable, rfl⟩,
              Except.bind_ok_iff.mpr ⟨_, ih.mpr ⟨others, rfl⟩, rfl⟩⟩

theorem stripInvalidCitations_ok_iff {answer stripped : String} {sourceCount : Int} :
    stripInvalidCitations answer sourceCount = .ok stripped ↔
      AllReadable (citationRe.scan answer.toList) ∧
        stripped.toList = stripChars
          ((citationRe.scan answer.toList).flatMap (rewritten sourceCount)) := by
  rw [stripInvalidCitations, Except.bind_ok_iff]
  constructor
  · rintro ⟨text, done, ended⟩
    obtain ⟨readable, rfl⟩ := substitute_ok_iff.mp done
    rw [← Except.ok.inj ended, String.toList_ofList]
    exact ⟨readable, rfl⟩
  · rintro ⟨readable, same⟩
    refine ⟨_, substitute_ok_iff.mpr ⟨readable, rfl⟩, ?_⟩
    rw [← same, String.ofList_toList]

theorem numberDigits_decimals {text : List Char} (decimals : ∀ c ∈ text, isDecimal c = true) :
    numberDigits text = text := by
  have noSpace : ∀ c ∈ text, isNumberSpace c = false := by
    intro c member
    rw [isNumberSpace, not_isSpace_of_decimal (decimals c member), Bool.false_and]
  have left : text.dropWhile isNumberSpace = text := by
    rw [List.dropWhile_eq_self_iff]
    intro nonempty
    simp [noSpace _ (List.getElem_mem nonempty)]
  rw [numberDigits, left, List.rdropWhile_eq_self_iff]
  intro nonempty
  simp [noSpace _ (List.getLast_mem nonempty)]

theorem int_stripChars {part : List Char} {number : Nat} (read : intOfDigits part = .ok number) :
    intOfDigits (stripChars part) = .ok number := by
  have same : numberDigits (stripChars part) = numberDigits part := by
    rw [stripChars_part read]
    exact numberDigits_decimals (isNumber_of_int read).2.1
  rw [intOfDigits, isNumber, same]
  exact read

theorem intercalate_comma (first : List Char) (others : List (List Char)) :
    [','].intercalate (first :: others) = first ++ (others.map (',' :: ·)).flatten := by
  induction others generalizing first with
  | nil => simp [List.intercalate]
  | cons second others ih =>
      rw [List.intercalate_cons_cons, ih]
      simp

theorem join_mem_citationBody {texts : List (List Char)} (some : texts ≠ [])
    (numerals : ∀ text ∈ texts, text ∈ digits.language) :
    [','].intercalate texts ∈ citationBody.language := by
  obtain ⟨first, others, rfl⟩ := List.exists_cons_of_ne_nil some
  obtain ⟨isFirst, areOthers⟩ := List.forall_mem_cons.mp numerals
  rw [intercalate_comma]
  refine Language.append_mem_mul isFirst (Language.mem_kstar.mpr ⟨_, rfl, ?_⟩)
  intro word member
  obtain ⟨text, inOthers, rfl⟩ := List.mem_map.mp member
  have noSpaces : [] ∈ spaces.language := Language.nil_mem_kstar _
  have spaced := Language.append_mem_mul noSpaces (areOthers text inOthers)
  exact Language.append_mem_mul noSpaces
    (Language.append_mem_mul (a := [',']) ⟨',', rfl, rfl⟩ spaced)

theorem mem_digits_of_int {part : List Char} {number : Nat}
    (read : intOfDigits part = .ok number) : stripChars part ∈ digits.language := by
  have isNumber := isNumber_of_int read
  rw [stripChars_part read]
  exact mem_digits.mpr ⟨isNumber.1, List.all_eq_true.mpr isNumber.2.1⟩

theorem comma_not_mem_digits {text : List Char} (numeral : text ∈ digits.language) :
    ',' ∉ text := by
  intro member
  have decimal := List.all_eq_true.mp (mem_digits.mp numeral).2 ',' member
  revert decimal
  decide

/-- A marker joined of numerals has them for parts. -/
theorem parts_join {texts : List (List Char)} (some : texts ≠ [])
    (numerals : ∀ text ∈ texts, text ∈ digits.language) :
    parts (marker ([','].intercalate texts)) = texts := by
  rw [parts, group_marker]
  exact List.splitOn_intercalate ','
    (fun text member => comma_not_mem_digits (numerals text member)) some

theorem mem_intercalate_comma {texts : List (List Char)} {c : Char} :
    c ∈ [','].intercalate texts → c = ',' ∨ ∃ text ∈ texts, c ∈ text := by
  cases texts with
  | nil => exact fun wrong => (nomatch wrong)
  | cons first others =>
      rw [intercalate_comma, List.mem_append, List.mem_flatten]
      rintro (inFirst | ⟨_, member, inside⟩)
      · exact Or.inr ⟨first, List.mem_cons_self, inFirst⟩
      · obtain ⟨text, inOthers, rfl⟩ := List.mem_map.mp member
        rcases List.mem_cons.mp inside with comma | inText
        · exact Or.inl comma
        · exact Or.inr ⟨text, List.mem_cons_of_mem _ inOthers, inText⟩

theorem not_isSpace_of_join {texts : List (List Char)}
    (numerals : ∀ text ∈ texts, text ∈ digits.language) :
    ∀ c ∈ marker ([','].intercalate texts), isSpace c = false := by
  intro c member
  rw [marker, List.mem_cons, List.mem_append, List.mem_singleton] at member
  rcases member with rfl | inBody | rfl
  · decide
  · rcases mem_intercalate_comma inBody with rfl | ⟨text, inTexts, inText⟩
    · decide
    · have decimals := (mem_digits.mp (numerals text inTexts)).2
      exact not_isSpace_of_decimal (List.all_eq_true.mp decimals c inText)
  · decide

theorem validNumber_isSome {sourceCount : Int} {part : List Char} :
    (validNumber sourceCount part).isSome = true ↔
      ∃ number, intOfDigits part = .ok number ∧ inRange sourceCount number = true := by
  rw [validNumber]
  cases intOfDigits part with
  | error e => simp
  | ok number => cases valid : inRange sourceCount number <;> simp [valid]

/-- Stripping leaves of a marker nothing or a marker of the same valid numbers. -/
theorem kept_cases (sourceCount : Int) (found : List Char) :
    (numbers sourceCount found = [] ∧ kept sourceCount found = []) ∨
      (numbers sourceCount found ≠ [] ∧ ∃ body ∈ citationBody.language,
        kept sourceCount found = marker body ∧ OnlyLists sourceCount (marker body) ∧
          (∀ c ∈ marker body, isSpace c = false) ∧
          numbers sourceCount (marker body) = numbers sourceCount found) := by
  have byFilter : numbers sourceCount found =
      ((parts found).filter fun part => (validNumber sourceCount part).isSome).filterMap
        (validNumber sourceCount) := by
    rw [numbers, List.filterMap_filter]
    refine List.filterMap_congr ?_
    intro part _
    cases validNumber sourceCount part <;> rfl
  have areValid : ∀ part ∈ (parts found).filter fun part => (validNumber sourceCount part).isSome,
      ∃ number, intOfDigits part = .ok number ∧ inRange sourceCount number = true := by
    intro part member
    exact validNumber_isSome.mp (List.mem_filter.mp member).2
  rw [kept, joinParts, byFilter]
  generalize ((parts found).filter fun part => (validNumber sourceCount part).isSome) = valid
    at areValid ⊢
  by_cases isEmpty : valid = []
  · left
    rw [isEmpty]
    exact ⟨rfl, rfl⟩
  · right
    rw [if_neg isEmpty]
    have some : valid.map stripChars ≠ [] := by simpa using isEmpty
    have numerals : ∀ text ∈ valid.map stripChars, text ∈ digits.language := by
      intro text member
      obtain ⟨part, inValid, rfl⟩ := List.mem_map.mp member
      obtain ⟨number, read, _⟩ := areValid part inValid
      exact mem_digits_of_int read
    refine ⟨?_, _, join_mem_citationBody some numerals, rfl, ?_, not_isSpace_of_join numerals, ?_⟩
    · obtain ⟨part, others, rfl⟩ := List.exists_cons_of_ne_nil isEmpty
      obtain ⟨number, read, valid⟩ := areValid part (List.mem_cons_self)
      simp [validNumber, read, valid]
    · intro text member
      rw [parts_join some numerals] at member
      obtain ⟨part, inValid, rfl⟩ := List.mem_map.mp member
      obtain ⟨number, read, inside⟩ := areValid part inValid
      exact ⟨number, int_stripChars read, inside⟩
    · rw [numbers, parts_join some numerals, List.filterMap_map]
      refine List.filterMap_congr ?_
      intro part inValid
      obtain ⟨number, read, _⟩ := areValid part inValid
      simp only [Function.comp_apply, validNumber, int_stripChars read, read]

theorem numbers_kept (sourceCount : Int) (found : List Char) :
    numbers sourceCount (kept sourceCount found) = numbers sourceCount found := by
  rcases kept_cases sourceCount found with ⟨isEmpty, removed⟩ | ⟨_, body, _, same, _, _, numbers⟩
  · rw [isEmpty, removed]
    rfl
  · rw [same, numbers]

/-! ## What a stripped answer mentions -/

/-- A marker of the answer that is kept, or one that the text around removed ones joins to. -/
inductive Mention where
  | kept (found : List Char)
  | joined (found : List Char)
  deriving DecidableEq

def Mention.kept? : Mention → Option (List Char)
  | .kept found => some found
  | .joined _ => none

def Mention.text (sourceCount : Int) : Mention → List Char
  | .kept found => ProductionRag.kept sourceCount found
  | .joined found => found

/-- What the stripped answer mentions, in order; markers without a valid number are taken out. -/
def mentions (sourceCount : Int) : Option (List Char) → List (Piece Char) → List Mention
  | _, [] => []
  | inside, .plain c :: later =>
    if c = '[' then mentions sourceCount (some []) later
    else if c = ']' then (closed inside).map .joined ++ mentions sourceCount none later
    else mentions sourceCount (inside.map (· ++ [c])) later
  | inside, .found found :: later =>
    if numbers sourceCount found = [] then mentions sourceCount inside later
    else .kept found :: mentions sourceCount none later

variable {sourceCount : Int}

theorem markersFrom_rewritten (inside : Option (List Char)) (pieces : List (Piece Char)) :
    markersFrom inside (pieces.flatMap (rewritten sourceCount)) =
      (mentions sourceCount inside pieces).map (Mention.text sourceCount) := by
  induction pieces generalizing inside with
  | nil => rfl
  | cons piece later ih =>
      rw [List.flatMap_cons]
      cases piece with
      | plain c =>
          rw [rewritten, List.singleton_append, mentions]
          rcases bracket_cases c with rfl | rfl | outside
          · rw [markersFrom_open, if_pos rfl, ih]
          · rw [markersFrom_close, if_neg (by decide), if_pos rfl, ih, List.map_append,
              List.map_map]
            exact congrArg (· ++ _) (List.map_id _).symm
          · rw [markersFrom_other outside, ih]
            simp only [isBracket, Bool.or_eq_false_iff, beq_eq_false_iff_ne] at outside
            rw [if_neg outside.1, if_neg outside.2]
      | found found =>
          rw [rewritten, mentions]
          rcases kept_cases sourceCount found with
            ⟨isEmpty, removed⟩ | ⟨some, body, inBody, same, _⟩
          · rw [if_pos isEmpty, removed, List.nil_append, ih]
          · rw [if_neg some, same, markersFrom_marker inBody, ih, List.map_cons, Mention.text, same]

/-- The kept markers are those of the answer that list a valid number. -/
theorem mentions_kept (inside : Option (List Char)) (pieces : List (Piece Char)) :
    (mentions sourceCount inside pieces).filterMap Mention.kept? =
      (pieces.filterMap Piece.found?).filter fun found => numbers sourceCount found ≠ [] := by
  induction pieces generalizing inside with
  | nil => rfl
  | cons piece later ih =>
      cases piece with
      | plain c =>
          rw [mentions, List.filterMap_cons, Piece.found?]
          have noneJoined : ((closed inside).map Mention.joined).filterMap Mention.kept? = [] := by
            rw [List.filterMap_map]
            exact List.filterMap_eq_nil_iff.mpr fun _ _ => rfl
          split
          · exact ih _
          · split
            · rw [List.filterMap_append, noneJoined]
              exact ih _
            · exact ih _
      | found found =>
          rw [mentions, List.filterMap_cons, Piece.found?, List.filter_cons]
          split
          · rename_i isEmpty
            simp [isEmpty, ih]
          · rename_i some
            simp [some, ih, Mention.kept?]

/-- Joined markers are markers. -/
theorem body_of_joined {inside : Option (List Char)} {pieces : List (Piece Char)}
    {found : List Char} (member : .joined found ∈ mentions sourceCount inside pieces) :
    ∃ body ∈ citationBody.language, found = marker body := by
  induction pieces generalizing inside with
  | nil => cases member
  | cons piece later ih =>
      cases piece with
      | plain c =>
          rw [mentions] at member
          split at member
          · exact ih member
          · split at member
            · rcases List.mem_append.mp member with here | later
              · obtain ⟨_, inClosed, same⟩ := List.mem_map.mp here
                obtain rfl := Mention.joined.inj same
                rw [closed, Option.mem_toList, Option.map_eq_some_iff] at inClosed
                obtain ⟨body, isBody, rfl⟩ := inClosed
                exact ⟨body, isBody_iff.mp (Option.filter_eq_some_iff.mp isBody).2, rfl⟩
              · exact ih later
            · exact ih member
      | found other =>
          rw [mentions] at member
          split at member
          · exact ih member
          · rcases List.mem_cons.mp member with wrong | later
            · cases wrong
            · exact ih later

/-! ## Numbers in turn -/

/-- The numbers of the kept markers. -/
def keptNumbers (sourceCount : Int) (found : List Mention) : List Nat :=
  (found.filterMap Mention.kept?).flatMap (numbers sourceCount)

/-- The numbers of a joined marker that were not cited before are the next ones that the kept
markers cite. -/
def InTurn (sourceCount : Int) : List Nat → List Mention → Prop
  | _, [] => True
  | seen, .kept found :: later =>
    InTurn sourceCount (seen ++ unseen seen (numbers sourceCount found)) later
  | seen, .joined found :: later =>
    unseen seen (numbers sourceCount found) <+: unseen seen (keptNumbers sourceCount later) ∧
      InTurn sourceCount (seen ++ unseen seen (numbers sourceCount found)) later

theorem unseen_seen {seen first rest : List Nat} (numbers : List Nat)
    (starts : unseen seen numbers = first ++ rest) :
    unseen (seen ++ first) numbers = rest := by
  induction numbers generalizing seen first with
  | nil =>
      rw [unseen, eq_comm, List.append_eq_nil_iff] at starts
      rw [starts.2]
      rfl
  | cons number later ih =>
      rw [unseen] at starts ⊢
      split at starts
      · rename_i known
        rw [if_pos (List.mem_append_left _ known)]
        exact ih starts
      · rename_i new
        cases first with
        | nil =>
            rw [List.append_nil, if_neg new]
            exact starts
        | cons next first =>
            obtain ⟨same, tail⟩ := List.cons.inj starts
            rw [← same, if_pos (by simp)]
            have rest := ih tail
            rw [List.append_assoc] at rest
            exact rest

/-- Joined markers change nothing about what is cited exactly when they come in turn. -/
theorem inTurn_iff (seen : List Nat) (found : List Mention) :
    InTurn sourceCount seen found ↔
      unseen seen (found.flatMap fun mention => numbers sourceCount (mention.text sourceCount)) =
        unseen seen (keptNumbers sourceCount found) := by
  induction found generalizing seen with
  | nil => exact ⟨fun _ => rfl, fun _ => trivial⟩
  | cons mention later ih =>
      rw [List.flatMap_cons, unseen_append]
      cases mention with
      | kept found =>
          have both : keptNumbers sourceCount (.kept found :: later) =
              numbers sourceCount found ++ keptNumbers sourceCount later := rfl
          rw [InTurn, ih, both, unseen_append, Mention.text, numbers_kept, List.append_right_inj]
      | joined found =>
          have others : keptNumbers sourceCount (.joined found :: later) =
              keptNumbers sourceCount later := rfl
          rw [InTurn, ih, others, Mention.text]
          constructor
          · rintro ⟨⟨rest, next⟩, same⟩
            rw [same, unseen_seen _ next.symm]
            exact next
          · intro same
            exact ⟨⟨_, same⟩, (unseen_seen _ same.symm).symm⟩

/-! ## Exactness -/

/-- What stripping promises. -/
def StripsExactly (answer : String) (sourceCount : Int) : Prop :=
  ∃ stripped, stripInvalidCitations answer sourceCount = .ok stripped ∧
    (∀ found ∈ citationRe.findAll stripped.toList, OnlyLists sourceCount found) ∧
    citedSources stripped sourceCount = citedSources answer sourceCount ∧
    stripInvalidCitations stripped sourceCount = .ok stripped

/-- `int` reads the markers of the answer, and those that removing markers joins cite valid
numbers in turn and without spaces. -/
structure Harmless (sourceCount : Int) (pieces : List (Piece Char)) : Prop where
  readable : AllReadable pieces
  onlyLists : ∀ found, .joined found ∈ mentions sourceCount none pieces →
    OnlyLists sourceCount found
  noSpace : ∀ found, .joined found ∈ mentions sourceCount none pieces →
    ∀ c ∈ found, isSpace c = false
  inTurn : InTurn sourceCount [] (mentions sourceCount none pieces)

theorem markersFrom_append_outside {right : List Char}
    (outside : ∀ c ∈ right, isBracket c = false) (inside : Option (List Char))
    (text : List Char) : markersFrom inside (text ++ right) = markersFrom inside text := by
  induction text generalizing inside with
  | nil =>
      have rest := markersFrom_inside outside inside []
      rw [List.append_nil] at rest
      rw [List.nil_append, rest]
      rfl
  | cons c text ih =>
      rw [List.cons_append]
      rcases bracket_cases c with rfl | rfl | other
      · rw [markersFrom_open, markersFrom_open, ih]
      · rw [markersFrom_close, markersFrom_close, ih]
      · rw [markersFrom_other other, markersFrom_other other, ih]

/-- White space at the ends holds no markers. -/
theorem findAll_stripChars (text : List Char) :
    citationRe.findAll (stripChars text) = citationRe.findAll text := by
  have whole : text.takeWhile isSpace ++ (stripChars text ++
      (text.dropWhile isSpace).rtakeWhile isSpace) = text := by
    rw [stripChars, List.rdropWhile_append_rtakeWhile, List.takeWhile_append_dropWhile]
  rw [findAll_eq_markersFrom, findAll_eq_markersFrom]
  conv_rhs => rw [← whole]
  rw [markersFrom_inside (fun c member => not_bracket_of_space (List.mem_takeWhile_imp member)),
    markersFrom_append_outside
      (fun c member => not_bracket_of_space (List.mem_rtakeWhile_imp member))]
  rfl

/-- The markers of a stripped answer. -/
theorem findAll_stripped {answer stripped : String}
    (done : stripInvalidCitations answer sourceCount = .ok stripped) :
    citationRe.findAll stripped.toList =
      (mentions sourceCount none (citationRe.scan answer.toList)).map
        (Mention.text sourceCount) := by
  rw [(stripInvalidCitations_ok_iff.mp done).2, findAll_stripChars, findAll_eq_markersFrom,
    markersFrom_rewritten]

theorem mem_findAll {text found : List Char} :
    found ∈ citationRe.findAll text ↔ .found found ∈ citationRe.scan text := by
  rw [Regex.findAll, List.mem_filterMap]
  constructor
  · rintro ⟨piece, member, isFound⟩
    cases piece with
    | plain c => cases isFound
    | found text =>
        obtain rfl := Option.some.inj isFound
        exact member
  · exact fun member => ⟨_, member, rfl⟩

theorem mem_intercalate_of_mem {texts : List (List Char)} {text : List Char} {c : Char}
    (member : text ∈ texts) (inside : c ∈ text) : c ∈ [','].intercalate texts := by
  cases texts with
  | nil => cases member
  | cons first others =>
      rw [intercalate_comma, List.mem_append, List.mem_flatten]
      rcases List.mem_cons.mp member with rfl | inOthers
      · exact Or.inl inside
      · exact Or.inr ⟨_, List.mem_map.mpr ⟨text, inOthers, rfl⟩, List.mem_cons_of_mem _ inside⟩

/-- A marker that lists valid numbers only is written as it stands unless it holds spaces. -/
theorem kept_eq_iff {body : List Char} (onlyLists : OnlyLists sourceCount (marker body)) :
    kept sourceCount (marker body) = marker body ↔ ∀ c ∈ marker body, isSpace c = false := by
  have allParts : ((parts (marker body)).filter fun part =>
      (validNumber sourceCount part).isSome) = parts (marker body) :=
    List.filter_eq_self.mpr fun part member => validNumber_isSome.mpr (onlyLists part member)
  have whole : [','].intercalate (parts (marker body)) = body := by
    rw [parts, group_marker, List.intercalate_splitOn]
  have some : parts (marker body) ≠ [] := List.splitOn_ne_nil _ _
  rw [kept, allParts, joinParts, if_neg some]
  constructor
  · intro same
    have sameBody : [','].intercalate ((parts (marker body)).map stripChars) = body := by
      have groups := congrArg group same
      rwa [group_marker, group_marker] at groups
    rw [← sameBody]
    refine not_isSpace_of_join ?_
    intro text member
    obtain ⟨part, isPart, rfl⟩ := List.mem_map.mp member
    obtain ⟨number, read, _⟩ := onlyLists part isPart
    exact mem_digits_of_int read
  · intro noSpace
    have unchanged : (parts (marker body)).map stripChars = parts (marker body) := by
      rw [List.map_congr_left, List.map_id]
      intro part isPart
      refine stripChars_of_noSpace fun c inPart => noSpace c ?_
      have inBody := mem_intercalate_of_mem isPart inPart
      rw [whole] at inBody
      simp [marker, inBody]
    rw [unchanged, whole]

theorem numbers_ne_nil {found : List Char} (onlyLists : OnlyLists sourceCount found) :
    numbers sourceCount found ≠ [] := by
  obtain ⟨part, others, same⟩ := List.exists_cons_of_ne_nil (List.splitOn_ne_nil ',' (group found))
  have member : part ∈ parts found := by
    rw [parts, same]
    exact List.mem_cons_self
  obtain ⟨number, read, inside⟩ := onlyLists part member
  refine List.ne_nil_of_mem (a := number) (List.mem_filterMap.mpr ⟨part, member, ?_⟩)
  rw [validNumber_of_int read, if_pos inside]

theorem readable_of_onlyLists {found : List Char} (onlyLists : OnlyLists sourceCount found) :
    Readable (parts found) := by
  intro part member
  obtain ⟨number, read, _⟩ := onlyLists part member
  exact ⟨number, read⟩

theorem numbers_of_kept {pieces : List (Piece Char)} {found : List Char}
    (member : .kept found ∈ mentions sourceCount none pieces) :
    numbers sourceCount found ≠ [] := by
  have isKept : found ∈ (mentions sourceCount none pieces).filterMap Mention.kept? :=
    List.mem_filterMap.mpr ⟨_, member, rfl⟩
  rw [mentions_kept, List.mem_filter, decide_eq_true_eq] at isKept
  exact isKept.2

theorem onlyLists_of_kept {pieces : List (Piece Char)} {found : List Char}
    (member : .kept found ∈ mentions sourceCount none pieces) :
    OnlyLists sourceCount (kept sourceCount found) := by
  rcases kept_cases sourceCount found with ⟨isEmpty, _⟩ | ⟨_, body, _, same, onlyLists, _⟩
  · exact absurd isEmpty (numbers_of_kept member)
  · rw [same]
    exact onlyLists

/-- Kept markers list valid numbers only, so the joined ones decide. -/
theorem onlyLists_iff (pieces : List (Piece Char)) :
    (∀ mention ∈ mentions sourceCount none pieces,
        OnlyLists sourceCount (mention.text sourceCount)) ↔
      ∀ found, .joined found ∈ mentions sourceCount none pieces → OnlyLists sourceCount found := by
  constructor
  · exact fun all found member => all _ member
  · intro joined mention member
    cases mention with
    | joined found => exact joined found member
    | kept found => exact onlyLists_of_kept member

theorem text_of_kept {found : List Mention}
    (noneJoined : ∀ mention ∈ found, mention.kept?.isSome = true) :
    found.map (Mention.text sourceCount) =
      (found.filterMap Mention.kept?).map (kept sourceCount) := by
  rw [List.map_filterMap, ← List.filterMap_eq_map]
  refine List.filterMap_congr ?_
  intro mention member
  cases mention with
  | kept found => rfl
  | joined found => exact absurd (noneJoined _ member) Bool.false_ne_true

/-- An answer whose markers are all valid is unchanged exactly when none of them holds spaces. -/
theorem strip_unchanged_iff {answer : String} (trimmed : stripChars answer.toList = answer.toList)
    (onlyLists : ∀ found ∈ citationRe.findAll answer.toList, OnlyLists sourceCount found) :
    stripInvalidCitations answer sourceCount = .ok answer ↔
      ∀ found ∈ citationRe.findAll answer.toList, kept sourceCount found = found := by
  have readable : AllReadable (citationRe.scan answer.toList) := fun found member =>
    readable_of_onlyLists (onlyLists found (mem_findAll.mpr member))
  constructor
  · intro same
    have again := findAll_stripped same
    have allKept : (mentions sourceCount none (citationRe.scan answer.toList)).filterMap
        Mention.kept? = citationRe.findAll answer.toList := by
      rw [mentions_kept]
      exact List.filter_eq_self.mpr fun found member =>
        decide_eq_true (numbers_ne_nil (onlyLists found member))
    generalize mentions sourceCount none (citationRe.scan answer.toList) = found at again allKept
    -- As many markers are kept as there are, so none is joined.
    have noneJoined : ∀ mention ∈ found, mention.kept?.isSome = true := by
      refine List.filterMap_length_eq_length.mp ?_
      rw [allKept, again, List.length_map]
    rw [text_of_kept noneJoined, allKept] at again
    have pointwise : (citationRe.findAll answer.toList).map (kept sourceCount) =
        (citationRe.findAll answer.toList).map id := by
      rw [← again, List.map_id]
    exact List.map_inj_left.mp pointwise
  · intro same
    refine stripInvalidCitations_ok_iff.mpr ⟨readable, ?_⟩
    have unchanged : (citationRe.scan answer.toList).flatMap (rewritten sourceCount) =
        (citationRe.scan answer.toList).flatMap Piece.text := by
      refine List.flatMap_congr ?_
      intro piece member
      cases piece with
      | plain c => rfl
      | found found => exact same found (mem_findAll.mpr member)
    rw [unchanged, citationRe_local.scan_text, trimmed]

theorem keptNumbers_mentions (pieces : List (Piece Char)) :
    keptNumbers sourceCount (mentions sourceCount none pieces) =
      (pieces.filterMap Piece.found?).flatMap (numbers sourceCount) := by
  rw [keptNumbers, mentions_kept]
  induction pieces.filterMap Piece.found? with
  | nil => rfl
  | cons found later ih =>
      rw [List.filter_cons, List.flatMap_cons, ← ih]
      split
      · rfl
      · rename_i isEmpty
        rw [decide_eq_true_eq, not_not] at isEmpty
        rw [isEmpty, List.nil_append]

/-- A stripped answer cites the same sources exactly when its joined markers come in turn. -/
theorem cites_same_iff {answer stripped : String}
    (done : stripInvalidCitations answer sourceCount = .ok stripped)
    (onlyLists : ∀ found ∈ citationRe.findAll stripped.toList, OnlyLists sourceCount found) :
    citedSources stripped sourceCount = citedSources answer sourceCount ↔
      InTurn sourceCount [] (mentions sourceCount none (citationRe.scan answer.toList)) := by
  have readable := (stripInvalidCitations_ok_iff.mp done).1
  have before : citedSources answer sourceCount = .ok _ := citedSources_ok_iff.mpr
    ⟨fun found member => readable found (mem_findAll.mp member), rfl⟩
  have after : citedSources stripped sourceCount = .ok _ := citedSources_ok_iff.mpr
    ⟨fun found member => readable_of_onlyLists (onlyLists found member), rfl⟩
  rw [before, after, Except.ok.injEq, findAll_stripped done, List.flatMap_map, inTurn_iff,
    keptNumbers_mentions]
  exact Iff.rfl

theorem stripChars_stripChars (text : List Char) :
    stripChars (stripChars text) = stripChars text := by
  rw [stripChars, stripChars, dropWhile_rdropWhile_dropWhile, List.rdropWhile_idempotent]

/-- Stripping is exact on the answers whose joined markers are harmless, and on no others. -/
theorem strips_exactly_iff (answer : String) (sourceCount : Int) :
    StripsExactly answer sourceCount ↔ Harmless sourceCount (citationRe.scan answer.toList) := by
  constructor
  · rintro ⟨stripped, done, onlyLists, cites, again⟩
    obtain ⟨readable, same⟩ := stripInvalidCitations_ok_iff.mp done
    have trimmed : stripChars stripped.toList = stripped.toList := by
      rw [same, stripChars_stripChars]
    have written := findAll_stripped done
    have joined := (onlyLists_iff _).mp (List.forall_mem_map.mp (written ▸ onlyLists))
    have unchanged := (strip_unchanged_iff trimmed onlyLists).mp again
    refine ⟨readable, joined, ?_, (cites_same_iff done onlyLists).mp cites⟩
    intro found member
    obtain ⟨body, _, rfl⟩ := body_of_joined member
    have inStripped : marker body ∈ citationRe.findAll stripped.toList := by
      rw [written]
      exact List.mem_map.mpr ⟨_, member, rfl⟩
    exact (kept_eq_iff (joined _ member)).mp (unchanged _ inStripped)
  · rintro ⟨readable, joined, noSpace, inTurn⟩
    let stripped := String.ofList (stripChars
      ((citationRe.scan answer.toList).flatMap (rewritten sourceCount)))
    have same : stripped.toList = stripChars
        ((citationRe.scan answer.toList).flatMap (rewritten sourceCount)) := String.toList_ofList
    have done := stripInvalidCitations_ok_iff.mpr ⟨readable, same⟩
    have trimmed : stripChars stripped.toList = stripped.toList := by
      rw [same, stripChars_stripChars]
    have written := findAll_stripped done
    have onlyLists : ∀ found ∈ citationRe.findAll stripped.toList,
        OnlyLists sourceCount found := by
      rw [written]
      exact List.forall_mem_map.mpr ((onlyLists_iff _).mpr joined)
    refine ⟨stripped, done, onlyLists, (cites_same_iff done onlyLists).mpr inTurn, ?_⟩
    refine (strip_unchanged_iff trimmed onlyLists).mpr ?_
    rw [written]
    refine List.forall_mem_map.mpr ?_
    intro mention member
    cases mention with
    | kept found =>
        rcases kept_cases sourceCount found with
          ⟨_, removed⟩ | ⟨_, body, _, same, lists, spaceless, _⟩
        · rw [Mention.text, removed]
          rfl
        · rw [Mention.text, same]
          exact (kept_eq_iff lists).mpr spaceless
    | joined found =>
        obtain ⟨body, _, rfl⟩ := body_of_joined member
        exact (kept_eq_iff (joined _ member)).mpr (noSpace _ member)

/-- Removing `[9]` joins the text around it to a marker of its own. -/
theorem joined_marker_breaks : ¬ StripsExactly "[7[9]]" 1 := by
  rintro ⟨stripped, done, onlyLists, _⟩
  have result : stripInvalidCitations "[7[9]]" 1 = .ok "[7]" := by decide +kernel
  rw [result] at done
  obtain rfl := Except.ok.inj done
  have seven : "[7]".toList ∈ citationRe.findAll "[7]".toList := by decide +kernel
  obtain ⟨number, read, inside⟩ := onlyLists _ seven ['7'] (by decide +kernel)
  have isSeven : intOfDigits ['7'] = .ok 7 := by decide +kernel
  rw [isSeven] at read
  obtain rfl := Except.ok.inj read
  revert inside
  decide

end ProductionRag
