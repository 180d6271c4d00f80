import ProductionRag.Basis.Regex
import ProductionRag.Digits

/-!
# Citations of an answer

`CITATION_RE` finds markers such as `[1]` and `[2, 3]`.  Markers hold no brackets inside,
so no two of them overlap: the regular expression finds every one, and an automaton that
remembers what follows the last opening bracket finds the same.
-/

set_option autoImplicit false

namespace ProductionRag

open Basis

def digits : Regex Char := .plus (.char isDecimal)

def spaces : Regex Char := .star (.char isSpace)

/-- `\d+(?:\s*,\s*\d+)*` -/
def citationBody : Regex Char :=
  .seq digits (.star (.seq spaces (.seq (.char (· == ',')) (.seq spaces digits))))

/-- `CITATION_RE`; the group is everything between the brackets. -/
def citationRe : Regex Char :=
  .seq (.char (· == '[')) (.seq citationBody (.char (· == ']')))

def marker (body : List Char) : List Char := '[' :: (body ++ [']'])

/-- The group of a match. -/
def group (found : List Char) : List Char := (found.drop 1).dropLast

@[simp] theorem group_marker (body : List Char) : group (marker body) = body := by
  simp [group, marker]

/-- `group.split(",")` -/
def parts (found : List Char) : List (List Char) := (group found).splitOn ','

/-! ## Markers -/

/-- The text is a list of numbers, as a marker holds it. -/
def isBody (body : List Char) : Bool :=
  (citationBody.ends ⟨none, body⟩).any fun next => next.rest.isEmpty

theorem isBody_iff {body : List Char} :
    isBody body = true ↔ body ∈ citationBody.language := by
  rw [isBody, List.any_eq_true]
  constructor
  · rintro ⟨next, member, ended⟩
    obtain ⟨text, inBody, whole, _⟩ :=
      (Regex.matches_iff_language rfl).mp (Regex.mem_ends_iff.mp member)
    rw [List.isEmpty_iff] at ended
    rw [ended, List.append_nil] at whole
    obtain rfl : body = text := whole
    exact inBody
  · intro inBody
    refine ⟨Cursor.advance ⟨none, body⟩ body [], Regex.mem_ends_iff.mpr ?_, rfl⟩
    exact (Regex.matches_iff_language rfl).mpr ⟨body, inBody, (List.append_nil body).symm, rfl⟩

def isBracket (c : Char) : Bool := c == '[' || c == ']'

theorem not_bracket_of_decimal {c : Char} (decimal : isDecimal c = true) :
    isBracket c = false := by
  by_contra bracket
  rw [Bool.not_eq_false, isBracket, Bool.or_eq_true, beq_iff_eq, beq_iff_eq] at bracket
  rcases bracket with rfl | rfl <;> revert decimal <;> decide

theorem not_bracket_of_space {c : Char} (space : isSpace c = true) : isBracket c = false := by
  by_contra bracket
  rw [Bool.not_eq_false, isBracket, Bool.or_eq_true, beq_iff_eq, beq_iff_eq] at bracket
  rcases bracket with rfl | rfl <;> revert space <;> decide

theorem mem_digits {text : List Char} :
    text ∈ digits.language ↔ text ≠ [] ∧ text.all isDecimal = true := by
  rw [digits, Regex.plus, Regex.language, Language.mem_mul]
  constructor
  · rintro ⟨_, ⟨c, isP, rfl⟩, rest, inStar, rfl⟩
    rw [Regex.mem_star_char] at inStar
    exact ⟨by simp, by simpa [isP] using inStar⟩
  · rintro ⟨some, all⟩
    obtain ⟨c, rest, rfl⟩ := List.exists_cons_of_ne_nil some
    rw [List.all_cons, Bool.and_eq_true] at all
    exact ⟨[c], ⟨c, all.1, rfl⟩, rest, Regex.mem_star_char.mpr all.2, rfl⟩

/-- A marker holds no brackets inside. -/
theorem not_bracket_of_body {body : List Char} (inBody : body ∈ citationBody.language) :
    ∀ c ∈ body, isBracket c = false := by
  have ofDigits : ∀ text ∈ digits.language, ∀ c ∈ text, isBracket c = false := by
    intro text inDigits c member
    exact not_bracket_of_decimal (List.all_eq_true.mp (mem_digits.mp inDigits).2 c member)
  have ofSpaces : ∀ text ∈ spaces.language, ∀ c ∈ text, isBracket c = false := by
    intro text inSpaces c member
    exact not_bracket_of_space (List.all_eq_true.mp (Regex.mem_star_char.mp inSpaces) c member)
  obtain ⟨first, inFirst, others, inOthers, rfl⟩ := Language.mem_mul.mp inBody
  obtain ⟨words, rfl, inWords⟩ := Language.mem_kstar.mp inOthers
  intro c member
  rcases List.mem_append.mp member with inFirst' | inRest
  · exact ofDigits first inFirst c inFirst'
  · obtain ⟨word, wordMember, inWord⟩ := List.mem_flatten.mp inRest
    obtain ⟨left, inLeft, _, inTail, rfl⟩ := Language.mem_mul.mp (inWords word wordMember)
    obtain ⟨_, ⟨comma, isComma, rfl⟩, _, inTail', rfl⟩ := Language.mem_mul.mp inTail
    obtain ⟨right, inRight, number, inNumber, rfl⟩ := Language.mem_mul.mp inTail'
    simp only [List.mem_append, List.mem_singleton] at inWord
    rcases inWord with space | rfl | space | digit
    · exact ofSpaces left inLeft c space
    · rw [beq_iff_eq] at isComma
      rw [isComma]
      decide
    · exact ofSpaces right inRight c space
    · exact ofDigits number inNumber c digit

/-- The text after a marker that the text starts with. -/
def citationStep : List Char → Option (List Char)
  | '[' :: rest =>
    match rest.dropWhile (!isBracket ·) with
    | ']' :: after => if isBody (rest.takeWhile (!isBracket ·)) then some after else none
    | _ => none
  | _ => none

theorem span_body {body : List Char} (inside : ∀ c ∈ body, isBracket c = false)
    (rest : List Char) (bracket : Char) (isBracket' : isBracket bracket = true) :
    (body ++ bracket :: rest).takeWhile (!isBracket ·) = body ∧
      (body ++ bracket :: rest).dropWhile (!isBracket ·) = bracket :: rest := by
  have all : ∀ c ∈ body, (!isBracket c) = true := by
    intro c member
    rw [inside c member]
    rfl
  rw [List.takeWhile_append_of_pos all, List.dropWhile_append_of_pos all]
  simp [isBracket']

theorem citationStep_iff {text after : List Char} :
    citationStep text = some after ↔
      ∃ body ∈ citationBody.language, text = marker body ++ after := by
  constructor
  · intro found
    unfold citationStep at found
    split at found
    · rename_i rest
      split at found
      · rename_i tail dropped
        rw [Option.ite_none_right_eq_some] at found
        obtain ⟨holds, same⟩ := found
        obtain rfl := Option.some.inj same
        refine ⟨_, isBody_iff.mp holds, ?_⟩
        have whole := List.takeWhile_append_dropWhile (p := (!isBracket ·)) (l := rest)
        rw [dropped] at whole
        simp only [marker, List.cons_append, List.append_assoc, List.nil_append]
        rw [whole]
      · cases found
    · cases found
  · rintro ⟨body, inBody, rfl⟩
    have spans := span_body (not_bracket_of_body inBody) after ']' rfl
    simp only [marker, List.cons_append, List.append_assoc, List.nil_append, citationStep]
    rw [spans.1, spans.2]
    simp only [isBody_iff.mpr inBody, if_true]

theorem citationRe_local : citationRe.Local citationStep where
  sound := by
    intro cursor next found
    obtain ⟨_, inLanguage, whole, _⟩ := (Regex.matches_iff_language rfl).mp found
    obtain ⟨_, ⟨first, isOpen, rfl⟩, _, inTail, rfl⟩ := Language.mem_mul.mp inLanguage
    obtain ⟨body, inBody, _, ⟨last, isClose, rfl⟩, rfl⟩ := Language.mem_mul.mp inTail
    rw [beq_iff_eq] at isOpen isClose
    subst isOpen isClose
    exact citationStep_iff.mpr ⟨body, inBody, whole⟩
  complete := by
    intro cursor after found
    obtain ⟨body, inBody, whole⟩ := citationStep_iff.mp found
    refine ⟨cursor.advance (marker body) after, (Regex.matches_iff_language rfl).mpr
      ⟨marker body, ?_, whole, rfl⟩⟩
    exact Language.append_mem_mul (a := ['[']) ⟨'[', rfl, rfl⟩
      (Language.append_mem_mul inBody ⟨']', rfl, rfl⟩)
  shrinks := by
    intro text after found
    obtain ⟨body, _, rfl⟩ := citationStep_iff.mp found
    simp only [marker, List.cons_append, List.length_cons, List.length_append]
    omega
  suffix := by
    intro text after found
    obtain ⟨body, _, rfl⟩ := citationStep_iff.mp found
    exact List.suffix_append _ _

/-! ## The functions -/

/-- `1 <= number <= source_count` -/
def inRange (sourceCount : Int) (number : Nat) : Bool := 1 ≤ number && (number : Int) ≤ sourceCount

/-- The loop over all parts, on the numbers seen before. -/
def citedFrom (sourceCount : Int) :
    List Nat → List (List Char) → Except PyError (List Nat)
  | seen, [] => .ok seen
  | seen, part :: later => do
    let number ← intOfDigits part
    if inRange sourceCount number ∧ number ∉ seen then
      citedFrom sourceCount (seen ++ [number]) later
    else citedFrom sourceCount seen later

def citedSources (answer : String) (sourceCount : Int) : Except PyError (List Nat) :=
  citedFrom sourceCount [] ((citationRe.findAll answer.toList).flatMap parts)

/-- `[n for n in match.group(1).split(",") if 1 <= int(n) <= source_count]` -/
def validParts (sourceCount : Int) : List (List Char) → Except PyError (List (List Char))
  | [] => .ok []
  | part :: later => do
    let number ← intOfDigits part
    let valid ← validParts sourceCount later
    .ok (if inRange sourceCount number then part :: valid else valid)

/-- `f"[{','.join(n.strip() for n in numbers)}]" if numbers else ""` -/
def joinParts (valid : List (List Char)) : List Char :=
  if valid = [] then [] else marker ([','].intercalate (valid.map stripChars))

def keepValid (sourceCount : Int) (found : List Char) : Except PyError (List Char) := do
  let valid ← validParts sourceCount (parts found)
  .ok (joinParts valid)

/-- `CITATION_RE.sub(keep_valid, answer)` -/
def substitute (sourceCount : Int) : List (Piece Char) → Except PyError (List Char)
  | [] => .ok []
  | .plain c :: later => do
    let rewritten ← substitute sourceCount later
    .ok (c :: rewritten)
  | .found text :: later => do
    let kept ← keepValid sourceCount text
    let rewritten ← substitute sourceCount later
    .ok (kept ++ rewritten)

def stripInvalidCitations (answer : String) (sourceCount : Int) : Except PyError String := do
  let rewritten ← substitute sourceCount (citationRe.scan answer.toList)
  .ok (String.ofList (stripChars rewritten))

/-! ## Numbers of markers -/

/-- The valid number that a part spells. -/
def validNumber (sourceCount : Int) (part : List Char) : Option Nat :=
  match intOfDigits part with
  | .ok number => if inRange sourceCount number then some number else none
  | .error _ => none

/-- The valid numbers of a marker. -/
def numbers (sourceCount : Int) (found : List Char) : List Nat :=
  (parts found).filterMap (validNumber sourceCount)

/-- `int` reads every part. -/
def Readable (texts : List (List Char)) : Prop :=
  ∀ part ∈ texts, ∃ number, intOfDigits part = .ok number

theorem readable_cons {part : List Char} {later : List (List Char)} :
    Readable (part :: later) ↔
      (∃ number, intOfDigits part = .ok number) ∧ Readable later :=
  List.forall_mem_cons

/-- The numbers not seen before, each once. -/
def unseen : List Nat → List Nat → List Nat
  | _, [] => []
  | seen, number :: later =>
    if number ∈ seen then unseen seen later else number :: unseen (seen ++ [number]) later

theorem validNumber_of_int {sourceCount : Int} {part : List Char} {number : Nat}
    (read : intOfDigits part = .ok number) :
    validNumber sourceCount part = if inRange sourceCount number then some number else none := by
  rw [validNumber, read]

theorem unseen_append (seen first second : List Nat) :
    unseen seen (first ++ second) =
      unseen seen first ++ unseen (seen ++ unseen seen first) second := by
  induction first generalizing seen with
  | nil => rw [List.nil_append, unseen, List.nil_append, List.append_nil]
  | cons number later ih =>
      rw [List.cons_append, unseen, unseen]
      split
      · exact ih seen
      · rw [ih, List.append_assoc, List.singleton_append, List.cons_append]

theorem mem_of_mem_unseen {seen numbers : List Nat} {number : Nat}
    (member : number ∈ unseen seen numbers) : number ∈ numbers := by
  induction numbers generalizing seen with
  | nil => exact member
  | cons first later ih =>
      rw [unseen] at member
      split at member
      · exact List.mem_cons_of_mem _ (ih member)
      · rcases List.mem_cons.mp member with rfl | inLater
        · exact List.mem_cons_self
        · exact List.mem_cons_of_mem _ (ih inLater)

theorem citedFrom_cons {sourceCount : Int} {part : List Char} {number : Nat}
    (read : intOfDigits part = .ok number) (seen : List Nat) (later : List (List Char)) :
    citedFrom sourceCount seen (part :: later) =
      citedFrom sourceCount (seen ++ unseen seen (validNumber sourceCount part).toList) later := by
  have start : citedFrom sourceCount seen (part :: later) =
      if inRange sourceCount number ∧ number ∉ seen then
        citedFrom sourceCount (seen ++ [number]) later
      else citedFrom sourceCount seen later := by
    rw [citedFrom, read]
    rfl
  rw [start, validNumber_of_int read]
  by_cases valid : inRange sourceCount number = true
  · by_cases known : number ∈ seen <;> simp [valid, known, unseen]
  · simp [valid, unseen]

theorem citedFrom_ok_iff {sourceCount : Int} {texts : List (List Char)} {seen result : List Nat} :
    citedFrom sourceCount seen texts = .ok result ↔
      Readable texts ∧
        result = seen ++ unseen seen (texts.filterMap (validNumber sourceCount)) := by
  induction texts generalizing seen with
  | nil =>
      rw [citedFrom]
      constructor
      · intro same
        cases same
        exact ⟨fun _ member => (nomatch member), (List.append_nil _).symm⟩
      · rintro ⟨_, rfl⟩
        exact congrArg Except.ok (List.append_nil seen).symm
  | cons part later ih =>
      rw [readable_cons]
      cases read : intOfDigits part with
      | error e =>
          rw [citedFrom, read]
          constructor
          · intro wrong
            cases wrong
          · rintro ⟨⟨⟨_, wrong⟩, _⟩, _⟩
            cases wrong
      | ok number =>
          have split : (part :: later).filterMap (validNumber sourceCount) =
              (validNumber sourceCount part).toList ++
                later.filterMap (validNumber sourceCount) := by
            rw [List.filterMap_cons]
            cases validNumber sourceCount part <;> rfl
          rw [citedFrom_cons read, ih, split, unseen_append, List.append_assoc]
          simp

/-- Citing reads every marker and keeps the first mention of every valid number. -/
theorem citedSources_ok_iff {answer : String} {sourceCount : Int} {cited : List Nat} :
    citedSources answer sourceCount = .ok cited ↔
      (∀ found ∈ citationRe.findAll answer.toList, Readable (parts found)) ∧
        cited = unseen [] ((citationRe.findAll answer.toList).flatMap (numbers sourceCount)) := by
  rw [citedSources, citedFrom_ok_iff, List.filterMap_flatMap]
  simp only [Readable, List.mem_flatMap, List.nil_append]
  constructor
  · rintro ⟨readable, same⟩
    exact ⟨fun found member part inFound => readable part ⟨found, member, inFound⟩, same⟩
  · rintro ⟨readable, same⟩
    refine ⟨?_, same⟩
    rintro part ⟨found, member, inFound⟩
    exact readable found member part inFound

theorem validParts_ok_iff {sourceCount : Int} {texts valid : List (List Char)} :
    validParts sourceCount texts = .ok valid ↔
      Readable texts ∧ valid = texts.filter fun part => (validNumber sourceCount part).isSome := by
  induction texts generalizing valid with
  | nil =>
      rw [validParts]
      constructor
      · rintro same
        cases same
        exact ⟨fun _ member => (nomatch member), rfl⟩
      · rintro ⟨_, rfl⟩
        rfl
  | cons part later ih =>
      rw [validParts, Except.bind_ok_iff, readable_cons]
      constructor
      · rintro ⟨number, read, ended⟩
        obtain ⟨rest, validRest, same⟩ := Except.bind_ok_iff.mp ended
        obtain ⟨others, rfl⟩ := ih.mp validRest
        refine ⟨⟨⟨number, read⟩, others⟩, ?_⟩
        rw [List.filter_cons, validNumber_of_int read, ← Except.ok.inj same]
        cases inRange sourceCount number <;> rfl
      · rintro ⟨⟨⟨number, read⟩, others⟩, rfl⟩
        refine ⟨number, read, Except.bind_ok_iff.mpr ⟨_, ih.mpr ⟨others, rfl⟩, ?_⟩⟩
        rw [List.filter_cons, validNumber_of_int read]
        cases inRange sourceCount number <;> rfl

end ProductionRag
