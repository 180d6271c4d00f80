import ProductionRag.Words

/-!
# Delimited sources

Sources are wrapped in tags, after what looks like a tag is removed from each of them.  A
tag is removed where its end stands in the same text; one that is left open there ends
in the tag that is written after the text.
-/

set_option autoImplicit false

namespace ProductionRag

open Basis

/-- `</?\s*sources?` -/
def opening : Regex Char :=
  .seq (.char (· == '<')) (.seq (.optional (.char (· == '/'))) (.seq (.star (.char isSpace))
    (.seq (letters "source".toList) (.optional (.char (ignoreCase 's'))))))

/-- `</?\s*sources?\b` -/
def openingRe (words : WordChars) : Regex Char := .seq opening (.boundary words.isWord)

/-- `</?\s*sources?\b[^>]*>` under `re.I`. -/
def tagRe (words : WordChars) : Regex Char :=
  .seq (openingRe words) (.seq (.star (.char (· != '>'))) (.char (· == '>')))

def removedTag : List Char := "[removed tag]".toList

/-- `re.sub` of what looks like a tag. -/
def sanitize (words : WordChars) (text : List Char) : List Char :=
  (tagRe words).sub (fun _ => removedTag) text

def sourceBlock (words : WordChars) (text : String) (number : Nat) : String :=
  let safe := String.ofList (sanitize words text.toList)
  s!"<source id=\"{number}\">\n{safe}\n</source>"

def formatSources (words : WordChars) (context : List String) : String :=
  let blocks := (context.zipIdx 1).map fun (text, number) => sourceBlock words text number
  "<sources>\n" ++ String.intercalate "\n" blocks ++ "\n</sources>"

/-! ## Openings -/

/-- The opening of a tag starts the text. -/
def opens (words : WordChars) (text : List Char) : Bool := (openingRe words).starts text

/-- No bracket of a tag or of the text that replaces one. -/
def isInner (c : Char) : Bool := c != '<' && c != '>' && c != '['

/-- What every opening looks like. -/
structure Opening (words : WordChars) (text : List Char) : Prop where
  inner : ∃ rest, text = '<' :: rest ∧ ∀ c ∈ rest, isInner c = true
  last : ∃ c, text.getLast? = some c ∧ words.isWord c = true

theorem sourceLetter (words : WordChars) {letter c : Char} (inSource : letter ∈ "source".toList)
    (same : ignoreCase letter c = true) : isInner c = true ∧ words.isWord c = true := by
  have plain : "source".toList.all (fun letter => decide
      ((letter.toNat < 128 ∧ letter.isAlphanum = true ∧ isInner letter = true) ∧
        (letter.toUpper.toNat < 128 ∧ letter.toUpper.isAlphanum = true ∧
          isInner letter.toUpper = true) ∧ letter ≠ 'k' ∧ letter ≠ 'i')) = true := by
    decide
  obtain ⟨lower, upper, notK, notI⟩ := of_decide_eq_true (List.all_eq_true.mp plain letter inSource)
  simp only [ignoreCase, Bool.or_eq_true, Bool.and_eq_true, beq_iff_eq] at same
  rcases same with ((((rfl | rfl) | ⟨_, rfl⟩) | ⟨isK, _⟩) | ⟨isI, _⟩)
  · exact ⟨lower.2.2, by rw [words.isWord_ascii lower.1, lower.2.1, Bool.true_or]⟩
  · exact ⟨upper.2.2, by rw [words.isWord_ascii upper.1, upper.2.1, Bool.true_or]⟩
  · exact ⟨by decide, by rw [WordChars.isWord, words.longS, Bool.true_or]⟩
  · exact absurd isK notK
  · exact absurd isI notI

theorem inner_of_space {c : Char} (space : isSpace c = true) : isInner c = true := by
  by_contra outer
  simp only [isInner, Bool.and_eq_true, bne_iff_ne, not_and_or, not_not] at outer
  rcases outer with (rfl | rfl) | rfl <;> revert space <;> decide

theorem opening_shape (words : WordChars) {text : List Char}
    (isOpening : text ∈ opening.language) : Opening words text := by
  obtain ⟨_, ⟨first, isFirst, rfl⟩, _, afterFirst, rfl⟩ := Language.mem_mul.mp isOpening
  obtain ⟨slash, inSlash, _, afterSlash, rfl⟩ := Language.mem_mul.mp afterFirst
  obtain ⟨blanks, inBlanks, _, afterBlanks, rfl⟩ := Language.mem_mul.mp afterSlash
  obtain ⟨source, inSource, plural, inPlural, rfl⟩ := Language.mem_mul.mp afterBlanks
  rw [beq_iff_eq] at isFirst
  subst isFirst
  have ofSource : ∀ c ∈ source, isInner c = true ∧ words.isWord c = true :=
    forall_of_letters inSource fun letter isLetter c same => sourceLetter words isLetter same
  have ofPlural : ∀ c ∈ plural, isInner c = true ∧ words.isWord c = true := by
    rcases Regex.mem_optional_char.mp inPlural with rfl | ⟨c, same, rfl⟩
    · exact List.forall_mem_nil _
    · exact List.forall_mem_singleton.mpr (sourceLetter words (by decide) same)
  have ofSlash : ∀ c ∈ slash, isInner c = true := by
    rcases Regex.mem_optional_char.mp inSlash with rfl | ⟨c, isSlash, rfl⟩
    · exact List.forall_mem_nil _
    · rw [beq_iff_eq] at isSlash
      subst isSlash
      exact List.forall_mem_singleton.mpr (by decide)
  have ofBlanks : ∀ c ∈ blanks, isInner c = true := fun c member =>
    inner_of_space (List.all_eq_true.mp (Regex.mem_star_char.mp inBlanks) c member)
  refine ⟨⟨slash ++ (blanks ++ (source ++ plural)), rfl, ?_⟩, ?_⟩
  · simp only [List.forall_mem_append]
    exact ⟨ofSlash, ofBlanks, fun c member => (ofSource c member).1,
      fun c member => (ofPlural c member).1⟩
  · have some : source ++ plural ≠ [] := by
      intro isEmpty
      obtain rfl := (List.append_eq_nil_iff.mp isEmpty).1
      cases mem_letters.mp inSource
    refine ⟨(source ++ plural).getLast some, ?_, ?_⟩
    · rw [← List.append_assoc, ← List.append_assoc, List.getLast?_append,
        List.getLast?_eq_some_getLast some]
      rfl
    · rcases List.mem_append.mp (List.getLast_mem some) with inSource | inPlural
      · exact (ofSource _ inSource).2
      · exact (ofPlural _ inPlural).2

theorem opening_boundaryFree : opening.boundaryFree = true := by decide

/-- An opening is a word of its expression that no word character follows. -/
theorem openingRe_matches {words : WordChars} {cursor next : Cursor Char} :
    (openingRe words).Matches cursor next ↔
      ∃ text ∈ opening.language, cursor.rest = text ++ next.rest ∧
        next = cursor.advance text next.rest ∧ next.rest.head?.any words.isWord = false := by
  have boundary : ∀ text ∈ opening.language, ∀ rest,
      (cursor.advance text rest).atBoundary words.isWord = true ↔
        rest.head?.any words.isWord = false := by
    intro text isOpening rest
    obtain ⟨c, last, isWord⟩ := (opening_shape words isOpening).last
    simp [Cursor.atBoundary, Cursor.advance, last, isWord]
  constructor
  · rintro ⟨middle, found, atBoundary, rfl⟩
    obtain ⟨text, isOpening, whole, same⟩ :=
      (Regex.matches_iff_language opening_boundaryFree).mp found
    refine ⟨text, isOpening, whole, same, ?_⟩
    rw [same] at atBoundary
    exact (boundary text isOpening _).mp atBoundary
  · rintro ⟨text, isOpening, whole, same, follows⟩
    refine ⟨next, (Regex.matches_iff_language opening_boundaryFree).mpr
      ⟨text, isOpening, whole, same⟩, ?_, rfl⟩
    rw [same]
    exact (boundary text isOpening _).mpr follows

theorem opens_iff {words : WordChars} {text : List Char} :
    opens words text = true ↔
      ∃ start ∈ opening.language, ∃ rest, text = start ++ rest ∧
        rest.head?.any words.isWord = false := by
  rw [opens, Regex.starts, Bool.not_eq_true', List.isEmpty_eq_false_iff_exists_mem]
  constructor
  · rintro ⟨next, member⟩
    obtain ⟨start, isOpening, whole, _, follows⟩ :=
      openingRe_matches.mp (Regex.mem_ends_iff.mp member)
    exact ⟨start, isOpening, next.rest, whole, follows⟩
  · rintro ⟨start, isOpening, rest, whole, follows⟩
    exact ⟨Cursor.advance ⟨none, text⟩ start rest, Regex.mem_ends_iff.mpr
      (openingRe_matches.mpr ⟨start, isOpening, whole, rfl, follows⟩)⟩

/-! ## Tags -/

/-- The text after the tag that the text starts with. -/
def tagStep (words : WordChars) (text : List Char) : Option (List Char) :=
  if opens words text then
    match text.dropWhile (· != '>') with
    | '>' :: after => some after
    | _ => none
  else none

theorem dropWhile_gt_iff {text after : List Char} :
    text.dropWhile (· != '>') = '>' :: after ↔
      ∃ inside, text = inside ++ '>' :: after ∧ '>' ∉ inside := by
  constructor
  · intro dropped
    refine ⟨text.takeWhile (· != '>'), ?_, ?_⟩
    · rw [← dropped, List.takeWhile_append_dropWhile]
    · intro member
      have other := List.mem_takeWhile_imp member
      revert other
      decide
  · rintro ⟨inside, rfl, none⟩
    rw [List.dropWhile_append_of_pos]
    · rfl
    · intro c member
      rw [bne_iff_ne]
      rintro rfl
      exact none member

theorem tagStep_iff {words : WordChars} {text after : List Char} :
    tagStep words text = some after ↔
      opens words text = true ∧ ∃ inside, text = inside ++ '>' :: after ∧ '>' ∉ inside := by
  rw [← dropWhile_gt_iff, tagStep]
  split
  · rename_i isOpen
    simp only [isOpen, true_and]
    split
    · rename_i rest dropped
      rw [dropped, Option.some.injEq, List.cons.injEq, eq_self, true_and]
    · rename_i other
      constructor
      · intro wrong
        cases wrong
      · intro dropped
        exact absurd dropped (other after)
  · rename_i isClosed
    simp [isClosed]

/-- What follows an opening in a tag. -/
theorem mem_tagRest {text : List Char} :
    text ∈ (Regex.seq (.star (.char (· != '>'))) (.char (· == '>'))).language ↔
      ∃ inside, text = inside ++ ['>'] ∧ '>' ∉ inside := by
  rw [Regex.language, Language.mem_mul]
  constructor
  · rintro ⟨inside, inStar, _, ⟨c, isEnd, rfl⟩, rfl⟩
    rw [beq_iff_eq] at isEnd
    subst isEnd
    refine ⟨inside, rfl, ?_⟩
    intro member
    have other := List.all_eq_true.mp (Regex.mem_star_char.mp inStar) _ member
    revert other
    decide
  · rintro ⟨inside, rfl, none⟩
    refine ⟨inside, Regex.mem_star_char.mpr ?_, ['>'], ⟨'>', rfl, rfl⟩, rfl⟩
    rw [List.all_eq_true]
    intro c member
    rw [bne_iff_ne]
    rintro rfl
    exact none member

theorem gt_not_mem_opening (words : WordChars) {start : List Char}
    (isOpening : start ∈ opening.language) : '>' ∉ start := by
  obtain ⟨rest, rfl, inner⟩ := (opening_shape words isOpening).inner
  intro member
  rcases List.mem_cons.mp member with wrong | inRest
  · revert wrong
    decide
  · have isInner := inner _ inRest
    revert isInner
    decide

theorem tagRe_local (words : WordChars) : (tagRe words).Local (tagStep words) where
  sound := by
    rintro cursor next ⟨middle, started, ended⟩
    obtain ⟨start, isOpening, whole, _, follows⟩ := openingRe_matches.mp started
    obtain ⟨_, inRest, whole', _⟩ := (Regex.matches_iff_language rfl).mp ended
    obtain ⟨inside, rfl, none⟩ := mem_tagRest.mp inRest
    refine tagStep_iff.mpr ⟨opens_iff.mpr ⟨start, isOpening, _, whole, follows⟩,
      start ++ inside, ?_, ?_⟩
    · rw [whole, whole', List.append_assoc, List.append_assoc, List.singleton_append]
    · rw [List.mem_append, not_or]
      exact ⟨gt_not_mem_opening words isOpening, none⟩
  complete := by
    intro cursor after found
    obtain ⟨isOpen, inside, whole, none⟩ := tagStep_iff.mp found
    obtain ⟨start, isOpening, rest, same, follows⟩ := opens_iff.mp isOpen
    have noEnd := gt_not_mem_opening words isOpening
    rw [whole] at same
    obtain ⟨inner, rfl, split⟩ : ∃ inner,
        inside = start ++ inner ∧ rest = inner ++ '>' :: after := by
      rcases List.append_eq_append_iff.mp same with ⟨more, rfl, ended⟩ | ⟨inner, rfl, split⟩
      · cases more with
        | nil => exact ⟨[], by simp, by simpa using ended.symm⟩
        | cons c more =>
            obtain ⟨rfl, _⟩ := List.cons.inj ended
            exact absurd (by simp) noEnd
      · exact ⟨inner, rfl, split⟩
    refine ⟨(cursor.advance start rest).advance (inner ++ ['>']) after,
      cursor.advance start rest, ?_, ?_⟩
    · refine openingRe_matches.mpr ⟨start, isOpening, ?_, rfl, follows⟩
      rw [whole, split, List.append_assoc]
      rfl
    · refine (Regex.matches_iff_language rfl).mpr ⟨inner ++ ['>'], mem_tagRest.mpr
        ⟨inner, rfl, fun member => none (List.mem_append_right _ member)⟩, ?_, rfl⟩
      rw [List.append_assoc]
      exact split
  shrinks := by
    intro text after found
    obtain ⟨_, inside, rfl, _⟩ := tagStep_iff.mp found
    simp only [List.length_append, List.length_cons]
    omega
  suffix := by
    intro text after found
    obtain ⟨_, inside, rfl, _⟩ := tagStep_iff.mp found
    exact ⟨inside ++ ['>'], by simp⟩

/-! ## Openings at the edge of a text -/

/-- What may follow a run of plain characters: no opening of the run reaches into it. -/
inductive Blunt : List Char → Prop
  | nil : Blunt []
  | tag (rest : List Char) : Blunt ('<' :: rest)
  | removed (rest : List Char) : Blunt ('[' :: rest)
  | newline (rest : List Char) : Blunt ('\n' :: '<' :: rest)

theorem Blunt.follows {tail : List Char} (blunt : Blunt tail) (words : WordChars) :
    tail.head?.any words.isWord = false := by
  cases blunt with
  | nil => rfl
  | tag rest => exact words.isWord_ascii (c := '<') (by decide)
  | removed rest => exact words.isWord_ascii (c := '[') (by decide)
  | newline rest => exact words.isWord_ascii (c := '\n') (by decide)

/-- Whether a run opens a tag does not depend on what comes after the run. -/
theorem opens_run {words : WordChars} {run tail : List Char} (some : run ≠ [])
    (blunt : Blunt tail) : opens words (run ++ tail) = opens words run := by
  rw [Bool.eq_iff_iff, opens_iff, opens_iff]
  constructor
  · rintro ⟨start, isOpening, rest, same, follows⟩
    rcases List.append_eq_append_iff.mp same with ⟨beyond, rfl, ended⟩ | ⟨rest', rfl, rfl⟩
    · -- The opening would reach into what follows.
      obtain ⟨⟨others, split, inner⟩, last, isLast, isWord⟩ := opening_shape words isOpening
      obtain ⟨c, run, rfl⟩ := List.exists_cons_of_ne_nil some
      obtain ⟨_, rfl⟩ := List.cons.inj split
      have innerBeyond : ∀ c ∈ beyond, isInner c = true := fun c member =>
        inner c (List.mem_append_right _ member)
      cases beyond with
      | nil =>
          refine ⟨c :: run, ?_, [], by simp, rfl⟩
          simpa using isOpening
      | cons d beyond =>
          exfalso
          obtain ⟨first, more⟩ := List.forall_mem_cons.mp innerBeyond
          cases blunt with
          | nil => cases ended
          | tag =>
              obtain ⟨rfl, _⟩ := List.cons.inj ended
              revert first
              decide
          | removed =>
              obtain ⟨rfl, _⟩ := List.cons.inj ended
              revert first
              decide
          | newline =>
              obtain ⟨rfl, later⟩ := List.cons.inj ended
              cases beyond with
              | nil =>
                  rw [List.getLast?_append, List.getLast?_singleton, Option.some_or,
                    Option.some.injEq] at isLast
                  rw [← isLast, words.isWord_ascii (by decide)] at isWord
                  revert isWord
                  decide
              | cons e beyond =>
                  obtain ⟨rfl, _⟩ := List.cons.inj later
                  have second := more _ List.mem_cons_self
                  revert second
                  decide
    · refine ⟨start, isOpening, rest', rfl, ?_⟩
      cases rest' with
      | nil => rfl
      | cons c rest' => exact follows
  · rintro ⟨start, isOpening, rest, rfl, follows⟩
    refine ⟨start, isOpening, rest ++ tail, by rw [List.append_assoc], ?_⟩
    cases rest with
    | nil => exact blunt.follows words
    | cons c rest => exact follows

/-! ## What sanitizing leaves -/

/-- A text with the tags in it replaced. -/
def rewriteTags (pieces : List (Piece Char)) : List Char :=
  pieces.flatMap fun
    | .plain c => [c]
    | .found _ => removedTag

/-- The plain characters before the first tag. -/
def plainRun : List (Piece Char) → List Char
  | .plain c :: later => c :: plainRun later
  | _ => []

variable {words : WordChars}

theorem sanitize_eq (text : List Char) :
    sanitize words text = rewriteTags (Regex.split (tagStep words) text) := by
  rw [sanitize, Regex.sub, (tagRe_local words).scan_eq, rewriteTags]
  refine List.flatMap_congr ?_
  intro piece _
  cases piece <;> rfl

theorem sanitize_plain {c : Char} {rest : List Char} (none : tagStep words (c :: rest) = none) :
    sanitize words (c :: rest) = c :: sanitize words rest := by
  rw [sanitize_eq, sanitize_eq, Regex.split_plain (tagRe_local words).shrinks none]
  rfl

theorem sanitize_found {tag after : List Char} (found : tagStep words (tag ++ after) = some after) :
    sanitize words (tag ++ after) = removedTag ++ sanitize words after := by
  rw [sanitize_eq, sanitize_eq, Regex.split_found (tagRe_local words).shrinks found]
  rfl

theorem opens_head {text : List Char} (isOpen : opens words text = true) :
    ∃ rest, text = '<' :: rest := by
  obtain ⟨start, isOpening, rest, rfl, _⟩ := opens_iff.mp isOpen
  obtain ⟨inner, rfl, _⟩ := (opening_shape words isOpening).inner
  exact ⟨inner ++ rest, rfl⟩

theorem run_of_text (words : WordChars) (text : List Char) :
    ∃ tail, Blunt tail ∧ text = plainRun (Regex.split (tagStep words) text) ++ tail := by
  induction size : text.length using Nat.strong_induction_on generalizing text with
  | _ size ih =>
      subst size
      cases found : tagStep words text with
      | some after =>
          obtain ⟨isOpen, inside, same, _⟩ := tagStep_iff.mp found
          obtain ⟨rest, isTag⟩ := opens_head isOpen
          have whole : text = (inside ++ ['>']) ++ after := by simp [same]
          refine ⟨text, isTag ▸ Blunt.tag rest, ?_⟩
          rw [whole] at found ⊢
          rw [Regex.split_found (tagRe_local words).shrinks found]
          rfl
      | none =>
          cases text with
          | nil => exact ⟨[], .nil, rfl⟩
          | cons c rest =>
              obtain ⟨tail, blunt, same⟩ := ih rest.length (Nat.lt_succ_self _) rest rfl
              refine ⟨tail, blunt, ?_⟩
              rw [Regex.split_plain (tagRe_local words).shrinks found, plainRun, List.cons_append,
                ← same]

theorem run_of_rewritten {tail : List Char} (blunt : Blunt tail) (pieces : List (Piece Char)) :
    ∃ tail', Blunt tail' ∧ rewriteTags pieces ++ tail = plainRun pieces ++ tail' := by
  induction pieces with
  | nil => exact ⟨tail, blunt, rfl⟩
  | cons piece later ih =>
      cases piece with
      | plain c =>
          obtain ⟨tail', blunt', same⟩ := ih
          exact ⟨tail', blunt', congrArg (c :: ·) same⟩
      | found text => exact ⟨_, .removed _, rfl⟩

/-- Before a character that stays, a tag opens after sanitizing exactly if it opened before. -/
theorem opens_sanitized {c : Char} {rest tail : List Char} (blunt : Blunt tail) :
    opens words (c :: (sanitize words rest ++ tail)) = opens words (c :: rest) := by
  obtain ⟨rawTail, rawBlunt, raw⟩ := run_of_text words rest
  obtain ⟨newTail, newBlunt, new⟩ :=
    run_of_rewritten blunt (Regex.split (tagStep words) rest)
  rw [sanitize_eq, new]
  conv_rhs => rw [raw]
  rw [← List.cons_append, ← List.cons_append, opens_run (List.cons_ne_nil _ _) newBlunt,
    opens_run (List.cons_ne_nil _ _) rawBlunt]

/-! ## The tags of a block -/

/-- Every tag that opens in the text ends in it. -/
def TagsEnd (words : WordChars) (text : List Char) : Prop :=
  ∀ rest, rest <:+ text → opens words rest = true → '>' ∈ rest

/-- The tags in a text, in order. -/
def tags (words : WordChars) (text : List Char) : List (List Char) :=
  (Regex.split (tagStep words) text).filterMap Piece.found?

theorem tags_plain {c : Char} {rest : List Char} (closed : opens words (c :: rest) = false) :
    tags words (c :: rest) = tags words rest := by
  have none : tagStep words (c :: rest) = none := by
    rw [tagStep, closed]
    rfl
  rw [tags, Regex.split_plain (tagRe_local words).shrinks none]
  rfl

theorem opens_false_of_ne {c : Char} {rest : List Char} (other : c ≠ '<') :
    opens words (c :: rest) = false := by
  by_contra isOpen
  rw [Bool.not_eq_false] at isOpen
  obtain ⟨_, same⟩ := opens_head isOpen
  exact other (List.cons.inj same).1

theorem tags_skip (text : List Char) {rest : List Char} (noTag : '<' ∉ text) :
    tags words (text ++ rest) = tags words rest := by
  induction text with
  | nil => rfl
  | cons c text ih =>
      rw [List.mem_cons, not_or] at noTag
      rw [List.cons_append, tags_plain (opens_false_of_ne (Ne.symm noTag.1)), ih noTag.2]

theorem tags_opened {inside rest : List Char}
    (opened : opens words (inside ++ '>' :: rest) = true) (noEnd : '>' ∉ inside) :
    tags words (inside ++ '>' :: rest) = (inside ++ ['>']) :: tags words rest := by
  have whole : inside ++ '>' :: rest = (inside ++ ['>']) ++ rest := by simp
  have found : tagStep words ((inside ++ ['>']) ++ rest) = some rest :=
    tagStep_iff.mpr ⟨whole ▸ opened, inside, whole.symm, noEnd⟩
  rw [tags, whole, Regex.split_found (tagRe_local words).shrinks found]
  rfl

theorem tagStep_of_mem {text : List Char} (opened : opens words text = true)
    (ended : '>' ∈ text) : tagStep words text ≠ none := by
  obtain ⟨inside, after, same, noEnd⟩ := List.eq_append_cons_of_mem ended
  rw [tagStep_iff.mpr ⟨opened, inside, same, noEnd⟩]
  exact Option.some_ne_none _

theorem tagsEnd_suffix {text rest : List Char} (tagsEnd : TagsEnd words text)
    (isSuffix : rest <:+ text) : TagsEnd words rest :=
  fun inner isInner => tagsEnd inner (isInner.trans isSuffix)

/-- Nothing of a text whose tags all end is taken for a tag, nor joined to what follows. -/
theorem tags_block {text tail : List Char} (tagsEnd : TagsEnd words text)
    (starts : tail.head? = some '<') :
    tags words (sanitize words text ++ '\n' :: tail) = tags words tail := by
  obtain ⟨rest, rfl⟩ := List.head?_eq_some_iff.mp starts
  induction size : text.length using Nat.strong_induction_on generalizing text with
  | _ size ih =>
      subst size
      cases found : tagStep words text with
      | some after =>
          have less := (tagRe_local words).shrinks found
          obtain ⟨tag, rfl⟩ := (tagRe_local words).suffix found
          rw [sanitize_found found, List.append_assoc, tags_skip _ (by decide)]
          exact ih after.length less (tagsEnd_suffix tagsEnd (List.suffix_append _ _)) rfl
      | none =>
          cases text with
          | nil => exact tags_skip ['\n'] (by decide)
          | cons c text =>
              have closed : opens words (c :: text) = false := by
                by_contra opened
                rw [Bool.not_eq_false] at opened
                exact tagStep_of_mem opened (tagsEnd _ (List.suffix_refl _) opened) found
              rw [sanitize_plain found, List.cons_append, tags_plain]
              · exact ih text.length (Nat.lt_succ_self _)
                  (tagsEnd_suffix tagsEnd (List.suffix_cons _ _)) rfl
              · rw [opens_sanitized (.newline rest)]
                exact closed

theorem sanitize_noEnd {text : List Char} (noEnd : '>' ∉ text) : sanitize words text = text := by
  induction text with
  | nil => rfl
  | cons c text ih =>
      have none : tagStep words (c :: text) = none := by
        rw [Option.eq_none_iff_forall_ne_some]
        intro after found
        obtain ⟨_, inside, same, _⟩ := tagStep_iff.mp found
        exact noEnd (by simp [same])
      rw [sanitize_plain none, ih fun member => noEnd (List.mem_cons_of_mem _ member)]

/-- A tag that is left open in a text takes the end of the block with it. -/
theorem tags_swallowed {text : List Char} (left : ¬ TagsEnd words text) (rest : List Char) :
    ∃ swallowed others,
      tags words (sanitize words text ++ '\n' :: ("</source".toList ++ '>' :: rest)) =
        swallowed :: others ∧ swallowed ≠ "</source".toList ++ ['>'] := by
  induction size : text.length using Nat.strong_induction_on generalizing text with
  | _ size ih =>
      subst size
      cases found : tagStep words text with
      | some after =>
          have less := (tagRe_local words).shrinks found
          obtain ⟨_, inside, rfl, _⟩ := tagStep_iff.mp found
          have whole : inside ++ '>' :: after = (inside ++ ['>']) ++ after := by simp
          have left' : ¬ TagsEnd words after := by
            intro tagsEnd
            refine left fun inner isInner opened => ?_
            have ends : '>' :: after <:+ inside ++ '>' :: after := List.suffix_append _ _
            rcases List.suffix_or_suffix_of_suffix isInner ends with isInner | beyond
            · rcases List.suffix_cons_iff.mp isInner with rfl | isInner
              · exact List.mem_cons_self
              · exact tagsEnd inner isInner opened
            · exact beyond.subset List.mem_cons_self
          rw [whole] at found ⊢
          rw [sanitize_found found, List.append_assoc, tags_skip _ (by decide)]
          exact ih after.length less left' rfl
      | none =>
          cases text with
          | nil =>
              refine absurd ?_ left
              intro inner isInner opened
              obtain ⟨_, rfl⟩ := opens_head opened
              cases List.suffix_nil.mp isInner
          | cons c text =>
              have tail : Blunt ('\n' :: ("</source".toList ++ '>' :: rest)) := .newline _
              rw [sanitize_plain found, List.cons_append]
              by_cases opened : opens words (c :: text) = true
              · -- The tag ends where the block ends.
                have noEnd : '>' ∉ c :: text := fun member => tagStep_of_mem opened member found
                have new := @opens_sanitized words c text _ tail
                rw [opened, sanitize_noEnd fun member => noEnd (List.mem_cons_of_mem _ member)]
                  at new
                rw [sanitize_noEnd fun member => noEnd (List.mem_cons_of_mem _ member)]
                have whole : c :: (text ++ '\n' :: ("</source".toList ++ '>' :: rest)) =
                    (c :: text ++ '\n' :: "</source".toList) ++ '>' :: rest := by simp
                rw [whole] at new ⊢
                refine ⟨_, _, tags_opened new ?_, ?_⟩
                · rw [List.mem_append, not_or]
                  exact ⟨noEnd, by decide⟩
                · intro same
                  have lengths := congrArg List.length same
                  simp at lengths
              · have closed : opens words (c :: (sanitize words text ++
                    '\n' :: ("</source".toList ++ '>' :: rest))) = false := by
                  rw [opens_sanitized tail]
                  exact Bool.not_eq_true _ ▸ opened
                rw [tags_plain closed]
                refine ih text.length (Nat.lt_succ_self _) ?_ rfl
                intro tagsEnd
                refine left fun inner isInner opened' => ?_
                rcases List.suffix_cons_iff.mp isInner with rfl | isInner
                · exact absurd opened' opened
                · exact tagsEnd inner isInner opened'

/-! ## The tags of a prompt -/

/-- The tags `format_sources` writes around `count` sources. -/
def ownTags (count : Nat) : List String :=
  "<sources>" :: (List.range' 1 count).flatMap (fun number =>
    [s!"<source id=\"{number}\">", "</source>"]) ++ ["</sources>"]

/-- The blocks from one number on, and the end of the prompt. -/
def blocksFrom (words : WordChars) (number : Nat) (context : List String) : List Char :=
  (context.zipIdx number).flatMap (fun entry =>
    '\n' :: (sourceBlock words entry.1 entry.2).toList) ++ "\n</sources>".toList

theorem formatSources_toList (context : List String) :
    (formatSources words context).toList =
      "<sources>".toList ++ ((if context = [] then ['\n'] else []) ++
        blocksFrom words 1 context) := by
  have joined : ∀ (first : List Char) (others : List (List Char)),
      ['\n'].intercalate (first :: others) = first ++ others.flatMap ('\n' :: ·) := by
    intro first others
    induction others generalizing first with
    | nil => simp [List.intercalate]
    | cons second others ih =>
        rw [List.intercalate_cons_cons, ih]
        simp
  rw [formatSources]
  simp only [String.toList_append, String.toList_intercalate]
  cases context with
  | nil => rfl
  | cons text context =>
      rw [if_neg (List.cons_ne_nil _ _), blocksFrom, List.zipIdx_cons]
      simp only [List.map_cons, List.map_map]
      have newline : "\n".toList = ['\n'] := by decide
      rw [newline, joined]
      simp [List.flatMap_map, Function.comp_def]

theorem mem_opening (slash plural : Bool) :
    '<' :: ((if slash then ['/'] else []) ++ ("source".toList ++ if plural then ['s'] else [])) ∈
      opening.language := by
  have inSlash : (if slash then ['/'] else []) ∈
      (Regex.optional (.char (· == '/'))).language := by
    rw [Regex.mem_optional_char]
    cases slash
    · exact Or.inl rfl
    · exact Or.inr ⟨'/', rfl, rfl⟩
  have inBlanks : [] ∈ (Regex.star (.char isSpace)).language := Language.nil_mem_kstar _
  have inSource : "source".toList ∈ (letters "source".toList).language :=
    mem_letters.mpr (List.forall₂_same.mpr (List.all_eq_true.mp (by decide)))
  have inPlural : (if plural then ['s'] else []) ∈
      (Regex.optional (.char (ignoreCase 's'))).language := by
    rw [Regex.mem_optional_char]
    cases plural
    · exact Or.inl rfl
    · exact Or.inr ⟨'s', by decide, rfl⟩
  have afterSlash := Language.append_mem_mul inBlanks (Language.append_mem_mul inSource inPlural)
  rw [List.nil_append] at afterSlash
  exact Language.append_mem_mul (a := ['<']) ⟨'<', rfl, rfl⟩
    (Language.append_mem_mul inSlash afterSlash)

/-- A tag as `format_sources` writes it. -/
theorem tags_written (words : WordChars) (slash plural : Bool) (attributes rest : List Char)
    (follows : (attributes ++ ['>']).head?.any words.isWord = false) (noEnd : '>' ∉ attributes) :
    tags words ('<' :: ((if slash then ['/'] else []) ++
        ("source".toList ++ if plural then ['s'] else [])) ++ attributes ++ '>' :: rest) =
      ('<' :: ((if slash then ['/'] else []) ++
        ("source".toList ++ if plural then ['s'] else [])) ++ attributes ++ ['>']) ::
        tags words rest := by
  have isOpening := mem_opening slash plural
  refine tags_opened (opens_iff.mpr ⟨_, isOpening, attributes ++ '>' :: rest, by simp, ?_⟩) ?_
  · cases attributes <;> exact follows
  · rw [List.mem_append, not_or]
    exact ⟨gt_not_mem_opening words isOpening, noEnd⟩

theorem tags_closing (rest : List Char) :
    tags words ("</source".toList ++ '>' :: rest) =
      ("</source".toList ++ ['>']) :: tags words rest := by
  have written := tags_written words true false [] rest
    (words.isWord_ascii (c := '>') (by decide)) (by simp)
  simpa using written

theorem tags_outer (words : WordChars) (rest : List Char) :
    tags words ("<sources>".toList ++ rest) = "<sources>".toList :: tags words rest ∧
      tags words ("</sources>".toList ++ rest) = "</sources>".toList :: tags words rest := by
  have opened := tags_written words false true [] rest
    (words.isWord_ascii (c := '>') (by decide)) (by simp)
  have closed := tags_written words true true [] rest
    (words.isWord_ascii (c := '>') (by decide)) (by simp)
  exact ⟨by simpa using opened, by simpa using closed⟩

theorem numberedTag_toList (number : Nat) :
    (s!"<source id=\"{number}\">").toList =
      "<source".toList ++ (" id=\"".toList ++ Nat.toDigits 10 number ++ ['\x22']) ++ ['>'] := by
  have texts : (s!"<source id=\"{number}\">") = "<source id=\"" ++ toString number ++ "\">" := rfl
  rw [texts, String.toList_append, String.toList_append]
  simp

theorem tags_numbered (number : Nat) (rest : List Char) :
    tags words ((s!"<source id=\"{number}\">").toList ++ rest) =
      (s!"<source id=\"{number}\">").toList :: tags words rest := by
  have digits : '>' ∉ Nat.toDigits 10 number := by
    intro member
    have isDigit := Nat.isDigit_of_mem_toDigits (by decide) (by decide) member
    revert isDigit
    decide
  have written := tags_written words false false
    (" id=\"".toList ++ Nat.toDigits 10 number ++ ['\x22']) rest
    (words.isWord_ascii (c := ' ') (by decide)) (by simp [digits])
  rw [numberedTag_toList]
  simpa using written

theorem sourceBlock_toList (text : String) (number : Nat) :
    (sourceBlock words text number).toList =
      (s!"<source id=\"{number}\">").toList ++ '\n' ::
        (sanitize words text.toList ++ '\n' :: ("</source".toList ++ ['>'])) := by
  have texts : sourceBlock words text number =
      "<source id=\"" ++ toString number ++ "\">\n" ++
        String.ofList (sanitize words text.toList) ++ "\n</source>" := rfl
  rw [texts, numberedTag_toList]
  simp only [String.toList_append, String.toList_ofList]
  simp

/-- The numbered blocks keep their tags apart exactly when every tag in a text ends there. -/
theorem tags_blocks (number : Nat) (context : List String) :
    tags words (blocksFrom words number context) =
        ((List.range' number context.length).flatMap (fun number =>
          [s!"<source id=\"{number}\">", "</source>"]) ++ ["</sources>"]).map String.toList ↔
      ∀ text ∈ context, TagsEnd words text.toList := by
  induction context generalizing number with
  | nil =>
      have last : tags words (blocksFrom words number []) = ["</sources>".toList] := by
        have closed := (tags_outer words []).2
        rw [List.append_nil] at closed
        exact (tags_skip ['\n'] (by decide)).trans closed
      rw [last]
      exact ⟨fun _ _ member => (nomatch member), fun _ => rfl⟩
  | cons text context ih =>
      have step : blocksFrom words number (text :: context) =
          '\n' :: ((s!"<source id=\"{number}\">").toList ++ '\n' ::
            (sanitize words text.toList ++ '\n' :: ("</source".toList ++ '>' ::
              blocksFrom words (number + 1) context))) := by
        rw [blocksFrom, List.zipIdx_cons, List.flatMap_cons, sourceBlock_toList, List.append_assoc]
        simp [blocksFrom]
      have newline : ∀ rest, tags words ('\n' :: rest) = tags words rest := fun rest =>
        tags_skip ['\n'] (by decide)
      have expected : ((List.range' number (text :: context).length).flatMap (fun number =>
          [s!"<source id=\"{number}\">", "</source>"]) ++ ["</sources>"]).map String.toList =
          (s!"<source id=\"{number}\">").toList :: ("</source".toList ++ ['>']) ::
            ((List.range' (number + 1) context.length).flatMap (fun number =>
              [s!"<source id=\"{number}\">", "</source>"]) ++
              ["</sources>"]).map String.toList := by
        rw [List.length_cons, List.range'_succ, List.flatMap_cons]
        simp
      rw [step, newline, tags_numbered, newline, expected, List.cons_inj_right,
        List.forall_mem_cons]
      by_cases tagsEnd : TagsEnd words text.toList
      · rw [tags_block tagsEnd (by simp), tags_closing, List.cons_inj_right, ih]
        exact ⟨fun others => ⟨tagsEnd, others⟩, fun both => both.2⟩
      · obtain ⟨swallowed, others, found, other⟩ :=
          tags_swallowed tagsEnd (blocksFrom words (number + 1) context)
        rw [found]
        constructor
        · intro same
          exact absurd (List.cons.inj same).1 other
        · exact fun both => absurd both.1 tagsEnd

/-- The tags of the prompt are its own, whatever the documents contain, exactly when every
tag that opens in a document ends in it. -/
theorem own_tags_iff (words : WordChars) (context : List String) :
    (tagRe words).findAll (formatSources words context).toList =
        (ownTags context.length).map String.toList ↔
      ∀ text ∈ context, TagsEnd words text.toList := by
  have found : (tagRe words).findAll (formatSources words context).toList =
      "<sources>".toList :: tags words (blocksFrom words 1 context) := by
    rw [Regex.findAll, (tagRe_local words).scan_eq, ← tags, formatSources_toList,
      (tags_outer words _).1, tags_skip]
    split <;> decide
  rw [found, ← tags_blocks 1 context, ownTags, List.cons_append, List.map_cons,
    List.cons_inj_right]

/-- The tag that the text leaves open ends in the end of its own block. -/
theorem open_tag_swallows :
    (tagRe WordChars.asciiWords).findAll
        (formatSources WordChars.asciiWords ["<source "]).toList ≠
      (ownTags ["<source "].length).map String.toList := by
  decide +kernel

end ProductionRag
