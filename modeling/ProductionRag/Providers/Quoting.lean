import ProductionRag.Gateway.Provider
import ProductionRag.Providers.Unreadable

/-!
# Extractive answers

The extractive answer quotes the first three sources and puts its own markers after them.  A
quoted text keeps its markers, so it cites what it mentions; the answer cites what it quotes
when the mentions of the texts run no further ahead than its own markers.
-/

set_option autoImplicit false

namespace ProductionRag

open Basis

/-! ## Numbers in sequence -/

/-- Each number is at most one more than the largest one before it. -/
def Climbs : Nat → List Nat → Prop
  | _, [] => True
  | top, number :: later => number ≤ top + 1 ∧ Climbs (max top number) later

def Climbs.decide : (top : Nat) → (numbers : List Nat) → Decidable (Climbs top numbers)
  | _, [] => isTrue trivial
  | top, number :: later =>
    @instDecidableAnd (number ≤ top + 1) (Climbs (max top number) later) inferInstance
      (Climbs.decide (max top number) later)

instance (top : Nat) (numbers : List Nat) : Decidable (Climbs top numbers) :=
  Climbs.decide top numbers

theorem covers_later {top next last number : Nat} {later : List Nat}
    (covers : ∀ own, top < own → own ≤ last → own ∈ number :: later) (further : top ≤ next)
    (passed : number ≤ next) : ∀ own, next < own → own ≤ last → own ∈ later := by
  intro own above within
  rcases List.mem_cons.mp (covers own (by omega) within) with rfl | inLater
  · omega
  · exact inLater

theorem unseen_range'_iff {top last : Nat} {numbers : List Nat}
    (positive : ∀ number ∈ numbers, 1 ≤ number) (below : top ≤ last)
    (covers : ∀ number, top < number → number ≤ last → number ∈ numbers) :
    unseen (List.range' 1 top) numbers = List.range' (top + 1) (last - top) ↔
      Climbs top numbers ∧ ∀ number ∈ numbers, number ≤ last := by
  induction numbers generalizing top with
  | nil =>
      have reached : last = top := by
        by_contra other
        have wrong := covers (top + 1) (Nat.lt_succ_self _) (by omega)
        cases wrong
      rw [reached, Nat.sub_self]
      exact iff_of_true rfl ⟨trivial, List.forall_mem_nil _⟩
  | cons number later ih =>
      obtain ⟨atLeast, others⟩ := List.forall_mem_cons.mp positive
      rw [List.forall_mem_cons, unseen, Climbs]
      by_cases known : number ≤ top
      · have seen : number ∈ List.range' 1 top := by
          rw [List.mem_range'_1]
          omega
        rw [if_pos seen, ih others below (covers_later covers (le_refl _) known),
          max_eq_left known]
        constructor
        · rintro ⟨climbs, bounded⟩
          exact ⟨⟨by omega, climbs⟩, by omega, bounded⟩
        · rintro ⟨⟨_, climbs⟩, _, bounded⟩
          exact ⟨climbs, bounded⟩
      · have unseen' : number ∉ List.range' 1 top := by
          rw [List.mem_range'_1]
          omega
        have next : number = top + 1 → top + 1 ≤ last →
            (unseen (List.range' 1 top ++ [number]) later =
                List.range' (top + 1 + 1) (last - (top + 1)) ↔
              Climbs (top + 1) later ∧ ∀ number ∈ later, number ≤ last) := by
          rintro rfl within
          have grown : List.range' 1 top ++ [top + 1] = List.range' 1 (top + 1) := by
            rw [List.range'_1_concat, Nat.add_comm 1 top]
          rw [grown]
          exact ih others within (covers_later covers (Nat.le_succ _) (le_refl _))
        rw [if_neg unseen']
        constructor
        · intro same
          cases room : last - top with
          | zero =>
              rw [room] at same
              cases same
          | succ rest =>
              rw [room, List.range'_succ] at same
              obtain ⟨rfl, tails⟩ := List.cons.inj same
              have fewer : last - (top + 1) = rest := by omega
              obtain ⟨climbs, bounded⟩ := (next rfl (by omega)).mp (by rw [fewer]; exact tails)
              rw [max_eq_right (by omega)]
              exact ⟨⟨le_refl _, climbs⟩, by omega, bounded⟩
        · rintro ⟨⟨step, climbs⟩, within, bounded⟩
          obtain rfl : number = top + 1 := by omega
          rw [max_eq_right (by omega)] at climbs
          have room : last - top = last - (top + 1) + 1 := by omega
          rw [room, List.range'_succ, (next rfl within).mpr ⟨climbs, bounded⟩]

/-! ## What an answer made of quotes mentions -/

section Mentions

variable {sourceCount : Int}

theorem mentions_run {run : List Char} (outside : ∀ c ∈ run, isBracket c = false)
    (inside : Option (List Char)) (later : List (Piece Char)) :
    mentions sourceCount inside (run.map .plain ++ later) =
      mentions sourceCount (inside.map (· ++ run)) later := by
  induction run generalizing inside with
  | nil => cases inside <;> simp
  | cons c run ih =>
      obtain ⟨first, others⟩ := List.forall_mem_cons.mp outside
      simp only [isBracket, Bool.or_eq_false_iff, beq_eq_false_iff_ne] at first
      rw [List.map_cons, List.cons_append, mentions, if_neg first.1, if_neg first.2, ih others]
      cases inside <;> simp

/-- What follows a marker that is kept is read alone. -/
theorem mentions_append_kept {found : List Char} (valid : numbers sourceCount found ≠ [])
    (inside : Option (List Char)) (earlier later : List (Piece Char)) :
    mentions sourceCount inside (earlier ++ .found found :: later) =
      mentions sourceCount inside earlier ++ .kept found :: mentions sourceCount none later := by
  induction earlier generalizing inside with
  | nil =>
      rw [List.nil_append, mentions, mentions, if_neg valid]
      rfl
  | cons piece earlier ih =>
      rw [List.cons_append]
      cases piece with
      | plain c =>
          rw [mentions, mentions]
          split
          · exact ih _
          · split
            · rw [ih, List.append_assoc]
            · exact ih _
      | found text =>
          rw [mentions, mentions]
          split
          · exact ih _
          · rw [ih]
            rfl

theorem mentions_append_run {run : List Char} (outside : ∀ c ∈ run, isBracket c = false)
    (inside : Option (List Char)) (earlier : List (Piece Char)) :
    mentions sourceCount inside (earlier ++ run.map .plain) =
      mentions sourceCount inside earlier := by
  induction earlier generalizing inside with
  | nil =>
      have alone := @mentions_run sourceCount run outside inside []
      rw [List.append_nil] at alone
      rw [List.nil_append, alone]
      rfl
  | cons piece earlier ih =>
      rw [List.cons_append]
      cases piece with
      | plain c =>
          rw [mentions, mentions]
          simp only [ih]
      | found text =>
          rw [mentions, mentions]
          simp only [ih]

theorem scan_run {run : List Char} (outside : ∀ c ∈ run, isBracket c = false)
    (rest : List Char) :
    citationRe.scan (run ++ rest) = run.map .plain ++ citationRe.scan rest := by
  induction run with
  | nil => rfl
  | cons c run ih =>
      obtain ⟨first, others⟩ := List.forall_mem_cons.mp outside
      simp only [isBracket, Bool.or_eq_false_iff, beq_eq_false_iff_ne] at first
      rw [List.cons_append, scan_other first.1, ih others, List.map_cons, List.cons_append]

/-- A text between two others without brackets. -/
theorem scan_between {left right : List Char} (isLeft : ∀ c ∈ left, isBracket c = false)
    (isRight : ∀ c ∈ right, isBracket c = false) (text : List Char) :
    citationRe.scan (left ++ text ++ right) =
      left.map .plain ++ citationRe.scan text ++ right.map .plain := by
  have alone := scan_run isRight []
  rw [List.append_nil] at alone
  rw [scan_append (detached_outside isRight), scan_run isLeft, alone]
  exact congrArg (_ ++ ·) (List.append_nil _)

theorem mentions_between {left right : List Char} (isLeft : ∀ c ∈ left, isBracket c = false)
    (isRight : ∀ c ∈ right, isBracket c = false) (text : List Char) :
    mentions sourceCount none (citationRe.scan (left ++ text ++ right)) =
      mentions sourceCount none (citationRe.scan text) := by
  rw [scan_between isLeft isRight, mentions_append_run isRight, mentions_run isLeft]
  rfl

theorem allReadable_append {first second : List (Piece Char)} :
    AllReadable (first ++ second) ↔ AllReadable first ∧ AllReadable second := by
  simp only [AllReadable, List.mem_append, or_imp, forall_and]

theorem allReadable_between {left right : List Char} (isLeft : ∀ c ∈ left, isBracket c = false)
    (isRight : ∀ c ∈ right, isBracket c = false) (text : List Char) :
    AllReadable (citationRe.scan (left ++ text ++ right)) ↔
      AllReadable (citationRe.scan text) := by
  have plain : ∀ run : List Char, AllReadable (run.map .plain) := by
    intro run found member
    obtain ⟨_, _, wrong⟩ := List.mem_map.mp member
    cases wrong
  rw [scan_between isLeft isRight, allReadable_append, allReadable_append,
    and_iff_right (plain left), and_iff_left (plain right)]

end Mentions

/-! ## The extractive answer -/

/-- The first texts, each with its marker. -/
def quotesFrom : Nat → List String → List Char
  | _, [] => []
  | number, text :: later =>
    ' ' :: (stripChars text.toList ++ ' ' :: (markerOf number ++ quotesFrom (number + 1) later))

/-- A text with its marker. -/
def quote (entry : String × Nat) : String := s!"{strip entry.1} [{entry.2}]"

theorem quote_toList (text : String) (number : Nat) :
    (quote (text, number)).toList = stripChars text.toList ++ ' ' :: markerOf number := by
  have texts : quote (text, number) = strip text ++ " [" ++ toString number ++ "]" := rfl
  rw [texts]
  simp [strip, stripChars, markerOf, marker]

theorem quotes_toList (number : Nat) (text : String) (later : List String) :
    ' ' :: (String.intercalate " " (((text :: later).zipIdx number).map quote)).toList =
      quotesFrom number (text :: later) := by
  induction later generalizing number text with
  | nil => simp [quotesFrom, quote_toList]
  | cons second later ih =>
      rw [quotesFrom, ← ih]
      simp [String.toList_intercalate, quote_toList]

theorem extractive_toList {context : List String} (some : context ≠ []) :
    (extractive context).text.toList =
      "Based on the indexed sources:".toList ++ quotesFrom 1 (context.take 3) := by
  obtain ⟨text, later, rfl⟩ := List.exists_cons_of_ne_nil some
  have texts : (extractive (text :: later)).text =
      "Based on the indexed sources: " ++
        String.intercalate " " (((text :: later.take 2).zipIdx 1).map quote) := rfl
  rw [texts, List.take_succ_cons, ← quotes_toList, String.toList_append]
  simp

/-- The valid numbers of the markers that stripping leaves in the text. -/
def mentioned (sourceCount : Int) (text : String) : List Nat :=
  (mentions sourceCount none (citationRe.scan text.toList)).flatMap fun mention =>
    numbers sourceCount (mention.text sourceCount)

/-- What each of the first texts mentions, then its own number. -/
def mentionedFrom (sourceCount : Int) : Nat → List String → List Nat
  | _, [] => []
  | number, text :: later =>
    mentioned sourceCount text ++ number :: mentionedFrom sourceCount (number + 1) later

section Quotes

variable {sourceCount : Int}

theorem numbers_markerOf {number : Nat} (short : number < 10 ^ maxIntDigits)
    (valid : inRange sourceCount number = true) :
    numbers sourceCount (markerOf number) = [number] := by
  obtain ⟨split, _, _⟩ := markerOf_spec number
  simp [numbers, split, validNumber_of_int (intOfDigits_toDigits short), valid]

/-- A text between blanks, and its marker. -/
theorem scan_quote (text : String) (number : Nat) (rest : List Char) :
    citationRe.scan (' ' :: (stripChars text.toList ++ ' ' :: (markerOf number ++ rest))) =
      citationRe.scan ([' '] ++ stripChars text.toList ++ [' ']) ++
        .found (markerOf number) :: citationRe.scan rest := by
  have inBody : Nat.toDigits 10 number ∈ citationBody.language := by
    have numeral : ∀ text ∈ [Nat.toDigits 10 number], text ∈ digits.language :=
      List.forall_mem_singleton.mpr (mem_digits_toDigits number)
    have joined := join_mem_citationBody (List.cons_ne_nil _ _) numeral
    rwa [join_single] at joined
  have split : ' ' :: (stripChars text.toList ++ ' ' :: (markerOf number ++ rest)) =
      ([' '] ++ stripChars text.toList ++ [' ']) ++ (markerOf number ++ rest) := by simp
  have detached : Detached (markerOf number ++ rest) := detached_open _
  rw [split, scan_append detached, markerOf, scan_marker inBody]

/-- White space around a text does not matter. -/
theorem text_between (text : String) :
    ∃ left right, (∀ c ∈ left, isBracket c = false) ∧ (∀ c ∈ right, isBracket c = false) ∧
      text.toList = left ++ stripChars text.toList ++ right := by
  refine ⟨text.toList.takeWhile isSpace, (text.toList.dropWhile isSpace).rtakeWhile isSpace,
    fun c member => not_bracket_of_space (List.mem_takeWhile_imp member),
    fun c member => not_bracket_of_space (List.mem_rtakeWhile_imp member), ?_⟩
  rw [stripChars, List.append_assoc, List.rdropWhile_append_rtakeWhile,
    List.takeWhile_append_dropWhile]

theorem mentions_blank (text : String) :
    mentions sourceCount none (citationRe.scan ([' '] ++ stripChars text.toList ++ [' '])) =
      mentions sourceCount none (citationRe.scan text.toList) := by
  have blank : ∀ c ∈ [' '], isBracket c = false := List.forall_mem_singleton.mpr (by decide)
  obtain ⟨left, right, isLeft, isRight, whole⟩ := text_between text
  rw [mentions_between blank blank]
  conv_rhs => rw [whole]
  rw [mentions_between isLeft isRight]

theorem allReadable_blank (text : String) :
    AllReadable (citationRe.scan ([' '] ++ stripChars text.toList ++ [' '])) ↔
      AllReadable (citationRe.scan text.toList) := by
  have blank : ∀ c ∈ [' '], isBracket c = false := List.forall_mem_singleton.mpr (by decide)
  obtain ⟨left, right, isLeft, isRight, whole⟩ := text_between text
  rw [allReadable_between blank blank]
  conv_rhs => rw [whole]
  rw [allReadable_between isLeft isRight]

/-- The markers of the answer's own numbers list them. -/
def Citable (sourceCount : Int) (number : Nat) (texts : List String) : Prop :=
  ∀ own, number ≤ own → own < number + texts.length →
    Readable (parts (markerOf own)) ∧ numbers sourceCount (markerOf own) = [own]

variable {number : Nat} {text : String} {later texts : List String}

theorem Citable.first (citable : Citable sourceCount number (text :: later)) :
    Readable (parts (markerOf number)) ∧ numbers sourceCount (markerOf number) = [number] :=
  citable number (le_refl _) (by simp)

theorem Citable.rest (citable : Citable sourceCount number (text :: later)) :
    Citable sourceCount (number + 1) later := by
  intro own above below
  refine citable own (by omega) ?_
  rw [List.length_cons]
  omega

theorem mentions_quotes (citable : Citable sourceCount number (text :: later)) :
    mentions sourceCount none (citationRe.scan (quotesFrom number (text :: later))) =
      mentions sourceCount none (citationRe.scan text.toList) ++
        .kept (markerOf number) ::
          mentions sourceCount none (citationRe.scan (quotesFrom (number + 1) later)) := by
  have valid : numbers sourceCount (markerOf number) ≠ [] := by
    rw [citable.first.2]
    exact List.cons_ne_nil _ _
  rw [quotesFrom, scan_quote, mentions_append_kept valid, mentions_blank]

theorem tame_quotes (citable : Citable sourceCount number texts) :
    Tame sourceCount (quotesFrom number texts) ↔
      ∀ text ∈ texts, Tame sourceCount text.toList := by
  induction texts generalizing number with
  | nil =>
      refine iff_of_true (tame_iff.mpr ⟨?_, ?_⟩) (List.forall_mem_nil _)
      · intro found member
        cases member
      · intro found member
        cases member
  | cons text later ih =>
      have readable : AllReadable (citationRe.scan (quotesFrom number (text :: later))) ↔
          AllReadable (citationRe.scan text.toList) ∧
            AllReadable (citationRe.scan (quotesFrom (number + 1) later)) := by
        have own : ∀ pieces, AllReadable (.found (markerOf number) :: pieces) ↔
            AllReadable pieces := by
          intro pieces
          have split : AllReadable (.found (markerOf number) :: pieces) ↔
              Readable (parts (markerOf number)) ∧ AllReadable pieces := by
            simp [AllReadable]
          exact split.trans (and_iff_right citable.first.1)
        rw [quotesFrom, scan_quote, allReadable_append, own, allReadable_blank]
      rw [List.forall_mem_cons, ← ih citable.rest, tame_iff, tame_iff, tame_iff, readable,
        mentions_quotes citable]
      simp only [List.mem_append, List.mem_cons, or_imp, forall_and, reduceCtorEq, false_imp_iff,
        true_and]
      exact and_and_and_comm

theorem numbers_quotes (citable : Citable sourceCount number texts) :
    ((mentions sourceCount none (citationRe.scan (quotesFrom number texts))).flatMap
        fun mention => numbers sourceCount (mention.text sourceCount)) =
      mentionedFrom sourceCount number texts := by
  induction texts generalizing number with
  | nil => rfl
  | cons text later ih =>
      rw [mentions_quotes citable, List.flatMap_append, List.flatMap_cons, ih citable.rest,
        Mention.text, numbers_kept, citable.first.2, mentionedFrom, mentioned,
        List.singleton_append]

theorem mem_mentionedFrom {own : Nat} (above : number ≤ own)
    (below : own < number + texts.length) : own ∈ mentionedFrom sourceCount number texts := by
  induction texts generalizing number with
  | nil =>
      rw [List.length_nil] at below
      omega
  | cons text later ih =>
      rw [mentionedFrom, List.mem_append, List.mem_cons]
      by_cases here : own = number
      · exact .inr (.inl here)
      · rw [List.length_cons] at below
        exact .inr (.inr (ih (by omega) (by omega)))

theorem positive_of_numbers {found : List Char} {own : Nat}
    (member : own ∈ numbers sourceCount found) : 1 ≤ own := by
  obtain ⟨part, _, isValid⟩ := List.mem_filterMap.mp member
  rw [validNumber] at isValid
  split at isValid
  · rw [Option.ite_none_right_eq_some] at isValid
    obtain ⟨valid, same⟩ := isValid
    obtain rfl := Option.some.inj same
    rw [inRange, Bool.and_eq_true, decide_eq_true_iff] at valid
    exact valid.1
  · cases isValid

theorem positive_of_mentionedFrom {own : Nat} (positive : 1 ≤ number)
    (member : own ∈ mentionedFrom sourceCount number texts) : 1 ≤ own := by
  induction texts generalizing number with
  | nil => cases member
  | cons text later ih =>
      rw [mentionedFrom, List.mem_append, List.mem_cons] at member
      rcases member with inText | rfl | inLater
      · obtain ⟨mention, _, inMention⟩ := List.mem_flatMap.mp inText
        exact positive_of_numbers inMention
      · exact positive
      · exact ih (by omega) inLater

end Quotes

/-! ## What it cites -/

section Extractive

variable {sourceCount : Int} {context : List String}

theorem citable_quoted (enough : (context.length : Int) ≤ sourceCount) :
    Citable sourceCount 1 (context.take 3) := by
  have quoted : (context.take 3).length = min 3 context.length := List.length_take
  intro own above below
  have short : own < 10 ^ maxIntDigits := by
    have three : own < 10 ^ 1 := by omega
    exact three.trans_le (Nat.pow_le_pow_right (by decide) (by decide))
  have valid : inRange sourceCount own = true := by
    rw [inRange, Bool.and_eq_true, decide_eq_true_iff, decide_eq_true_iff]
    omega
  have split := (markerOf_spec own).1
  refine ⟨?_, numbers_markerOf short valid⟩
  rw [split]
  exact List.forall_mem_singleton.mpr ⟨own, intOfDigits_toDigits short⟩

/-- The words in front of the quotes are between no brackets. -/
theorem introduction_outside :
    ∀ c ∈ "Based on the indexed sources:".toList, isBracket c = false := by
  have none : "Based on the indexed sources:".toList.all (!isBracket ·) = true := by decide
  intro c member
  simpa using List.all_eq_true.mp none c member

theorem mentions_extractive (some : context ≠ []) :
    mentions sourceCount none (citationRe.scan (extractive context).text.toList) =
      mentions sourceCount none (citationRe.scan (quotesFrom 1 (context.take 3))) := by
  rw [extractive_toList some, ← List.append_nil (_ ++ _),
    mentions_between introduction_outside (List.forall_mem_nil _)]

theorem tame_extractive (some : context ≠ []) (enough : (context.length : Int) ≤ sourceCount) :
    Tame sourceCount (extractive context).text.toList ↔
      ∀ text ∈ context.take 3, Tame sourceCount text.toList := by
  rw [← tame_quotes (citable_quoted enough), tame_iff, tame_iff, mentions_extractive some,
    extractive_toList some, ← List.append_nil (_ ++ _),
    allReadable_between introduction_outside (List.forall_mem_nil _)]

/-- What the stripped answer cites is what the quoted texts mention. -/
theorem cited_extractive (some : context ≠ []) (enough : (context.length : Int) ≤ sourceCount)
    {stripped : String}
    (done : stripInvalidCitations (extractive context).text sourceCount = .ok stripped) :
    (citationRe.findAll stripped.toList).flatMap (numbers sourceCount) =
      mentionedFrom sourceCount 1 (context.take 3) := by
  rw [findAll_stripped done, List.flatMap_map, mentions_extractive some,
    numbers_quotes (citable_quoted enough)]

/-- The quoted sources are listed when they are mentioned in turn, and no others. -/
theorem unseen_mentioned_iff :
    unseen [] (mentionedFrom sourceCount 1 (context.take 3)) =
        List.range' 1 (min 3 context.length) ↔
      Climbs 0 (mentionedFrom sourceCount 1 (context.take 3)) ∧
        ∀ number ∈ mentionedFrom sourceCount 1 (context.take 3),
          number ≤ min 3 context.length := by
  refine @unseen_range'_iff 0 (min 3 context.length) _ ?_ (Nat.zero_le _) ?_
  · exact fun _ member => positive_of_mentionedFrom (le_refl 1) member
  · intro own above below
    have inTexts : own < 1 + (context.take 3).length := by
      rw [List.length_take]
      omega
    exact mem_mentionedFrom above inTexts

end Extractive

/-- The extractive answer, stripped, cites the sources it quotes and no others. -/
def CitesQuotes (sourceCount : Int) (context : List String) : Prop :=
  ∃ stripped, stripInvalidCitations (extractive context).text sourceCount = .ok stripped ∧
    citedSources stripped sourceCount = .ok (List.range' 1 (min 3 context.length))

/-- It does so exactly when the quoted texts are tame, and, read one after the other, mention
no number beyond the quoted ones and none before its turn. -/
theorem cites_quotes_iff (sourceCount : Int) (context : List String) (some : context ≠ [])
    (enough : (context.length : Int) ≤ sourceCount) :
    CitesQuotes sourceCount context ↔
      (∀ text ∈ context.take 3, Tame sourceCount text.toList) ∧
        Climbs 0 (mentionedFrom sourceCount 1 (context.take 3)) ∧
        ∀ number ∈ mentionedFrom sourceCount 1 (context.take 3),
          number ≤ min 3 context.length := by
  rw [← tame_extractive some enough, ← unseen_mentioned_iff, tame_iff_returns]
  constructor
  · rintro ⟨stripped, done, used⟩
    have listed := (citedSources_ok_iff.mp used).2
    rw [cited_extractive some enough done] at listed
    exact ⟨⟨stripped, done, _, used⟩, listed.symm⟩
  · rintro ⟨⟨stripped, done, used, cited⟩, listed⟩
    have isUsed := (citedSources_ok_iff.mp cited).2
    rw [cited_extractive some enough done, listed] at isUsed
    exact ⟨stripped, done, isUsed ▸ cited⟩

/-- A source that is not quoted is cited, and first. -/
theorem quoted_marker_cited :
    ¬ ∀ (sourceCount : Int) (context : List String), context ≠ [] →
      (context.length : Int) ≤ sourceCount → CitesQuotes sourceCount context := by
  intro claimed
  obtain ⟨stripped, done, used⟩ := claimed 4 ["see [4]", "b", "c", "d"] (by decide) (by decide)
  have result : stripInvalidCitations (extractive ["see [4]", "b", "c", "d"]).text 4 =
      .ok "Based on the indexed sources: see [4] [1] b [2] c [3]" := by decide +kernel
  rw [result] at done
  obtain rfl := Except.ok.inj done
  have cited : citedSources "Based on the indexed sources: see [4] [1] b [2] c [3]" 4 =
      .ok [4, 1, 2, 3] := by decide +kernel
  rw [cited] at used
  revert used
  decide

/-- A text may mention the quoted sources in their order. -/
theorem own_marker_harmless : CitesQuotes 2 ["see [1]", "b"] := by
  refine (cites_quotes_iff 2 _ (by decide) (by decide)).mpr ⟨?_, by decide +kernel⟩
  refine List.forall_mem_cons.mpr ⟨?_, List.forall_mem_singleton.mpr ?_⟩
  · exact tame_iff_returns.mpr ⟨"see [1]", by decide +kernel, [1], by decide +kernel⟩
  · exact tame_iff_returns.mpr ⟨"b", by decide +kernel, [], by decide +kernel⟩

end ProductionRag
