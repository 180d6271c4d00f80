import Mathlib.Computability.Language
import Mathlib.Logic.Relation

/-!
# Regular expressions that backtrack

An expression lists the places where a match from a given place can end, preferred one
first.  Scanning takes the preferred match at the leftmost place that has one and goes on
after it.  Expressions without word boundaries match by their language alone.  The
expressions scanned for match no empty text.
-/

set_option autoImplicit false

namespace Basis

universe u

variable {α : Type u}

/-- A place in a text: the character before it and the rest. -/
structure Cursor (α : Type u) where
  prev : Option α
  rest : List α
  deriving DecidableEq

inductive Regex (α : Type u) where
  | char (p : α → Bool)
  | empty
  | seq (first second : Regex α)
  | alt (first second : Regex α)
  | star (body : Regex α)
  | boundary (isWord : α → Bool)

/-- Past this text. -/
def Cursor.advance (cursor : Cursor α) (text rest : List α) : Cursor α :=
  ⟨text.getLast?.or cursor.prev, rest⟩

/-- A word starts or ends here. -/
def Cursor.atBoundary (isWord : α → Bool) (cursor : Cursor α) : Bool :=
  cursor.prev.any isWord != cursor.rest.head?.any isWord

namespace Regex

def plus (body : Regex α) : Regex α := .seq body (.star body)

def optional (body : Regex α) : Regex α := .alt body .empty

/-- The greedy iteration; an iteration that stays in place is cut off. -/
def starEnds (step : Cursor α → List (Cursor α)) : Nat → Cursor α → List (Cursor α)
  | 0, cursor => [cursor]
  | fuel + 1, cursor =>
    ((step cursor).filter fun next => next.rest.length < cursor.rest.length).flatMap
      (starEnds step fuel) ++ [cursor]

/-- Where a match can end, in the order of backtracking. -/
def ends : Regex α → Cursor α → List (Cursor α)
  | .char p, cursor =>
    match cursor.rest with
    | [] => []
    | c :: rest => if p c then [⟨some c, rest⟩] else []
  | .empty, cursor => [cursor]
  | .seq first second, cursor => (first.ends cursor).flatMap second.ends
  | .alt first second, cursor => first.ends cursor ++ second.ends cursor
  | .star body, cursor => starEnds body.ends cursor.rest.length cursor
  | .boundary isWord, cursor => if cursor.atBoundary isWord then [cursor] else []

/-- A match leads from one place to the other. -/
def Matches : Regex α → Cursor α → Cursor α → Prop
  | .char p, cursor, next =>
    ∃ c rest, cursor.rest = c :: rest ∧ p c = true ∧ next = ⟨some c, rest⟩
  | .empty, cursor, next => next = cursor
  | .seq first second, cursor, next =>
    ∃ middle, first.Matches cursor middle ∧ second.Matches middle next
  | .alt first second, cursor, next => first.Matches cursor next ∨ second.Matches cursor next
  | .star body, cursor, next => Relation.ReflTransGen body.Matches cursor next
  | .boundary isWord, cursor, next => cursor.atBoundary isWord = true ∧ next = cursor

/-! ## The matcher finds every match -/

/-- A match goes forward; one that stays in place changes nothing. -/
theorem Matches.forward {r : Regex α} {cursor next : Cursor α} (found : r.Matches cursor next) :
    next = cursor ∨ next.rest.length < cursor.rest.length := by
  induction r generalizing cursor next with
  | char p =>
      obtain ⟨c, rest, text, _, rfl⟩ := found
      right
      simp [text]
  | empty => exact Or.inl found
  | seq first second ihFirst ihSecond =>
      obtain ⟨middle, before, after⟩ := found
      rcases ihFirst before with rfl | less
      · exact ihSecond after
      · rcases ihSecond after with rfl | less'
        · exact Or.inr less
        · exact Or.inr (less'.trans less)
  | alt first second ihFirst ihSecond =>
      rcases found with found | found
      · exact ihFirst found
      · exact ihSecond found
  | star body ih =>
      induction found with
      | refl => exact Or.inl rfl
      | tail _ last earlier =>
          rcases ih last with rfl | less
          · exact earlier
          · rcases earlier with rfl | less'
            · exact Or.inr less
            · exact Or.inr (less.trans less')
  | boundary isWord => exact Or.inl found.2

theorem starEnds_sound {body : Regex α} (sound : ∀ {cursor next : Cursor α},
    next ∈ body.ends cursor → body.Matches cursor next) {fuel : Nat} {cursor next : Cursor α}
    (member : next ∈ starEnds body.ends fuel cursor) :
    Relation.ReflTransGen body.Matches cursor next := by
  induction fuel generalizing cursor with
  | zero =>
      obtain rfl := List.mem_singleton.mp member
      exact .refl
  | succ fuel ih =>
      rw [starEnds, List.mem_append, List.mem_flatMap] at member
      rcases member with ⟨middle, first, later⟩ | last
      · exact .head (sound (List.mem_filter.mp first).1) (ih later)
      · obtain rfl := List.mem_singleton.mp last
        exact .refl

theorem starEnds_complete {body : Regex α} (complete : ∀ {cursor next : Cursor α},
    body.Matches cursor next → next ∈ body.ends cursor) {cursor next : Cursor α}
    (found : Relation.ReflTransGen body.Matches cursor next) :
    ∀ fuel, cursor.rest.length ≤ fuel → next ∈ starEnds body.ends fuel cursor := by
  induction found using Relation.ReflTransGen.head_induction_on with
  | refl =>
      intro fuel _
      cases fuel <;> simp [starEnds]
  | @head cursor middle first _ ih =>
      intro fuel enough
      rcases first.forward with rfl | less
      · exact ih fuel enough
      · cases fuel with
        | zero => omega
        | succ fuel =>
            rw [starEnds, List.mem_append, List.mem_flatMap]
            refine Or.inl ⟨middle, ?_, ih fuel (by omega)⟩
            exact List.mem_filter.mpr ⟨complete first, by simpa using less⟩

theorem mem_ends_iff {r : Regex α} {cursor next : Cursor α} :
    next ∈ r.ends cursor ↔ r.Matches cursor next := by
  induction r generalizing cursor next with
  | char p =>
      cases text : cursor.rest with
      | nil => simp [ends, Matches, text]
      | cons c rest =>
          simp only [ends, Matches, text]
          by_cases holds : p c = true
          · simp [holds]
          · rw [if_neg holds]
            constructor
            · intro member
              cases member
            · rintro ⟨other, tail, same, isP, _⟩
              obtain ⟨rfl, _⟩ := List.cons.inj same
              exact absurd isP holds
  | empty => simp [ends, Matches]
  | seq first second ihFirst ihSecond =>
      simp only [ends, Matches, List.mem_flatMap, ihFirst, ihSecond]
  | alt first second ihFirst ihSecond =>
      simp only [ends, Matches, List.mem_append, ihFirst, ihSecond]
  | star body ih =>
      constructor
      · exact starEnds_sound fun member => ih.mp member
      · exact fun found => starEnds_complete (fun found => ih.mpr found) found _ (Nat.le_refl _)
  | boundary isWord =>
      simp only [ends, Matches]
      split <;> simp [*]

/-! ## Languages -/

def language : Regex α → Language α
  | .char p => fun text => ∃ c, p c = true ∧ text = [c]
  | .empty => 1
  | .seq first second => first.language * second.language
  | .alt first second => first.language + second.language
  | .star body => KStar.kstar body.language
  | .boundary _ => 1

/-- The expression asks for no word boundary. -/
def boundaryFree : Regex α → Bool
  | .seq first second => first.boundaryFree && second.boundaryFree
  | .alt first second => first.boundaryFree && second.boundaryFree
  | .star body => body.boundaryFree
  | .boundary _ => false
  | _ => true

theorem advance_nil {cursor : Cursor α} {rest : List α} (whole : cursor.rest = rest) :
    cursor.advance [] rest = cursor := by
  subst whole
  rfl

theorem advance_append (cursor : Cursor α) (first second middle rest : List α) :
    (cursor.advance first middle).advance second rest = cursor.advance (first ++ second) rest := by
  simp only [Cursor.advance, List.getLast?_append, Option.or_assoc]

/-- Without word boundaries a match is a word of the language. -/
theorem matches_iff_language {r : Regex α} (free : r.boundaryFree = true)
    {cursor next : Cursor α} :
    r.Matches cursor next ↔
      ∃ text ∈ r.language, cursor.rest = text ++ next.rest ∧
        next = cursor.advance text next.rest := by
  induction r generalizing cursor next with
  | char p =>
      constructor
      · rintro ⟨c, rest, text, isP, rfl⟩
        exact ⟨[c], ⟨c, isP, rfl⟩, text, rfl⟩
      · rintro ⟨_, ⟨c, isP, rfl⟩, text, same⟩
        exact ⟨c, next.rest, text, isP, same⟩
  | empty =>
      constructor
      · rintro rfl
        exact ⟨[], rfl, rfl, rfl⟩
      · rintro ⟨text, isEmpty, whole, same⟩
        obtain rfl : text = [] := isEmpty
        exact same.trans (advance_nil whole)
  | seq first second ihFirst ihSecond =>
      simp only [boundaryFree, Bool.and_eq_true] at free
      constructor
      · rintro ⟨middle, before, after⟩
        obtain ⟨left, inLeft, whole, same⟩ := (ihFirst free.1).mp before
        obtain ⟨right, inRight, whole', same'⟩ := (ihSecond free.2).mp after
        refine ⟨left ++ right, Language.append_mem_mul inLeft inRight, ?_, ?_⟩
        · rw [whole, whole', List.append_assoc]
        · rw [same', same, advance_append]
          rfl
      · rintro ⟨_, inProduct, whole, same⟩
        obtain ⟨left, inLeft, right, inRight, rfl⟩ := Language.mem_mul.mp inProduct
        refine ⟨cursor.advance left (right ++ next.rest), ?_, ?_⟩
        · refine (ihFirst free.1).mpr ⟨left, inLeft, ?_, rfl⟩
          rw [whole, List.append_assoc]
          rfl
        · refine (ihSecond free.2).mpr ⟨right, inRight, rfl, ?_⟩
          rw [advance_append]
          exact same
  | alt first second ihFirst ihSecond =>
      simp only [boundaryFree, Bool.and_eq_true] at free
      simp only [Matches, ihFirst free.1, ihSecond free.2, language, Language.mem_add, or_and_right,
        exists_or]
  | star body ih =>
      constructor
      · intro found
        induction found using Relation.ReflTransGen.head_induction_on with
        | refl => exact ⟨[], Language.nil_mem_kstar _, rfl, rfl⟩
        | @head cursor middle first _ later =>
            obtain ⟨left, inLeft, whole, same⟩ := (ih free).mp first
            obtain ⟨right, inRight, whole', same'⟩ := later
            obtain ⟨parts, rfl, inBody⟩ := Language.mem_kstar.mp inRight
            refine ⟨left ++ parts.flatten, Language.mem_kstar.mpr ⟨left :: parts, rfl, ?_⟩, ?_, ?_⟩
            · exact List.forall_mem_cons.mpr ⟨inLeft, inBody⟩
            · rw [whole, whole', List.append_assoc]
            · rw [same', same, advance_append]
              rfl
      · rintro ⟨_, inStar, whole, same⟩
        obtain ⟨parts, rfl, inBody⟩ := Language.mem_kstar.mp inStar
        induction parts generalizing cursor with
        | nil =>
            have stays : next = cursor := same.trans (advance_nil whole)
            rw [stays]
            exact .refl
        | cons part parts again =>
            obtain ⟨inPart, others⟩ := List.forall_mem_cons.mp inBody
            rw [List.flatten_cons, List.append_assoc] at whole
            rw [List.flatten_cons] at same
            have first : body.Matches cursor
                (cursor.advance part (parts.flatten ++ next.rest)) :=
              (ih free).mpr ⟨part, inPart, whole, rfl⟩
            refine .head first (again others (Language.mem_kstar.mpr ⟨parts, rfl, others⟩) rfl ?_)
            rw [advance_append]
            exact same
  | boundary isWord => cases free

/-- Words of an iterated character class. -/
theorem mem_star_char {p : α → Bool} {text : List α} :
    text ∈ (star (char p)).language ↔ text.all p = true := by
  rw [language, Language.mem_kstar, List.all_eq_true]
  constructor
  · rintro ⟨words, rfl, inClass⟩ c member
    obtain ⟨word, wordMember, inWord⟩ := List.mem_flatten.mp member
    obtain ⟨d, isP, rfl⟩ := inClass word wordMember
    obtain rfl := List.mem_singleton.mp inWord
    exact isP
  · intro all
    refine ⟨text.map fun c => [c], (List.flatMap_singleton' text).symm, ?_⟩
    intro word member
    obtain ⟨c, inText, rfl⟩ := List.mem_map.mp member
    exact ⟨c, all c inText, rfl⟩

theorem mem_optional_char {p : α → Bool} {text : List α} :
    text ∈ (optional (char p)).language ↔ text = [] ∨ ∃ c, p c = true ∧ text = [c] := by
  rw [optional, language, Language.mem_add, or_comm]
  exact Iff.rfl

end Regex

/-! ## Scanning -/

/-- A text falls apart into matches and the characters between them. -/
inductive Piece (α : Type u) where
  | plain (c : α)
  | found (text : List α)
  deriving DecidableEq

def Piece.text : Piece α → List α
  | .plain c => [c]
  | .found text => text

def Piece.found? : Piece α → Option (List α)
  | .plain _ => none
  | .found text => some text

namespace Regex

/-- The end of the preferred match, if it takes any text. -/
def next (r : Regex α) (cursor : Cursor α) : Option (Cursor α) :=
  (r.ends cursor).head?.filter fun next => next.rest.length < cursor.rest.length

def scanFrom (r : Regex α) : Nat → Cursor α → List (Piece α)
  | 0, _ => []
  | fuel + 1, cursor =>
    match cursor.rest with
    | [] => []
    | c :: rest =>
      match r.next cursor with
      | some next =>
        .found (cursor.rest.take (cursor.rest.length - next.rest.length)) :: r.scanFrom fuel next
      | none => .plain c :: r.scanFrom fuel ⟨some c, rest⟩

def scan (r : Regex α) (text : List α) : List (Piece α) := r.scanFrom text.length ⟨none, text⟩

/-- `re.findall`, the whole matches. -/
def findAll (r : Regex α) (text : List α) : List (List α) := (r.scan text).filterMap Piece.found?

/-- `re.sub` -/
def sub (r : Regex α) (replace : List α → List α) (text : List α) : List α :=
  (r.scan text).flatMap fun
    | .plain c => [c]
    | .found text => replace text

/-- `re.match` finds something. -/
def starts (r : Regex α) (text : List α) : Bool := !(r.ends ⟨none, text⟩).isEmpty

/-- `re.search` finds something. -/
def search (r : Regex α) (text : List α) : Bool :=
  (List.range (text.length + 1)).any fun place =>
    !(r.ends ⟨(text.take place).getLast?, text.drop place⟩).isEmpty

/-! ## Scanning by the rest of the text alone -/

/-- What scanning does when a match depends on the rest of the text alone: `step` gives the
rest after it. -/
def splitFrom (step : List α → Option (List α)) : Nat → List α → List (Piece α)
  | 0, _ => []
  | fuel + 1, text =>
    match text with
    | [] => []
    | c :: rest =>
      match step text with
      | some after =>
        .found (text.take (text.length - after.length)) :: splitFrom step fuel after
      | none => .plain c :: splitFrom step fuel rest

def split (step : List α → Option (List α)) (text : List α) : List (Piece α) :=
  splitFrom step text.length text

/-- `step` gives the rest after the matches of the expression. -/
structure Local (r : Regex α) (step : List α → Option (List α)) : Prop where
  sound : ∀ {cursor next : Cursor α}, r.Matches cursor next → step cursor.rest = some next.rest
  complete : ∀ {cursor : Cursor α} {after : List α}, step cursor.rest = some after →
    ∃ next, r.Matches cursor next
  shrinks : ∀ {text after : List α}, step text = some after → after.length < text.length
  suffix : ∀ {text after : List α}, step text = some after → after <:+ text

namespace Local

variable {r : Regex α} {step : List α → Option (List α)}

theorem next_rest (isLocal : r.Local step) (cursor : Cursor α) :
    (r.next cursor).map (·.rest) = step cursor.rest := by
  unfold next
  cases first : (r.ends cursor).head? with
  | none =>
      cases after : step cursor.rest with
      | none => rfl
      | some after =>
          obtain ⟨next, found⟩ := isLocal.complete after
          rw [List.head?_eq_none_iff] at first
          have member := mem_ends_iff.mpr found
          rw [first] at member
          cases member
  | some next =>
      have after := isLocal.sound (mem_ends_iff.mp (List.mem_of_mem_head? first))
      have less := isLocal.shrinks after
      simp [less, after]

theorem scanFrom_eq (isLocal : r.Local step) (fuel : Nat) (cursor : Cursor α) :
    r.scanFrom fuel cursor = splitFrom step fuel cursor.rest := by
  induction fuel generalizing cursor with
  | zero => rfl
  | succ fuel ih =>
      have after := isLocal.next_rest cursor
      cases text : cursor.rest with
      | nil => simp [scanFrom, splitFrom, text]
      | cons c rest =>
          rw [text] at after
          simp only [scanFrom, splitFrom, text]
          cases first : r.next cursor with
          | none =>
              rw [first] at after
              simp only [← after, Option.map_none, ih]
          | some next =>
              rw [first] at after
              simp only [← after, Option.map_some, ih]

theorem scan_eq (isLocal : r.Local step) (text : List α) : r.scan text = split step text :=
  isLocal.scanFrom_eq _ _

/-- Nothing of the text is lost. -/
theorem scan_text (isLocal : r.Local step) (text : List α) :
    (r.scan text).flatMap Piece.text = text := by
  have whole : ∀ (fuel : Nat) (text : List α), text.length ≤ fuel →
      (splitFrom step fuel text).flatMap Piece.text = text := by
    intro fuel
    induction fuel with
    | zero =>
        intro text enough
        rw [Nat.le_zero, List.length_eq_zero_iff] at enough
        subst enough
        rfl
    | succ fuel ih =>
        intro text enough
        cases text with
        | nil => rfl
        | cons c rest =>
            simp only [splitFrom]
            cases found : step (c :: rest) with
            | none =>
                rw [List.length_cons, Nat.succ_le_succ_iff] at enough
                dsimp only
                rw [List.flatMap_cons, ih rest enough]
                rfl
            | some after =>
                have less := isLocal.shrinks found
                dsimp only
                rw [List.flatMap_cons, ih after (by omega)]
                obtain ⟨text, same⟩ := isLocal.suffix found
                rw [← same]
                simp [Piece.text]
  rw [isLocal.scan_eq]
  exact whole _ text (Nat.le_refl _)

end Local

section Split

variable {step : List α → Option (List α)}
  (shrinks : ∀ {text after : List α}, step text = some after → after.length < text.length)

include shrinks in
theorem splitFrom_fuel {fuel : Nat} {text : List α} (enough : text.length ≤ fuel) :
    splitFrom step fuel text = split step text := by
  induction fuel using Nat.strong_induction_on generalizing text with
  | _ fuel ih =>
      cases text with
      | nil => cases fuel <;> rfl
      | cons c rest =>
          cases fuel with
          | zero => simp at enough
          | succ fuel =>
              rw [List.length_cons, Nat.succ_le_succ_iff] at enough
              rw [split, List.length_cons]
              simp only [splitFrom]
              cases found : step (c :: rest) with
              | none =>
                  dsimp only
                  rw [ih fuel (Nat.lt_succ_self _) enough]
                  rfl
              | some after =>
                  dsimp only
                  have less := shrinks found
                  rw [List.length_cons, Nat.lt_succ_iff] at less
                  rw [ih fuel (Nat.lt_succ_self _) (less.trans enough)]
                  rw [ih rest.length (Nat.lt_succ_of_le enough) less]

include shrinks in
theorem split_plain {c : α} {rest : List α} (none : step (c :: rest) = none) :
    split step (c :: rest) = .plain c :: split step rest := by
  rw [split, List.length_cons, splitFrom]
  simp only [none]
  rw [splitFrom_fuel shrinks (Nat.le_refl _)]

include shrinks in
theorem split_found {text after : List α} (some : step (text ++ after) = some after) :
    split step (text ++ after) = .found text :: split step after := by
  have less := shrinks some
  cases whole : text ++ after with
  | nil =>
      rw [whole] at less
      simp at less
  | cons c rest =>
      rw [whole] at some less
      rw [split, List.length_cons, splitFrom]
      simp only [some]
      rw [List.length_cons, Nat.lt_succ_iff] at less
      rw [splitFrom_fuel shrinks less, ← whole]
      simp

end Split

/-! ## Scanning where a match may begin -/

/-- Scanning with an anchor: whether a match may begin depends on the character before. -/
def scanWhereFrom (mayBegin : Option α → Bool) (r : Regex α) : Nat → Cursor α → List (Piece α)
  | 0, _ => []
  | fuel + 1, cursor =>
    match cursor.rest with
    | [] => []
    | c :: rest =>
      match (r.next cursor).filter fun _ => mayBegin cursor.prev with
      | some next =>
        .found (cursor.rest.take (cursor.rest.length - next.rest.length)) ::
          scanWhereFrom mayBegin r fuel next
      | none => .plain c :: scanWhereFrom mayBegin r fuel ⟨some c, rest⟩

/-- What is left when a label takes the place of every match. -/
def relabeled (label : List α) (pieces : List (Piece α)) : List α :=
  pieces.flatMap fun
    | .plain c => [c]
    | .found _ => label

/-- `re.sub` of an anchored pattern by a fixed text. -/
def subWhere (mayBegin : Option α → Bool) (r : Regex α) (label text : List α) : List α :=
  relabeled label (scanWhereFrom mayBegin r text.length ⟨none, text⟩)

section Anchored

variable {mayBegin : Option α → Bool} {r : Regex α} {label : List α}

theorem relabeled_plain (c : α) (pieces : List (Piece α)) :
    relabeled label (.plain c :: pieces) = c :: relabeled label pieces := rfl

theorem relabeled_found (text : List α) (pieces : List (Piece α)) :
    relabeled label (.found text :: pieces) = label ++ relabeled label pieces := rfl

/-- Text of the label aside, the result begins like the scanned text. -/
theorem prefix_of_relabeled {mark : α} (isMarked : label.head? = some mark) {text : List α}
    (unmarked : mark ∉ text) {fuel : Nat} {cursor : Cursor α}
    (begins : text <+: relabeled label (scanWhereFrom mayBegin r fuel cursor)) :
    text <+: cursor.rest := by
  induction fuel generalizing cursor text with
  | zero =>
      rw [List.prefix_nil.mp begins]
      exact List.nil_prefix
  | succ fuel ih =>
      cases text with
      | nil => exact List.nil_prefix
      | cons d text =>
          cases whole : cursor.rest with
          | nil =>
              simp only [scanWhereFrom, whole] at begins
              exact begins
          | cons c rest =>
              simp only [scanWhereFrom, whole] at begins
              split at begins
              · obtain ⟨head, tail⟩ := List.head?_eq_some_iff.mp isMarked
                rw [relabeled_found, tail, List.cons_append, List.cons_prefix_cons] at begins
                exact absurd (begins.1 ▸ List.mem_cons_self) unmarked
              · rw [relabeled_plain, List.cons_prefix_cons] at begins
                refine List.cons_prefix_cons.mpr ⟨begins.1, ?_⟩
                exact ih (fun member => unmarked (List.mem_cons_of_mem _ member)) begins.2

/-- Where a match begins, the scan finds one. -/
theorem next_isSome (free : r.boundaryFree = true) (nonempty : [] ∉ r.language)
    {cursor : Cursor α} {text : List α} (member : text ∈ r.language)
    (begins : text <+: cursor.rest) : (r.next cursor).isSome = true := by
  obtain ⟨after, whole⟩ := begins
  have found : cursor.advance text after ∈ r.ends cursor :=
    mem_ends_iff.mpr ((matches_iff_language free).mpr ⟨text, member, whole.symm, rfl⟩)
  cases first : (r.ends cursor).head? with
  | none =>
      rw [List.head?_eq_none_iff.mp first] at found
      cases found
  | some next =>
      obtain ⟨other, inLanguage, rest, _⟩ := (matches_iff_language free).mp
        (mem_ends_iff.mp (List.mem_of_mem_head? first))
      have taken : other ≠ [] := fun isNil => nonempty (isNil ▸ inLanguage)
      have less : next.rest.length < cursor.rest.length := by
        have some := List.length_pos_iff.mpr taken
        rw [rest, List.length_append]
        omega
      simp only [Regex.next, first, Option.filter_some, less, decide_true, if_true,
        Option.isSome_some]

/-- What the matches and their replacements do not show, a substitution does not show either. -/
theorem filter_sub (free : r.boundaryFree = true) {p : α → Bool} {replace : List α → List α}
    (unseen : ∀ text ∈ r.language, text.filter p = [])
    (silent : ∀ text, (replace text).filter p = []) (text : List α) :
    (r.sub replace text).filter p = text.filter p := by
  have scanned : ∀ (shown : Piece α → List α), (∀ c, shown (.plain c) = [c]) →
      (∀ text, (shown (.found text)).filter p = []) → ∀ (fuel : Nat) (cursor : Cursor α),
      cursor.rest.length ≤ fuel →
        ((r.scanFrom fuel cursor).flatMap shown).filter p = cursor.rest.filter p := by
    intro shown isPlain isFound fuel
    induction fuel with
    | zero =>
        intro cursor enough
        rw [Nat.le_zero, List.length_eq_zero_iff] at enough
        rw [enough]
        rfl
    | succ fuel ih =>
        intro cursor enough
        cases rest : cursor.rest with
        | nil => simp [scanFrom, rest]
        | cons c later =>
            rw [rest, List.length_cons, Nat.succ_le_succ_iff] at enough
            cases first : r.next cursor with
            | none =>
                simp only [scanFrom, rest, first, List.flatMap_cons, isPlain, List.filter_append]
                rw [ih ⟨some c, later⟩ enough, ← List.filter_append]
                rfl
            | some next =>
                obtain ⟨isFirst, less⟩ := Option.filter_eq_some_iff.mp first
                obtain ⟨word, inLanguage, whole, _⟩ := (matches_iff_language free).mp
                  (mem_ends_iff.mp (List.mem_of_mem_head? isFirst))
                rw [decide_eq_true_eq, rest, List.length_cons] at less
                simp only [scanFrom, rest, first, List.flatMap_cons, List.filter_append, isFound,
                  List.nil_append]
                rw [ih next (by omega), ← rest, whole, List.filter_append,
                  unseen word inLanguage, List.nil_append]
  exact scanned _ (fun _ => rfl) silent _ ⟨none, text⟩ (Nat.le_refl _)

/-- No match may begin behind a part of the label. -/
theorem eq_nil_of_begins (inside : ∀ c ∈ label, mayBegin (some c) = false)
    {before later : List α} {prev : Option α} (same : label = before ++ later)
    (begins : mayBegin (before.getLast?.or prev) = true) : before = [] := by
  cases last : before.getLast? with
  | none => exact List.getLast?_eq_none_iff.mp last
  | some c =>
      have inLabel : c ∈ label := by
        rw [same]
        exact List.mem_append_left _ (List.mem_of_getLast? last)
      rw [last, Option.some_or, inside c inLabel] at begins
      cases begins

/-- Once relabeled, a text holds no match where one may begin. -/
theorem relabeled_clean (free : r.boundaryFree = true) (nonempty : [] ∉ r.language) {mark : α}
    (isMarked : label.head? = some mark) (unmarked : ∀ text ∈ r.language, mark ∉ text)
    (inside : ∀ c ∈ label, mayBegin (some c) = false) {fuel : Nat} {cursor : Cursor α}
    {before rest text : List α}
    (whole : relabeled label (scanWhereFrom mayBegin r fuel cursor) = before ++ rest)
    (begins : mayBegin (before.getLast?.or cursor.prev) = true) (member : text ∈ r.language) :
    ¬ text <+: rest := by
  intro isPrefix
  have taken : text ≠ [] := fun isNil => nonempty (isNil ▸ member)
  induction fuel generalizing cursor before with
  | zero =>
      have isNil : rest = [] := (List.append_eq_nil_iff.mp whole.symm).2
      rw [isNil] at isPrefix
      exact taken (List.prefix_nil.mp isPrefix)
  | succ fuel ih =>
      cases scanned : cursor.rest with
      | nil =>
          simp only [scanWhereFrom, scanned] at whole
          have isNil : rest = [] := (List.append_eq_nil_iff.mp whole.symm).2
          rw [isNil] at isPrefix
          exact taken (List.prefix_nil.mp isPrefix)
      | cons c tail =>
          have start := whole
          simp only [scanWhereFrom, scanned] at whole
          split at whole
          · rename_i next found
            rw [relabeled_found, List.append_eq_append_iff] at whole
            rcases whole with ⟨later, rfl, whole⟩ | ⟨later, same, rfl⟩
            · -- past the label
              refine ih whole ?_
              cases last : later.getLast? with
              | some c => simpa [List.getLast?_append, last] using begins
              | none =>
                  rw [List.getLast?_append, last, Option.none_or] at begins
                  have isNil := eq_nil_of_begins inside (List.append_nil label).symm begins
                  rw [isNil] at isMarked
                  cases isMarked
            · -- within the label
              rw [eq_nil_of_begins inside same begins, List.nil_append] at same
              obtain ⟨others, labeled⟩ := List.head?_eq_some_iff.mp isMarked
              rw [← same, labeled, List.cons_append] at isPrefix
              cases text with
              | nil => exact taken rfl
              | cons d text =>
                  have isMark := (List.cons_prefix_cons.mp isPrefix).1
                  exact unmarked _ member (isMark ▸ List.mem_cons_self)
          · rename_i none
            rw [relabeled_plain] at whole
            cases before with
            | nil =>
                -- the scan would have found a match here
                rw [List.nil_append] at start
                rw [← start] at isPrefix
                have scanned := prefix_of_relabeled isMarked (unmarked text member) isPrefix
                obtain ⟨next, found⟩ := Option.isSome_iff_exists.mp
                  (next_isSome free nonempty member scanned)
                have here : mayBegin cursor.prev = true := by simpa using begins
                rw [found, Option.filter_some, if_pos here] at none
                cases none
            | cons d before =>
                rw [List.cons_append, List.cons.injEq] at whole
                obtain ⟨rfl, later⟩ := whole
                refine ih later ?_
                rw [List.getLast?_cons] at begins
                cases last : before.getLast? with
                | some d => simpa [last] using begins
                | none => simpa [last] using begins

end Anchored

end Regex

end Basis
