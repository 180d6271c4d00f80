import ProductionRag.Providers.Numerals

/-!
# Scanning in parts

A marker holds no brackets inside.  So the scan of a text falls apart where a text begins that
closes no bracket opened before it, and what follows a piece is scanned as if it stood alone.
-/

set_option autoImplicit false

namespace ProductionRag

open Basis

theorem scan_marker {body : List Char} (inBody : body ∈ citationBody.language)
    (rest : List Char) :
    citationRe.scan (marker body ++ rest) = .found (marker body) :: citationRe.scan rest := by
  rw [citationRe_local.scan_eq, citationRe_local.scan_eq,
    Regex.split_found citationRe_local.shrinks (citationStep_iff.mpr ⟨body, inBody, rfl⟩)]

theorem scan_plain {c : Char} {rest : List Char} (none : citationStep (c :: rest) = none) :
    citationRe.scan (c :: rest) = .plain c :: citationRe.scan rest := by
  rw [citationRe_local.scan_eq, citationRe_local.scan_eq,
    Regex.split_plain citationRe_local.shrinks none]

theorem citationStep_other {c : Char} (other : c ≠ '[') (rest : List Char) :
    citationStep (c :: rest) = none := by
  rw [Option.eq_none_iff_forall_not_mem]
  intro after found
  obtain ⟨body, _, same⟩ := citationStep_iff.mp found
  exact other (List.cons.inj same).1

/-- A text starts with a piece, and the rest is scanned alone. -/
theorem scan_cases (text : List Char) :
    text = [] ∨
      (∃ c rest, text = c :: rest ∧ citationStep text = none ∧
        citationRe.scan text = .plain c :: citationRe.scan rest) ∨
      ∃ body ∈ citationBody.language, ∃ rest, text = marker body ++ rest ∧
        citationRe.scan text = .found (marker body) :: citationRe.scan rest := by
  cases found : citationStep text with
  | some after =>
      obtain ⟨body, inBody, rfl⟩ := citationStep_iff.mp found
      exact .inr (.inr ⟨body, inBody, after, rfl, scan_marker inBody after⟩)
  | none =>
      cases text with
      | nil => exact .inl rfl
      | cons c rest => exact .inr (.inl ⟨c, rest, rfl, rfl, scan_plain found⟩)

theorem length_lt_marker (body rest : List Char) : rest.length < (marker body ++ rest).length := by
  simp only [marker, List.cons_append, List.length_cons, List.length_append]
  omega

theorem body_of_found {text found : List Char} (member : found ∈ citationRe.findAll text) :
    ∃ body ∈ citationBody.language, found = marker body := by
  have isFound := mem_findAll.mp member
  clear member
  induction size : text.length using Nat.strong_induction_on generalizing text with
  | _ size ih =>
      subst size
      rcases scan_cases text with rfl | ⟨c, rest, rfl, _, same⟩ | ⟨body, inBody, rest, rfl, same⟩
      · cases isFound
      · rw [same] at isFound
        rcases List.mem_cons.mp isFound with wrong | later
        · cases wrong
        · exact ih rest.length (Nat.lt_succ_self _) later rfl
      · rw [same] at isFound
        rcases List.mem_cons.mp isFound with here | later
        · exact ⟨body, inBody, Piece.found.inj here⟩
        · exact ih rest.length (length_lt_marker body rest) later rfl

/-! ## Where a scan falls apart -/

/-- The text closes no bracket opened before it. -/
def Detached (text : List Char) : Prop :=
  ∀ inside rest, (∀ c ∈ inside, isBracket c = false) → text ≠ inside ++ ']' :: rest

theorem detached_nil : Detached [] := by
  rintro inside rest _ same
  simp at same

theorem detached_open (rest : List Char) : Detached ('[' :: rest) := by
  intro inside after outside same
  cases inside with
  | nil =>
      revert same
      simp
  | cons c inside =>
      obtain ⟨rfl, _⟩ := List.cons.inj same
      have first := outside _ List.mem_cons_self
      revert first
      decide

theorem detached_append {run right : List Char} (outside : ∀ c ∈ run, isBracket c = false)
    (detached : Detached right) : Detached (run ++ right) := by
  intro inside rest outside' same
  rcases List.append_eq_append_iff.mp same with ⟨more, rfl, whole⟩ | ⟨more, rfl, whole⟩
  · exact detached more rest (fun c member => outside' c (List.mem_append_right _ member)) whole
  · cases more with
    | nil => exact detached [] rest (List.forall_mem_nil _) whole.symm
    | cons c more =>
        obtain ⟨rfl, _⟩ := List.cons.inj whole
        have first := outside ']' (by simp)
        revert first
        decide

theorem detached_outside {run : List Char} (outside : ∀ c ∈ run, isBracket c = false) :
    Detached run := by
  have alone := detached_append outside detached_nil
  rwa [List.append_nil] at alone

/-- The marker that a text starts with does not reach into what is detached from it. -/
theorem citationStep_append {text right : List Char} (some : text ≠ [])
    (detached : Detached right) :
    citationStep (text ++ right) = (citationStep text).map (· ++ right) := by
  cases found : citationStep text with
  | some after =>
      obtain ⟨body, inBody, rfl⟩ := citationStep_iff.mp found
      exact citationStep_iff.mpr ⟨body, inBody, by rw [List.append_assoc]⟩
  | none =>
      rw [Option.map_none, Option.eq_none_iff_forall_not_mem]
      intro after reaches
      obtain ⟨body, inBody, same⟩ := citationStep_iff.mp reaches
      rcases List.append_eq_append_iff.mp same with ⟨more, split, rfl⟩ | ⟨more, rfl, _⟩
      · -- The marker ends in the right part, so a bracket is closed there.
        obtain ⟨c, text, rfl⟩ := List.exists_cons_of_ne_nil some
        obtain ⟨rfl, tails⟩ := List.cons.inj split
        rcases List.append_eq_append_iff.mp tails with ⟨inner, rfl, last⟩ | ⟨inner, rfl, rfl⟩
        · cases inner with
          | nil =>
              rw [List.nil_append] at last
              subst last
              exact detached [] after (List.forall_mem_nil _) rfl
          | cons d inner =>
              obtain ⟨rfl, rest⟩ := List.cons.inj last
              obtain ⟨rfl, rfl⟩ := List.append_eq_nil_iff.mp rest.symm
              have whole : citationStep ('[' :: (body ++ [']'])) = Option.some [] :=
                citationStep_iff.mpr ⟨body, inBody, by simp [marker]⟩
              rw [whole] at found
              cases found
        · refine detached inner after ?_ (by rw [List.append_assoc]; rfl)
          exact fun d member => not_bracket_of_body inBody d (List.mem_append_right _ member)
      · rw [citationStep_iff.mpr ⟨body, inBody, rfl⟩] at found
        cases found

theorem scan_append {right : List Char} (detached : Detached right) (left : List Char) :
    citationRe.scan (left ++ right) = citationRe.scan left ++ citationRe.scan right := by
  induction size : left.length using Nat.strong_induction_on generalizing left with
  | _ size ih =>
      subst size
      rcases scan_cases left with rfl | ⟨c, rest, rfl, none, same⟩ | ⟨body, inBody, rest, rfl, same⟩
      · rfl
      · have alone := citationStep_append (List.cons_ne_nil c rest) detached
        rw [none, Option.map_none, List.cons_append] at alone
        rw [List.cons_append, scan_plain alone, same, ih rest.length (Nat.lt_succ_self _) rest rfl,
          List.cons_append]
      · rw [List.append_assoc, scan_marker inBody, same, ih _ (length_lt_marker body rest) rest rfl,
          List.cons_append]

theorem scan_other {c : Char} (other : c ≠ '[') (rest : List Char) :
    citationRe.scan (c :: rest) = .plain c :: citationRe.scan rest :=
  scan_plain (citationStep_other other rest)

/-! ## Markers that removing others joins -/

/-- The text with markers put in that list no valid number. -/
inductive Stuffed (sourceCount : Int) : List Char → List Char → Prop
  | nil : Stuffed sourceCount [] []
  | char {c : Char} {text stuffed : List Char} (outside : isBracket c = false)
      (rest : Stuffed sourceCount text stuffed) : Stuffed sourceCount (c :: text) (c :: stuffed)
  | marker {body text stuffed : List Char} (inBody : body ∈ citationBody.language)
      (invalid : numbers sourceCount (marker body) = [])
      (rest : Stuffed sourceCount text stuffed) :
      Stuffed sourceCount text (marker body ++ stuffed)

/-- The answer holds a marker with markers inside, all of them without a valid number. -/
def Nested (sourceCount : Int) (answer body : List Char) : Prop :=
  body ∈ citationBody.language ∧ ∃ left stuffed right,
    answer = left ++ marker stuffed ++ right ∧ Stuffed sourceCount body stuffed ∧ stuffed ≠ body

variable {sourceCount : Int}

theorem Nested.prepend {answer body : List Char} (earlier : List Char)
    (nested : Nested sourceCount answer body) : Nested sourceCount (earlier ++ answer) body := by
  obtain ⟨inBody, left, stuffed, right, rfl, isStuffed, other⟩ := nested
  exact ⟨inBody, earlier ++ left, stuffed, right, by simp only [List.append_assoc], isStuffed,
    other⟩

/-- Where a joined marker comes from: it is nested in the text, or it is opened before it and
closed in it. -/
inductive Origin (sourceCount : Int) (inside : Option (List Char)) (text : List Char) :
    List Char → Prop
  | nested {body : List Char} (isNested : Nested sourceCount text body) :
      Origin sourceCount inside text (marker body)
  | opened {start body stuffed right : List Char} (began : inside = some start)
      (ends : text = stuffed ++ ']' :: right) (isStuffed : Stuffed sourceCount body stuffed) :
      Origin sourceCount inside text (marker (start ++ body))

section Origin

variable {inside : Option (List Char)} {text found : List Char}

/-- What begins after a bracket is closed is nested. -/
theorem Origin.later (origin : Origin sourceCount none text found) (earlier : List Char) :
    Origin sourceCount inside (earlier ++ text) found := by
  cases origin with
  | nested isNested => exact .nested (isNested.prepend earlier)
  | opened began => cases began

theorem Origin.char {c : Char} (outside : isBracket c = false)
    (origin : Origin sourceCount (inside.map (· ++ [c])) text found) :
    Origin sourceCount inside (c :: text) found := by
  cases origin with
  | nested isNested => exact .nested (isNested.prepend [c])
  | opened began ends isStuffed =>
      obtain ⟨start, rfl, rfl⟩ := Option.map_eq_some_iff.mp began
      rw [List.append_assoc, List.singleton_append]
      exact .opened rfl (by rw [ends]; rfl) (.char outside isStuffed)

theorem Origin.removed {body : List Char} (inBody : body ∈ citationBody.language)
    (invalid : numbers sourceCount (marker body) = [])
    (origin : Origin sourceCount inside text found) :
    Origin sourceCount inside (marker body ++ text) found := by
  cases origin with
  | nested isNested => exact .nested (isNested.prepend _)
  | opened began ends isStuffed =>
      exact .opened began (by rw [ends, List.append_assoc]) (.marker inBody invalid isStuffed)

/-- Where the scan finds no marker, a marker that is joined holds another one. -/
theorem Origin.unmatched (none : citationStep ('[' :: text) = none)
    (isMarker : ∃ body ∈ citationBody.language, found = marker body)
    (origin : Origin sourceCount (some []) text found) :
    Origin sourceCount inside ('[' :: text) found := by
  cases origin with
  | nested isNested => exact .nested (isNested.prepend ['['])
  | @opened start body stuffed right began ends isStuffed =>
      obtain rfl := Option.some.inj began
      obtain ⟨body', inBody, same⟩ := isMarker
      rw [List.nil_append] at same ⊢
      have whole : '[' :: text = marker stuffed ++ right := by
        rw [ends]
        simp [marker]
      obtain rfl : body = body' := by
        rw [← group_marker body, same, group_marker]
      refine .nested ⟨inBody, [], stuffed, right, whole, isStuffed, ?_⟩
      rintro rfl
      rw [whole, citationStep_iff.mpr ⟨stuffed, inBody, rfl⟩] at none
      cases none

theorem origin_of_closed (member : found ∈ closed inside) (text : List Char) :
    Origin sourceCount inside (']' :: text) found := by
  rw [closed, Option.mem_toList, Option.map_eq_some_iff] at member
  obtain ⟨start, isStart, rfl⟩ := member
  rw [← List.append_nil start]
  exact .opened (Option.filter_eq_some_iff.mp isStart).1 rfl .nil

theorem origin_of_joined
    (member : .joined found ∈ mentions sourceCount inside (citationRe.scan text)) :
    Origin sourceCount inside text found := by
  induction size : text.length using Nat.strong_induction_on generalizing text inside with
  | _ size ih =>
      subst size
      have isMarker := body_of_joined member
      rcases scan_cases text with rfl | ⟨c, rest, rfl, none, same⟩ | ⟨body, inBody, rest, rfl, same⟩
      · cases member
      · have shorter : rest.length < (c :: rest).length := Nat.lt_succ_self _
        rw [same, mentions] at member
        rcases bracket_cases c with rfl | rfl | outside
        · rw [if_pos rfl] at member
          exact (ih _ shorter member rfl).unmatched none isMarker
        · rw [if_neg (by decide), if_pos rfl] at member
          rcases List.mem_append.mp member with here | later
          · obtain ⟨_, inClosed, isJoined⟩ := List.mem_map.mp here
            obtain rfl := Mention.joined.inj isJoined
            exact origin_of_closed inClosed rest
          · exact (ih _ shorter later rfl).later [']']
        · have plain := outside
          simp only [isBracket, Bool.or_eq_false_iff, beq_eq_false_iff_ne] at plain
          rw [if_neg plain.1, if_neg plain.2] at member
          exact (ih _ shorter member rfl).char outside
      · have shorter := length_lt_marker body rest
        rw [same, mentions] at member
        split at member
        · rename_i invalid
          exact (ih _ shorter member rfl).removed inBody invalid
        · rcases List.mem_cons.mp member with wrong | later
          · cases wrong
          · exact (ih _ shorter later rfl).later _

end Origin

/-- The first bracket of a stuffed text opens a marker. -/
theorem Stuffed.detached {text stuffed : List Char} (isStuffed : Stuffed sourceCount text stuffed)
    (other : stuffed ≠ text) (right : List Char) : Detached (stuffed ++ right) := by
  induction isStuffed with
  | nil => exact absurd rfl other
  | @char c text stuffed outside rest ih =>
      have others : stuffed ≠ text := fun same => other (by rw [same])
      exact @detached_append [c] _ (List.forall_mem_singleton.mpr outside) (ih others)
  | marker inBody invalid rest ih => exact detached_open _

/-- Stripping takes the inner markers out and leaves the outer one. -/
theorem Stuffed.joined {body stuffed : List Char} (isStuffed : Stuffed sourceCount body stuffed)
    (start right : List Char) (whole : isBody (start ++ body) = true) :
    .joined (ProductionRag.marker (start ++ body)) ∈
      mentions sourceCount (some start) (citationRe.scan (stuffed ++ ']' :: right)) := by
  induction isStuffed generalizing start with
  | nil =>
      rw [List.append_nil] at whole ⊢
      rw [List.nil_append, scan_other (by decide), mentions, if_neg (by decide), if_pos rfl,
        closed_body whole]
      exact List.mem_cons_self
  | @char c text stuffed outside rest ih =>
      have plain := outside
      simp only [isBracket, Bool.or_eq_false_iff, beq_eq_false_iff_ne] at plain
      rw [List.cons_append, scan_other plain.1, mentions, if_neg plain.1, if_neg plain.2]
      have split : start ++ c :: text = start ++ [c] ++ text := by simp
      rw [split] at whole ⊢
      exact ih _ whole
  | marker inBody invalid rest ih =>
      rw [List.append_assoc, scan_marker inBody, mentions, if_pos invalid]
      exact ih start whole

theorem mentions_opened {mention : Mention} {pieces : List (Piece Char)}
    (member : mention ∈ mentions sourceCount (some []) pieces) (earlier : List (Piece Char))
    (inside : Option (List Char)) :
    mention ∈ mentions sourceCount inside (earlier ++ .plain '[' :: pieces) := by
  induction earlier generalizing inside with
  | nil =>
      rw [List.nil_append, mentions, if_pos rfl]
      exact member
  | cons piece earlier ih =>
      rw [List.cons_append]
      cases piece with
      | plain c =>
          rw [mentions]
          split
          · exact ih _
          · split
            · exact List.mem_append_right _ (ih _)
            · exact ih _
      | found text =>
          rw [mentions]
          split
          · exact ih _
          · exact List.mem_cons_of_mem _ (ih _)

/-- Removing markers joins the nested ones, and no others. -/
theorem joined_iff {answer found : List Char} :
    .joined found ∈ mentions sourceCount none (citationRe.scan answer) ↔
      ∃ body, found = marker body ∧ Nested sourceCount answer body := by
  constructor
  · intro member
    cases origin_of_joined member with
    | nested isNested => exact ⟨_, rfl, isNested⟩
    | opened began => cases began
  · rintro ⟨body, rfl, inBody, left, stuffed, right, rfl, isStuffed, other⟩
    have detached := isStuffed.detached other (']' :: right)
    have opens : citationStep ('[' :: (stuffed ++ ']' :: right)) = none :=
      citationStep_append (List.cons_ne_nil '[' []) detached
    have split : left ++ marker stuffed ++ right =
        left ++ '[' :: (stuffed ++ ']' :: right) := by simp [marker]
    rw [split, scan_append (detached_open _), scan_plain opens]
    exact mentions_opened (isStuffed.joined [] right (isBody_iff.mpr inBody)) _ _

end ProductionRag
