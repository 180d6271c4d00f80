import ProductionRag.Providers.Rewriting
import ProductionRag.Providers.Scanning

/-!
# What a model sees of earlier answers

`history_for_model` leaves refusals out before it takes the markers out of the other answers,
and it takes them out once.  A refusal with a marker in it is shown, and so is a marker that
held another one.
-/

set_option autoImplicit false

namespace ProductionRag

open Basis

/-- Questions with their answers, as the history holds them. -/
def turns (pairs : List (String × String)) : List ChatTurn :=
  pairs.flatMap fun (question, answer) => [⟨"user", question⟩, ⟨"assistant", answer⟩]

/-- An answer without its markers. -/
def unmarked (answer : String) : String :=
  String.ofList (stripChars (citationRe.sub (fun _ => []) answer.toList))

/-- The pairs whose answer is no refusal, without the markers. -/
def answeredPairs (pairs : List (String × String)) : List (String × String) :=
  (pairs.filter fun pair => strip pair.2 ≠ abstention).map fun pair => (pair.1, unmarked pair.2)

/-! ## Which turns are kept -/

theorem keepTurn_user (kept : List ChatTurn) (question : String) :
    keepTurn kept ⟨"user", question⟩ = kept ++ [⟨"user", question⟩] := by
  simp [keepTurn]

theorem keepTurn_refusal {answer : String} (refused : strip answer = abstention)
    (kept : List ChatTurn) (question : String) :
    keepTurn (kept ++ [⟨"user", question⟩]) ⟨"assistant", answer⟩ = kept := by
  simp [keepTurn, refused]

theorem keepTurn_answer {answer : String} (answered : strip answer ≠ abstention)
    (kept : List ChatTurn) :
    keepTurn kept ⟨"assistant", answer⟩ = kept ++ [⟨"assistant", unmarked answer⟩] := by
  simp [keepTurn, answered, unmarked]

/-- The refused pairs are left out, the other ones are kept in order. -/
theorem historyForModel_turns (pairs : List (String × String)) :
    historyForModel (turns pairs) = turns (answeredPairs pairs) := by
  have general : ∀ kept,
      (turns pairs).foldl keepTurn kept = kept ++ turns (answeredPairs pairs) := by
    induction pairs with
    | nil => exact fun kept => (List.append_nil kept).symm
    | cons pair pairs ih =>
        intro kept
        obtain ⟨question, answer⟩ := pair
        have split : turns ((question, answer) :: pairs) =
            ⟨"user", question⟩ :: ⟨"assistant", answer⟩ :: turns pairs := rfl
        rw [split, List.foldl_cons, List.foldl_cons, keepTurn_user, answeredPairs,
          List.filter_cons]
        by_cases refused : strip answer = abstention
        · rw [keepTurn_refusal refused, ih, if_neg (by simp [refused])]
          rfl
        · rw [keepTurn_answer refused, ih, if_pos (by simpa using refused)]
          simp [turns, answeredPairs]
  exact general []

/-! ## What removing markers leaves -/

theorem sub_plain {c : Char} {rest : List Char} (none : citationStep (c :: rest) = none) :
    citationRe.sub (fun _ => []) (c :: rest) = c :: citationRe.sub (fun _ => []) rest := by
  rw [Regex.sub, scan_plain none]
  rfl

theorem sub_marker {body : List Char} (inBody : body ∈ citationBody.language)
    (rest : List Char) :
    citationRe.sub (fun _ => []) (marker body ++ rest) = citationRe.sub (fun _ => []) rest := by
  rw [Regex.sub, scan_marker inBody]
  rfl

/-- Without sources no number is valid. -/
theorem numbers_zero (found : List Char) : numbers 0 found = [] := by
  rw [numbers, List.filterMap_eq_nil_iff]
  intro part _
  rw [validNumber]
  cases intOfDigits part with
  | error e => rfl
  | ok number =>
      have out : inRange 0 number = false := by
        rw [inRange, Bool.and_eq_false_iff, decide_eq_false_iff_not, decide_eq_false_iff_not]
        omega
      simp [out]

/-- Removing the markers leaves a text without brackets exactly when they were put into it. -/
theorem sub_eq_iff {answer text : List Char} (outside : ∀ c ∈ text, isBracket c = false) :
    citationRe.sub (fun _ => []) answer = text ↔ Stuffed 0 text answer := by
  constructor
  · intro same
    induction size : answer.length using Nat.strong_induction_on generalizing answer text with
    | _ size ih =>
        subst size
        rcases scan_cases answer with rfl | ⟨c, rest, rfl, none, _⟩ | ⟨body, inBody, rest, rfl, _⟩
        · rw [← same]
          exact .nil
        · rw [sub_plain none] at same
          rw [← same] at outside ⊢
          obtain ⟨first, others⟩ := List.forall_mem_cons.mp outside
          exact .char first (ih _ (Nat.lt_succ_self _) others rfl rfl)
        · rw [sub_marker inBody] at same
          exact .marker inBody (numbers_zero _) (ih _ (length_lt_marker body rest) outside same rfl)
  · intro isStuffed
    clear outside
    induction isStuffed with
    | nil => rfl
    | @char c text stuffed first rest ih =>
        have other : c ≠ '[' := by
          rintro rfl
          cases first
        rw [sub_plain (citationStep_other other _), ih]
    | marker inBody _ rest ih => rw [sub_marker inBody, ih]

/-- Removing the markers leaves markers exactly when some are nested. -/
theorem findAll_sub (answer : List Char) :
    citationRe.findAll (citationRe.sub (fun _ => []) answer) = [] ↔
      ∀ body, ¬ Nested 0 answer body := by
  have removed : ∀ found, kept 0 found = [] := by
    intro found
    rcases kept_cases 0 found with ⟨_, removed⟩ | ⟨valid, _⟩
    · exact removed
    · exact absurd (numbers_zero found) valid
  have same : citationRe.sub (fun _ => []) answer =
      (citationRe.scan answer).flatMap (rewritten 0) := by
    refine List.flatMap_congr ?_
    intro piece _
    cases piece with
    | plain c => rfl
    | found found => exact (removed found).symm
  rw [findAll_eq_markersFrom, same, markersFrom_rewritten, List.map_eq_nil_iff]
  constructor
  · intro isEmpty body nested
    have member := joined_iff.mpr ⟨body, rfl, nested⟩
    rw [isEmpty] at member
    cases member
  · intro none
    rw [List.eq_nil_iff_forall_not_mem]
    intro mention member
    cases mention with
    | joined found =>
        obtain ⟨body, _, nested⟩ := joined_iff.mp member
        exact none body nested
    | kept found => exact absurd (numbers_zero found) (numbers_of_kept member)

/-- The refusal with markers put in. -/
def MarkedRefusal (answer : String) : Prop :=
  ∃ text, stripChars text = abstention.toList ∧ Stuffed 0 text answer.toList

theorem unmarked_refusal_iff (answer : String) :
    unmarked answer = abstention ↔ MarkedRefusal answer := by
  have plain : ∀ text : List Char, stripChars text = abstention.toList →
      ∀ c ∈ text, isBracket c = false := by
    intro text isRefusal
    have none : abstention.toList.all (!isBracket ·) = true := by decide +kernel
    have whole : text.takeWhile isSpace ++ (stripChars text ++
        (text.dropWhile isSpace).rtakeWhile isSpace) = text := by
      rw [stripChars, List.rdropWhile_append_rtakeWhile, List.takeWhile_append_dropWhile]
    rw [← whole, isRefusal]
    simp only [List.forall_mem_append]
    refine ⟨fun c member => not_bracket_of_space (List.mem_takeWhile_imp member), ?_,
      fun c member => not_bracket_of_space (List.mem_rtakeWhile_imp member)⟩
    intro c member
    simpa using List.all_eq_true.mp none c member
  constructor
  · intro same
    have isRefusal : stripChars (citationRe.sub (fun _ => []) answer.toList) =
        abstention.toList := by
      rw [← same, unmarked, String.toList_ofList]
    exact ⟨_, isRefusal, (sub_eq_iff (plain _ isRefusal)).mp rfl⟩
  · rintro ⟨text, isRefusal, isStuffed⟩
    rw [unmarked, (sub_eq_iff (plain text isRefusal)).mpr isStuffed, isRefusal,
      String.ofList_toList]

/-! ## What is hidden -/

/-- The turns that `history_for_model` leaves are the answered pairs, no answer of them is a
refusal or has a marker, and a second pass changes nothing. -/
structure HidesDeclined (pairs : List (String × String)) : Prop where
  answered : historyForModel (turns pairs) = turns (answeredPairs pairs)
  noRefusal : ∀ turn ∈ historyForModel (turns pairs), turn.role = "assistant" →
    turn.content ≠ abstention
  noMarker : ∀ turn ∈ historyForModel (turns pairs), turn.role = "assistant" →
    citationRe.findAll turn.content.toList = []
  stable : historyForModel (historyForModel (turns pairs)) = historyForModel (turns pairs)

theorem forall_assistant_iff {p : String → Prop} (pairs : List (String × String)) :
    (∀ turn ∈ turns (answeredPairs pairs), turn.role = "assistant" → p turn.content) ↔
      ∀ pair ∈ pairs, strip pair.2 ≠ abstention → p (unmarked pair.2) := by
  simp only [turns, answeredPairs, List.forall_mem_flatMap, List.forall_mem_map,
    List.mem_filter, decide_eq_true_eq]
  simp

theorem strip_unmarked (answer : String) : strip (unmarked answer) = unmarked answer := by
  have trimmed := stripChars_stripChars (citationRe.sub (fun _ => []) answer.toList)
  rw [strip, unmarked, String.toList_ofList]
  exact congrArg String.ofList trimmed

theorem findAll_unmarked (answer : String) :
    citationRe.findAll (unmarked answer).toList = [] ↔
      ∀ body, ¬ Nested 0 answer.toList body := by
  rw [unmarked, String.toList_ofList, findAll_stripChars, findAll_sub]

/-- An answer without markers loses none. -/
theorem sub_of_findAll {answer : List Char} (none : citationRe.findAll answer = []) :
    citationRe.sub (fun _ => []) answer = answer := by
  conv_rhs => rw [← citationRe_local.scan_text answer]
  refine List.flatMap_congr ?_
  intro piece member
  cases piece with
  | plain c => rfl
  | found found =>
      have inText := mem_findAll.mpr member
      rw [none] at inText
      cases inText

/-- Pairs without refusals and markers stay as they are. -/
theorem answeredPairs_self {pairs : List (String × String)}
    (clean : ∀ pair ∈ pairs, strip pair.2 ≠ abstention ∧ unmarked pair.2 = pair.2) :
    answeredPairs pairs = pairs := by
  have all : pairs.filter (fun pair => strip pair.2 ≠ abstention) = pairs :=
    List.filter_eq_self.mpr fun pair member => decide_eq_true (clean pair member).1
  rw [answeredPairs, all]
  refine (List.map_congr_left ?_).trans (List.map_id pairs)
  intro pair member
  rw [(clean pair member).2, id]

/-- Declined turns and citations stay hidden exactly when no answer that is shown is a refusal
with markers put in or has a marker with markers inside. -/
theorem hides_declined_iff (pairs : List (String × String)) :
    HidesDeclined pairs ↔
      ∀ pair ∈ pairs, strip pair.2 ≠ abstention →
        ¬ MarkedRefusal pair.2 ∧ ∀ body, ¬ Nested 0 pair.2.toList body := by
  have answered := historyForModel_turns pairs
  have refusals := @forall_assistant_iff (· ≠ abstention) pairs
  have markers := @forall_assistant_iff
    (fun content => citationRe.findAll content.toList = []) pairs
  constructor
  · intro hides
    have noRefusal := hides.noRefusal
    have noMarker := hides.noMarker
    rw [answered] at noRefusal noMarker
    intro pair member isAnswer
    rw [← unmarked_refusal_iff, ← findAll_unmarked]
    exact ⟨refusals.mp noRefusal pair member isAnswer, markers.mp noMarker pair member isAnswer⟩
  · intro clean
    have noRefusal : ∀ pair ∈ pairs, strip pair.2 ≠ abstention →
        unmarked pair.2 ≠ abstention := by
      intro pair member isAnswer
      rw [Ne, unmarked_refusal_iff]
      exact (clean pair member isAnswer).1
    have noMarker : ∀ pair ∈ pairs, strip pair.2 ≠ abstention →
        citationRe.findAll (unmarked pair.2).toList = [] := by
      intro pair member isAnswer
      exact (findAll_unmarked pair.2).mpr (clean pair member isAnswer).2
    have again : answeredPairs (answeredPairs pairs) = answeredPairs pairs := by
      refine answeredPairs_self (List.forall_mem_map.mpr ?_)
      intro pair member
      obtain ⟨inPairs, isAnswer⟩ := List.mem_filter.mp member
      rw [decide_eq_true_eq] at isAnswer
      rw [strip_unmarked]
      refine ⟨noRefusal pair inPairs isAnswer, ?_⟩
      -- Nothing is left to remove, and the ends are trimmed.
      rw [unmarked, sub_of_findAll (noMarker pair inPairs isAnswer)]
      exact strip_unmarked pair.2
    refine ⟨answered, ?_, ?_, ?_⟩
    · rw [answered]
      exact refusals.mpr noRefusal
    · rw [answered]
      exact markers.mpr noMarker
    · rw [answered, historyForModel_turns, again]

/-- A model that declines and cites a source is shown its refusal. -/
theorem cited_refusal_shown : ¬ ∀ pairs, HidesDeclined pairs := by
  intro claimed
  have shown : historyForModel (turns [("q", abstention ++ " [1]")]) =
      [⟨"user", "q"⟩, ⟨"assistant", abstention⟩] := by decide +kernel
  have noRefusal := (claimed [("q", abstention ++ " [1]")]).noRefusal ⟨"assistant", abstention⟩
  rw [shown] at noRefusal
  exact noRefusal (by simp) rfl rfl

end ProductionRag
