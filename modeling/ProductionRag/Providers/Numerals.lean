import ProductionRag.Providers.Stripping

/-!
# Numbers that can be cited

`int` reads numerals of a limited length, so it reads small numbers only; a marker with one
of these numbers is kept, and cites its source.
-/

set_option autoImplicit false

namespace ProductionRag

open Basis

theorem intOfDigits_lt {part : List Char} {number : Nat} (read : intOfDigits part = .ok number) :
    number < 10 ^ maxIntDigits := by
  obtain ⟨_, _, short, rfl⟩ := isNumber_of_int read
  exact (decimalValue_lt _).trans_le (Nat.pow_le_pow_right (by decide) short)

theorem mem_digits_toDigits (number : Nat) : Nat.toDigits 10 number ∈ digits.language := by
  refine mem_digits.mpr ⟨Nat.toDigits_ne_nil, List.all_eq_true.mpr fun c member => ?_⟩
  exact isDecimal_ascii (Nat.isDigit_of_mem_toDigits (by decide) (by decide) member)

theorem intOfDigits_toDigits {number : Nat} (short : number < 10 ^ maxIntDigits) :
    intOfDigits (Nat.toDigits 10 number) = .ok number := by
  have decimals := (mem_digits.mp (mem_digits_toDigits number)).2
  have whole : numberDigits (Nat.toDigits 10 number) = Nat.toDigits 10 number :=
    numberDigits_decimals (List.all_eq_true.mp decimals)
  have fits : (Nat.toDigits 10 number).length ≤ maxIntDigits :=
    (Nat.length_toDigits_le_iff (by decide) (by decide)).mpr short
  have isNumber : isNumber (Nat.toDigits 10 number) = true := by
    rw [ProductionRag.isNumber, whole, decimals, Bool.and_true, Bool.not_eq_true',
      List.isEmpty_eq_false_iff]
    exact Nat.toDigits_ne_nil
  rw [intOfDigits, isNumber, whole, Bool.true_and, decide_eq_true fits, if_pos rfl,
    decimalValue_toDigits]

/-- A marker with one number. -/
def markerOf (number : Nat) : List Char := marker (Nat.toDigits 10 number)

theorem join_single (text : List Char) : [','].intercalate [text] = text := by
  simp [List.intercalate]

theorem markerOf_spec (number : Nat) :
    parts (markerOf number) = [Nat.toDigits 10 number] ∧
      citationRe.findAll (markerOf number) = [markerOf number] ∧
      ∀ c ∈ markerOf number, isSpace c = false := by
  have numeral : ∀ text ∈ [Nat.toDigits 10 number], text ∈ digits.language :=
    List.forall_mem_singleton.mpr (mem_digits_toDigits number)
  have split := parts_join (List.cons_ne_nil _ _) numeral
  have inBody := join_mem_citationBody (List.cons_ne_nil _ _) numeral
  have noSpace := not_isSpace_of_join numeral
  rw [join_single] at split inBody noSpace
  have found := markersFrom_marker inBody none []
  rw [List.append_nil, ← findAll_eq_markersFrom] at found
  exact ⟨split, found, noSpace⟩

/-- A source in range can be cited, if its number is one that `int` reads. -/
theorem cites_markerOf {sourceCount : Int} {number : Nat} (short : number < 10 ^ maxIntDigits)
    (valid : inRange sourceCount number = true) :
    stripInvalidCitations (String.ofList (markerOf number)) sourceCount =
        .ok (String.ofList (markerOf number)) ∧
      citedSources (String.ofList (markerOf number)) sourceCount = .ok [number] := by
  have read := intOfDigits_toDigits short
  obtain ⟨split, found, noSpace⟩ := markerOf_spec number
  have onlyLists : OnlyLists sourceCount (markerOf number) := by
    rw [OnlyLists, split]
    exact List.forall_mem_singleton.mpr ⟨number, read, valid⟩
  constructor
  · refine (strip_unchanged_iff ?_ ?_).mpr ?_
    · rw [String.toList_ofList]
      exact stripChars_of_noSpace noSpace
    · rw [String.toList_ofList, found]
      exact List.forall_mem_singleton.mpr onlyLists
    · rw [String.toList_ofList, found]
      exact List.forall_mem_singleton.mpr ((kept_eq_iff onlyLists).mpr noSpace)
  · rw [citedSources_ok_iff, String.toList_ofList, found]
    refine ⟨List.forall_mem_singleton.mpr (readable_of_onlyLists onlyLists), ?_⟩
    have lists : numbers sourceCount (markerOf number) = [number] := by
      simp [numbers, split, validNumber_of_int read, valid]
    rw [List.flatMap_singleton, lists]
    rfl

/-- What is cited is a source in range, with a number that `int` reads. -/
theorem citedSources_bounds {answer : String} {sourceCount : Int} {cited : List Nat}
    (cites : citedSources answer sourceCount = .ok cited) {number : Nat}
    (member : number ∈ cited) :
    (number : Int) ≤ sourceCount ∧ number < 10 ^ maxIntDigits := by
  obtain ⟨_, rfl⟩ := citedSources_ok_iff.mp cites
  obtain ⟨found, _, inNumbers⟩ := List.mem_flatMap.mp (mem_of_mem_unseen member)
  obtain ⟨part, _, isValid⟩ := List.mem_filterMap.mp inNumbers
  rw [validNumber] at isValid
  split at isValid
  · rename_i number' read
    rw [Option.ite_none_right_eq_some] at isValid
    obtain ⟨valid, same⟩ := isValid
    obtain rfl := Option.some.inj same
    rw [inRange, Bool.and_eq_true, decide_eq_true_iff, decide_eq_true_iff] at valid
    exact ⟨valid.2, intOfDigits_lt read⟩
  · cases isValid

end ProductionRag
