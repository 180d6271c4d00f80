import ProductionRag.Basis.Significant
import Mathlib.Algebra.Order.Field.Power
import Mathlib.Data.List.TakeWhile

/-!
# Decimal numerals

Numbers in plain and in scientific notation, the choice `printf` makes between them for `%g`, and
a reader.  What is read back is the number rounded to the digits that were printed.
-/

set_option autoImplicit false

namespace Basis

/-! ## Printing -/

def signedText (negative : Bool) (text : List Char) : List Char :=
  if negative then '-' :: text else text

/-- The digits of a number, after zeros up to the length. -/
def paddedDigits (length number : ℕ) : List Char := (Nat.toDigits 10 number).leftpad length '0'

/-- `digits / 10 ^ places`, with as many digits behind the point. -/
def plainText (digits places : ℕ) : List Char :=
  Nat.toDigits 10 (digits / 10 ^ places) ++
    if places = 0 then [] else '.' :: paddedDigits places (digits % 10 ^ places)

/-- Plain notation before a power of ten of two digits or more. -/
def scientificText (digits places : ℕ) (exponent : ℤ) : List Char :=
  plainText digits places ++ 'e' :: (if exponent < 0 then '-' else '+') ::
    paddedDigits 2 exponent.natAbs

/-- The zeros at the end of a number, `limit` at most. -/
def trailingZeros : ℕ → ℕ → ℕ
  | 0, _ => 0
  | limit + 1, digits => if digits % 10 = 0 then trailingZeros limit (digits / 10) + 1 else 0

/-- `%g` with `p` digits: plain unless the number is very small or has more digits than that before
the point, and no zeros at the end. -/
def generalText (p : ℕ) (round : ℚ → ℤ) (x : ℚ) : List Char :=
  let kept := significand 10 p round x
  let zeros := trailingZeros p kept.natAbs
  let digits := kept.natAbs / 10 ^ zeros
  let places := (Nat.toDigits 10 digits).length - 1
  let last := lastPlace 10 p x + zeros
  let first := last + places
  signedText (kept < 0)
    (if kept = 0 then ['0']
    else if -4 ≤ first ∧ first < p then
      if 0 ≤ last then plainText (digits * 10 ^ last.toNat) 0 else plainText digits (-last).toNat
    else scientificText digits places first)

/-- `%f` with `places` digits behind the point. -/
def fixedText (places : ℕ) (round : ℚ → ℤ) (x : ℚ) : List Char :=
  signedText (x < 0) (plainText (round (x * 10 ^ places)).natAbs places)

/-! ## Reading -/

def readDigits (text : List Char) : Option ℕ :=
  if !text.isEmpty && text.all Char.isDigit then some (Nat.ofDigitChars 10 text 0) else none

def readPlain (text : List Char) : Option ℚ :=
  match text.dropWhile Char.isDigit with
  | [] => (readDigits text).map Nat.cast
  | '.' :: fraction => do
    let whole ← readDigits (text.takeWhile Char.isDigit)
    let behind ← readDigits fraction
    some (whole + behind / 10 ^ fraction.length)
  | _ => none

def readUnsigned (text : List Char) : Option ℚ :=
  let mantissa := text.takeWhile (· != 'e')
  match text.dropWhile (· != 'e') with
  | [] => readPlain mantissa
  | _ :: '+' :: exponent => do
    let value ← readPlain mantissa
    let power ← readDigits exponent
    some (value * 10 ^ power)
  | _ :: '-' :: exponent => do
    let value ← readPlain mantissa
    let power ← readDigits exponent
    some (value / 10 ^ power)
  | _ => none

/-- A numeral of digits, with a sign, a point and an exponent as far as they are there. -/
def readNumber : List Char → Option ℚ
  | '-' :: text => (readUnsigned text).map Neg.neg
  | text => readUnsigned text

/-! ## Reading what was printed -/

theorem isDigit_paddedDigits {length number : ℕ} {c : Char}
    (member : c ∈ paddedDigits length number) : c.isDigit = true := by
  rw [paddedDigits, List.leftpad, List.mem_append] at member
  rcases member with zero | digit
  · rw [List.eq_of_mem_replicate zero]
    rfl
  · exact Nat.isDigit_of_mem_toDigits (by decide) (by decide) digit

theorem readDigits_paddedDigits (length number : ℕ) :
    readDigits (paddedDigits length number) = some number := by
  have nonempty : (paddedDigits length number).isEmpty = false := by
    simp [paddedDigits, List.leftpad]
  have digits : (paddedDigits length number).all Char.isDigit = true :=
    List.all_eq_true.mpr fun c member => isDigit_paddedDigits member
  have value : Nat.ofDigitChars 10 (paddedDigits length number) 0 = number := by
    rw [paddedDigits, List.leftpad, Nat.ofDigitChars_append, Nat.ofDigitChars_replicate_zero,
      Nat.mul_zero, Nat.ofDigitChars_ten_toDigits]
  simp [readDigits, nonempty, digits, value]

theorem length_paddedDigits {length number : ℕ} (positive : 0 < length)
    (short : number < 10 ^ length) : (paddedDigits length number).length = length := by
  have fits := (Nat.length_toDigits_le_iff (b := 10) (by decide) positive).mpr short
  rw [paddedDigits, List.length_leftpad, max_eq_left fits]

theorem readDigits_toDigits (number : ℕ) :
    readDigits (Nat.toDigits 10 number) = some number := by
  simpa [paddedDigits] using readDigits_paddedDigits 0 number

theorem all_isDigit_toDigits (number : ℕ) : ∀ c ∈ Nat.toDigits 10 number, c.isDigit = true :=
  fun _ member => Nat.isDigit_of_mem_toDigits (by decide) (by decide) member

theorem readPlain_plainText (digits places : ℕ) :
    readPlain (plainText digits places) = some ((digits : ℚ) / 10 ^ places) := by
  have whole := all_isDigit_toDigits (digits / 10 ^ places)
  by_cases none : places = 0
  · subst none
    have dropped : (Nat.toDigits 10 digits).dropWhile Char.isDigit = [] :=
      List.dropWhile_eq_nil_iff.mpr (all_isDigit_toDigits digits)
    simp [readPlain, plainText, dropped, readDigits_toDigits]
  · have split : ((digits / 10 ^ places : ℕ) : ℚ) + ((digits % 10 ^ places : ℕ) : ℚ) / 10 ^ places =
        (digits : ℚ) / 10 ^ places := by
      have parts := congrArg (Nat.cast (R := ℚ)) (Nat.div_add_mod digits (10 ^ places))
      push_cast at parts
      field_simp
      linarith
    have length := length_paddedDigits (Nat.pos_of_ne_zero none)
      (Nat.mod_lt digits (by positivity : 0 < 10 ^ places))
    have point : ('.' : Char).isDigit = false := by decide
    simp [readPlain, plainText, none, List.dropWhile_append_of_pos whole,
      List.takeWhile_append_of_pos whole, point, readDigits_toDigits, readDigits_paddedDigits,
      length, split]

theorem plainText_chars {digits places : ℕ} {c : Char} (member : c ∈ plainText digits places) :
    c.isDigit = true ∨ c = '.' := by
  rw [plainText, List.mem_append] at member
  rcases member with whole | fraction
  · exact Or.inl (all_isDigit_toDigits _ c whole)
  · split at fraction
    · cases fraction
    · rcases List.mem_cons.mp fraction with point | digit
      · exact Or.inr point
      · exact Or.inl (isDigit_paddedDigits digit)

theorem plainText_ne_e {digits places : ℕ} {c : Char} (member : c ∈ plainText digits places) :
    (c != 'e') = true := by
  rw [bne_iff_ne]
  rintro rfl
  rcases plainText_chars member with digit | point
  · exact absurd digit (by decide)
  · exact absurd point (by decide)

theorem readUnsigned_plainText (digits places : ℕ) :
    readUnsigned (plainText digits places) = some ((digits : ℚ) / 10 ^ places) := by
  have dropped : (plainText digits places).dropWhile (· != 'e') = [] :=
    List.dropWhile_eq_nil_iff.mpr fun c member => plainText_ne_e member
  have taken : (plainText digits places).takeWhile (· != 'e') = plainText digits places :=
    List.takeWhile_eq_self_iff.mpr fun c member => plainText_ne_e member
  simp only [readUnsigned, dropped, taken, readPlain_plainText]

theorem readUnsigned_scientificText (digits places : ℕ) (exponent : ℤ) :
    readUnsigned (scientificText digits places exponent) =
      some ((digits : ℚ) / 10 ^ places * (10 : ℚ) ^ exponent) := by
  have mantissa : ∀ c ∈ plainText digits places, (c != 'e') = true :=
    fun c member => plainText_ne_e member
  have power : (10 : ℚ) ^ exponent =
      if exponent < 0 then ((10 : ℚ) ^ exponent.natAbs)⁻¹ else 10 ^ exponent.natAbs := by
    split
    · rename_i negative
      have same : exponent = -(exponent.natAbs : ℤ) := by omega
      rw [same, zpow_neg, zpow_natCast, Int.natAbs_neg, Int.natAbs_natCast]
    · rename_i positive
      have same : exponent = (exponent.natAbs : ℤ) := by omega
      rw [same, zpow_natCast, Int.natAbs_natCast]
  rw [power]
  by_cases negative : exponent < 0
  · simp [readUnsigned, scientificText, negative, List.dropWhile_append_of_pos mantissa,
      List.takeWhile_append_of_pos mantissa, readPlain_plainText, readDigits_paddedDigits,
      div_eq_mul_inv]
  · simp [readUnsigned, scientificText, negative, List.dropWhile_append_of_pos mantissa,
      List.takeWhile_append_of_pos mantissa, readPlain_plainText, readDigits_paddedDigits]

/-- The head of a numeral is a digit, so nothing is taken for a sign. -/
theorem readNumber_signedText {text : List Char} {value : ℚ} (negative : Bool)
    (unsigned : ∀ rest, text ≠ '-' :: rest) (read : readUnsigned text = some value) :
    readNumber (signedText negative text) = some (if negative then -value else value) := by
  cases negative with
  | true => simp [signedText, readNumber, read]
  | false =>
      have same : readNumber text = readUnsigned text := by
        unfold readNumber
        split
        · exact absurd rfl (unsigned _)
        · rfl
      simp [signedText, same, read]

theorem plainText_unsigned (digits places : ℕ) (more rest : List Char) :
    plainText digits places ++ more ≠ '-' :: rest := by
  intro same
  have whole := all_isDigit_toDigits (digits / 10 ^ places)
  cases first : Nat.toDigits 10 (digits / 10 ^ places) with
  | nil => exact Nat.toDigits_ne_nil first
  | cons c others =>
      have isDigit := whole c (by rw [first]; exact List.mem_cons_self)
      rw [plainText, first] at same
      obtain rfl : c = '-' := (List.cons.inj same).1
      exact absurd isDigit (by decide)

theorem pow_trailingZeros_dvd (limit digits : ℕ) : 10 ^ trailingZeros limit digits ∣ digits := by
  induction limit generalizing digits with
  | zero => simp [trailingZeros]
  | succ limit ih =>
      rw [trailingZeros]
      split
      · rename_i zero
        obtain ⟨rest, rfl⟩ := Nat.dvd_of_mod_eq_zero zero
        have inner := ih rest
        rw [Nat.mul_div_cancel_left rest (by decide), pow_succ, mul_comm]
        exact Nat.mul_dvd_mul_left 10 inner
      · simp

section General

variable {p : ℕ} {round : ℚ → ℤ} {x : ℚ}

/-- Dropping zeros at the end and counting them in the place keeps the value. -/
theorem natAbs_significand (last : ℤ) :
    let kept := significand 10 p round x
    let zeros := trailingZeros p kept.natAbs
    ((kept.natAbs / 10 ^ zeros : ℕ) : ℚ) * (10 : ℚ) ^ (last + zeros) =
      kept.natAbs * (10 : ℚ) ^ last := by
  intro kept zeros
  have whole := Nat.div_mul_cancel (pow_trailingZeros_dvd p kept.natAbs)
  rw [zpow_add₀ (by norm_num), zpow_natCast]
  calc ((kept.natAbs / 10 ^ zeros : ℕ) : ℚ) * ((10 : ℚ) ^ last * 10 ^ zeros)
      = ((kept.natAbs / 10 ^ zeros * 10 ^ zeros : ℕ) : ℚ) * 10 ^ last := by push_cast; ring
    _ = kept.natAbs * (10 : ℚ) ^ last := by rw [whole]

/-- The text without a sign is read as the digits at their place. -/
theorem readUnsigned_general (digits : ℕ) (last : ℤ) :
    let places := (Nat.toDigits 10 digits).length - 1
    readUnsigned
        (if -4 ≤ last + places ∧ last + places < p then
          if 0 ≤ last then plainText (digits * 10 ^ last.toNat) 0
          else plainText digits (-last).toNat
        else scientificText digits places (last + places)) =
      some (digits * (10 : ℚ) ^ last) := by
  intro places
  by_cases plain : -4 ≤ last + places ∧ last + places < p
  · rw [if_pos plain]
    by_cases whole : 0 ≤ last
    · obtain ⟨zeros, rfl⟩ := Int.eq_ofNat_of_zero_le whole
      rw [if_pos whole, readUnsigned_plainText]
      simp
    · obtain ⟨behind, rfl⟩ : ∃ behind : ℕ, last = -behind := ⟨(-last).toNat, by omega⟩
      rw [if_neg whole, readUnsigned_plainText]
      simp [div_eq_mul_inv]
  · rw [if_neg plain, readUnsigned_scientificText, zpow_add₀ (by norm_num), zpow_natCast]
    congr 1
    field_simp

theorem readNumber_generalText (p : ℕ) (round : ℚ → ℤ) (x : ℚ) :
    readNumber (generalText p round x) = some (roundDigits 10 p round x) := by
  have value : roundDigits 10 p round x =
      if significand 10 p round x < 0 then
        -((significand 10 p round x).natAbs * (10 : ℚ) ^ lastPlace 10 p x)
      else (significand 10 p round x).natAbs * (10 : ℚ) ^ lastPlace 10 p x := by
    rw [roundDigits, Nat.cast_natAbs, Nat.cast_ofNat]
    split
    · rename_i negative
      rw [abs_of_neg negative, Int.cast_neg, neg_mul, neg_neg]
    · rename_i positive
      rw [abs_of_nonneg (not_lt.mp positive)]
  rw [value, generalText]
  by_cases zero : significand 10 p round x = 0
  · have zeroText : readNumber (signedText false ['0']) = some 0 := by decide +kernel
    simp [zero, zeroText]
  · simp only [if_neg zero]
    have read := readUnsigned_general (p := p)
      ((significand 10 p round x).natAbs /
        10 ^ trailingZeros p (significand 10 p round x).natAbs)
      (lastPlace 10 p x + trailingZeros p (significand 10 p round x).natAbs)
    rw [natAbs_significand] at read
    rw [readNumber_signedText _ ?_ read]
    · simp only [decide_eq_true_eq]
    · intro rest
      split
      · split
        · simpa using plainText_unsigned _ _ [] rest
        · simpa using plainText_unsigned _ _ [] rest
      · exact plainText_unsigned _ _ _ rest

theorem readNumber_fixedText (rounds : Rounds round) (places : ℕ) (x : ℚ) :
    readNumber (fixedText places round x) =
      some ((round (x * 10 ^ places) : ℚ) / 10 ^ places) := by
  rw [fixedText, readNumber_signedText _ (by simpa using plainText_unsigned _ _ [])
    (readUnsigned_plainText _ _)]
  rw [Nat.cast_natAbs]
  by_cases negative : x < 0
  · have below : round (x * 10 ^ places) ≤ 0 := by
      rw [← rounds.zero]
      exact rounds.mono (mul_nonpos_of_nonpos_of_nonneg negative.le (by positivity))
    rw [abs_of_nonpos below, Int.cast_neg, neg_div]
    simp [negative]
  · have above : 0 ≤ round (x * 10 ^ places) := by
      rw [← rounds.zero]
      exact rounds.mono (mul_nonneg (not_lt.mp negative) (by positivity))
    rw [abs_of_nonneg above]
    simp [negative]

end General

/-! ## The characters of a numeral -/

/-- Digits, and what stands between them. -/
def isNumeralChar (c : Char) : Bool :=
  c.isDigit || c == '.' || c == 'e' || c == '+' || c == '-'

theorem isNumeralChar_of_digit {c : Char} (digit : c.isDigit = true) : isNumeralChar c = true := by
  simp [isNumeralChar, digit]

theorem isNumeralChar_plainText {digits places : ℕ} {c : Char}
    (member : c ∈ plainText digits places) : isNumeralChar c = true := by
  rcases plainText_chars member with digit | rfl
  · exact isNumeralChar_of_digit digit
  · rfl

theorem isNumeralChar_scientificText {digits places : ℕ} {exponent : ℤ} {c : Char}
    (member : c ∈ scientificText digits places exponent) : isNumeralChar c = true := by
  rw [scientificText, List.mem_append, List.mem_cons, List.mem_cons] at member
  rcases member with mantissa | rfl | rfl | power
  · exact isNumeralChar_plainText mantissa
  · rfl
  · split <;> rfl
  · exact isNumeralChar_of_digit (isDigit_paddedDigits power)

theorem isNumeralChar_signedText {negative : Bool} {text : List Char}
    (numeral : ∀ c ∈ text, isNumeralChar c = true) {c : Char}
    (member : c ∈ signedText negative text) : isNumeralChar c = true := by
  cases negative with
  | false => exact numeral c member
  | true =>
      rcases List.mem_cons.mp member with rfl | inside
      · rfl
      · exact numeral c inside

theorem isNumeralChar_generalText {p : ℕ} {round : ℚ → ℤ} {x : ℚ} {c : Char}
    (member : c ∈ generalText p round x) : isNumeralChar c = true := by
  refine isNumeralChar_signedText ?_ member
  intro d inside
  split_ifs at inside
  · rw [List.mem_singleton.mp inside]
    rfl
  · exact isNumeralChar_plainText inside
  · exact isNumeralChar_plainText inside
  · exact isNumeralChar_scientificText inside

theorem isNumeralChar_fixedText {places : ℕ} {round : ℚ → ℤ} {x : ℚ} {c : Char}
    (member : c ∈ fixedText places round x) : isNumeralChar c = true :=
  isNumeralChar_signedText (fun _ => isNumeralChar_plainText) member

end Basis
