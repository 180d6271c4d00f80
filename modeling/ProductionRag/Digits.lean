import ProductionRag.Python

/-!
# Digits as Python reads them

`str.isdigit` also holds of digits that are no decimals, such as superscripts; `int`,
`float` and `\d` take decimals only, and `int` and `float` skip less white space than
`str.strip`.  The tables are those of Unicode 15.
-/

set_option autoImplicit false

namespace ProductionRag

/-- The zeros of the runs of ten decimal digits (category Nd). -/
def decimalZeros : List Nat :=
  [0x30, 0x660, 0x6F0, 0x7C0, 0x966, 0x9E6, 0xA66, 0xAE6, 0xB66, 0xBE6, 0xC66, 0xCE6, 0xD66,
    0xDE6, 0xE50, 0xED0, 0xF20, 0x1040, 0x1090, 0x17E0, 0x1810, 0x1946, 0x19D0, 0x1A80, 0x1A90,
    0x1B50, 0x1BB0, 0x1C40, 0x1C50, 0xA620, 0xA8D0, 0xA900, 0xA9D0, 0xA9F0, 0xAA50, 0xABF0,
    0xFF10, 0x104A0, 0x10D30, 0x11066, 0x110F0, 0x11136, 0x111D0, 0x112F0, 0x11450, 0x114D0,
    0x11650, 0x116C0, 0x11730, 0x118E0, 0x11950, 0x11C50, 0x11D50, 0x11DA0, 0x11F50, 0x16A60,
    0x16AC0, 0x16B50, 0x1D7CE, 0x1D7D8, 0x1D7E2, 0x1D7EC, 0x1D7F6, 0x1E140, 0x1E2F0, 0x1E4F0,
    0x1E950, 0x1FBF0]

/-- The digits that are not decimals. -/
def otherDigits : List (Nat × Nat) :=
  [(0xB2, 0xB3), (0xB9, 0xB9), (0x1369, 0x1371), (0x19DA, 0x19DA), (0x2070, 0x2070),
    (0x2074, 0x2079), (0x2080, 0x2089), (0x2460, 0x2468), (0x2474, 0x247C), (0x2488, 0x2490),
    (0x24EA, 0x24EA), (0x24F5, 0x24FD), (0x24FF, 0x24FF), (0x2776, 0x277E), (0x2780, 0x2788),
    (0x278A, 0x2792), (0x10A40, 0x10A43), (0x10E60, 0x10E68), (0x11052, 0x1105A),
    (0x1F100, 0x1F10A)]

def decimalDigit? (c : Char) : Option Nat :=
  (decimalZeros.find? fun first => first ≤ c.toNat && c.toNat < first + 10).map (c.toNat - ·)

/-- `str.isdecimal` of one character, and `\d`. -/
def isDecimal (c : Char) : Bool := (decimalDigit? c).isSome

/-- `str.isdigit` of one character. -/
def isDigit (c : Char) : Bool :=
  isDecimal c || otherDigits.any fun range => range.1 ≤ c.toNat && c.toNat ≤ range.2

/-- `str.isdigit` -/
def isDigits (text : String) : Bool := text ≠ "" && text.toList.all isDigit

/-- What a run of decimals spells. -/
def decimalValue (digits : List Char) : Nat :=
  digits.foldl (fun value c => 10 * value + (decimalDigit? c).getD 0) 0

/-- The white space `int` and `float` skip: `str.strip` also drops the separators 28 to 31. -/
def isNumberSpace (c : Char) : Bool := isSpace c && !(28 ≤ c.toNat && c.toNat ≤ 31)

/-- The digits that `int` and `float` read, the white space around them skipped. -/
def numberDigits (text : List Char) : List Char :=
  (text.dropWhile isNumberSpace).rdropWhile isNumberSpace

/-- Digits that `int` and `float` take. -/
def isNumber (text : List Char) : Bool :=
  !(numberDigits text).isEmpty && (numberDigits text).all isDecimal

/-- Longer numbers are refused by `int`. -/
def maxIntDigits : Nat := 4300

/-- `int` of digits and white space. -/
def intOfDigits (text : List Char) : Except PyError Nat :=
  if isNumber text && (numberDigits text).length ≤ maxIntDigits then
    .ok (decimalValue (numberDigits text))
  else .error (.valueError "invalid literal for int() with base 10")

/-- `float` of digits and white space. -/
def floatOfDigits (text : String) : Except PyError Nat :=
  if isNumber text.toList then .ok (decimalValue (numberDigits text.toList))
  else .error (.valueError s!"could not convert string to float: {text}")

/-- `text[:stop]` -/
def sliceTo (text : String) (stop : Int) : String :=
  String.ofList (text.toList.take
    (if 0 ≤ stop then stop.toNat else (text.length + stop).toNat))

/-! ## Numerals -/

theorem decimalDigit_ascii {c : Char} (isAscii : c.isDigit = true) :
    decimalDigit? c = some (c.toNat - '0'.toNat) := by
  have bounds : 48 ≤ c.toNat ∧ c.toNat ≤ 57 := by
    simpa [Char.isDigit, UInt32.le_iff_toNat_le] using isAscii
  have first : (decide (0x30 ≤ c.toNat) && decide (c.toNat < 0x30 + 10)) = true := by
    rw [Bool.and_eq_true, decide_eq_true_iff, decide_eq_true_iff]
    omega
  have starts : decimalZeros = 0x30 :: decimalZeros.tail := rfl
  rw [decimalDigit?, starts, List.find?_cons, first]
  rfl

theorem isDecimal_ascii {c : Char} (isAscii : c.isDigit = true) : isDecimal c = true := by
  rw [isDecimal, decimalDigit_ascii isAscii]
  rfl

theorem decimalValue_ascii {digits : List Char} (areAscii : ∀ c ∈ digits, c.isDigit = true) :
    decimalValue digits = Nat.ofDigitChars 10 digits 0 := by
  rw [decimalValue, Nat.ofDigitChars_eq_foldl]
  refine List.foldl_ext _ _ 0 fun value c member => ?_
  rw [decimalDigit_ascii (areAscii c member), Option.getD_some]

theorem decimalValue_toDigits (number : Nat) : decimalValue (Nat.toDigits 10 number) = number := by
  rw [decimalValue_ascii fun c member =>
    Nat.isDigit_of_mem_toDigits (by decide) (by decide) member]
  exact Nat.ofDigitChars_toDigits (by decide) (by decide)

theorem decimalDigit_lt {c : Char} {digit : Nat} (isDigit : decimalDigit? c = some digit) :
    digit < 10 := by
  rw [decimalDigit?, Option.map_eq_some_iff] at isDigit
  obtain ⟨first, found, rfl⟩ := isDigit
  have between := List.find?_some found
  rw [Bool.and_eq_true, decide_eq_true_iff, decide_eq_true_iff] at between
  omega

theorem decimalValue_lt (digits : List Char) : decimalValue digits < 10 ^ digits.length := by
  induction digits using List.reverseRecOn with
  | nil => decide
  | append_singleton digits c ih =>
      have small : (decimalDigit? c).getD 0 < 10 := by
        cases isDigit : decimalDigit? c with
        | none => exact (by decide : (0 : Nat) < 10)
        | some digit => exact decimalDigit_lt isDigit
      have step : decimalValue (digits ++ [c]) =
          10 * decimalValue digits + (decimalDigit? c).getD 0 := by
        rw [decimalValue, List.foldl_append]
        rfl
      rw [step, List.length_append, List.length_singleton, Nat.pow_succ]
      omega

end ProductionRag
