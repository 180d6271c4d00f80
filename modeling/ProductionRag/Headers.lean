import ProductionRag.Digits

/-!
# Header values as `http.client` writes them

`putheader` encodes a value as Latin-1 and refuses bytes that would start a new header.
The text of its `UnicodeEncodeError` shows where the first characters stand that Latin-1
lacks, and the only one of them if there is one; the text of its `ValueError` quotes the
value.
-/

set_option autoImplicit false

namespace ProductionRag

/-! ## Latin-1 -/

def isLatin1 (c : Char) : Bool := c.toNat < 256

def latin1Bytes (text : List Char) : List UInt8 := text.map fun c => UInt8.ofNat c.toNat

/-- Where the first characters stand that Latin-1 lacks. -/
def foreignStart (text : List Char) : Nat := (text.takeWhile isLatin1).length

/-- The first characters that Latin-1 lacks, as many as stand side by side. -/
def foreignRun (text : List Char) : List Char :=
  (text.dropWhile isLatin1).takeWhile fun c => !isLatin1 c

/-- `\uXXXX` or `\UXXXXXXXX` -/
def escapeChar (c : Char) : List Char :=
  if c.toNat < 65536 then '\\' :: 'u' :: (spellNat 4 c.toNat).reverse
  else '\\' :: 'U' :: (spellNat 8 c.toNat).reverse

/-- What the `UnicodeEncodeError` says of its characters. -/
def foreignText (start : Nat) : List Char → List Char
  | [c] =>
    " '".toList ++ (escapeChar c ++ '\'' :: (" in position ".toList ++ Nat.toDigits 10 start))
  | run =>
    "s in position ".toList ++
      (Nat.toDigits 10 start ++ '-' :: Nat.toDigits 10 (start + run.length - 1))

/-- `str` of the `UnicodeEncodeError`. -/
def encodeErrorText (start : Nat) (run : List Char) : List Char :=
  "'latin-1' codec can't encode character".toList ++
    (foreignText start run ++ ": ordinal not in range(256)".toList)

/-! ## `repr` of bytes -/

/-- One byte between quotes. -/
def escapeByte (quote : Char) (byte : UInt8) : List Char :=
  if byte.toNat = quote.toNat ∨ byte = 92 then ['\\', Char.ofNat byte.toNat]
  else if byte = 9 then ['\\', 't']
  else if byte = 10 then ['\\', 'n']
  else if byte = 13 then ['\\', 'r']
  else if byte < 32 ∨ 127 ≤ byte then '\\' :: 'x' :: (spellNat 2 byte.toNat).reverse
  else [Char.ofNat byte.toNat]

/-- Double quotes only if they save an escape. -/
def quoteOf (bytes : List UInt8) : Char :=
  if bytes.contains 39 && !bytes.contains 34 then '"' else '\''

/-- `repr` of bytes. -/
def bytesRepr (bytes : List UInt8) : List Char :=
  'b' :: quoteOf bytes :: (bytes.flatMap (escapeByte (quoteOf bytes)) ++ [quoteOf bytes])

/-! ## `putheader` -/

/-- The byte starts a new line that is no continuation. -/
def breaksLine (byte : UInt8) (next : Option UInt8) : Bool :=
  (byte == 10 && next != some 32 && next != some 9) ||
    (byte == 13 && next != some 32 && next != some 9 && next != some 10)

/-- `_is_illegal_header_value`: `\n(?![ \t])|\r(?![ \t\n])` -/
def isIllegalHeaderValue : List UInt8 → Bool
  | [] => false
  | byte :: rest => breaksLine byte rest.head? || isIllegalHeaderValue rest

/-- How `putheader` fails, with the text of the error. -/
inductive HeaderError where
  | unicodeEncodeError (text : List Char)
  | valueError (text : List Char)
  deriving DecidableEq

/-- `putheader` of a text, with what it refuses. -/
def putheader (illegal : List UInt8 → Bool) (value : List Char) : Except HeaderError Unit :=
  if value.all isLatin1 then
    if illegal (latin1Bytes value) then
      .error (.valueError ("Invalid header value ".toList ++ bytesRepr (latin1Bytes value)))
    else .ok ()
  else .error (.unicodeEncodeError (encodeErrorText (foreignStart value) (foreignRun value)))

example : putheader isIllegalHeaderValue "Bearer it's\n1".toList =
    .error (.valueError "Invalid header value b\"Bearer it's\\n1\"".toList) := by decide +kernel

/-! ## What the errors tell -/

theorem toDigits_injective : Function.Injective (Nat.toDigits 10) :=
  Function.LeftInverse.injective decimalValue_toDigits

theorem isDigit_of_mem_toDigits {n : Nat} {c : Char} (member : c ∈ Nat.toDigits 10 n) :
    c.isDigit = true := Nat.isDigit_of_mem_toDigits (by decide) (by decide) member

theorem notMem_toDigits {n : Nat} {c : Char} (other : c.isDigit = false) :
    c ∉ Nat.toDigits 10 n := by
  intro member
  rw [isDigit_of_mem_toDigits member] at other
  cases other

theorem latin1Bytes_injOn {left right : List Char} (isLeft : left.all isLatin1 = true)
    (isRight : right.all isLatin1 = true) (same : latin1Bytes left = latin1Bytes right) :
    left = right := by
  induction left generalizing right with
  | nil => exact (List.map_eq_nil_iff.mp same.symm).symm
  | cons c left ih =>
      cases right with
      | nil => cases same
      | cons d right =>
          simp only [List.all_cons, Bool.and_eq_true, isLatin1, decide_eq_true_eq] at isLeft isRight
          simp only [latin1Bytes, List.map_cons, List.cons.injEq] at same
          have first : c = d := by
            have values := congrArg UInt8.toNat same.1
            rw [UInt8.toNat_ofNat_of_lt' (by simpa using isLeft.1),
              UInt8.toNat_ofNat_of_lt' (by simpa using isRight.1)] at values
            exact Char.toNat_inj.mp values
          rw [first, ih isLeft.2 isRight.2 same.2]

/-- The byte at the start of a literal, and what follows it. -/
def readEscape : List Char → Option (Nat × List Char)
  | '\\' :: 'x' :: high :: low :: rest =>
    some (16 * hexDigits.idxOf high + hexDigits.idxOf low, rest)
  | '\\' :: 't' :: rest => some (9, rest)
  | '\\' :: 'n' :: rest => some (10, rest)
  | '\\' :: 'r' :: rest => some (13, rest)
  | '\\' :: c :: rest => some (c.toNat, rest)
  | c :: rest => some (c.toNat, rest)
  | [] => none

theorem toNat_ofNat_byte (byte : UInt8) : (Char.ofNat byte.toNat).toNat = byte.toNat := by
  have valid : byte.toNat.isValidChar := .inl (Nat.lt_trans byte.toNat_lt (by decide))
  rw [Char.ofNat, dif_pos valid]
  rfl

/-- A literal reads back as the bytes it quotes. -/
theorem readEscape_escapeByte {quote : Char} (isQuote : quote = '\'' ∨ quote = '"')
    (byte : UInt8) (rest : List Char) :
    readEscape (escapeByte quote byte ++ rest) = some (byte.toNat, rest) := by
  unfold escapeByte
  split
  · rename_i marked
    have bytes : byte = 39 ∨ byte = 34 ∨ byte = 92 := by
      rcases marked with same | same
      · rcases isQuote with rfl | rfl
        · exact .inl (UInt8.toNat_inj.mp same)
        · exact .inr (.inl (UInt8.toNat_inj.mp same))
      · exact .inr (.inr same)
    rcases bytes with rfl | rfl | rfl <;> rfl
  · rename_i unmarked
    split
    · rename_i isTab
      subst isTab
      rfl
    · split
      · rename_i isLineFeed
        subst isLineFeed
        rfl
      · split
        · rename_i isReturn
          subst isReturn
          rfl
        · split
          · have digits : ∀ digit < 16, hexDigits.idxOf (hexDigits.getD digit '0') = digit := by
              decide
            have small := byte.toNat_lt
            change some (16 * hexDigits.idxOf (hexDigits.getD (byte.toNat / 16 % 16) '0') +
              hexDigits.idxOf (hexDigits.getD (byte.toNat % 16) '0'), rest) = _
            rw [digits _ (Nat.mod_lt _ (by decide)), digits _ (Nat.mod_lt _ (by decide))]
            congr 2
            omega
          · have plain : Char.ofNat byte.toNat ≠ '\\' := by
              intro same
              apply unmarked
              right
              have values := congrArg Char.toNat same
              rw [toNat_ofNat_byte] at values
              exact UInt8.toNat_inj.mp values
            rw [← toNat_ofNat_byte byte]
            generalize Char.ofNat byte.toNat = c at plain
            simp [readEscape, plain]

theorem bytesRepr_injective : Function.Injective bytesRepr := by
  intro left right same
  obtain ⟨quotes, bodies⟩ := List.cons.inj (List.cons.inj same).2
  rw [← quotes] at bodies
  have isQuote : quoteOf left = '\'' ∨ quoteOf left = '"' := by
    unfold quoteOf
    split
    · exact .inr rfl
    · exact .inl rfl
  have texts := List.append_cancel_right bodies
  clear same quotes bodies
  generalize quoteOf left = quote at isQuote texts
  induction left generalizing right with
  | nil =>
      cases right with
      | nil => rfl
      | cons byte right =>
          have read := readEscape_escapeByte isQuote byte (right.flatMap (escapeByte quote))
          rw [← List.flatMap_cons, ← texts] at read
          cases read
  | cons byte left ih =>
      have read := readEscape_escapeByte isQuote byte (left.flatMap (escapeByte quote))
      rw [← List.flatMap_cons, texts] at read
      cases right with
      | nil => cases read
      | cons byte' right =>
          rw [List.flatMap_cons, readEscape_escapeByte isQuote] at read
          obtain ⟨first, rest⟩ := Prod.mk.inj (Option.some.inj read)
          rw [UInt8.toNat_inj.mp first, ih rest.symm]

theorem escapeChar_injective : Function.Injective escapeChar := by
  intro left right same
  have small : ∀ c : Char, c.toNat < 16 ^ 8 := by
    intro c
    have valid := c.valid
    simp only [UInt32.isValidChar, Nat.isValidChar] at valid
    simp only [Char.toNat]
    omega
  have reversed : ∀ width, left.toNat < 16 ^ width → right.toNat < 16 ^ width →
      (spellNat width left.toNat).reverse = (spellNat width right.toNat).reverse →
        left = right := by
    intro width isLeft isRight spelled
    exact Char.toNat_inj.mp
      (spellNat_injective width _ _ isLeft isRight (List.reverse_injective spelled))
  unfold escapeChar at same
  by_cases isLeft : left.toNat < 65536
  · by_cases isRight : right.toNat < 65536
    · rw [if_pos isLeft, if_pos isRight] at same
      exact reversed 4 isLeft isRight (List.cons.inj (List.cons.inj same).2).2
    · rw [if_pos isLeft, if_neg isRight] at same
      cases (List.cons.inj (List.cons.inj same).2).1
  · by_cases isRight : right.toNat < 65536
    · rw [if_neg isLeft, if_pos isRight] at same
      cases (List.cons.inj (List.cons.inj same).2).1
    · rw [if_neg isLeft, if_neg isRight] at same
      exact reversed 8 (small left) (small right) (List.cons.inj (List.cons.inj same).2).2

theorem quote_notMem_escapeChar (c : Char) : '\'' ∉ escapeChar c := by
  have noDigit : '\'' ∉ hexDigits := by decide
  have spelled : ∀ width, '\'' ∉ (spellNat width c.toNat).reverse := by
    intro width member
    exact noDigit (spellNat_hex width _ _ (List.mem_reverse.mp member))
  unfold escapeChar
  split
  · simp [spelled]
  · simp [spelled]

/-- The text of an encoding error tells where it is and how long, and shows a character
that stands alone. -/
theorem foreignText_eq_iff {start start' : Nat} {run run' : List Char} (some : run ≠ [])
    (some' : run' ≠ []) :
    foreignText start run = foreignText start' run' ↔
      start = start' ∧ run.length = run'.length ∧ (run.length = 1 → run = run') := by
  constructor
  · intro same
    rcases run with _ | ⟨c, _ | ⟨c', run⟩⟩
    · exact absurd rfl some
    · rcases run' with _ | ⟨d, _ | ⟨d', run'⟩⟩
      · exact absurd rfl some'
      · have quoted : escapeChar c ++ '\'' :: (" in position ".toList ++ Nat.toDigits 10 start) =
            escapeChar d ++ '\'' :: (" in position ".toList ++ Nat.toDigits 10 start') :=
          List.append_cancel_left same
        have noQuote : '\'' ∉ " in position ".toList ++ Nat.toDigits 10 start := by
          rw [List.mem_append, not_or]
          exact ⟨by decide, notMem_toDigits rfl⟩
        rw [List.append_cons_inj_of_notMem (quote_notMem_escapeChar c) noQuote] at quoted
        obtain ⟨shown, _, places⟩ := quoted
        obtain rfl := escapeChar_injective shown
        exact ⟨toDigits_injective (List.append_cancel_left places), rfl, fun _ => rfl⟩
      · cases (List.cons.inj same).1
    · rcases run' with _ | ⟨d, _ | ⟨d', run'⟩⟩
      · exact absurd rfl some'
      · cases (List.cons.inj same).1
      · have noDash : ∀ n, '-' ∉ Nat.toDigits 10 n := fun n => notMem_toDigits rfl
        have places : Nat.toDigits 10 start ++ '-' ::
              Nat.toDigits 10 (start + (c :: c' :: run).length - 1) =
            Nat.toDigits 10 start' ++ '-' ::
              Nat.toDigits 10 (start' + (d :: d' :: run').length - 1) :=
          List.append_cancel_left same
        rw [List.append_cons_inj_of_notMem (noDash _) (noDash _)] at places
        obtain ⟨starts, _, ends⟩ := places
        obtain rfl := toDigits_injective starts
        have last := toDigits_injective ends
        simp only [List.length_cons] at last
        have lengths : (c :: c' :: run).length = (d :: d' :: run').length := by
          simp only [List.length_cons]
          omega
        exact ⟨rfl, lengths, fun alone => absurd alone (by simp)⟩
  · rintro ⟨rfl, length, alone⟩
    rcases run with _ | ⟨c, _ | ⟨c', run⟩⟩
    · exact absurd rfl some
    · rw [alone rfl]
    · rcases run' with _ | ⟨d, _ | ⟨d', run'⟩⟩
      · exact absurd rfl some'
      · cases length
      · simp only [foreignText, length]

/-! ## When two values fare alike -/

/-- The value is written. -/
def Written (illegal : List UInt8 → Bool) (value : List Char) : Prop :=
  value.all isLatin1 = true ∧ illegal (latin1Bytes value) = false

/-- The value is refused and quoted. -/
def Quoted (illegal : List UInt8 → Bool) (value : List Char) : Prop :=
  value.all isLatin1 = true ∧ illegal (latin1Bytes value) = true

/-- The value does not encode. -/
def Foreign (value : List Char) : Prop := value.all isLatin1 = false

/-- The first characters that do not encode stand at the same place and are as many; if
there is only one, it is the same. -/
structure SameForeign (value value' : List Char) : Prop where
  start : foreignStart value = foreignStart value'
  length : (foreignRun value).length = (foreignRun value').length
  alone : (foreignRun value).length = 1 → foreignRun value = foreignRun value'

theorem foreignRun_ne_nil {value : List Char} (foreign : Foreign value) :
    foreignRun value ≠ [] := by
  have some : value.dropWhile isLatin1 ≠ [] := by
    intro none
    rw [List.dropWhile_eq_nil_iff] at none
    rw [Foreign, List.all_eq_false] at foreign
    obtain ⟨c, member, other⟩ := foreign
    exact other (none c member)
  have first := List.head_dropWhile_not isLatin1 some
  unfold foreignRun
  cases rest : value.dropWhile isLatin1 with
  | nil => exact absurd rest some
  | cons c more =>
      simp only [rest, List.head_cons] at first
      simp [first]

theorem encodeErrorText_eq_iff {value value' : List Char} (foreign : Foreign value)
    (foreign' : Foreign value') :
    encodeErrorText (foreignStart value) (foreignRun value) =
        encodeErrorText (foreignStart value') (foreignRun value') ↔
      SameForeign value value' := by
  have texts := @foreignText_eq_iff (foreignStart value) (foreignStart value') _ _
    (foreignRun_ne_nil foreign) (foreignRun_ne_nil foreign')
  constructor
  · intro same
    have shown : foreignText (foreignStart value) (foreignRun value) =
        foreignText (foreignStart value') (foreignRun value') :=
      List.append_cancel_right (List.append_cancel_left same)
    obtain ⟨start, length, alone⟩ := texts.mp shown
    exact ⟨start, length, alone⟩
  · intro same
    have shown : foreignText (foreignStart value) (foreignRun value) =
        foreignText (foreignStart value') (foreignRun value') :=
      texts.mpr ⟨same.start, same.length, same.alone⟩
    unfold encodeErrorText
    rw [shown]

theorem quotation_eq_iff {value value' : List Char} (encodes : value.all isLatin1 = true)
    (encodes' : value'.all isLatin1 = true) :
    "Invalid header value ".toList ++ bytesRepr (latin1Bytes value) =
        "Invalid header value ".toList ++ bytesRepr (latin1Bytes value') ↔ value = value' := by
  constructor
  · intro same
    have reprs : bytesRepr (latin1Bytes value) = bytesRepr (latin1Bytes value') :=
      List.append_cancel_left same
    exact latin1Bytes_injOn encodes encodes' (bytesRepr_injective reprs)
  · intro same
    rw [same]

section Putheader

variable {illegal : List UInt8 → Bool} {value value' : List Char}

theorem putheader_written (written : Written illegal value) : putheader illegal value = .ok () := by
  rw [putheader, if_pos written.1, written.2]
  rfl

theorem putheader_quoted (quoted : Quoted illegal value) :
    putheader illegal value =
      .error (.valueError ("Invalid header value ".toList ++ bytesRepr (latin1Bytes value))) := by
  rw [putheader, if_pos quoted.1, if_pos quoted.2]

theorem putheader_foreign (foreign : Foreign value) :
    putheader illegal value =
      .error (.unicodeEncodeError
        (encodeErrorText (foreignStart value) (foreignRun value))) := by
  rw [putheader, if_neg (by rw [foreign]; exact Bool.false_ne_true)]

/-- Everything `putheader` can do with a value. -/
theorem putheader_cases (illegal : List UInt8 → Bool) (value : List Char) :
    Written illegal value ∨ Quoted illegal value ∨ Foreign value := by
  unfold Written Quoted Foreign
  cases value.all isLatin1 <;> cases illegal (latin1Bytes value) <;> simp

/-- Both values are written, or both are refused with the same text. -/
theorem putheader_eq_iff :
    putheader illegal value = putheader illegal value' ↔
      value = value' ∨ (Written illegal value ∧ Written illegal value') ∨
        (Foreign value ∧ Foreign value' ∧ SameForeign value value') := by
  constructor
  · intro same
    rcases putheader_cases illegal value with written | quoted | foreign
    · rcases putheader_cases illegal value' with written' | quoted' | foreign'
      · exact .inr (.inl ⟨written, written'⟩)
      · cases (putheader_written written).symm.trans (same.trans (putheader_quoted quoted'))
      · cases (putheader_written written).symm.trans (same.trans (putheader_foreign foreign'))
    · rcases putheader_cases illegal value' with written' | quoted' | foreign'
      · cases (putheader_quoted quoted).symm.trans (same.trans (putheader_written written'))
      · have texts := (putheader_quoted quoted).symm.trans (same.trans (putheader_quoted quoted'))
        exact .inl ((quotation_eq_iff quoted.1 quoted'.1).mp
          (HeaderError.valueError.inj (Except.error.inj texts)))
      · cases (putheader_quoted quoted).symm.trans (same.trans (putheader_foreign foreign'))
    · rcases putheader_cases illegal value' with written' | quoted' | foreign'
      · cases (putheader_foreign foreign).symm.trans (same.trans (putheader_written written'))
      · cases (putheader_foreign foreign).symm.trans (same.trans (putheader_quoted quoted'))
      · have texts := (putheader_foreign foreign).symm.trans
          (same.trans (putheader_foreign foreign'))
        exact .inr (.inr ⟨foreign, foreign', (encodeErrorText_eq_iff foreign foreign').mp
          (HeaderError.unicodeEncodeError.inj (Except.error.inj texts))⟩)
  · rintro (same | ⟨written, written'⟩ | ⟨foreign, foreign', same⟩)
    · rw [same]
    · rw [putheader_written written, putheader_written written']
    · have texts := (encodeErrorText_eq_iff foreign foreign').mpr same
      rw [putheader_foreign foreign, putheader_foreign foreign', texts]

end Putheader

/-! ## A value behind a fixed text -/

section Behind

variable {before : List Char} (encodes : before.all isLatin1 = true)
include encodes

theorem foreign_append (text : List Char) : Foreign (before ++ text) ↔ Foreign text := by
  rw [Foreign, Foreign, List.all_append, encodes, Bool.true_and]

theorem foreignStart_append (text : List Char) :
    foreignStart (before ++ text) = before.length + foreignStart text := by
  rw [foreignStart, List.takeWhile_append_of_pos (List.all_eq_true.mp encodes), List.length_append]
  rfl

theorem foreignRun_append (text : List Char) : foreignRun (before ++ text) = foreignRun text := by
  rw [foreignRun, List.dropWhile_append_of_pos (List.all_eq_true.mp encodes)]
  rfl

theorem sameForeign_append (text text' : List Char) :
    SameForeign (before ++ text) (before ++ text') ↔ SameForeign text text' := by
  constructor
  · rintro ⟨start, length, alone⟩
    rw [foreignStart_append encodes, foreignStart_append encodes] at start
    rw [foreignRun_append encodes, foreignRun_append encodes] at length alone
    exact ⟨Nat.add_left_cancel start, length, alone⟩
  · rintro ⟨start, length, alone⟩
    refine ⟨?_, ?_, ?_⟩
    · rw [foreignStart_append encodes, foreignStart_append encodes, start]
    · rw [foreignRun_append encodes, foreignRun_append encodes]
      exact length
    · rw [foreignRun_append encodes, foreignRun_append encodes]
      exact alone

end Behind

end ProductionRag
