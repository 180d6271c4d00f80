import ProductionRag.Basis.Regex
import ProductionRag.Python

/-!
# Letters and words as Python's `re` reads them

Which characters beyond ASCII are alphanumeric is left to Python's table; the code relies
on the one of them that ignoring case puts into its patterns.
-/

set_option autoImplicit false

namespace ProductionRag

open Basis

/-- A lower-case letter of a pattern under `re.I`; Unicode folds a few more characters to it. -/
def ignoreCase (letter c : Char) : Bool :=
  c == letter || c == letter.toUpper || (letter == 's' && c == 'ſ') ||
    (letter == 'k' && c == '\u212A') || (letter == 'i' && (c == 'ı' || c == 'İ'))

/-- A word of a pattern, letter by letter. -/
def letters (word : List Char) : Regex Char :=
  word.foldr (fun letter rest => .seq (.char (ignoreCase letter)) rest) .empty

/-- One of the words of a pattern. -/
def anyOf (words : List String) : Regex Char :=
  words.foldr (fun word rest => .alt (letters word.toList) rest) (.char fun _ => false)

/-- `str.isalnum` of one character. -/
structure WordChars where
  isAlnum : Char → Bool
  ascii : ∀ c : Char, c.toNat < 128 → isAlnum c = c.isAlphanum
  longS : isAlnum 'ſ' = true

/-- `\w` -/
def WordChars.isWord (words : WordChars) (c : Char) : Bool := words.isAlnum c || c == '_'

/-- The words of a text without letters beyond ASCII. -/
def WordChars.asciiWords : WordChars where
  isAlnum c := c.isAlphanum && c.toNat < 128 || c == 'ſ'
  ascii := by
    intro c isAscii
    have notLong : (c == 'ſ') = false := by
      rw [beq_eq_false_iff_ne]
      rintro rfl
      revert isAscii
      decide
    simp [isAscii, notLong]
  longS := by decide

theorem WordChars.isWord_ascii (words : WordChars) {c : Char} (isAscii : c.toNat < 128) :
    words.isWord c = (c.isAlphanum || c == '_') := by
  rw [isWord, words.ascii c isAscii]

theorem mem_letters {word text : List Char} :
    text ∈ (letters word).language ↔
      List.Forall₂ (fun letter c => ignoreCase letter c = true) word text := by
  induction word generalizing text with
  | nil =>
      rw [List.forall₂_nil_left_iff]
      exact Iff.rfl
  | cons letter word ih =>
      rw [List.forall₂_cons_left_iff]
      constructor
      · intro member
        obtain ⟨_, ⟨c, same, rfl⟩, rest, inRest, rfl⟩ := Language.mem_mul.mp member
        exact ⟨c, rest, same, ih.mp inRest, rfl⟩
      · rintro ⟨c, rest, same, inRest, rfl⟩
        exact Language.append_mem_mul (a := [c]) ⟨c, same, rfl⟩ (ih.mpr inRest)

theorem mem_letters_append {first second text : List Char} :
    text ∈ (letters (first ++ second)).language ↔
      ∃ left ∈ (letters first).language, ∃ right ∈ (letters second).language,
        left ++ right = text := by
  induction first generalizing text with
  | nil =>
      constructor
      · exact fun member => ⟨[], rfl, text, member, rfl⟩
      · rintro ⟨left, isEmpty, right, member, rfl⟩
        obtain rfl : left = [] := isEmpty
        exact member
  | cons letter first ih =>
      constructor
      · intro member
        obtain ⟨_, ⟨c, same, rfl⟩, rest, inRest, rfl⟩ := Language.mem_mul.mp member
        obtain ⟨left, inLeft, right, inRight, rfl⟩ := ih.mp inRest
        exact ⟨[c] ++ left, Language.append_mem_mul (a := [c]) ⟨c, same, rfl⟩ inLeft, right,
          inRight, List.append_assoc ..⟩
      · rintro ⟨_, member, right, inRight, rfl⟩
        obtain ⟨_, ⟨c, same, rfl⟩, left, inLeft, rfl⟩ := Language.mem_mul.mp member
        rw [List.append_assoc]
        exact Language.append_mem_mul (a := [c]) ⟨c, same, rfl⟩
          (ih.mpr ⟨left, inLeft, right, inRight, rfl⟩)

/-- Where a spelled text is cut, the word is cut as well. -/
theorem cut_letters {word left right : List Char}
    (member : left ++ right ∈ (letters word).language) :
    ∃ first second, word = first ++ second ∧ left ∈ (letters first).language ∧
      right ∈ (letters second).language := by
  induction left generalizing word with
  | nil => exact ⟨[], word, rfl, rfl, member⟩
  | cons c left ih =>
      obtain ⟨letter, rest, same, others, rfl⟩ :=
        List.forall₂_cons_right_iff.mp (mem_letters.mp member)
      obtain ⟨first, second, rfl, inFirst, inSecond⟩ := ih (mem_letters.mpr others)
      exact ⟨letter :: first, second, rfl,
        mem_letters.mpr (.cons same (mem_letters.mp inFirst)), inSecond⟩

theorem forall_of_letters {word text : List Char} {p : Char → Prop}
    (member : text ∈ (letters word).language)
    (all : ∀ letter ∈ word, ∀ c, ignoreCase letter c = true → p c) : ∀ c ∈ text, p c := by
  induction mem_letters.mp member with
  | nil => exact List.forall_mem_nil _
  | cons same others ih =>
      obtain ⟨first, rest⟩ := List.forall_mem_cons.mp all
      exact List.forall_mem_cons.mpr ⟨first _ same, ih (mem_letters.mpr others) rest⟩

theorem mem_anyOf {words : List String} {text : List Char} :
    text ∈ (anyOf words).language ↔ ∃ word ∈ words, text ∈ (letters word.toList).language := by
  induction words with
  | nil =>
      constructor
      · rintro ⟨_, never, _⟩
        cases never
      · rintro ⟨_, member, _⟩
        cases member
  | cons word words ih =>
      simp only [List.mem_cons, exists_eq_or_imp, ← ih]
      exact Language.mem_add ..

end ProductionRag
