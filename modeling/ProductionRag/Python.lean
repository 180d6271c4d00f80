import Mathlib.Algebra.Order.Ring.Int
import Mathlib.Data.List.DropRight
import Mathlib.Data.List.Basic
import Mathlib.Data.List.Forall2
import Mathlib.Tactic.Common

/-!
# What the code takes from Python

Exceptions, `str.strip`, timestamps and SHA-256.  A timestamp is a number of
microseconds.  SHA-256 is idealized: `Sha256` is any pair of injective digests
written in hexadecimal digits, one for uploaded bytes and one for the 24 digits
that become a `document_id`.
-/

set_option autoImplicit false

namespace ProductionRag

abbrev Time := Nat

def microsecondsPerSecond : Nat := 1000000

/-- The exceptions the modelled functions raise or pass on. -/
inductive PyError where
  | valueError (message : String)
  | unicodeError (message : String)
  | keyError (key : String)
  | typeError (message : String)
  | databaseError (message : String)
  | other (message : String)
  deriving DecidableEq, Repr

theorem Except.bind_ok_iff {ε α β : Type} {first : Except ε α} {second : α → Except ε β}
    {result : β} :
    (first >>= second) = .ok result ↔ ∃ value, first = .ok value ∧ second value = .ok result := by
  cases first with
  | error e => exact ⟨fun wrong => (nomatch wrong), fun ⟨_, wrong, _⟩ => (nomatch wrong)⟩
  | ok value =>
      constructor
      · exact fun ended => ⟨value, rfl, ended⟩
      · rintro ⟨_, same, ended⟩
        cases same
        exact ended

theorem Except.mapM_ok_iff {α β : Type} {f : α → Except PyError β} {inputs : List α}
    {results : List β} :
    inputs.mapM f = .ok results ↔
      List.Forall₂ (fun input result => f input = .ok result) inputs results := by
  induction inputs generalizing results with
  | nil =>
      rw [List.mapM_nil, List.forall₂_nil_left_iff]
      exact ⟨fun same => (Except.ok.inj same).symm, fun same => congrArg Except.ok same.symm⟩
  | cons input inputs ih =>
      rw [List.mapM_cons, Except.bind_ok_iff, List.forall₂_cons_left_iff]
      constructor
      · rintro ⟨first, done, ended⟩
        obtain ⟨rest, others, same⟩ := Except.bind_ok_iff.mp ended
        exact ⟨first, rest, done, ih.mp others, (Except.ok.inj same).symm⟩
      · rintro ⟨first, rest, done, others, rfl⟩
        exact ⟨first, done, Except.bind_ok_iff.mpr ⟨rest, ih.mpr others, rfl⟩⟩

theorem Except.of_mem_mapM {α β : Type} {f : α → Except PyError β} {inputs : List α}
    {results : List β} (done : inputs.mapM f = .ok results) {result : β}
    (member : result ∈ results) : ∃ input ∈ inputs, f input = .ok result := by
  induction Except.mapM_ok_iff.mp done with
  | nil => cases member
  | cons first others ih =>
      rcases List.mem_cons.mp member with rfl | later
      · exact ⟨_, List.mem_cons_self, first⟩
      · obtain ⟨input, inInputs, same⟩ := ih (Except.mapM_ok_iff.mpr others) later
        exact ⟨input, List.mem_cons_of_mem _ inInputs, same⟩

/-! ## `str.strip` -/

/-- `str.isspace` of one character. -/
def isSpace (c : Char) : Bool :=
  let n := c.toNat
  (9 ≤ n && n ≤ 13) || (28 ≤ n && n ≤ 32) || n == 0x85 || n == 0xA0 || n == 0x1680 ||
    (0x2000 ≤ n && n ≤ 0x200A) || n == 0x2028 || n == 0x2029 || n == 0x202F ||
    n == 0x205F || n == 0x3000

/-- Where `str.splitlines` breaks. -/
def isLineBreak (c : Char) : Bool :=
  let n := c.toNat
  (10 ≤ n && n ≤ 13) || (28 ≤ n && n ≤ 30) || n == 0x85 || n == 0x2028 || n == 0x2029

def strip (text : String) : String :=
  String.ofList ((text.toList.dropWhile isSpace).rdropWhile isSpace)

/-- `str.strip` of a list of characters. -/
def stripChars (text : List Char) : List Char := (text.dropWhile isSpace).rdropWhile isSpace

theorem dropWhile_rdropWhile_dropWhile (p : Char → Bool) (chars : List Char) :
    ((chars.dropWhile p).rdropWhile p).dropWhile p = (chars.dropWhile p).rdropWhile p := by
  cases trimmed : chars.dropWhile p with
  | nil => rfl
  | cons head rest =>
      have keeps : p head = false := by
        have nonempty : chars.dropWhile p ≠ [] := by simp [trimmed]
        have first := List.head_dropWhile_not p nonempty
        simpa [trimmed] using first
      cases both : (head :: rest).rdropWhile p with
      | nil => rfl
      | cons next tail =>
          have isPrefix : next :: tail <+: head :: rest := by
            rw [← both]
            exact List.rdropWhile_prefix p _
          have same : next = head := (List.cons_prefix_cons.mp isPrefix).1
          subst same
          simp [keeps]

@[simp] theorem strip_strip (text : String) : strip (strip text) = strip text := by
  unfold strip
  rw [String.toList_ofList, dropWhile_rdropWhile_dropWhile, List.rdropWhile_idempotent]

/-! ## SHA-256 -/

def hexDigits : List Char := "0123456789abcdef".toList

structure Sha256 where
  /-- `hashlib.sha256(data).hexdigest()` -/
  hexdigest : List UInt8 → String
  /-- `hashlib.sha256(text.encode()).hexdigest()[:24]` -/
  hexdigest24 : String → String
  hexdigest_injective : Function.Injective hexdigest
  hexdigest24_injective : Function.Injective hexdigest24
  hexdigest_hex : ∀ data, ∀ c ∈ (hexdigest data).toList, c ∈ hexDigits
  hexdigest24_hex : ∀ text, ∀ c ∈ (hexdigest24 text).toList, c ∈ hexDigits
  hexdigest24_ne_empty : ∀ text, hexdigest24 text ≠ ""

theorem not_isSpace_of_mem_hexDigits {c : Char} (hex : c ∈ hexDigits) : isSpace c = false := by
  have none : (hexDigits.any isSpace) = false := by decide
  exact Bool.not_eq_true _ ▸ List.any_eq_false.mp none c hex

theorem strip_eq_of_hex {text : String} (hex : ∀ c ∈ text.toList, c ∈ hexDigits) :
    strip text = text := by
  have noSpace : ∀ c ∈ text.toList, isSpace c = false := by
    intro c member
    exact not_isSpace_of_mem_hexDigits (hex c member)
  have left : text.toList.dropWhile isSpace = text.toList := by
    rw [List.dropWhile_eq_self_iff]
    intro nonempty
    simp [noSpace _ (List.getElem_mem nonempty)]
  have right : text.toList.rdropWhile isSpace = text.toList := by
    rw [List.rdropWhile_eq_self_iff]
    intro nonempty
    simp [noSpace _ (List.getLast_mem nonempty)]
  rw [strip, left, right, String.ofList_toList]

theorem Sha256.strip_hexdigest24 (hash : Sha256) (text : String) :
    strip (hash.hexdigest24 text) = hash.hexdigest24 text :=
  strip_eq_of_hex (hash.hexdigest24_hex text)

/-! ### The digest that spells its input -/

/-- `width` hexadecimal digits of `n`, least significant first. -/
def spellNat : Nat → Nat → List Char
  | 0, _ => []
  | width + 1, n => hexDigits.getD (n % 16) '0' :: spellNat width (n / 16)

theorem length_spellNat (width n : Nat) : (spellNat width n).length = width := by
  induction width generalizing n with
  | zero => rfl
  | succ width ih => simp only [spellNat, List.length_cons, ih]

theorem spellNat_hex (width n : Nat) : ∀ c ∈ spellNat width n, c ∈ hexDigits := by
  induction width generalizing n with
  | zero => intro c member; cases member
  | succ width ih =>
      intro c member
      rcases List.mem_cons.mp member with rfl | rest
      · have digits : ∀ digit < 16, hexDigits.getD digit '0' ∈ hexDigits := by decide
        exact digits (n % 16) (Nat.mod_lt n (by decide))
      · exact ih (n / 16) c rest

theorem spellNat_injective (width left right : Nat) (leftSmall : left < 16 ^ width)
    (rightSmall : right < 16 ^ width) (same : spellNat width left = spellNat width right) :
    left = right := by
  induction width generalizing left right with
  | zero => omega
  | succ width ih =>
      simp only [spellNat, List.cons.injEq] at same
      rw [Nat.pow_succ] at leftSmall rightSmall
      have digits : ∀ a < 16, ∀ b < 16,
          hexDigits.getD a '0' = hexDigits.getD b '0' → a = b := by decide
      have low := digits (left % 16) (Nat.mod_lt _ (by decide)) (right % 16)
        (Nat.mod_lt _ (by decide)) same.1
      have high := ih (left / 16) (right / 16) (by omega) (by omega) same.2
      omega

/-- Fixed-width spelling of a list is injective. -/
theorem flatMap_spellNat_injective {α : Type} (width : Nat) (value : α → Nat)
    (small : ∀ a, value a < 16 ^ width) (inj : Function.Injective value) (pos : 0 < width) :
    Function.Injective fun list : List α => list.flatMap fun a => spellNat width (value a) := by
  intro left right same
  induction left generalizing right with
  | nil =>
      cases right with
      | nil => rfl
      | cons head rest =>
          have lengths := congrArg List.length same
          simp only [List.flatMap_nil, List.flatMap_cons, List.length_nil, List.length_append,
            length_spellNat] at lengths
          omega
  | cons head rest ih =>
      cases right with
      | nil =>
          have lengths := congrArg List.length same
          simp only [List.flatMap_nil, List.flatMap_cons, List.length_nil, List.length_append,
            length_spellNat] at lengths
          omega
      | cons next tail =>
          simp only [List.flatMap_cons] at same
          have parts := List.append_inj same (by simp only [length_spellNat])
          have headEq := inj (spellNat_injective width _ _ (small head) (small next) parts.1)
          rw [headEq, ih parts.2]

/-- A digest that spells its input: the identity of bytes and text, in hexadecimal. -/
def Sha256.spelling : Sha256 where
  hexdigest data := String.ofList (data.flatMap fun byte => spellNat 2 byte.toNat)
  hexdigest24 text := String.ofList ('0' :: text.toList.flatMap fun c => spellNat 6 c.toNat)
  hexdigest_injective := by
    intro left right same
    have small : ∀ byte : UInt8, byte.toNat < 16 ^ 2 := fun byte => byte.toNat_lt
    refine flatMap_spellNat_injective 2 UInt8.toNat small ?_ (by decide)
      (String.ofList_injective same)
    intro a b eq
    exact UInt8.toNat_inj.mp eq
  hexdigest24_injective := by
    intro left right same
    have small : ∀ c : Char, c.toNat < 16 ^ 6 := by
      intro c
      have valid := c.valid
      simp only [UInt32.isValidChar, Nat.isValidChar] at valid
      simp only [Char.toNat]
      omega
    have lists := (List.cons.inj (String.ofList_injective same)).2
    have charEq := flatMap_spellNat_injective 6 Char.toNat small
      (fun a b eq => Char.toNat_inj.mp eq) (by decide) lists
    exact String.toList_injective charEq
  hexdigest_hex := by
    intro data c member
    simp only [String.toList_ofList, List.mem_flatMap] at member
    obtain ⟨byte, _, spelled⟩ := member
    exact spellNat_hex 2 _ c spelled
  hexdigest24_hex := by
    intro text c member
    simp only [String.toList_ofList, List.mem_cons, List.mem_flatMap] at member
    rcases member with rfl | ⟨_, _, spelled⟩
    · decide
    · exact spellNat_hex 6 _ c spelled
  hexdigest24_ne_empty := by
    intro text same
    have lists := congrArg String.toList same
    simp at lists

end ProductionRag
