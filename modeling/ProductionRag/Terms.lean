import Mathlib.Algebra.Order.Field.Rat
import Mathlib.Data.Finset.Dedup
import ProductionRag.Words

/-!
# Terms of a text

The scores look at a text as the set of its lower-case words, in letters and digits of ASCII.
-/

set_option autoImplicit false

namespace ProductionRag

open Basis

/-- `[a-zA-Z0-9]+`, the pattern of `TOKEN_RE` and `TERM_RE`. -/
def tokenRe : Regex Char := .plus (.char Char.isAlphanum)

/-- `TOKEN_RE.findall(text.lower())`, `str.lower` being given. -/
def tokens (lower : String → String) (text : String) : List String :=
  (tokenRe.findAll (lower text).toList).map String.ofList

/-- The part of the terms of a question that a text has. -/
def overlap (lower : String → String) (question text : String) : ℚ :=
  let queryTerms := (tokens lower question).toFinset
  let chunkTerms := (tokens lower text).toFinset
  (queryTerms ∩ chunkTerms).card / (max queryTerms.card 1 : ℕ)

theorem overlap_nonneg (lower : String → String) (question text : String) :
    0 ≤ overlap lower question text :=
  div_nonneg (Nat.cast_nonneg _) (Nat.cast_nonneg _)

theorem overlap_le_one (lower : String → String) (question text : String) :
    overlap lower question text ≤ 1 := by
  have few : ((tokens lower question).toFinset ∩ (tokens lower text).toFinset).card ≤
      (tokens lower question).toFinset.card :=
    Finset.card_le_card Finset.inter_subset_left
  exact div_le_one_of_le₀ (Nat.cast_le.mpr (few.trans (le_max_left _ _))) (Nat.cast_nonneg _)

end ProductionRag
