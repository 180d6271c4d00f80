import ProductionRag.Basis.Fitting
import ProductionRag.Digits

/-!
# What fits into a prompt

Sources are kept in rank order and turns from the latest back, while the estimated
tokens fit.
-/

set_option autoImplicit false

namespace ProductionRag

open Basis

structure ChatTurn where
  role : String
  content : String
  deriving DecidableEq, Repr

/-- About four characters a token. -/
def estimateTokens (text : String) : Nat := max 1 ((text.length + 3) / 4)

structure Budget where
  maxContextTokens : Int := 3000
  maxHistoryTokens : Int := 1000
  deriving DecidableEq, Repr

namespace Budget

/-- The loop of `pack_context` once a source is packed. -/
def packMore (budget : Budget) (used : Int) : List String → List String
  | [] => []
  | text :: rest =>
    if budget.maxContextTokens < used + estimateTokens text then []
    else text :: budget.packMore (used + estimateTokens text) rest

/-- Sources in rank order while they fit; the best one is cut rather than dropped. -/
def packContext (budget : Budget) : List String → List String
  | [] => []
  | text :: rest =>
    if budget.maxContextTokens < estimateTokens text then
      sliceTo text (budget.maxContextTokens * 4) ::
        budget.packMore budget.maxContextTokens rest
    else text :: budget.packMore (estimateTokens text) rest

/-- The latest turns that fit, given from the latest back. -/
def keepTurns (budget : Budget) (used : Int) : List ChatTurn → List ChatTurn
  | [] => []
  | turn :: rest =>
    if budget.maxHistoryTokens < used + estimateTokens turn.content then []
    else turn :: budget.keepTurns (used + estimateTokens turn.content) rest

def trimHistory (budget : Budget) (history : List ChatTurn) : List ChatTurn :=
  (budget.keepTurns 0 history.reverse).reverse

/-! ## What is left out is left out from the end -/

theorem packMore_eq_fitting (budget : Budget) (used : Int) (context : List String) :
    budget.packMore used context =
      fitting (fun text => (estimateTokens text : Int)) budget.maxContextTokens used context := by
  induction context generalizing used with
  | nil => rfl
  | cons text rest ih => simp only [packMore, fitting, ih]

theorem packMore_prefix (budget : Budget) (used : Int) (context : List String) :
    budget.packMore used context <+: context := by
  rw [packMore_eq_fitting]
  exact fitting_starts used context

theorem packContext_length_le (budget : Budget) (context : List String) :
    (budget.packContext context).length ≤ context.length := by
  cases context with
  | nil => exact Nat.le_refl _
  | cons text rest =>
      simp only [packContext]
      split
      · exact Nat.succ_le_succ (budget.packMore_prefix _ rest).length_le
      · exact Nat.succ_le_succ (budget.packMore_prefix _ rest).length_le

/-- The estimated tokens of the texts. -/
def tokens (texts : List String) : Int := (texts.map fun text => (estimateTokens text : Int)).sum

theorem tokens_cons (text : String) (rest : List String) :
    tokens (text :: rest) = estimateTokens text + tokens rest := by
  rw [tokens, List.map_cons, List.sum_cons, tokens]

theorem estimateTokens_pos (text : String) : 0 < estimateTokens text := Nat.le_max_left _ _

theorem tokens_pos {texts : List String} (some : texts ≠ []) : 0 < tokens texts := by
  induction texts with
  | nil => exact absurd rfl some
  | cons text rest ih =>
      have first := estimateTokens_pos text
      rw [tokens_cons]
      by_cases last : rest = []
      · rw [last, tokens, List.map_nil, List.sum_nil]
        omega
      · have others := ih last
        omega

theorem packMore_all_iff (budget : Budget) (used : Int) (context : List String) :
    (budget.packMore used context).length = context.length ↔
      context = [] ∨ used + tokens context ≤ budget.maxContextTokens := by
  induction context generalizing used with
  | nil => simp [packMore]
  | cons text rest ih =>
      have others : rest = [] ∨ 0 < tokens rest := (em (rest = [])).imp_right tokens_pos
      simp only [packMore, tokens_cons, reduceCtorEq, false_or]
      split
      · rename_i full
        have more : 0 ≤ tokens rest := by
          rcases others with rfl | more
          · exact Int.le_refl 0
          · exact Int.le_of_lt more
        constructor
        · intro wrong
          cases wrong
        · intro fits
          omega
      · rename_i fits
        rw [List.length_cons, List.length_cons, Nat.add_right_cancel_iff, ih]
        constructor
        · rintro (rfl | all)
          · rw [tokens, List.map_nil, List.sum_nil]
            omega
          · omega
        · intro all
          exact Or.inr (by omega)

/-- All sources are packed when there is only one, or when all of them fit. -/
theorem packContext_all_iff (budget : Budget) (context : List String) :
    (budget.packContext context).length = context.length ↔
      context.length ≤ 1 ∨ tokens context ≤ budget.maxContextTokens := by
  cases context with
  | nil => simp [packContext]
  | cons text rest =>
      have single : (text :: rest).length ≤ 1 ↔ rest = [] := by
        rw [List.length_cons, ← List.length_eq_zero_iff]
        omega
      rw [single, tokens_cons]
      simp only [packContext]
      split
      · rename_i oversized
        rw [List.length_cons, List.length_cons, Nat.add_right_cancel_iff, packMore_all_iff]
        refine or_congr_right' fun some => ?_
        have more := tokens_pos some
        constructor
        · intro fits
          omega
        · intro fits
          omega
      · rw [List.length_cons, List.length_cons, Nat.add_right_cancel_iff, packMore_all_iff]

theorem packContext_ne_nil (budget : Budget) {context : List String} (some : context ≠ []) :
    budget.packContext context ≠ [] := by
  cases context with
  | nil => exact absurd rfl some
  | cons text rest =>
      simp only [packContext]
      split <;> exact List.cons_ne_nil _ _

theorem keepTurns_eq_fitting (budget : Budget) (used : Int) (turns : List ChatTurn) :
    budget.keepTurns used turns =
      fitting (fun turn => (estimateTokens turn.content : Int)) budget.maxHistoryTokens used
        turns := by
  induction turns generalizing used with
  | nil => rfl
  | cons turn rest ih => simp only [keepTurns, fitting, ih]

theorem keepTurns_prefix (budget : Budget) (used : Int) (turns : List ChatTurn) :
    budget.keepTurns used turns <+: turns := by
  rw [keepTurns_eq_fitting]
  exact fitting_starts used turns

theorem trimHistory_suffix (budget : Budget) (history : List ChatTurn) :
    budget.trimHistory history <:+ history := by
  have kept := budget.keepTurns_prefix 0 history.reverse
  rw [← List.reverse_suffix, List.reverse_reverse] at kept
  exact kept

end Budget

end ProductionRag
