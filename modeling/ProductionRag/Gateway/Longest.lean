import ProductionRag.Gateway.Budget

/-!
# Budgets keep as much as fits

What `pack_context` packs is the start of the sources, as much of it as fits; what
`trim_history` keeps is the end of the history.
-/

set_option autoImplicit false

namespace ProductionRag

open Basis

namespace Budget

/-- Position by position the start of the sources; the first one may be shortened when it
alone is too long. -/
inductive Starts (budget : Budget) : List String → List String → Prop
  | whole {context packed : List String} (isPrefix : packed <+: context) :
      Starts budget context packed
  | cut {text short : String} {rest others : List String}
      (oversized : budget.maxContextTokens < estimateTokens text)
      (isShort : short.toList <+: text.toList) (isPrefix : others <+: rest) :
      Starts budget (text :: rest) (short :: others)

def characters (texts : List String) : Nat := (texts.map String.length).sum

/-- The longest start of the sources that fits: no other that fits holds more text, and none
that keeps as much of the first source holds more sources. -/
structure Longest (budget : Budget) (context packed : List String) : Prop where
  starts : budget.Starts context packed
  fits : tokens packed ≤ budget.maxContextTokens
  text : ∀ other, budget.Starts context other → tokens other ≤ budget.maxContextTokens →
    characters other ≤ characters packed
  sources : ∀ other, budget.Starts context other → tokens other ≤ budget.maxContextTokens →
    (∀ first ∈ packed.head?, ∀ kept ∈ other.head?, first.length ≤ kept.length) →
    other.length ≤ packed.length

/-- The estimated tokens of the turns. -/
def turnTokens (turns : List ChatTurn) : Int :=
  total (fun turn => estimateTokens turn.content) turns

theorem tokens_eq_total (texts : List String) :
    tokens texts = total (fun text => (estimateTokens text : Int)) texts := by
  induction texts with
  | nil => rfl
  | cons text rest ih => rw [tokens_cons, total_cons, ih]

theorem estimate_nonneg (text : String) : (0 : Int) ≤ estimateTokens text := Int.natCast_nonneg _

theorem estimate_pos (text : String) : (0 : Int) < estimateTokens text := by
  exact_mod_cast estimateTokens_pos text

/-! ## The first source -/

/-- Four characters a token. -/
theorem length_le_estimate (text : String) : text.length ≤ 4 * estimateTokens text := by
  unfold estimateTokens
  omega

theorem characters_le_tokens (texts : List String) :
    (characters texts : Int) ≤ 4 * tokens texts := by
  induction texts with
  | nil => exact Int.le_refl 0
  | cons text rest ih =>
      have first := length_le_estimate text
      have both : characters (text :: rest) = text.length + characters rest := by
        rw [characters, List.map_cons, List.sum_cons, characters]
      rw [both, tokens_cons]
      omega

/-- An oversized source is cut to four characters for each token of the budget. -/
theorem cut_length {budget : Budget} (positive : 1 ≤ budget.maxContextTokens) {text : String}
    (oversized : budget.maxContextTokens < estimateTokens text) :
    ((sliceTo text (budget.maxContextTokens * 4)).length : Int) =
      4 * budget.maxContextTokens := by
  unfold estimateTokens at oversized
  rw [sliceTo, if_pos (by omega), String.length_ofList, List.length_take, String.length_toList]
  omega

/-- The cut source takes up the budget exactly. -/
theorem estimate_cut {budget : Budget} (positive : 1 ≤ budget.maxContextTokens) {text : String}
    (oversized : budget.maxContextTokens < estimateTokens text) :
    (estimateTokens (sliceTo text (budget.maxContextTokens * 4)) : Int) =
      budget.maxContextTokens := by
  have length := cut_length positive oversized
  unfold estimateTokens
  omega

theorem sliceTo_starts (text : String) (stop : Int) :
    (sliceTo text stop).toList <+: text.toList := by
  rw [sliceTo, String.toList_ofList]
  exact List.take_prefix _ _

/-- An oversized first source is packed alone. -/
theorem packContext_oversized {budget : Budget} {text : String}
    (oversized : budget.maxContextTokens < estimateTokens text) (rest : List String) :
    budget.packContext (text :: rest) = [sliceTo text (budget.maxContextTokens * 4)] := by
  rw [packContext, if_pos oversized, packMore_eq_fitting,
    fitting_full estimate_pos (Int.le_refl _)]

/-- When the first source fits, sources are packed while they fit. -/
theorem packContext_fitting {budget : Budget} {context : List String}
    (fits : ∀ text ∈ context.head?, ¬ budget.maxContextTokens < estimateTokens text) :
    budget.packContext context =
      fitting (fun text => (estimateTokens text : Int)) budget.maxContextTokens 0 context := by
  cases context with
  | nil => rfl
  | cons text rest =>
      have first := fits text rfl
      rw [packContext, if_neg first, fitting, if_neg (by simpa using first), packMore_eq_fitting,
        Int.zero_add]

theorem Starts.prefix_of_fits {budget : Budget} {context other : List String}
    (starts : budget.Starts context other)
    (fits : ∀ text ∈ context.head?, ¬ budget.maxContextTokens < estimateTokens text) :
    other <+: context := by
  cases starts with
  | whole isPrefix => exact isPrefix
  | @cut text _ _ _ oversized => exact absurd oversized (fits text rfl)

theorem longest_oversized {budget : Budget} (positive : 1 ≤ budget.maxContextTokens)
    {text : String} (oversized : budget.maxContextTokens < estimateTokens text)
    (rest : List String) :
    budget.Longest (text :: rest) [sliceTo text (budget.maxContextTokens * 4)] where
  starts := .cut oversized (sliceTo_starts _ _) List.nil_prefix
  fits := by
    rw [tokens_cons, estimate_cut positive oversized]
    exact Int.le_of_eq (Int.add_zero _)
  text := by
    intro other _ fits
    have most := characters_le_tokens other
    have length := cut_length positive oversized
    have same : characters [sliceTo text (budget.maxContextTokens * 4)] =
        (sliceTo text (budget.maxContextTokens * 4)).length := Nat.add_zero _
    rw [same]
    omega
  sources := by
    intro other _ fits kept
    cases other with
    | nil => exact Nat.zero_le _
    | cons first others =>
        -- As long as the cut source, the first one leaves no token to the others.
        have long := kept _ rfl first rfl
        have length := cut_length positive oversized
        have most := length_le_estimate first
        have none : others = [] := by
          by_contra some
          have more := tokens_pos some
          rw [tokens_cons] at fits
          omega
        rw [none]
        exact Nat.le_refl _

theorem longest_fitting {budget : Budget} (positive : 1 ≤ budget.maxContextTokens)
    {context : List String}
    (fits : ∀ text ∈ context.head?, ¬ budget.maxContextTokens < estimateTokens text) :
    budget.Longest context
      (fitting (fun text => (estimateTokens text : Int)) budget.maxContextTokens 0 context) := by
  have within : ∀ other, budget.Starts context other →
      tokens other ≤ budget.maxContextTokens →
      other <+: fitting (fun text => (estimateTokens text : Int)) budget.maxContextTokens 0
        context := by
    intro other starts small
    refine prefix_fitting estimate_nonneg (starts.prefix_of_fits fits) ?_
    rwa [Int.zero_add, ← tokens_eq_total]
  constructor
  · exact .whole (fitting_starts _ _)
  · have room : 0 ≤ budget.maxContextTokens := Int.le_trans (by decide) positive
    have small := @fitting_total_le _ (fun text => (estimateTokens text : Int)) _ _ room context
    rwa [Int.zero_add, ← tokens_eq_total] at small
  · intro other starts small
    obtain ⟨more, same⟩ := within other starts small
    rw [← same, characters, characters, List.map_append, List.sum_append]
    exact Nat.le_add_right _ _
  · exact fun other starts small _ => (within other starts small).length_le

/-- `pack_context` keeps the longest start of the sources that fits, and `trim_history` the
longest end of the history. -/
theorem keeps_longest (budget : Budget) (positive : 1 ≤ budget.maxContextTokens)
    (context : List String) (history : List ChatTurn) :
    budget.Longest context (budget.packContext context) ∧
      (context ≠ [] → budget.packContext context ≠ []) ∧
      budget.trimHistory history <:+ history ∧
      ∀ other, other <:+ history → turnTokens other ≤ budget.maxHistoryTokens →
        turnTokens (budget.trimHistory history) ≤ budget.maxHistoryTokens ∧
          other.length ≤ (budget.trimHistory history).length := by
  refine ⟨?_, budget.packContext_ne_nil, budget.trimHistory_suffix history, ?_⟩
  · cases context with
    | nil => exact longest_fitting positive (by simp)
    | cons text rest =>
        by_cases oversized : budget.maxContextTokens < estimateTokens text
        · rw [packContext_oversized oversized]
          exact longest_oversized positive oversized rest
        · have fits : ∀ first ∈ (text :: rest).head?,
              ¬ budget.maxContextTokens < estimateTokens first := by simpa using oversized
          rw [packContext_fitting fits]
          exact longest_fitting positive fits
  · intro other isSuffix small
    have nonneg : ∀ turn : ChatTurn, (0 : Int) ≤ estimateTokens turn.content := fun turn =>
      estimate_nonneg turn.content
    have positive := total_nonneg nonneg other
    rw [trimHistory, keepTurns_eq_fitting, turnTokens, total_reverse, List.length_reverse]
    rw [turnTokens] at small
    constructor
    · have room : 0 ≤ budget.maxHistoryTokens := Int.le_trans positive small
      have within := @fitting_total_le _ (fun turn : ChatTurn =>
        (estimateTokens turn.content : Int)) _ _ room history.reverse
      rwa [Int.zero_add] at within
    · have isPrefix : other.reverse <+: history.reverse := List.reverse_prefix.mpr isSuffix
      have fits : 0 + total (fun turn : ChatTurn => (estimateTokens turn.content : Int))
          other.reverse ≤ budget.maxHistoryTokens := by
        rwa [Int.zero_add, total_reverse]
      exact other.length_reverse ▸ (prefix_fitting nonneg isPrefix fits).length_le

/-- A source of three tokens is cut to two, and leaves no room for the second source. -/
theorem oversized_alone :
    let budget : Budget := { maxContextTokens := 2, maxHistoryTokens := 1 }
    budget.Longest ["123456789", "1"] ["12345678"] ∧
      budget.trimHistory [⟨"user", "12345"⟩, ⟨"assistant", "1"⟩] <:+
        [⟨"user", "12345"⟩, ⟨"assistant", "1"⟩] := by
  intro budget
  obtain ⟨longest, _, isSuffix, _⟩ := keeps_longest budget (by decide) ["123456789", "1"]
    [⟨"user", "12345"⟩, ⟨"assistant", "1"⟩]
  have packed : budget.packContext ["123456789", "1"] = ["12345678"] := by decide +kernel
  exact ⟨packed ▸ longest, isSuffix⟩

end Budget

end ProductionRag
