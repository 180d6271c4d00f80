import ProductionRag.Observability.Metrics

/-!
# Printed counts

The registry adds exactly as long as its totals stay below `2 ^ 53`, so a printed number differs
from what was counted only by its rounding to six digits.
-/

set_option autoImplicit false

namespace ProductionRag

open Basis

/-! ## What the calls say -/

namespace MetricsCall

/-- What the call adds to a counter series. -/
def amount (name : String) (key : Labels) : MetricsCall → Option ℚ
  | inc name' _ value labels =>
    if name' = name ∧ sortedLabels labels = key then some value else none
  | observeLatency _ _ => none

/-- The latency the call adds to a series. -/
def latency (key : Labels) : MetricsCall → Option ℚ
  | inc _ _ _ _ => none
  | observeLatency seconds labels => if sortedLabels labels = key then some seconds else none

end MetricsCall

def amounts (calls : List MetricsCall) (name : String) (key : Labels) : List ℚ :=
  calls.filterMap (MetricsCall.amount name key)

def latencies (calls : List MetricsCall) (key : Labels) : List ℚ :=
  calls.filterMap (MetricsCall.latency key)

/-- The number a line about the series is meant to show. -/
def Series.total (calls : List MetricsCall) : Series → ℚ
  | counter name key => (amounts calls name key).sum
  | bucket key bound => (latencies calls key).countP (· ≤ bound)
  | infinite key => (latencies calls key).length
  | sum key => (latencies calls key).sum
  | count key => (latencies calls key).length

/-- Some call is about the series. -/
def Series.Used (calls : List MetricsCall) : Series → Prop
  | counter name key => amounts calls name key ≠ []
  | bucket key bound => bound ∈ latencyBuckets ∧ latencies calls key ≠ []
  | infinite key => latencies calls key ≠ []
  | sum key => latencies calls key ≠ []
  | count key => latencies calls key ≠ []

/-- Everything but the sum of the latencies is a count. -/
def Series.Counts : Series → Prop
  | sum _ => False
  | _ => True

/-! ## What the registry holds -/

/-- `count` additions of one. -/
def tally : ℕ → ℚ
  | 0 => 0
  | count + 1 => addDouble (tally count) 1

def addAmount (total value : ℚ) : ℚ := addDouble total (toDouble value)

theorem foldl_upsert {α β : Type} (f : β → α → β) (first : β) (values : List α) :
    values.foldl (fun stored value => some (f (stored.getD first) value)) none =
      if values = [] then none else some (values.foldl f first) := by
  induction values using List.reverseRecOn with
  | nil => rfl
  | append_singleton values value ih =>
      rw [List.foldl_append, ih, List.foldl_append]
      by_cases empty : values = []
      · subst empty
        rfl
      · simp [empty]

namespace Metrics

def counter (metrics : Metrics) (name : String) (key : Labels) : Option ℚ :=
  (metrics.counters.find? name).bind fun series => series.find? key

theorem counter_inc (metrics : Metrics) (name helpText : String) (value : ℚ) (labels : Labels)
    (name' : String) (key : Labels) :
    (metrics.inc name helpText value labels).counter name' key =
      if name = name' ∧ sortedLabels labels = key then
        some (addAmount ((metrics.counter name' key).getD 0) value)
      else metrics.counter name' key := by
  simp only [counter, inc, Table.find?_set]
  by_cases sameName : name' = name
  · subst sameName
    by_cases sameKey : key = sortedLabels labels
    · subst sameKey
      cases found : metrics.counters.find? name' <;>
        simp [addAmount, Table.find?_set]
    · have otherKey : sortedLabels labels ≠ key := fun same => sameKey same.symm
      cases found : metrics.counters.find? name' <;>
        simp [Table.find?_set, sameKey, otherKey]
  · have otherName : name ≠ name' := fun same => sameName same.symm
    simp [sameName, otherName]

theorem after_append (calls : List MetricsCall) (call : MetricsCall) :
    after (calls ++ [call]) = (after calls).apply call := by
  rw [after, List.foldl_append]
  rfl

theorem counter_after (calls : List MetricsCall) (name : String) (key : Labels) :
    (after calls).counter name key =
      if amounts calls name key = [] then none
      else some ((amounts calls name key).foldl addAmount 0) := by
  rw [← foldl_upsert]
  induction calls using List.reverseRecOn with
  | nil => rfl
  | append_singleton calls call ih =>
      rw [after_append, amounts, List.filterMap_append, List.foldl_append, ← amounts, ← ih]
      cases call with
      | inc name' helpText value labels =>
          rw [apply, counter_inc]
          by_cases same : name' = name ∧ sortedLabels labels = key
          · simp [MetricsCall.amount, same]
          · simp [MetricsCall.amount, same]
      | observeLatency seconds labels => rfl

theorem histogram_after (calls : List MetricsCall) (key : Labels) :
    (after calls).histogram.find? key =
      if latencies calls key = [] then none
      else some ((latencies calls key).foldl LatencySeries.observe .zero) := by
  rw [← foldl_upsert]
  induction calls using List.reverseRecOn with
  | nil => rfl
  | append_singleton calls call ih =>
      rw [after_append, latencies, List.filterMap_append, List.foldl_append, ← latencies, ← ih]
      cases call with
      | inc name' helpText value labels => rfl
      | observeLatency seconds labels =>
          simp only [apply, observeLatency, Table.find?_set]
          by_cases same : key = sortedLabels labels
          · subst same
            simp [MetricsCall.latency]
          · have other : sortedLabels labels ≠ key := fun isSame => same isSame.symm
            simp [MetricsCall.latency, same, other]

end Metrics

/-- The series after some observations: every bucket counts those within its bound. -/
theorem observed_eq (seconds : List ℚ) :
    (seconds.foldl LatencySeries.observe .zero).buckets =
        latencyBuckets.map (fun bound => tally (seconds.countP (· ≤ bound))) ∧
      (seconds.foldl LatencySeries.observe .zero).count = tally seconds.length := by
  induction seconds using List.reverseRecOn with
  | nil => exact ⟨rfl, rfl⟩
  | append_singleton seconds last ih =>
      obtain ⟨buckets, count⟩ := ih
      rw [List.foldl_append, List.foldl_cons, List.foldl_nil]
      refine ⟨?_, ?_⟩
      · simp only [LatencySeries.observe, buckets, List.zipWith_map_right, List.zipWith_self]
        refine List.map_congr_left fun bound _ => ?_
        rw [List.countP_append, List.countP_singleton]
        by_cases within : last ≤ bound
        · simp [within, tally]
        · simp [within]
      · simp only [LatencySeries.observe, count, List.length_append, List.length_singleton, tally]

/-! ## What is printed -/

/-- The number on the line of a series. -/
def Series.printed (calls : List MetricsCall) : Series → String
  | counter name key => formatG ((amounts calls name key).foldl addAmount 0)
  | bucket key bound => formatG (tally ((latencies calls key).countP (· ≤ bound)))
  | infinite key => formatG (tally (latencies calls key).length)
  | sum key => formatF ((latencies calls key).foldl LatencySeries.observe .zero).sum
  | count key => formatG (tally (latencies calls key).length)

theorem mem_sortedItems {V : Type} {series : Table Labels V} {key : Labels} {value : V} :
    (key, value) ∈ sortedItems series ↔ series.find? key = some value := by
  rw [sortedItems, List.mem_insertionSort, Table.find?_eq_some_iff]

/-- What the lines of one series of latencies are about. -/
def Series.ofLatency (key : Labels) : List Series :=
  latencyBuckets.map (.bucket key) ++ [.infinite key, .sum key, .count key]

theorem latencyLines_eq (calls : List MetricsCall) (key : Labels) :
    ((latencies calls key).foldl LatencySeries.observe .zero).lines key =
      (Series.ofLatency key).map fun series => .sample series (series.printed calls) := by
  obtain ⟨buckets, count⟩ := observed_eq (latencies calls key)
  rw [LatencySeries.lines, buckets, count, List.zipWith_map_right, List.zipWith_self,
    Series.ofLatency, List.map_append, List.map_map]
  rfl

theorem mem_ofLatency {key : Labels} {series : Series} :
    series ∈ Series.ofLatency key ↔
      (∃ bound ∈ latencyBuckets, series = .bucket key bound) ∨
        series = .infinite key ∨ series = .sum key ∨ series = .count key := by
  simp only [Series.ofLatency, List.mem_append, List.mem_map, List.mem_cons, List.not_mem_nil,
    or_false, eq_comm (a := series)]

theorem storedLines_eq {calls : List MetricsCall} {key : Labels} {stored : LatencySeries}
    (found : (Metrics.after calls).histogram.find? key = some stored) :
    stored.lines key =
        (Series.ofLatency key).map (fun series => .sample series (series.printed calls)) ∧
      latencies calls key ≠ [] := by
  rw [Metrics.histogram_after] at found
  split at found
  · cases found
  · rename_i observed
    exact ⟨by rw [← Option.some.inj found, latencyLines_eq], observed⟩

theorem Metrics.counter_eq (metrics : Metrics) (name : String) (key : Labels) :
    ((metrics.counters.find? name).getD .empty).find? key = metrics.counter name key := by
  rw [counter]
  cases metrics.counters.find? name <;> rfl

theorem sample_mem_counterLines {calls : List MetricsCall} {name : String} {series : Series}
    {number : String} :
    .sample series number ∈ (Metrics.after calls).counterLines name ↔
      ∃ key, series = .counter name key ∧ amounts calls name key ≠ [] ∧
        number = series.printed calls := by
  have lookup : ∀ key value,
      (key, value) ∈ sortedItems (((Metrics.after calls).counters.find? name).getD .empty) ↔
        amounts calls name key ≠ [] ∧ (amounts calls name key).foldl addAmount 0 = value := by
    intro key value
    rw [mem_sortedItems, Metrics.counter_eq, Metrics.counter_after]
    split <;> simp [*]
  simp only [Metrics.counterLines, List.mem_cons, reduceCtorEq, false_or, List.mem_map, Prod.exists,
    lookup, MetricsLine.sample.injEq]
  constructor
  · rintro ⟨key, value, ⟨used, rfl⟩, rfl, rfl⟩
    exact ⟨key, rfl, used, rfl⟩
  · rintro ⟨key, rfl, used, rfl⟩
    exact ⟨key, _, ⟨used, rfl⟩, rfl, rfl⟩

/-- The registry prints one number for each series that was used. -/
theorem sample_mem_lines {calls : List MetricsCall} {series : Series} {number : String} :
    .sample series number ∈ (Metrics.after calls).lines ↔
      series.Used calls ∧ number = series.printed calls := by
  have counters : .sample series number ∈
      ((Metrics.after calls).counters.keys.insertionSort (· ≤ ·)).flatMap
        (Metrics.after calls).counterLines ↔
      ∃ name key, series = .counter name key ∧ amounts calls name key ≠ [] ∧
        number = series.printed calls := by
    simp only [List.mem_flatMap, List.mem_insertionSort, sample_mem_counterLines]
    constructor
    · rintro ⟨name, _, shown⟩
      exact ⟨name, shown⟩
    · rintro ⟨name, key, same, used, shown⟩
      refine ⟨name, ?_, key, same, used, shown⟩
      have stored := Metrics.counter_after calls name key
      rw [if_neg used, Metrics.counter, Option.bind_eq_some_iff] at stored
      obtain ⟨counters, found, _⟩ := stored
      exact Table.mem_keys_of_mem (Table.find?_eq_some_iff.mp found)
  have histogram : .sample series number ∈
      ((sortedItems (Metrics.after calls).histogram).flatMap fun item => item.2.lines item.1) ↔
      ∃ key, series ∈ Series.ofLatency key ∧ latencies calls key ≠ [] ∧
        number = series.printed calls := by
    simp only [List.mem_flatMap]
    constructor
    · rintro ⟨⟨key, stored⟩, item, shown⟩
      obtain ⟨lines, used⟩ := storedLines_eq (mem_sortedItems.mp item)
      rw [lines, List.mem_map] at shown
      obtain ⟨_, member, same⟩ := shown
      cases same
      exact ⟨key, member, used, rfl⟩
    · rintro ⟨key, member, used, rfl⟩
      have stored := Metrics.histogram_after calls key
      rw [if_neg used] at stored
      refine ⟨(key, _), mem_sortedItems.mpr stored, ?_⟩
      rw [latencyLines_eq]
      exact List.mem_map.mpr ⟨series, member, rfl⟩
  rw [Metrics.lines, List.mem_append, List.mem_cons, List.mem_cons, counters, histogram]
  simp only [reduceCtorEq, false_or, mem_ofLatency]
  cases series <;> simp [Series.Used, and_assoc]

/-! ## Totals below `2 ^ 53` -/

theorem toDouble_int {n : ℤ} (small : |n| < 2 ^ 53) : toDouble n = n :=
  roundDigits_of_hasDigits (by decide) roundHalfEven_rounds (hasDigits_of_lt small)

theorem tally_eq {count : ℕ} (small : count < 2 ^ 53) : tally count = count := by
  induction count with
  | zero => rfl
  | succ count ih =>
      have sum : (count : ℚ) + 1 = ((count + 1 : ℤ) : ℚ) := by push_cast; rfl
      rw [tally, ih (by omega), addDouble, sum, toDouble_int]
      · push_cast
        rfl
      · rw [abs_of_nonneg (by omega)]
        exact_mod_cast small

/-- Integer amounts that floats add exactly: neither an amount nor a running total is too large. -/
structure Representable (amounts : List ℚ) : Prop where
  integral : ∀ value ∈ amounts, ∃ n : ℤ, value = n ∧ |n| < 2 ^ 53
  totals : ∀ first, first <+: amounts → |first.sum| < 2 ^ 53

theorem foldl_addAmount {amounts : List ℚ} (representable : Representable amounts) :
    amounts.foldl addAmount 0 = amounts.sum ∧ ∃ n : ℤ, amounts.sum = n := by
  induction amounts using List.reverseRecOn with
  | nil => exact ⟨rfl, 0, by simp⟩
  | append_singleton amounts value ih =>
      obtain ⟨integral, totals⟩ := representable
      obtain ⟨before, n, isInt⟩ := ih
        ⟨fun other member => integral other (List.mem_append_left _ member),
          fun first isPrefix => totals first (isPrefix.trans (List.prefix_append _ _))⟩
      obtain ⟨m, rfl, small⟩ := integral value (by simp)
      have sum : (amounts ++ [(m : ℚ)]).sum = ((n + m : ℤ) : ℚ) := by
        rw [List.sum_append, isInt, List.sum_singleton]
        push_cast
        rfl
      have total : |n + m| < 2 ^ 53 := by
        have bound := totals _ List.prefix_rfl
        rw [sum] at bound
        exact_mod_cast bound
      refine ⟨?_, n + m, sum⟩
      rw [List.foldl_append, before, List.foldl_cons, List.foldl_nil, addAmount, toDouble_int small,
        sum, addDouble, isInt, ← Int.cast_add, toDouble_int total]

/-- The series is printed, and every number printed for it is `x`. -/
def Metrics.Prints (metrics : Metrics) (series : Series) (x : ℚ) : Prop :=
  (∃ number, .sample series number ∈ metrics.lines) ∧
    ∀ number, .sample series number ∈ metrics.lines → readNumber number.toList = some x

theorem readNumber_formatG (x : ℚ) :
    readNumber (formatG x).toList = some (roundDigits 10 6 roundHalfEven x) := by
  rw [formatG, String.toList_ofList, readNumber_generalText]

section Totals

variable {calls : List MetricsCall}

/-- What is counted is printed to six digits. -/
theorem prints_rounded (sums : ∀ name key, Representable (amounts calls name key))
    (observed : ∀ key, (latencies calls key).length < 2 ^ 53) {series : Series}
    (counts : series.Counts) (used : series.Used calls) {x : ℚ} :
    (Metrics.after calls).Prints series x ↔
      roundDigits 10 6 roundHalfEven (series.total calls) = x := by
  have shown : series.printed calls = formatG (series.total calls) := by
    cases series with
    | counter name key => rw [Series.printed, (foldl_addAmount (sums name key)).1, Series.total]
    | bucket key bound =>
        have within : (latencies calls key).countP (· ≤ bound) < 2 ^ 53 :=
          Nat.lt_of_le_of_lt List.countP_le_length (observed key)
        rw [Series.printed, tally_eq within, Series.total]
    | infinite key => rw [Series.printed, tally_eq (observed key), Series.total]
    | sum key => exact counts.elim
    | count key => rw [Series.printed, tally_eq (observed key), Series.total]
  have read : readNumber (series.printed calls).toList =
      some (roundDigits 10 6 roundHalfEven (series.total calls)) := by
    rw [shown, readNumber_formatG]
  simp only [Metrics.Prints, sample_mem_lines, used, true_and, forall_eq, exists_eq, read,
    Option.some.injEq]

/-- Every count is printed exactly when none has more than six digits, zeros at the end apart. -/
theorem rendered_counts_exact_iff (calls : List MetricsCall)
    (sums : ∀ name key, Representable (amounts calls name key))
    (observed : ∀ key, (latencies calls key).length < 2 ^ 53) :
    (∀ series : Series, series.Counts → series.Used calls →
      (Metrics.after calls).Prints series (series.total calls)) ↔
      ∀ series : Series, series.Counts → series.Used calls →
        HasDigits 10 6 (series.total calls) := by
  refine forall₃_congr fun series counts used => ?_
  rw [prints_rounded sums observed counts used,
    roundDigits_eq_self_iff (by decide) (by decide) roundHalfEven_rounds]

end Totals

theorem representable_if {n : ℤ} (small : |n| < 2 ^ 53) (condition : Prop) [Decidable condition] :
    Representable (if condition then [(n : ℚ)] else []) := by
  have bound : |(n : ℚ)| < 2 ^ 53 := by exact_mod_cast small
  split
  · refine ⟨List.forall_mem_singleton.mpr ⟨n, rfl, small⟩, ?_⟩
    intro first isPrefix
    rcases List.prefix_cons_iff.mp isPrefix with rfl | ⟨rest, rfl, isNil⟩
    · simp
    · rw [List.prefix_nil.mp isNil]
      simpa using bound
  · refine ⟨by simp, ?_⟩
    intro first isPrefix
    rw [List.prefix_nil.mp isPrefix]
    simp

/-- One answer of so many tokens, and the request it belongs to. -/
def oneAnswer (tokens : ℤ) : List MetricsCall :=
  [.inc "rag_generation_tokens_total" "Model tokens by model." tokens [("model", "m")],
    .observeLatency 2 [("route", "query")]]

theorem amounts_oneAnswer (tokens : ℤ) (name : String) (key : Labels) :
    amounts (oneAnswer tokens) name key =
      if "rag_generation_tokens_total" = name ∧ [("model", "m")] = key then [(tokens : ℚ)]
      else [] := by
  simp only [amounts, oneAnswer, List.filterMap_cons, MetricsCall.amount, List.filterMap_nil]
  have sorted : sortedLabels [("model", "m")] = [("model", "m")] := rfl
  rw [sorted]
  split_ifs <;> rfl

theorem latencies_oneAnswer (tokens : ℤ) (key : Labels) :
    latencies (oneAnswer tokens) key = if [("route", "query")] = key then [2] else [] := by
  simp only [latencies, oneAnswer, List.filterMap_cons, MetricsCall.latency, List.filterMap_nil]
  have sorted : sortedLabels [("route", "query")] = [("route", "query")] := rfl
  rw [sorted]
  split_ifs <;> rfl

/-- More than a million tokens are printed as `1.23457e+06`. -/
theorem large_total_rounded :
    (∀ name key, Representable (amounts (oneAnswer 1234567) name key)) ∧
      (∀ key, (latencies (oneAnswer 1234567) key).length < 2 ^ 53) ∧
      ¬ (Metrics.after (oneAnswer 1234567)).Prints
        (.counter "rag_generation_tokens_total" [("model", "m")])
        (Series.total (oneAnswer 1234567)
          (.counter "rag_generation_tokens_total" [("model", "m")])) := by
  refine ⟨?_, ?_, ?_⟩
  · intro name key
    rw [amounts_oneAnswer]
    exact representable_if (by decide) _
  · intro key
    rw [latencies_oneAnswer]
    split <;> simp
  · rintro ⟨⟨number, shown⟩, exact⟩
    have read := exact number shown
    rw [(sample_mem_lines.mp shown).2, Series.printed, Series.total, amounts_oneAnswer,
      if_pos ⟨rfl, rfl⟩] at read
    revert read
    decide +kernel

/-- A thousand tokens are printed as they are. -/
theorem small_total_exact :
    (∀ name key, Representable (amounts (oneAnswer 1000) name key)) ∧
      (∀ key, (latencies (oneAnswer 1000) key).length < 2 ^ 53) ∧
      ∀ series : Series, series.Counts → series.Used (oneAnswer 1000) →
        (Metrics.after (oneAnswer 1000)).Prints series (series.total (oneAnswer 1000)) := by
  have sums : ∀ name key, Representable (amounts (oneAnswer 1000) name key) := by
    intro name key
    rw [amounts_oneAnswer]
    exact representable_if (by decide) _
  have lengths : ∀ key, (latencies (oneAnswer 1000) key).length ≤ 1 := by
    intro key
    rw [latencies_oneAnswer]
    split <;> simp
  have observed : ∀ key, (latencies (oneAnswer 1000) key).length < 2 ^ 53 := fun key =>
    Nat.lt_of_le_of_lt (lengths key) (by norm_num)
  have few : ∀ count : ℕ, count ≤ 1 → HasDigits 10 6 (count : ℚ) := by
    intro count below
    have small : |(count : ℤ)| < 10 ^ 6 := by
      rw [abs_of_nonneg (by omega)]
      omega
    exact_mod_cast hasDigits_of_lt small
  refine ⟨sums, observed, (rendered_counts_exact_iff (oneAnswer 1000) sums observed).mpr ?_⟩
  intro series counts used
  cases series with
  | counter name key =>
      rw [Series.total, amounts_oneAnswer]
      split
      · have small : |(1000 : ℤ)| < 10 ^ 6 := by decide
        simpa using hasDigits_of_lt small
      · simpa using few 0 (by decide)
  | bucket key bound => exact few _ (List.countP_le_length.trans (lengths key))
  | infinite key => exact few _ (lengths key)
  | sum key => exact counts.elim
  | count key => exact few _ (lengths key)

end ProductionRag
