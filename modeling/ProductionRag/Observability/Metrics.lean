import ProductionRag.Basis.Decimals
import ProductionRag.Basis.Table
import ProductionRag.Gateway.Provider
import Mathlib.Data.List.Sort

/-!
# Metrics

A registry of counters and of one latency histogram, and the text it is scraped as.  Counts are
floats: an addition is rounded to 53 binary digits.  The exponent of a float is not bounded here.
-/

set_option autoImplicit false

namespace ProductionRag

open Basis

/-! ## Floats -/

/-- The nearest float. -/
def toDouble (x : ℚ) : ℚ := roundDigits 2 53 roundHalfEven x

def addDouble (x y : ℚ) : ℚ := toDouble (x + y)

/-- `f"{x:g}"` -/
def formatG (x : ℚ) : String := String.ofList (generalText 6 roundHalfEven x)

/-- `f"{x:.6f}"` -/
def formatF (x : ℚ) : String := String.ofList (fixedText 6 roundHalfEven x)

theorem roundHalfEven_bounds (x : ℚ) :
    x.floor ≤ roundHalfEven x ∧ roundHalfEven x ≤ x.floor + 1 := by
  unfold roundHalfEven
  dsimp only
  split_ifs <;> omega

theorem roundHalfEven_rounds : Rounds roundHalfEven where
  int n := by
    have floor : (n : ℚ).floor = n := Rat.floor_intCast n
    simp [roundHalfEven, floor]
  mono x y below := by
    have floors : x.floor ≤ y.floor := Rat.floor_monotone below
    rcases floors.lt_or_eq with apart | same
    · have upper := (roundHalfEven_bounds x).2
      have lower := (roundHalfEven_bounds y).1
      omega
    · unfold roundHalfEven
      dsimp only
      rw [same]
      have rest : x - y.floor ≤ y - y.floor := sub_le_sub_right below _
      split_ifs <;> first | omega | (exfalso; linarith)

/-! ## The registry -/

/-- Label names with their values. -/
abbrev Labels := List (String × String)

/-- The order of tuples of strings. -/
def pairLe (left right : String × String) : Prop :=
  left.1 < right.1 ∨ left.1 = right.1 ∧ left.2 ≤ right.2

instance : DecidableRel pairLe := fun left right =>
  inferInstanceAs (Decidable (left.1 < right.1 ∨ left.1 = right.1 ∧ left.2 ≤ right.2))

/-- The order of tuples of label pairs: the first pair that differs decides. -/
def labelsLe : Labels → Labels → Bool
  | [], _ => true
  | _ :: _, [] => false
  | left :: lefts, right :: rights =>
    if left = right then labelsLe lefts rights else decide (pairLe left right)

/-- `tuple(sorted(labels.items()))` -/
def sortedLabels (labels : Labels) : Labels := labels.insertionSort pairLe

def latencyBuckets : List ℚ :=
  [0.005, 0.01, 0.025, 0.05, 0.1, 0.25, 0.5, 1, 2.5, 5, 10, 30].map toDouble

/-- Per-bucket counts, then sum and count. -/
structure LatencySeries where
  buckets : List ℚ
  sum : ℚ
  count : ℚ

namespace LatencySeries

def zero : LatencySeries := ⟨latencyBuckets.map fun _ => 0, 0, 0⟩

def observe (series : LatencySeries) (seconds : ℚ) : LatencySeries where
  buckets := List.zipWith
    (fun bound count => if seconds ≤ bound then addDouble count 1 else count)
    latencyBuckets series.buckets
  sum := addDouble series.sum seconds
  count := addDouble series.count 1

end LatencySeries

structure Metrics where
  counters : Table String (Table Labels ℚ) := .empty
  help : Table String String := .empty
  histogram : Table Labels LatencySeries := .empty

namespace Metrics

def inc (metrics : Metrics) (name helpText : String) (value : ℚ) (labels : Labels) : Metrics :=
  let key := sortedLabels labels
  let series := (metrics.counters.find? name).getD .empty
  let stored := (series.find? key).getD 0
  { metrics with
    help := metrics.help.set name helpText
    counters := metrics.counters.set name
      (series.set key (addDouble stored (toDouble value))) }

def observeLatency (metrics : Metrics) (seconds : ℚ) (labels : Labels) : Metrics :=
  let key := sortedLabels labels
  let series := (metrics.histogram.find? key).getD .zero
  { metrics with histogram := metrics.histogram.set key (series.observe seconds) }

end Metrics

inductive MetricsCall where
  | inc (name helpText : String) (value : ℚ) (labels : Labels)
  | observeLatency (seconds : ℚ) (labels : Labels)

namespace Metrics

def apply (metrics : Metrics) : MetricsCall → Metrics
  | .inc name helpText value labels => metrics.inc name helpText value labels
  | .observeLatency seconds labels => metrics.observeLatency seconds labels

/-- The registry after some calls. -/
def after (calls : List MetricsCall) : Metrics := calls.foldl apply {}

end Metrics

/-! ## The text -/

def replaceChar (old : Char) (new : String) (text : String) : String :=
  String.ofList (text.toList.flatMap fun c => if c = old then new.toList else [c])

def escapeValue (value : String) : String :=
  replaceChar '"' "\\\"" (replaceChar '\\' "\\\\" value)

/-- `_labels` -/
def labelsText (pairs : Labels) : String :=
  let escaped := pairs.map fun pair => pair.1 ++ "=\"" ++ escapeValue pair.2 ++ "\""
  if escaped = [] then "" else "\x7b" ++ String.intercalate "," escaped ++ "\x7d"

def histogramName : String := "rag_http_request_duration_seconds"

/-- What one sample line is about. -/
inductive Series where
  | counter (name : String) (labels : Labels)
  | bucket (labels : Labels) (bound : ℚ)
  | infinite (labels : Labels)
  | sum (labels : Labels)
  | count (labels : Labels)
  deriving DecidableEq

namespace Series

def name : Series → String
  | counter name _ => name
  | bucket _ _ => histogramName ++ "_bucket"
  | infinite _ => histogramName ++ "_bucket"
  | sum _ => histogramName ++ "_sum"
  | count _ => histogramName ++ "_count"

def labels : Series → Labels
  | counter _ labels => labels
  | bucket labels bound => labels ++ [("le", formatG bound)]
  | infinite labels => labels ++ [("le", "+Inf")]
  | sum labels => labels
  | count labels => labels

end Series

inductive MetricsLine where
  | help (name text : String)
  | type (name kind : String)
  | sample (series : Series) (number : String)

def MetricsLine.text : MetricsLine → String
  | help name text => "# HELP " ++ name ++ " " ++ text
  | type name kind => "# TYPE " ++ name ++ " " ++ kind
  | sample series number => series.name ++ labelsText series.labels ++ " " ++ number

def LatencySeries.lines (key : Labels) (series : LatencySeries) : List MetricsLine :=
  List.zipWith (fun bound count => .sample (.bucket key bound) (formatG count))
      latencyBuckets series.buckets ++
    [.sample (.infinite key) (formatG series.count), .sample (.sum key) (formatF series.sum),
      .sample (.count key) (formatG series.count)]

/-- `sorted(series.items())` -/
def sortedItems {V : Type} (series : Table Labels V) : List (Labels × V) :=
  series.entries.insertionSort fun left right => labelsLe left.1 right.1

namespace Metrics

def counterLines (metrics : Metrics) (name : String) : List MetricsLine :=
  .help name ((metrics.help.find? name).getD "") :: .type name "counter" ::
    (sortedItems ((metrics.counters.find? name).getD .empty)).map fun item =>
      .sample (.counter name item.1) (formatG item.2)

def lines (metrics : Metrics) : List MetricsLine :=
  (metrics.counters.keys.insertionSort (· ≤ ·)).flatMap metrics.counterLines ++
    .help histogramName "HTTP request latency by route." :: .type histogramName "histogram" ::
      (sortedItems metrics.histogram).flatMap fun item => item.2.lines item.1

def render (metrics : Metrics) : String :=
  String.intercalate "\n" (metrics.lines.map MetricsLine.text) ++ "\n"

end Metrics

end ProductionRag
