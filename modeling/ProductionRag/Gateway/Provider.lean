import Mathlib.Algebra.Order.Ring.Rat
import Mathlib.Data.Rat.Floor
import ProductionRag.Gateway.Budget

/-!
# Answers and failures of a model provider

A call of a provider ends in a generation or in an exception.  An exception is what
`isinstance`, its HTTP fields and `str` tell about it.  Seconds and prices are rational
numbers.
-/

set_option autoImplicit false

namespace ProductionRag

def roundHalfEven (x : ℚ) : Int :=
  let rest := x - x.floor
  if rest < 1 / 2 then x.floor
  else if 1 / 2 < rest then x.floor + 1
  else if x.floor % 2 = 0 then x.floor
  else x.floor + 1

/-- `round(x, digits)` -/
def roundTo (digits : Nat) (x : ℚ) : ℚ := roundHalfEven (x * 10 ^ digits) / 10 ^ digits

/-- One answer plus what it cost; `degraded` marks a fallback answer. -/
structure Generation where
  text : String
  model : String
  promptTokens : Int := 0
  completionTokens : Int := 0
  degraded : Bool := false
  costUsd : ℚ := 0
  note : Option String := none
  deriving DecidableEq

structure HttpError where
  code : Int
  /-- `headers.get("retry-after")`; absent as well when there are no headers. -/
  retryAfter : Option String
  deriving DecidableEq, Repr

/-- An exception raised by a provider. -/
structure Raised where
  /-- Set for an `HTTPError`. -/
  http : Option HttpError := none
  isUrlError : Bool := http.isSome
  isTimeout : Bool := false
  isConnectionError : Bool := false
  /-- The text of a `ValueError`. -/
  valueError : Option String := none
  deriving DecidableEq, Repr

def isRetryable (exc : Raised) : Bool :=
  match exc.http with
  | some error => error.code = 429 || 500 ≤ error.code
  | none => exc.isUrlError || exc.isTimeout || exc.isConnectionError

/-- An empty header is not all digits either, so the test for it is left out. -/
def retryAfterSeconds (exc : Raised) : Except PyError (Option ℚ) :=
  match exc.http.bind (·.retryAfter) with
  | none => .ok none
  | some value =>
    if isDigits (strip value) then (floatOfDigits value).map fun seconds => some (seconds : ℚ)
    else .ok none

def describeFailure (exc : Raised) : String :=
  match exc.http with
  | some error =>
    let hint :=
      if error.code = 400 then "request rejected; check the API key and model ID"
      else if error.code = 401 then "the provider rejected the API key"
      else if error.code = 403 then "the API key is not allowed to use this model"
      else if error.code = 404 then "model or endpoint not found; check the model ID"
      else if error.code = 429 then "rate limit or quota reached at the provider"
      else "provider error"
    s!"HTTP {error.code} ({hint})"
  | none =>
    if exc.isTimeout then "the provider did not answer in time"
    else if exc.isUrlError then "could not reach the provider"
    else exc.valueError.getD "unexpected response from the provider"

/-- Integers from here on do not convert to a `float`. -/
def floatLimit : Int := 2 ^ 1024 - 2 ^ 970

theorem floatLimit_pos : 0 < floatLimit :=
  sub_pos.mpr (pow_lt_pow_right₀ (by norm_num) (by norm_num))

/-- `count * price`: the integer is converted first. -/
def timesPrice (count : Int) (price : ℚ) : Except PyError ℚ :=
  if -floatLimit < count ∧ count < floatLimit then .ok (count * price)
  else .error (.other "int too large to convert to float")

structure Pricing where
  inputPerMillion : ℚ := 0
  outputPerMillion : ℚ := 0
  deriving DecidableEq

def Pricing.cost (pricing : Pricing) (generation : Generation) : Except PyError ℚ := do
  let input ← timesPrice generation.promptTokens pricing.inputPerMillion
  let output ← timesPrice generation.completionTokens pricing.outputPerMillion
  return (input + output) / 1000000

def abstention : String :=
  "I do not have enough evidence in the indexed documents to answer that."

/-- `ExtractiveProvider.complete` -/
def extractive (context : List String) : Generation :=
  let cited := (context.take 3).zipIdx 1 |>.map fun (text, number) => s!"{strip text} [{number}]"
  let sources := String.intercalate " " cited
  { text := if context.isEmpty then abstention else s!"Based on the indexed sources: {sources}"
    model := "extractive" }

/-! ## When the conversions raise -/

/-- The header passes `isdigit` but is no number: a digit of it is no decimal, or a
separator stands around it that `strip` drops and `float` does not. -/
def BadRetryAfter (exc : Raised) : Prop :=
  ∃ value, exc.http.bind (·.retryAfter) = some value ∧ isDigits (strip value) = true ∧
    isNumber value.toList = false

theorem floatOfDigits_error_iff (text : String) :
    (∃ e, floatOfDigits text = .error e) ↔ isNumber text.toList = false := by
  unfold floatOfDigits
  cases isNumber text.toList with
  | true => simp
  | false => simp

theorem retryAfterSeconds_error_iff (exc : Raised) :
    (∃ e, retryAfterSeconds exc = .error e) ↔ BadRetryAfter exc := by
  unfold retryAfterSeconds BadRetryAfter
  cases exc.http.bind (·.retryAfter) with
  | none => simp
  | some value =>
      simp only [Option.some.injEq, exists_eq_left']
      rw [← floatOfDigits_error_iff]
      split
      · rename_i digits
        cases floatOfDigits value with
        | error e => simp [digits, Except.map]
        | ok seconds => simp [Except.map]
      · rename_i digits
        simp [digits]

/-- The token counts of the generation convert to floats. -/
def Generation.Countable (generation : Generation) : Prop :=
  (-floatLimit < generation.promptTokens ∧ generation.promptTokens < floatLimit) ∧
    (-floatLimit < generation.completionTokens ∧ generation.completionTokens < floatLimit)

theorem Pricing.cost_ok_iff (pricing : Pricing) (generation : Generation) :
    (∃ cost, pricing.cost generation = .ok cost) ↔ generation.Countable := by
  unfold Pricing.cost timesPrice Generation.Countable
  by_cases input : -floatLimit < generation.promptTokens ∧ generation.promptTokens < floatLimit
  · by_cases output : -floatLimit < generation.completionTokens ∧
        generation.completionTokens < floatLimit
    · simp [input, output, bind, Except.bind, pure, Except.pure]
    · simp [input, output, bind, Except.bind]
  · simp [input, bind, Except.bind]

end ProductionRag
