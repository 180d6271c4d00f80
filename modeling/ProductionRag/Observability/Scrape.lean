import ProductionRag.Basis.Exposition
import ProductionRag.Observability.Exact

/-!
# Scraping the registry

`_labels` escapes backslashes and quotes but no line breaks, so the rendered text is read back as
the series of the registry exactly when no label value has a line break.
-/

set_option autoImplicit false

namespace ProductionRag

open Basis

/-! ## What the application counts -/

/-- The places that touch the metrics; the model is the one the provider names. -/
inductive MetricsEvent where
  | request (route method status : String) (elapsed : ℚ)
  | limited (tenant : String)
  | answered (model : String) (tokens : ℤ)
  | degraded

def MetricsEvent.calls : MetricsEvent → List MetricsCall
  | request route method status elapsed =>
    [.inc "rag_http_requests_total" "HTTP requests by route, method and status." 1
        [("route", route), ("method", method), ("status", status)],
      .observeLatency elapsed [("route", route)]]
  | limited tenant =>
    [.inc "rag_rate_limited_total" "Requests rejected by the rate limiter." 1
      [("tenant", tenant)]]
  | answered model tokens =>
    [.inc "rag_generation_tokens_total" "Model tokens by model." tokens [("model", model)]]
  | degraded =>
    [.inc "rag_generation_degraded_total" "Answers served by the fallback answerer." 1 []]

/-- Names are such as the format allows and the help text is one line; label values are free. -/
def MetricsCall.WellFormed : MetricsCall → Prop
  | inc name helpText _ labels => isMetricName name.toList = true ∧ '\n' ∉ helpText.toList ∧
      ∀ label ∈ labels, isLabelName label.1.toList = true
  | observeLatency _ labels => ∀ label ∈ labels, isLabelName label.1.toList = true

def MetricsCall.labels : MetricsCall → Labels
  | inc _ _ _ labels => labels
  | observeLatency _ labels => labels

/-- Every call of the application is well formed, whatever the values are. -/
theorem MetricsEvent.wellFormed (event : MetricsEvent) : ∀ call ∈ event.calls, call.WellFormed := by
  cases event with
  | request route method status elapsed =>
      simp only [calls, List.forall_mem_cons, MetricsCall.WellFormed, List.not_mem_nil,
        false_implies, implies_true, and_true]
      decide
  | limited tenant =>
      simp only [calls, List.forall_mem_cons, MetricsCall.WellFormed, List.not_mem_nil,
        false_implies, implies_true, and_true]
      decide
  | answered model tokens =>
      simp only [calls, List.forall_mem_cons, MetricsCall.WellFormed, List.not_mem_nil,
        false_implies, implies_true, and_true]
      decide
  | degraded =>
      simp only [calls, List.forall_mem_cons, MetricsCall.WellFormed, List.not_mem_nil,
        false_implies, implies_true, and_true]
      decide

/-! ## Lines as the format has them -/

def charPairs (labels : Labels) : List (List Char × List Char) :=
  labels.map fun label => (label.1.toList, label.2.toList)

theorem escapeValue_toList (value : String) :
    (escapeValue value).toList = quoteEscaped value.toList := by
  simp only [escapeValue, replaceChar, String.toList_ofList, quoteEscaped, List.flatMap_assoc]
  congr 1
  funext c
  by_cases backslash : c = '\\'
  · subst backslash
    rfl
  · by_cases quote : c = '"'
    · subst quote
      rfl
    · simp [backslash, quote]

theorem labelsText_toList (labels : Labels) :
    (labelsText labels).toList =
      if charPairs labels = [] then [] else '{' :: (pairsText (charPairs labels) ++ ['}']) := by
  rw [labelsText]
  by_cases none : labels = []
  · subst none
    rfl
  · simp [none, String.toList_intercalate, pairsText, charPairs, openPair,
      escapeValue_toList, Function.comp_def]

/-- A sample line, as the format writes one. -/
theorem sample_text (series : Series) (number : String) :
    (MetricsLine.sample series number).text.toList =
      sampleText series.name.toList (charPairs series.labels) number.toList := by
  simp only [MetricsLine.text, String.toList_append, labelsText_toList, sampleText]
  split <;> simp

theorem formatG_isNumber (x : ℚ) :
    IsNumber (formatG x).toList (roundDigits 10 6 roundHalfEven x) := by
  refine isNumber_of_chars ?_ (readNumber_formatG x)
  rw [formatG, String.toList_ofList]
  exact fun c => isNumeralChar_generalText

theorem formatF_isNumber (x : ℚ) :
    IsNumber (formatF x).toList ((roundHalfEven (x * 10 ^ 6) : ℚ) / 10 ^ 6) := by
  refine isNumber_of_chars ?_ ?_
  · rw [formatF, String.toList_ofList]
    exact fun c => isNumeralChar_fixedText
  · rw [formatF, String.toList_ofList]
    exact readNumber_fixedText roundHalfEven_rounds 6 x

def MetricsLine.series? : MetricsLine → Option Series
  | help _ _ => none
  | type _ _ => none
  | sample series _ => some series

/-- The name and the labels a series is read as. -/
def Series.exposed (series : Series) : List Char × List (List Char × List Char) :=
  (series.name.toList, charPairs series.labels)

/-- The line is one of the format but for line breaks in its label values. -/
def MetricsLine.WellFormed : MetricsLine → Prop
  | help name text => '\n' ∉ name.toList ∧ '\n' ∉ text.toList
  | type name kind => '\n' ∉ name.toList ∧ '\n' ∉ kind.toList
  | sample series number => isMetricName series.name.toList = true ∧
      (∀ pair ∈ charPairs series.labels, isLabelName pair.1 = true) ∧
        ∃ value, IsNumber number.toList value

def Series.Clean (series : Series) : Prop := ∀ label ∈ series.labels, '\n' ∉ label.2.toList

/-- The names and labels that the text is read as, if it is read. -/
def scraped (text : List Char) : Option (List (List Char × List (List Char × List Char))) :=
  (readText text).map fun samples => samples.map fun sample => (sample.name, sample.labels)

theorem scraped_append (line rest : List Char) :
    scraped (line ++ '\n' :: rest) =
      (scraped line).bind fun first => (scraped rest).map (first ++ ·) := by
  rw [scraped, scraped, scraped, readText_append]
  cases readText line with
  | none => rfl
  | some first => cases readText rest <;> simp

theorem scraped_comment {line : List Char} (oneLine : '\n' ∉ line) :
    scraped ('#' :: line) = some [] := by
  have oneLine' : '\n' ∉ '#' :: line := by simp [oneLine]
  rw [scraped, readText_line oneLine', readLine, skipBlanks,
    List.dropWhile_cons_of_neg (by decide)]
  rfl

theorem scraped_line {line : MetricsLine} (wellFormed : line.WellFormed)
    (clean : ∀ series number, line = .sample series number → series.Clean) :
    scraped line.text.toList = some (line.series?.map Series.exposed).toList := by
  cases line with
  | help name text =>
      have comment : (MetricsLine.help name text).text.toList =
          '#' :: (" HELP " ++ name ++ " " ++ text).toList := by
        simp [MetricsLine.text]
      rw [comment]
      apply scraped_comment
      simp [wellFormed.1, wellFormed.2]
  | type name kind =>
      have comment : (MetricsLine.type name kind).text.toList =
          '#' :: (" TYPE " ++ name ++ " " ++ kind).toList := by
        simp [MetricsLine.text]
      rw [comment]
      apply scraped_comment
      simp [wellFormed.1, wellFormed.2]
  | sample series number =>
      obtain ⟨named, labelled, value, isNumber⟩ := wellFormed
      have values : ∀ pair ∈ charPairs series.labels, '\n' ∉ pair.2 := by
        intro pair member
        obtain ⟨label, inside, rfl⟩ := List.mem_map.mp member
        exact clean series number rfl label inside
      rw [sample_text, scraped,
        readText_line (sampleText_oneLine named labelled isNumber values),
        readLine_sampleText named labelled isNumber]
      rfl

/-- The text of some lines, each with its line break. -/
def linesText (lines : List MetricsLine) : List Char :=
  lines.flatMap fun line => line.text.toList ++ ['\n']

theorem linesText_cons (line : MetricsLine) (lines : List MetricsLine) :
    linesText (line :: lines) = line.text.toList ++ '\n' :: linesText lines := by
  simp [linesText]

theorem scraped_linesText {lines : List MetricsLine}
    (wellFormed : ∀ line ∈ lines, line.WellFormed)
    (clean : ∀ series number, .sample series number ∈ lines → series.Clean) :
    scraped (linesText lines) =
      some ((lines.filterMap MetricsLine.series?).map Series.exposed) := by
  induction lines with
  | nil => rfl
  | cons line lines ih =>
      have first := scraped_line (wellFormed line List.mem_cons_self)
        fun series number same => clean series number (by rw [same]; exact List.mem_cons_self)
      have others := ih (fun other member => wellFormed other (List.mem_cons_of_mem _ member))
        fun series number member => clean series number (List.mem_cons_of_mem _ member)
      rw [linesText_cons, scraped_append, first, others, List.filterMap_cons]
      cases line.series? <;> rfl

/-- One sample with a line break in a label value, and the whole text is not read. -/
theorem scraped_broken {lines : List MetricsLine} (wellFormed : ∀ line ∈ lines, line.WellFormed)
    {series : Series} {number : String} (member : .sample series number ∈ lines)
    (broken : ¬ series.Clean) : scraped (linesText lines) = none := by
  induction lines with
  | nil => cases member
  | cons line lines ih =>
      rw [linesText_cons]
      rcases List.mem_cons.mp member with rfl | later
      · obtain ⟨named, labelled, _⟩ := wellFormed _ List.mem_cons_self
        have inside : ∃ pair ∈ charPairs series.labels, '\n' ∈ pair.2 := by
          simp only [Series.Clean, not_forall, not_not] at broken
          obtain ⟨label, inLabels, lineBreak⟩ := broken
          exact ⟨_, List.mem_map_of_mem inLabels, lineBreak⟩
        rw [sample_text, scraped, readText_sampleText_broken named labelled inside]
        rfl
      · rw [scraped_append, ih (fun other inLines => wellFormed other
          (List.mem_cons_of_mem _ inLines)) later]
        cases scraped line.text.toList <;> rfl

theorem joined_eq_linesText {lines : List MetricsLine} (nonempty : lines ≠ []) :
    ['\n'].intercalate (lines.map fun line => line.text.toList) ++ ['\n'] = linesText lines := by
  induction lines with
  | nil => exact absurd rfl nonempty
  | cons line lines ih =>
      cases lines with
      | nil => simp [linesText]
      | cons next lines =>
          rw [linesText_cons, ← ih (List.cons_ne_nil _ _), List.map_cons, List.map_cons,
            List.intercalate_cons_cons]
          simp

theorem render_eq (metrics : Metrics) : metrics.render.toList = linesText metrics.lines := by
  have nonempty : metrics.lines ≠ [] := by simp [Metrics.lines]
  rw [← joined_eq_linesText nonempty, Metrics.render]
  simp [String.toList_intercalate, Function.comp_def]

/-! ## The series of the registry -/

/-- The series of the registry, in the order of their lines. -/
def Metrics.series (metrics : Metrics) : List Series :=
  (metrics.counters.keys.insertionSort (· ≤ ·)).flatMap (fun name =>
      (sortedItems ((metrics.counters.find? name).getD .empty)).map fun item =>
        .counter name item.1) ++
    (sortedItems metrics.histogram).flatMap fun item => Series.ofLatency item.1

section Calls

variable {calls : List MetricsCall}

theorem series_samples {α : Type} (items : List α) (series : α → Series) (number : α → String) :
    (items.map fun item => MetricsLine.sample (series item) (number item)).filterMap
        MetricsLine.series? = items.map series := by
  rw [List.filterMap_map]
  exact congrFun List.filterMap_eq_map' items

theorem series_lines :
    (Metrics.after calls).lines.filterMap MetricsLine.series? = (Metrics.after calls).series := by
  have counters : ∀ name, ((Metrics.after calls).counterLines name).filterMap
      MetricsLine.series? =
        (sortedItems (((Metrics.after calls).counters.find? name).getD .empty)).map fun item =>
          Series.counter name item.1 := by
    intro name
    rw [Metrics.counterLines, List.filterMap_cons_none rfl, List.filterMap_cons_none rfl,
      series_samples]
  have latencies : ∀ item ∈ sortedItems (Metrics.after calls).histogram,
      (item.2.lines item.1).filterMap MetricsLine.series? = Series.ofLatency item.1 := by
    rintro ⟨key, stored⟩ member
    rw [(storedLines_eq (mem_sortedItems.mp member)).1, series_samples, List.map_id']
  rw [Metrics.lines, List.filterMap_append, List.filterMap_flatMap, Metrics.series,
    List.filterMap_cons_none rfl, List.filterMap_cons_none rfl, List.filterMap_flatMap]
  simp only [counters]
  congr 1
  exact List.flatMap_congr latencies

theorem sortedItems_nodup {V : Type} (series : Table Labels V) :
    ((sortedItems series).map Prod.fst).Nodup :=
  (((List.perm_insertionSort _ series.entries).map Prod.fst).nodup_iff).mpr series.nodupKeys

theorem ofLatency_nodup (key : Labels) : (Series.ofLatency key).Nodup := by
  have bounds : latencyBuckets.Nodup := by decide +kernel
  have buckets : (latencyBuckets.map (Series.bucket key)).Nodup :=
    bounds.map fun _ _ same => (Series.bucket.inj same).2
  rw [Series.ofLatency, List.nodup_append]
  refine ⟨buckets, by simp, ?_⟩
  rintro _ member other inOthers rfl
  obtain ⟨bound, _, rfl⟩ := List.mem_map.mp member
  simp at inOthers

/-- The label set a series is stored under. -/
def Series.key : Series → Labels
  | counter _ key => key
  | bucket key _ => key
  | infinite key => key
  | sum key => key
  | count key => key

theorem key_of_ofLatency {key : Labels} {series : Series} (member : series ∈ Series.ofLatency key) :
    series.key = key := by
  rcases mem_ofLatency.mp member with ⟨_, _, rfl⟩ | rfl | rfl | rfl <;> rfl

/-- No series is listed twice. -/
theorem Metrics.series_nodup (metrics : Metrics) : metrics.series.Nodup := by
  have names : (metrics.counters.keys.insertionSort (· ≤ ·)).Nodup :=
    (List.perm_insertionSort _ _).nodup_iff.mpr metrics.counters.nodupKeys
  have keys := List.pairwise_map.mp (sortedItems_nodup metrics.histogram)
  rw [Metrics.series, List.nodup_append, List.nodup_flatMap, List.nodup_flatMap]
  refine ⟨⟨?_, ?_⟩, ⟨fun item _ => ofLatency_nodup item.1, ?_⟩, ?_⟩
  · intro name _
    have own := sortedItems_nodup ((metrics.counters.find? name).getD .empty)
    have mapped := own.map (f := Series.counter name) fun _ _ same => (Series.counter.inj same).2
    rwa [List.map_map] at mapped
  · refine names.imp fun different series left right => ?_
    obtain ⟨_, _, rfl⟩ := List.mem_map.mp left
    obtain ⟨_, _, same⟩ := List.mem_map.mp right
    exact different (Series.counter.inj same).1.symm
  · refine keys.imp fun different series left right => ?_
    exact different ((key_of_ofLatency left).symm.trans (key_of_ofLatency right))
  · rintro series left other right rfl
    obtain ⟨_, _, inCounters⟩ := List.mem_flatMap.mp left
    obtain ⟨_, _, inHistogram⟩ := List.mem_flatMap.mp right
    obtain ⟨_, _, rfl⟩ := List.mem_map.mp inCounters
    rcases mem_ofLatency.mp inHistogram with ⟨_, _, same⟩ | same | same | same <;> cases same

/-! ## What the calls leave -/

theorem labels_of_amounts {name : String} {key : Labels} (used : amounts calls name key ≠ []) :
    ∃ helpText value labels,
      .inc name helpText value labels ∈ calls ∧ sortedLabels labels = key := by
  obtain ⟨value, member⟩ := List.exists_mem_of_ne_nil _ used
  obtain ⟨call, inCalls, adds⟩ := List.mem_filterMap.mp member
  cases call with
  | inc name' helpText value labels =>
      simp only [MetricsCall.amount] at adds
      split at adds
      · rename_i same
        obtain ⟨rfl, sameKey⟩ := same
        exact ⟨helpText, value, labels, inCalls, sameKey⟩
      · cases adds
  | observeLatency seconds labels => cases adds

theorem labels_of_latencies {key : Labels} (used : latencies calls key ≠ []) :
    ∃ seconds labels, .observeLatency seconds labels ∈ calls ∧ sortedLabels labels = key := by
  obtain ⟨value, member⟩ := List.exists_mem_of_ne_nil _ used
  obtain ⟨call, inCalls, adds⟩ := List.mem_filterMap.mp member
  cases call with
  | inc name' helpText value labels => cases adds
  | observeLatency seconds labels =>
      simp only [MetricsCall.latency] at adds
      split at adds
      · rename_i sameKey
        exact ⟨seconds, labels, inCalls, sameKey⟩
      · cases adds

/-- The help text of a name is one that some call gave. -/
theorem help_after {name text : String}
    (found : (Metrics.after calls).help.find? name = some text) :
    ∃ value labels, .inc name text value labels ∈ calls := by
  induction calls using List.reverseRecOn with
  | nil => cases found
  | append_singleton calls call ih =>
      rw [Metrics.after, List.foldl_append] at found
      cases call with
      | inc name' helpText value labels =>
          have stored := found
          simp only [List.foldl_cons, List.foldl_nil, Metrics.apply, Metrics.inc,
            Table.find?_set] at stored
          split at stored
          · rename_i same
            subst same
            obtain rfl := Option.some.inj stored
            exact ⟨value, labels, by simp⟩
          · obtain ⟨value', labels', member⟩ := ih stored
            exact ⟨value', labels', List.mem_append_left _ member⟩
      | observeLatency seconds labels =>
          obtain ⟨value', labels', member⟩ := ih found
          exact ⟨value', labels', List.mem_append_left _ member⟩

/-- The counters are those of the calls. -/
theorem keys_after {name : String} (member : name ∈ (Metrics.after calls).counters.keys) :
    ∃ helpText value labels, .inc name helpText value labels ∈ calls := by
  induction calls using List.reverseRecOn with
  | nil => cases member
  | append_singleton calls call ih =>
      rw [Metrics.after, List.foldl_append] at member
      cases call with
      | inc name' helpText value labels =>
          have stored := member
          simp only [List.foldl_cons, List.foldl_nil, Metrics.apply, Metrics.inc,
            Table.mem_keys_set] at stored
          rcases stored with earlier | rfl
          · obtain ⟨helpText', value', labels', inCalls⟩ := ih earlier
            exact ⟨helpText', value', labels', List.mem_append_left _ inCalls⟩
          · exact ⟨helpText, value, labels, by simp⟩
      | observeLatency seconds labels =>
          obtain ⟨helpText', value', labels', inCalls⟩ := ih member
          exact ⟨helpText', value', labels', List.mem_append_left _ inCalls⟩

/-- What the labels of a used series are: those of a call, and perhaps a bound. -/
theorem labels_of_used {series : Series} (used : series.Used calls) {label : String × String}
    (member : label ∈ series.labels) :
    (∃ call ∈ calls, label ∈ call.labels) ∨
      label.1 = "le" ∧ ((∃ bound, label.2 = formatG bound) ∨ label.2 = "+Inf") := by
  have ofLatencies : ∀ key, latencies calls key ≠ [] → label ∈ key →
      ∃ call ∈ calls, label ∈ call.labels := by
    intro key observed inside
    obtain ⟨seconds, labels, inCalls, rfl⟩ := labels_of_latencies observed
    exact ⟨_, inCalls, (List.mem_insertionSort _).mp inside⟩
  cases series with
  | counter name key =>
      obtain ⟨helpText, value, labels, inCalls, rfl⟩ := labels_of_amounts used
      exact Or.inl ⟨_, inCalls, (List.mem_insertionSort _).mp member⟩
  | bucket key bound =>
      rcases List.mem_append.mp member with inside | added
      · exact Or.inl (ofLatencies key used.2 inside)
      · obtain rfl := List.mem_singleton.mp added
        exact Or.inr ⟨rfl, Or.inl ⟨bound, rfl⟩⟩
  | infinite key =>
      rcases List.mem_append.mp member with inside | added
      · exact Or.inl (ofLatencies key used inside)
      · obtain rfl := List.mem_singleton.mp added
        exact Or.inr ⟨rfl, Or.inr rfl⟩
  | sum key => exact Or.inl (ofLatencies key used member)
  | count key => exact Or.inl (ofLatencies key used member)

/-- A line that is no sample is the head of a counter or of the histogram. -/
theorem line_cases {line : MetricsLine} (member : line ∈ (Metrics.after calls).lines) :
    (∃ name ∈ (Metrics.after calls).counters.keys,
      line = .help name (((Metrics.after calls).help.find? name).getD "") ∨
        line = .type name "counter") ∨
      line = .help histogramName "HTTP request latency by route." ∨
      line = .type histogramName "histogram" ∨ ∃ series number, line = .sample series number := by
  rw [Metrics.lines, List.mem_append, List.mem_cons, List.mem_cons, List.mem_flatMap,
    List.mem_flatMap] at member
  rcases member with ⟨name, inKeys, inCounter⟩ | head | kind | ⟨item, stored, inLatency⟩
  · rw [Metrics.counterLines, List.mem_cons, List.mem_cons, List.mem_map] at inCounter
    have known := (List.mem_insertionSort _).mp inKeys
    rcases inCounter with help | type | ⟨item, _, rfl⟩
    · exact Or.inl ⟨name, known, Or.inl help⟩
    · exact Or.inl ⟨name, known, Or.inr type⟩
    · exact Or.inr (Or.inr (Or.inr ⟨_, _, rfl⟩))
  · exact Or.inr (Or.inl head)
  · exact Or.inr (Or.inr (Or.inl kind))
  · obtain ⟨key, series⟩ := item
    rw [(storedLines_eq (mem_sortedItems.mp stored)).1] at inLatency
    obtain ⟨series, _, rfl⟩ := List.mem_map.mp inLatency
    exact Or.inr (Or.inr (Or.inr ⟨_, _, rfl⟩))

theorem counterName_wellFormed (wellFormed : ∀ call ∈ calls, call.WellFormed) {name : String}
    (known : name ∈ (Metrics.after calls).counters.keys) : '\n' ∉ name.toList := by
  obtain ⟨helpText, value, labels, inCalls⟩ := keys_after known
  exact lineBreak_notMem_name (wellFormed _ inCalls).1

theorem helpText_wellFormed (wellFormed : ∀ call ∈ calls, call.WellFormed) (name : String) :
    '\n' ∉ (((Metrics.after calls).help.find? name).getD "").toList := by
  cases found : (Metrics.after calls).help.find? name with
  | none => simp
  | some text =>
      obtain ⟨value, labels, inCalls⟩ := help_after found
      exact (wellFormed _ inCalls).2.1

theorem lines_wellFormed (wellFormed : ∀ call ∈ calls, call.WellFormed) :
    ∀ line ∈ (Metrics.after calls).lines, line.WellFormed := by
  intro line member
  rcases line_cases member with ⟨name, known, rfl | rfl⟩ | rfl | rfl | ⟨series, number, rfl⟩
  · exact ⟨counterName_wellFormed wellFormed known, helpText_wellFormed wellFormed name⟩
  · exact ⟨counterName_wellFormed wellFormed known, by decide⟩
  · exact ⟨by decide, by decide⟩
  · exact ⟨by decide, by decide⟩
  · obtain ⟨used, rfl⟩ := sample_mem_lines.mp member
    refine ⟨?_, ?_, ?_⟩
    · cases series with
      | counter name key =>
          obtain ⟨helpText, value, labels, inCalls, rfl⟩ := labels_of_amounts used
          exact (wellFormed _ inCalls).1
      | bucket key bound =>
          exact (by decide : isMetricName (histogramName ++ "_bucket").toList = true)
      | infinite key =>
          exact (by decide : isMetricName (histogramName ++ "_bucket").toList = true)
      | sum key => exact (by decide : isMetricName (histogramName ++ "_sum").toList = true)
      | count key => exact (by decide : isMetricName (histogramName ++ "_count").toList = true)
    · intro pair inPairs
      obtain ⟨label, inLabels, rfl⟩ := List.mem_map.mp inPairs
      rcases labels_of_used used inLabels with ⟨call, inCalls, inside⟩ | ⟨le, _⟩
      · have named := wellFormed call inCalls
        cases call with
        | inc name helpText value labels => exact named.2.2 label inside
        | observeLatency seconds labels => exact named label inside
      · dsimp only
        rw [le]
        decide
    · cases series with
      | counter name key => exact ⟨_, formatG_isNumber _⟩
      | bucket key bound => exact ⟨_, formatG_isNumber _⟩
      | infinite key => exact ⟨_, formatG_isNumber _⟩
      | sum key => exact ⟨_, formatF_isNumber _⟩
      | count key => exact ⟨_, formatG_isNumber _⟩

theorem used_of_call {call : MetricsCall} (inCalls : call ∈ calls) :
    ∃ series : Series, series.Used calls ∧ ∀ label ∈ call.labels, label ∈ series.labels := by
  cases call with
  | inc name helpText value labels =>
      refine ⟨.counter name (sortedLabels labels), ?_, ?_⟩
      · refine List.ne_nil_of_mem (a := value) (List.mem_filterMap.mpr ⟨_, inCalls, ?_⟩)
        simp [MetricsCall.amount]
      · exact fun label member => (List.mem_insertionSort _).mpr member
  | observeLatency seconds labels =>
      refine ⟨.count (sortedLabels labels), ?_, ?_⟩
      · refine List.ne_nil_of_mem (a := seconds) (List.mem_filterMap.mpr ⟨_, inCalls, ?_⟩)
        simp [MetricsCall.latency]
      · exact fun label member => (List.mem_insertionSort _).mpr member

/-- The values the registry prints are those it was given, and the bounds of the histogram. -/
theorem clean_iff :
    (∀ series : Series, series.Used calls → series.Clean) ↔
      ∀ call ∈ calls, ∀ label ∈ call.labels, '\n' ∉ label.2.toList := by
  constructor
  · intro clean call inCalls label member
    obtain ⟨series, used, contained⟩ := used_of_call inCalls
    exact clean series used label (contained label member)
  · intro clean series used label member
    rcases labels_of_used used member with ⟨call, inCalls, inside⟩ | ⟨_, ⟨bound, same⟩ | same⟩
    · exact clean call inCalls label inside
    · rw [same]
      exact (formatG_isNumber bound).oneLine
    · rw [same]
      decide

/-- The text is read line by line, as every series of the registry once and nothing else. -/
def Metrics.ScrapesBack (metrics : Metrics) : Prop :=
  metrics.series.Nodup ∧
    scraped metrics.render.toList = some (metrics.series.map Series.exposed)

end Calls

/-- The rendered text parses back exactly when no label value has a line break. -/
theorem render_scrapesBack_iff (calls : List MetricsCall)
    (wellFormed : ∀ call ∈ calls, call.WellFormed) :
    (Metrics.after calls).ScrapesBack ↔
      ∀ call ∈ calls, ∀ label ∈ call.labels, '\n' ∉ label.2.toList := by
  have lines := lines_wellFormed wellFormed
  rw [← clean_iff, Metrics.ScrapesBack, render_eq]
  constructor
  · rintro ⟨_, reads⟩ series used
    by_contra broken
    rw [scraped_broken lines (sample_mem_lines.mpr ⟨used, rfl⟩) broken] at reads
    cases reads
  · intro clean
    refine ⟨Metrics.series_nodup _, ?_⟩
    rw [scraped_linesText lines fun series number member =>
      clean series (sample_mem_lines.mp member).1, series_lines]

/-- A provider that names its model on two lines. -/
def twoLines : List MetricsCall := (MetricsEvent.answered "llama\n3" 5).calls

theorem twoLines_not_scraped :
    (∀ call ∈ twoLines, call.WellFormed) ∧ ¬ (Metrics.after twoLines).ScrapesBack := by
  have wellFormed : ∀ call ∈ twoLines, call.WellFormed := MetricsEvent.wellFormed _
  refine ⟨wellFormed, ?_⟩
  rintro ⟨_, reads⟩
  have broken :
      ¬ Series.Clean (.counter "rag_generation_tokens_total" [("model", "llama\n3")]) := by
    intro clean
    exact clean ("model", "llama\n3") List.mem_cons_self (by decide)
  have used : Series.Used twoLines
      (.counter "rag_generation_tokens_total" [("model", "llama\n3")]) := by
    simp [Series.Used, amounts, twoLines, MetricsEvent.calls, MetricsCall.amount, sortedLabels]
  rw [render_eq, scraped_broken (lines_wellFormed wellFormed)
    (sample_mem_lines.mpr ⟨used, rfl⟩) broken] at reads
  cases reads

/-- Quotes and backslashes are read back. -/
theorem quoted_model_scraped :
    (Metrics.after ((MetricsEvent.answered "\"llama\\3\"" 5).calls ++
      (MetricsEvent.request "query" "POST" "200" 0.25).calls)).ScrapesBack := by
  refine (render_scrapesBack_iff _ ?_).mpr ?_
  · intro call member
    rcases List.mem_append.mp member with answered | request
    · exact MetricsEvent.wellFormed _ call answered
    · exact MetricsEvent.wellFormed _ call request
  · simp only [MetricsEvent.calls, List.cons_append, List.nil_append, List.forall_mem_cons,
      MetricsCall.labels]
    decide

end ProductionRag
