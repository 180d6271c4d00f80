import Mathlib.Data.List.Chain
import ProductionRag.Basis.Runs
import ProductionRag.Rag

/-!
# Cutting a text into chunks

`_split` reads the words of a text and moves a window over them.  A window ends at the last
sentence end it can reach; the next one begins `overlap` words before that, or one word
after the last window began.
-/

set_option autoImplicit false

namespace ProductionRag

open Basis

/-! ## Words -/

/-- `str.splitlines`, the first line continuing the given one. -/
def splitlinesFrom : List Char → List Char → List (List Char)
  | line, [] => if line.isEmpty then [] else [line]
  | line, '\r' :: '\n' :: rest => line :: splitlinesFrom [] rest
  | line, c :: rest =>
    if isLineBreak c then line :: splitlinesFrom [] rest else splitlinesFrom (line ++ [c]) rest

def splitlines (text : List Char) : List (List Char) := splitlinesFrom [] text

/-- `re.sub(r"[ \t]+", " ", line)` -/
def collapseBlanks : List Char → List Char
  | [] => []
  | c :: rest =>
    if c == ' ' || c == '\t' then
      match collapseBlanks rest with
      | ' ' :: later => ' ' :: later
      | collapsed => ' ' :: collapsed
    else c :: collapseBlanks rest

def normalizedLine (line : List Char) : List Char := stripChars (collapseBlanks line)

def normalized (text : List Char) : List Char :=
  ['\n'].intercalate
    (((splitlines text).map normalizedLine).filter fun line => !line.isEmpty)

/-- `re.findall(r"\S+", normalized)` -/
def splitTokens (text : List Char) : List (List Char) := runs isSpace (normalized text)

theorem isSpace_of_isLineBreak {c : Char} (isBreak : isLineBreak c = true) :
    isSpace c = true := by
  simp only [isLineBreak, isSpace, Bool.or_eq_true, Bool.and_eq_true, decide_eq_true_eq,
    beq_iff_eq] at isBreak ⊢
  omega

theorem runs_splitlinesFrom (line text : List Char) :
    (splitlinesFrom line text).flatMap (runs isSpace) = runs isSpace (line ++ text) := by
  induction line, text using splitlinesFrom.induct with
  | case1 line isEmpty =>
      have none : line = [] := by simpa using isEmpty
      subst none
      rfl
  | case2 line nonempty =>
      simp [splitlinesFrom, nonempty]
  | case3 line rest ih =>
      rw [splitlinesFrom, List.flatMap_cons, ih, runs_append_sep _ _ (by decide),
        runs_cons_sep _ (by decide)]
      rfl
  | case4 line c rest notPair isBreak ih =>
      rw [splitlinesFrom.eq_3 _ _ _ notPair, if_pos isBreak, List.flatMap_cons, ih,
        runs_append_sep _ _ (isSpace_of_isLineBreak isBreak)]
      rfl
  | case5 line c rest notPair inLine ih =>
      rw [splitlinesFrom.eq_3 _ _ _ notPair, if_neg inLine, ih, List.append_assoc]
      rfl

theorem runs_collapseBlanks (first line : List Char) :
    runs isSpace (first ++ collapseBlanks line) = runs isSpace (first ++ line) := by
  induction line generalizing first with
  | nil => rfl
  | cons c rest ih =>
      rw [collapseBlanks]
      split
      · rename_i isBlank
        have sep : isSpace c = true := by
          rcases Bool.or_eq_true _ _ ▸ isBlank with same | same
          · rw [beq_iff_eq.mp same]
            rfl
          · rw [beq_iff_eq.mp same]
            rfl
        have later := ih []
        rw [List.nil_append, List.nil_append] at later
        rw [runs_append_sep first rest sep, ← later]
        split
        · rename_i collapsed same
          rw [same, runs_append_sep first _ (by decide), runs_cons_sep _ (by decide)]
        · rw [runs_append_sep first _ (by decide)]
      · rw [List.append_cons, ih, ← List.append_cons]

theorem runs_normalizedLine (line : List Char) :
    runs isSpace (normalizedLine line) = runs isSpace line := by
  have collapsed := runs_collapseBlanks [] line
  rw [List.nil_append, List.nil_append] at collapsed
  have leading : runs isSpace (collapseBlanks line) =
      runs isSpace ((collapseBlanks line).dropWhile isSpace) := by
    conv_lhs => rw [← List.takeWhile_append_dropWhile (p := isSpace) (l := collapseBlanks line)]
    exact runs_seps_append _ fun c member => List.mem_takeWhile_imp member
  rw [← collapsed, leading, normalizedLine, stripChars]
  obtain ⟨seps, same, all⟩ : ∃ seps, (collapseBlanks line).dropWhile isSpace =
      ((collapseBlanks line).dropWhile isSpace).rdropWhile isSpace ++ seps ∧
        ∀ c ∈ seps, isSpace c = true := by
    refine ⟨((collapseBlanks line).dropWhile isSpace).rtakeWhile isSpace, ?_, ?_⟩
    · exact (List.rdropWhile_append_rtakeWhile ..).symm
    · intro c member
      exact List.mem_rtakeWhile_imp member
  conv_rhs => rw [same]
  rw [runs_append_seps _ all]

/-- Normalizing the lines loses no word and makes none. -/
theorem splitTokens_eq (text : List Char) : splitTokens text = runs isSpace text := by
  have lines := runs_splitlinesFrom [] text
  rw [List.nil_append] at lines
  rw [splitTokens, normalized, runs_intercalate (by decide), ← lines]
  change _ = (splitlines text).flatMap (runs isSpace)
  induction splitlines text with
  | nil => rfl
  | cons line lines ih =>
      rw [List.map_cons, List.filter_cons, List.flatMap_cons, ← ih]
      split
      · rw [List.flatMap_cons, runs_normalizedLine]
      · rename_i isEmpty
        have none : normalizedLine line = [] := by simpa using isEmpty
        rw [← runs_normalizedLine, none]
        rfl

/-! ## Windows -/

/-- Words `start` to `stop - 1`. -/
structure Window where
  start : Nat
  stop : Nat
  deriving DecidableEq, Repr

structure RagIngestionPipeline where
  chunkSize : Nat
  overlap : Nat
  chunkSize_pos : 0 < chunkSize
  overlap_lt : overlap < chunkSize

/-- `token.endswith((".", "!", "?", ":"))` -/
def endsSentence (token : List Char) : Bool :=
  token.getLast?.any fun c => c == '.' || c == '!' || c == '?' || c == ':'

/-- A sentence ends with the word before this place. -/
def sentenceEndsAt (tokens : List (List Char)) : Nat → Bool
  | 0 => false
  | index + 1 => tokens[index]?.any endsSentence

/-- `tokens[start:end]` -/
def Window.tokens (window : Window) (tokens : List (List Char)) : List (List Char) :=
  (tokens.drop window.start).take (window.stop - window.start)

def Window.chunk (window : Window) (tokens : List (List Char)) : String :=
  String.ofList ([' '].intercalate (window.tokens tokens))

namespace RagIngestionPipeline

/-- The constructor. -/
def make (chunkSize overlap : Int) : Except PyError RagIngestionPipeline :=
  if bounds : 0 < chunkSize ∧ 0 ≤ overlap ∧ overlap < chunkSize then
    .ok { chunkSize := chunkSize.toNat, overlap := overlap.toNat
          chunkSize_pos := by omega
          overlap_lt := by omega }
  else .error (.valueError "chunk_size must be positive and overlap must be smaller")

variable (pipeline : RagIngestionPipeline) (tokens : List (List Char))

/-- Where the window that begins at `start` ends. -/
def windowEnd (start : Nat) : Nat :=
  let stop := min (start + pipeline.chunkSize) tokens.length
  if stop < tokens.length then
    let floor := start + max 1 (pipeline.chunkSize / 2)
    let boundaries := ((List.range' start (stop - start)).map (· + 1)).filter
      (sentenceEndsAt tokens)
    ((boundaries.filter (floor ≤ ·)).max?).getD (boundaries.max?.getD stop)
  else stop

/-- The loop of `_split`. -/
def windowsFrom (start : Nat) : List Window :=
  if start < tokens.length then
    let stop := pipeline.windowEnd tokens start
    ⟨start, stop⟩ ::
      if stop = tokens.length then []
      else windowsFrom (max (stop - pipeline.overlap) (start + 1))
  else []
termination_by tokens.length - start

def windows : List Window := pipeline.windowsFrom tokens 0

/-- `_split` -/
def split (text : String) : List String :=
  let tokens := splitTokens text.toList
  (pipeline.windows tokens).map fun window => window.chunk tokens

end RagIngestionPipeline

/-! ## Where a window ends -/

/-- The last sentence end past `start` and up to `stop`, or `stop` if there is none. -/
structure LastEnd (tokens : List (List Char)) (start stop place : Nat) : Prop where
  past : start < place
  inReach : place ≤ stop
  last : ∀ later, place < later → later ≤ stop → sentenceEndsAt tokens later = false
  found : sentenceEndsAt tokens place = true ∨
    place = stop ∧ ∀ earlier, start < earlier → earlier ≤ stop →
      sentenceEndsAt tokens earlier = false

/-- The last sentence end in reach is where the window ends. -/
theorem LastEnd.eq_of_last {tokens : List (List Char)} {start stop place last : Nat}
    (ends : LastEnd tokens start stop place) (past : start < last) (inReach : last ≤ stop)
    (isEnd : sentenceEndsAt tokens last = true)
    (noEnd : ∀ later, last < later → later ≤ stop → sentenceEndsAt tokens later = false) :
    place = last := by
  rcases Nat.lt_trichotomy place last with less | same | more
  · have none := ends.last last less inReach
    rw [isEnd] at none
    cases none
  · exact same
  · rcases ends.found with isEnd' | ⟨_, none⟩
    · have none := noEnd place more ends.inReach
      rw [isEnd'] at none
      cases none
    · have none := none last past inReach
      rw [isEnd] at none
      cases none

/-- Asking for a large element first changes nothing about the largest. -/
theorem max?_filter_getD (places : List Nat) (floor default : Nat) :
    ((places.filter (floor ≤ ·)).max?).getD (places.max?.getD default) =
      places.max?.getD default := by
  cases large : (places.filter (floor ≤ ·)).max? with
  | none => rfl
  | some best =>
      obtain ⟨member, largest⟩ := List.max?_eq_some_iff.mp large
      rw [List.mem_filter, decide_eq_true_eq] at member
      have isMax : places.max? = some best := by
        refine List.max?_eq_some_iff.mpr ⟨member.1, fun place inPlaces => ?_⟩
        by_cases high : floor ≤ place
        · exact largest place (List.mem_filter.mpr ⟨inPlaces, by simpa using high⟩)
        · omega
      rw [isMax]
      rfl

namespace RagIngestionPipeline

variable {pipeline : RagIngestionPipeline} {tokens : List (List Char)} {start : Nat}

theorem windowEnd_of_reach (reaches : tokens.length ≤ start + pipeline.chunkSize) :
    pipeline.windowEnd tokens start = tokens.length := by
  have stop : min (start + pipeline.chunkSize) tokens.length = tokens.length := by omega
  simp only [windowEnd, stop, Nat.lt_irrefl, if_false]

theorem windowEnd_lastEnd (short : start + pipeline.chunkSize < tokens.length) :
    LastEnd tokens start (start + pipeline.chunkSize) (pipeline.windowEnd tokens start) := by
  have stop : min (start + pipeline.chunkSize) tokens.length = start + pipeline.chunkSize := by
    omega
  have size := pipeline.chunkSize_pos
  have mem_boundaries : ∀ place,
      place ∈ ((List.range' start (start + pipeline.chunkSize - start)).map (· + 1)).filter
        (sentenceEndsAt tokens) ↔
      (start < place ∧ place ≤ start + pipeline.chunkSize) ∧
        sentenceEndsAt tokens place = true := by
    intro place
    rw [List.mem_filter, List.mem_map]
    refine and_congr_left fun _ => ⟨?_, fun bounds => ⟨place - 1, ?_, by omega⟩⟩
    · rintro ⟨index, member, rfl⟩
      rw [List.mem_range'_1] at member
      omega
    · rw [List.mem_range'_1]
      omega
  simp only [windowEnd, stop, short, if_true, max?_filter_getD]
  cases best : (((List.range' start (start + pipeline.chunkSize - start)).map (· + 1)).filter
      (sentenceEndsAt tokens)).max? with
  | none =>
      rw [List.max?_eq_none_iff] at best
      have noEnd : ∀ place, start < place → place ≤ start + pipeline.chunkSize →
          sentenceEndsAt tokens place = false := by
        intro place past inReach
        by_contra isEnd
        have member := (mem_boundaries place).mpr ⟨⟨past, inReach⟩, by simpa using isEnd⟩
        rw [best] at member
        cases member
      refine ⟨?_, Nat.le_refl _, ?_, Or.inr ⟨rfl, noEnd⟩⟩
      · exact Nat.lt_add_of_pos_right size
      · intro later past inReach
        exact absurd (past.trans_le inReach) (Nat.lt_irrefl _)
  | some place =>
      obtain ⟨member, largest⟩ := List.max?_eq_some_iff.mp best
      obtain ⟨⟨past, inReach⟩, isEnd⟩ := (mem_boundaries place).mp member
      refine ⟨past, inReach, ?_, Or.inl isEnd⟩
      intro later after inReach'
      by_contra isEnd'
      have bound := largest later
        ((mem_boundaries later).mpr ⟨⟨past.trans after, inReach'⟩, by simpa using isEnd'⟩)
      exact absurd (after.trans_le bound) (Nat.lt_irrefl _)

/-- A window holds a word at least, and `chunk_size` words at most. -/
theorem windowEnd_bounds (pipeline : RagIngestionPipeline) (inside : start < tokens.length) :
    start < pipeline.windowEnd tokens start ∧
      pipeline.windowEnd tokens start ≤ start + pipeline.chunkSize ∧
      pipeline.windowEnd tokens start ≤ tokens.length := by
  by_cases reaches : tokens.length ≤ start + pipeline.chunkSize
  · rw [windowEnd_of_reach reaches]
    exact ⟨inside, reaches, Nat.le_refl _⟩
  · have short := Nat.lt_of_not_le reaches
    have ends := windowEnd_lastEnd short
    exact ⟨ends.past, ends.inReach, ends.inReach.trans short.le⟩

/-! ## One window after another -/

/-- The loop goes on after the first window with the second. -/
structure Follows (pipeline : RagIngestionPipeline) (tokens : List (List Char))
    (window next : Window) : Prop where
  stop_eq : window.stop = pipeline.windowEnd tokens window.start
  short : window.stop < tokens.length
  past : window.start < window.stop
  next_start : next.start = max (window.stop - pipeline.overlap) (window.start + 1)
  next_stop : next.stop = pipeline.windowEnd tokens next.start

theorem windowsFrom_inside (inside : start < tokens.length) :
    pipeline.windowsFrom tokens start =
      ⟨start, pipeline.windowEnd tokens start⟩ ::
        if pipeline.windowEnd tokens start = tokens.length then []
        else pipeline.windowsFrom tokens
          (max (pipeline.windowEnd tokens start - pipeline.overlap) (start + 1)) := by
  rw [windowsFrom, if_pos inside]

theorem windowsFrom_head (inside : start < tokens.length) :
    (pipeline.windowsFrom tokens start).head? =
      some ⟨start, pipeline.windowEnd tokens start⟩ := by
  rw [windowsFrom_inside inside, List.head?_cons]

theorem windowsFrom_chain (start : Nat) :
    (pipeline.windowsFrom tokens start).IsChain (pipeline.Follows tokens) := by
  induction start using windowsFrom.induct pipeline tokens with
  | case1 start inside stop ih =>
      obtain ⟨past, _, within⟩ := windowEnd_bounds pipeline inside
      rw [windowsFrom_inside inside]
      split
      · exact List.isChain_singleton _
      · rename_i goesOn
        have short : pipeline.windowEnd tokens start < tokens.length :=
          lt_of_le_of_ne within goesOn
        refine ih.cons fun next first => ?_
        have nextInside : max (pipeline.windowEnd tokens start - pipeline.overlap) (start + 1) <
            tokens.length := by omega
        rw [windowsFrom_head nextInside, Option.mem_some_iff] at first
        subst first
        exact ⟨rfl, short, past, rfl, rfl⟩
  | case2 start outside =>
      rw [windowsFrom, if_neg outside]
      exact List.isChain_nil

/-- The next window begins later, leaves no gap, and shares `overlap` words at most. -/
theorem Follows.steps {window next : Window} (follows : pipeline.Follows tokens window next) :
    window.start < next.start ∧ next.start ≤ window.stop ∧
      window.stop - next.start ≤ pipeline.overlap := by
  obtain ⟨_, _, past, next_start, _⟩ := follows
  omega

/-- The next window ends no earlier. -/
theorem Follows.stop_le {window next : Window} (follows : pipeline.Follows tokens window next) :
    window.stop ≤ next.stop := by
  have steps := follows.steps
  obtain ⟨stop_eq, short, past, next_start, next_stop⟩ := follows
  have inside : next.start < tokens.length := by omega
  have bounds := windowEnd_bounds pipeline inside
  by_cases reaches : tokens.length ≤ next.start + pipeline.chunkSize
  · rw [next_stop, windowEnd_of_reach reaches]
    exact short.le
  · have ends := windowEnd_lastEnd (Nat.lt_of_not_le reaches)
    have shorter : window.start + pipeline.chunkSize < tokens.length := by omega
    have before := windowEnd_lastEnd shorter
    rw [← stop_eq] at before
    rw [← next_stop] at ends bounds
    by_contra less
    have reach := before.inReach
    rcases before.found with isEnd | ⟨atReach, noEnd⟩
    · have none := ends.last window.stop (by omega) (by omega)
      rw [isEnd] at none
      cases none
    · rcases ends.found with isEnd | ⟨atReach', _⟩
      · have none := noEnd next.stop (by omega) (by omega)
        rw [isEnd] at none
        cases none
      · omega

end RagIngestionPipeline

end ProductionRag
