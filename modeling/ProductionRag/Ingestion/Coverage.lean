import ProductionRag.Ingestion.Split

/-!
# What the chunks cover

The chunks of a text hold all of its words, in order, and share `overlap` words with their
neighbours at most.  A chunk adds nothing to the one before it when it ends at the same
sentence end, and that happens exactly when the next sentence end is out of reach.
-/

set_option autoImplicit false

namespace ProductionRag

open Basis

namespace RagIngestionPipeline

variable {pipeline : RagIngestionPipeline} {tokens : List (List Char)} {start : Nat}

/-- Windows over `count` words, without gaps. -/
structure Cover (pipeline : RagIngestionPipeline) (count : Nat) (windows : List Window) :
    Prop where
  first : ∀ window ∈ windows.head?, window.start = 0
  last : windows.getLast?.map (·.stop) = if count = 0 then none else some count
  few : windows.length ≤ count
  sizes : ∀ window ∈ windows,
    1 ≤ window.stop - window.start ∧ window.stop - window.start ≤ pipeline.chunkSize
  steps : windows.IsChain fun window next =>
    window.start < next.start ∧ next.start ≤ window.stop ∧
      window.stop - next.start ≤ pipeline.overlap

theorem mem_windowsFrom {window : Window} (member : window ∈ pipeline.windowsFrom tokens start) :
    window.start < tokens.length ∧ window.stop = pipeline.windowEnd tokens window.start := by
  induction start using windowsFrom.induct pipeline tokens with
  | case1 start inside stop ih =>
      rw [windowsFrom_inside inside] at member
      rcases List.mem_cons.mp member with rfl | later
      · exact ⟨inside, rfl⟩
      · split at later
        · cases later
        · exact ih later
  | case2 start outside =>
      rw [windowsFrom, if_neg outside] at member
      cases member

theorem windowsFrom_last (inside : start < tokens.length) :
    (pipeline.windowsFrom tokens start).getLast?.map (·.stop) = some tokens.length := by
  induction start using windowsFrom.induct pipeline tokens with
  | case1 start _ stop ih =>
      obtain ⟨past, _, within⟩ := windowEnd_bounds pipeline inside
      rw [windowsFrom_inside inside]
      split
      · rename_i ended
        rw [ended]
        rfl
      · rename_i goesOn
        have last := ih (by omega)
        rw [List.getLast?_cons]
        cases later : (pipeline.windowsFrom tokens (max (pipeline.windowEnd tokens start -
            pipeline.overlap) (start + 1))).getLast? with
        | none =>
            rw [later] at last
            cases last
        | some window =>
            rw [later] at last
            exact last
  | case2 start outside => exact absurd inside outside

/-- Every round moves the start on. -/
theorem length_windowsFrom (start : Nat) :
    (pipeline.windowsFrom tokens start).length ≤ tokens.length - start := by
  induction start using windowsFrom.induct pipeline tokens with
  | case1 start inside stop ih =>
      rw [windowsFrom_inside inside, List.length_cons]
      split
      · simp only [List.length_nil]
        omega
      · change (pipeline.windowsFrom tokens (max (pipeline.windowEnd tokens start -
          pipeline.overlap) (start + 1))).length ≤ _ at ih
        omega
  | case2 start outside =>
      rw [windowsFrom, if_neg outside]
      exact Nat.zero_le _

theorem windows_cover (pipeline : RagIngestionPipeline) (tokens : List (List Char)) :
    pipeline.Cover tokens.length (pipeline.windows tokens) where
  first := by
    intro window first
    rw [windows] at first
    by_cases inside : 0 < tokens.length
    · rw [windowsFrom_head inside, Option.mem_some_iff] at first
      exact first ▸ rfl
    · rw [windowsFrom, if_neg inside] at first
      cases first
  last := by
    rw [windows]
    by_cases inside : 0 < tokens.length
    · rw [windowsFrom_last inside, if_neg (Nat.ne_of_gt inside)]
    · rw [windowsFrom, if_neg inside, if_pos (by omega)]
      rfl
  few := length_windowsFrom 0
  sizes := by
    intro window member
    obtain ⟨inside, stop⟩ := mem_windowsFrom member
    have bounds := windowEnd_bounds pipeline inside
    rw [stop]
    omega
  steps := (windowsFrom_chain 0).imp fun _ _ follows => follows.steps

/-! ## The words come back -/

/-- The words of the chunks, each without those of the chunk before it. -/
def withoutOverlaps : Nat → List (Window × String) → List (List Char)
  | _, [] => []
  | stop, (window, chunk) :: rest =>
    (splitTokens chunk.toList).drop (stop - window.start) ++ withoutOverlaps window.stop rest

theorem splitTokens_chunk (areRuns : ∀ token ∈ tokens, IsRun isSpace token) (window : Window) :
    splitTokens (window.chunk tokens).toList = window.tokens tokens := by
  rw [splitTokens_eq, Window.chunk, String.toList_ofList]
  refine runs_intercalate_words (by decide) fun token member => areRuns token ?_
  exact List.mem_of_mem_drop (List.mem_of_mem_take member)

/-- What a window adds to the words before it. -/
theorem drop_window (tokens : List (List Char)) (window : Window) {stop : Nat}
    (begins : window.start ≤ stop) (ends : stop ≤ window.stop) :
    (window.tokens tokens).drop (stop - window.start) ++ tokens.drop window.stop =
      tokens.drop stop := by
  rw [Window.tokens, List.drop_take, List.drop_drop]
  have same : window.start + (stop - window.start) = stop := by omega
  have rest : tokens.drop window.stop =
      (tokens.drop stop).drop (window.stop - window.start - (stop - window.start)) := by
    rw [List.drop_drop]
    congr 1
    omega
  rw [same, rest, List.take_append_drop]

theorem withoutOverlaps_windowsFrom (areRuns : ∀ token ∈ tokens, IsRun isSpace token)
    (inside : start < tokens.length) :
    ∀ stop, start ≤ stop → stop ≤ pipeline.windowEnd tokens start →
      withoutOverlaps stop ((pipeline.windowsFrom tokens start).map fun window =>
        (window, window.chunk tokens)) = tokens.drop stop := by
  induction start using windowsFrom.induct pipeline tokens with
  | case1 start _ next ih =>
      intro stop begins ends
      obtain ⟨past, _, within⟩ := windowEnd_bounds pipeline inside
      rw [windowsFrom_inside inside, List.map_cons, withoutOverlaps, splitTokens_chunk areRuns]
      split
      · rename_i ended
        have whole := drop_window tokens ⟨start, tokens.length⟩ begins (ended ▸ ends)
        rw [List.drop_length] at whole
        rw [ended]
        exact whole
      · rename_i goesOn
        have follows : pipeline.Follows tokens ⟨start, pipeline.windowEnd tokens start⟩
            ⟨max (pipeline.windowEnd tokens start - pipeline.overlap) (start + 1),
              pipeline.windowEnd tokens
                (max (pipeline.windowEnd tokens start - pipeline.overlap) (start + 1))⟩ :=
          ⟨rfl, lt_of_le_of_ne within goesOn, past, rfl, rfl⟩
        rw [ih (by omega) _ follows.steps.2.1 follows.stop_le]
        exact drop_window tokens _ begins ends
  | case2 start outside => exact absurd inside outside

/-- The chunks are windows over the words of the text, and the words come back from them. -/
theorem split_covers (pipeline : RagIngestionPipeline) (text : String) :
    let words := runs isSpace text.toList
    ∃ windows : List Window,
      pipeline.split text = windows.map (fun window =>
        String.ofList ([' '].intercalate
          ((words.drop window.start).take (window.stop - window.start)))) ∧
      pipeline.Cover words.length windows ∧
      withoutOverlaps 0 (windows.zip (pipeline.split text)) = words := by
  intro words
  have same : splitTokens text.toList = words := splitTokens_eq text.toList
  have areRuns : ∀ word ∈ words, IsRun isSpace word := fun _ member => isRun_of_mem_runs member
  refine ⟨pipeline.windows words, ?_, windows_cover pipeline words, ?_⟩
  · rw [split, same]
    rfl
  · rw [split, same, ← List.map_prod_left_eq_zip]
    by_cases inside : 0 < words.length
    · exact withoutOverlaps_windowsFrom areRuns inside 0 (Nat.le_refl 0) (Nat.zero_le _)
    · have none : words = [] := List.length_eq_zero_iff.mp (by omega)
      rw [none, windows, windowsFrom, if_neg (by simp)]
      rfl

/-! ## New words in every chunk -/

/-- Every window ends after the one before it. -/
def EndsIncrease (windows : List Window) : Prop :=
  windows.IsChain fun window next => window.stop < next.stop

/-- After a sentence end the next one, or the end of the text, is within reach of a window
that goes back `overlap` words, or to the second word. -/
def NextEndInReach (pipeline : RagIngestionPipeline) (tokens : List (List Char)) : Prop :=
  0 < pipeline.overlap → ∀ place, 2 ≤ place → sentenceEndsAt tokens place = true →
    let reach := max (place - pipeline.overlap) 1 + pipeline.chunkSize
    tokens.length ≤ reach ∨
      ∃ next, place < next ∧ next ≤ reach ∧ sentenceEndsAt tokens next = true

theorem Follows.stop_lt (inReach : pipeline.NextEndInReach tokens) {window next : Window}
    (follows : pipeline.Follows tokens window next) : window.stop < next.stop := by
  have steps := follows.steps
  obtain ⟨stop_eq, short, past, next_start, next_stop⟩ := follows
  have inside : next.start < tokens.length := by omega
  by_cases reaches : tokens.length ≤ next.start + pipeline.chunkSize
  · rw [next_stop, windowEnd_of_reach reaches]
    exact short
  · have ends := windowEnd_lastEnd (Nat.lt_of_not_le reaches)
    have shorter : window.start + pipeline.chunkSize < tokens.length := by omega
    have before := windowEnd_lastEnd shorter
    rw [← stop_eq] at before
    rw [← next_stop] at ends
    have after := ends.past
    have reach := before.inReach
    by_contra less
    rcases before.found with isEnd | ⟨_, noEnd⟩
    · -- the next sentence end is in reach, so the next window does not stop here
      rcases inReach (by omega) window.stop (by omega) isEnd with
        whole | ⟨place, past, near, isEnd'⟩
      · omega
      · have none := ends.last place (by omega) (by omega)
        rw [isEnd'] at none
        cases none
    · rcases ends.found with isEnd | ⟨atReach, _⟩
      · have none := noEnd next.stop (by omega) (by omega)
        rw [isEnd] at none
        cases none
      · omega

/-- A sentence end that leaves the next one out of reach ends two windows. -/
theorem not_endsIncrease_of_stuck {place : Nat} (overlaps : 0 < pipeline.overlap)
    (second : 2 ≤ place) (isEnd : sentenceEndsAt tokens place = true)
    (short : max (place - pipeline.overlap) 1 + pipeline.chunkSize < tokens.length)
    (noEnd : ∀ next, place < next →
      next ≤ max (place - pipeline.overlap) 1 + pipeline.chunkSize →
      sentenceEndsAt tokens next = false)
    (before : start < place) (early : start = 0 ∨ start + 1 ≤ place - pipeline.overlap) :
    ¬ EndsIncrease (pipeline.windowsFrom tokens start) := by
  have overlap_lt := pipeline.overlap_lt
  induction start using windowsFrom.induct pipeline tokens with
  | case1 start inside stop ih =>
      have shorter : start + pipeline.chunkSize < tokens.length := by omega
      have ends := windowEnd_lastEnd shorter
      have past := ends.past
      have reach := ends.inReach
      rw [windowsFrom_inside inside, if_neg (by omega)]
      by_cases far : start + pipeline.chunkSize < place
      · -- the window ends before the place, and the next one begins early enough
        have later := ih (by omega) (by omega)
        intro increase
        exact later increase.tail
      · -- this window ends at the place, and so does the next one
        have here : pipeline.windowEnd tokens start = place :=
          ends.eq_of_last before (by omega) isEnd fun next past near => noEnd next past (by omega)
        rw [here]
        have nextStart : max (place - pipeline.overlap) (start + 1) =
            max (place - pipeline.overlap) 1 := by omega
        rw [nextStart]
        have again : pipeline.windowEnd tokens (max (place - pipeline.overlap) 1) = place :=
          (windowEnd_lastEnd short).eq_of_last (by omega) (by omega) isEnd noEnd
        rw [windowsFrom_inside (by omega), again]
        intro increase
        exact absurd (List.isChain_cons_cons.mp increase).1 (Nat.lt_irrefl _)
  | case2 start outside => omega

/-- The ends increase exactly when after every sentence end the next one is within reach. -/
theorem ends_increase_iff (pipeline : RagIngestionPipeline) (text : String) :
    let words := splitTokens text.toList
    EndsIncrease (pipeline.windows words) ↔ pipeline.NextEndInReach words := by
  intro words
  constructor
  · intro increase overlaps place second isEnd
    by_contra outOfReach
    rw [not_or, not_exists] at outOfReach
    obtain ⟨short, noNext⟩ := outOfReach
    have noEnd : ∀ next, place < next →
        next ≤ max (place - pipeline.overlap) 1 + pipeline.chunkSize →
        sentenceEndsAt words next = false := by
      intro next past near
      by_contra isEnd'
      exact noNext next ⟨past, near, by simpa using isEnd'⟩
    exact not_endsIncrease_of_stuck overlaps second isEnd (Nat.lt_of_not_le short) noEnd
      (by omega) (Or.inl rfl) increase
  · intro inReach
    exact (windowsFrom_chain 0).imp fun _ _ follows => follows.stop_lt inReach

/-- Windows of four words that share three. -/
def fourWords : RagIngestionPipeline := ⟨4, 3, by decide, by decide⟩

/-- The second chunk, "b.", lies within the first, "a b.". -/
theorem second_chunk_adds_nothing :
    fourWords.split "a b. c d e f" = ["a b.", "b.", "c d e f"] ∧
      ¬ EndsIncrease (fourWords.windows (splitTokens "a b. c d e f".toList)) := by
  have windows : fourWords.windows (splitTokens "a b. c d e f".toList) =
      [⟨0, 2⟩, ⟨1, 2⟩, ⟨2, 6⟩] := by decide +kernel
  refine ⟨by decide +kernel, ?_⟩
  rw [windows]
  intro increase
  exact absurd (List.isChain_cons_cons.mp increase).1 (by decide)

end RagIngestionPipeline

end ProductionRag
