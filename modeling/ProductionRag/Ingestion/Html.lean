import ProductionRag.Basis.Depth
import ProductionRag.Basis.Regex
import ProductionRag.Python

/-!
# Text of an HTML page

`_TextExtractor` sees start tags, end tags and text.  One counter says how deep it is inside
elements that are skipped, whatever their names.  An end tag of another skipped name therefore
closes what it did not open, and the text after it comes out.
-/

set_option autoImplicit false

namespace ProductionRag

open Basis

/-! ## The extractor -/

/-- What `HTMLParser` reports; an empty tag is a start tag with its end tag. -/
inductive HtmlEvent where
  | startTag (tag : String) (attrs : List (String × Option String))
  | endTag (tag : String)
  | data (text : String)
  deriving DecidableEq, Repr

structure TextExtractor where
  parts : List String := []
  skipDepth : Nat := 0
  deriving DecidableEq, Repr

namespace TextExtractor

def skipped : List String := ["script", "style", "noscript", "template", "svg", "head"]

def blocks : List String :=
  ["p", "div", "br", "li", "tr", "h1", "h2", "h3", "h4", "h5", "h6", "section", "title"]

def handleStarttag (extractor : TextExtractor) (tag : String)
    (_attrs : List (String × Option String)) : TextExtractor :=
  if tag ∈ skipped then { extractor with skipDepth := extractor.skipDepth + 1 }
  else if tag ∈ blocks then { extractor with parts := extractor.parts ++ ["\n"] }
  else extractor

def handleEndtag (extractor : TextExtractor) (tag : String) : TextExtractor :=
  if tag ∈ skipped ∧ extractor.skipDepth ≠ 0 then
    { extractor with skipDepth := extractor.skipDepth - 1 }
  else if tag ∈ blocks then { extractor with parts := extractor.parts ++ ["\n"] }
  else extractor

def handleData (extractor : TextExtractor) (text : String) : TextExtractor :=
  if extractor.skipDepth = 0 then { extractor with parts := extractor.parts ++ [text] }
  else extractor

def handle (extractor : TextExtractor) : HtmlEvent → TextExtractor
  | .startTag tag attrs => extractor.handleStarttag tag attrs
  | .endTag tag => extractor.handleEndtag tag
  | .data text => extractor.handleData text

def feed (events : List HtmlEvent) : TextExtractor := events.foldl handle {}

theorem skipDepth_handleStarttag (extractor : TextExtractor) (tag : String)
    (attrs : List (String × Option String)) :
    (extractor.handleStarttag tag attrs).skipDepth =
      if tag ∈ skipped then extractor.skipDepth + 1 else extractor.skipDepth := by
  rw [handleStarttag]
  split
  · rfl
  · split <;> rfl

/-- An end tag outside of everything skipped leaves the counter at zero. -/
theorem skipDepth_handleEndtag (extractor : TextExtractor) (tag : String) :
    (extractor.handleEndtag tag).skipDepth =
      if tag ∈ skipped then extractor.skipDepth - 1 else extractor.skipDepth := by
  have blank : (if tag ∈ blocks then { extractor with parts := extractor.parts ++ ["\n"] }
      else extractor).skipDepth = extractor.skipDepth := by
    split <;> rfl
  rw [handleEndtag]
  by_cases isSkipped : tag ∈ skipped
  · by_cases outside : extractor.skipDepth = 0
    · rw [if_neg fun inside => inside.2 outside, blank, if_pos isSkipped, outside]
    · rw [if_pos ⟨isSkipped, outside⟩, if_pos isSkipped]
  · rw [if_neg fun inside => isSkipped inside.1, blank, if_neg isSkipped]

theorem skipDepth_handleData (extractor : TextExtractor) (text : String) :
    (extractor.handleData text).skipDepth = extractor.skipDepth := by
  rw [handleData]
  split <;> rfl

theorem feed_concat (events : List HtmlEvent) (last : HtmlEvent) :
    feed (events ++ [last]) = (feed events).handle last := by
  rw [feed, List.foldl_append]
  rfl

end TextExtractor

/-! ## Skipped elements -/

namespace HtmlEvent

/-- The skipped element that the event opens. -/
def opens : HtmlEvent → Option String
  | .startTag tag _ => if tag ∈ TextExtractor.skipped then some tag else none
  | _ => none

/-- The skipped element that the event closes. -/
def closes : HtmlEvent → Option String
  | .endTag tag => if tag ∈ TextExtractor.skipped then some tag else none
  | _ => none

theorem opens_apart (event : HtmlEvent) (name : String) (isOpening : event.opens = some name) :
    event.closes = none := by
  cases event with
  | startTag tag attrs => rfl
  | endTag tag => cases isOpening
  | data text => cases isOpening

end HtmlEvent

/-- The skipped elements that are open after the events, each closed by its own end tag only. -/
def openElements (events : List HtmlEvent) : List String :=
  opened HtmlEvent.opens HtmlEvent.closes events

namespace TextExtractor

/-- The counter of the extractor does not tell the names apart. -/
theorem skipDepth_feed (events : List HtmlEvent) :
    (feed events).skipDepth =
      level (fun event => event.opens.isSome) (fun event => event.closes.isSome) events := by
  induction events using List.reverseRecOn with
  | nil => rfl
  | append_singleton events last ih =>
      rw [feed_concat, level_concat, ← ih, levelStep]
      cases last with
      | startTag tag attrs =>
          rw [handle, skipDepth_handleStarttag]
          by_cases isSkipped : tag ∈ skipped
          · simp [HtmlEvent.opens, isSkipped]
          · simp [HtmlEvent.opens, HtmlEvent.closes, isSkipped]
      | endTag tag =>
          rw [handle, skipDepth_handleEndtag]
          by_cases isSkipped : tag ∈ skipped
          · simp [HtmlEvent.opens, HtmlEvent.closes, isSkipped]
          · simp [HtmlEvent.opens, HtmlEvent.closes, isSkipped]
      | data text =>
          rw [handle, skipDepth_handleData]
          rfl

/-- The text comes out. -/
def Emits (before : List HtmlEvent) (text : String) : Prop :=
  (feed (before ++ [.data text])).parts = (feed before).parts ++ [text]

theorem emits_iff {before : List HtmlEvent} {text : String} :
    Emits before text ↔ (feed before).skipDepth = 0 := by
  rw [Emits, feed_concat]
  constructor
  · intro emitted
    by_contra inside
    rw [handle, handleData, if_neg inside] at emitted
    have lengths := congrArg List.length emitted
    rw [List.length_append, List.length_singleton] at lengths
    omega
  · intro outside
    rw [handle, handleData, if_pos outside]

/-- Text outside of all skipped elements is never lost. -/
theorem emits_of_closed {before : List HtmlEvent} (closed : openElements before = [])
    (text : String) : Emits before text := by
  have bound : (feed before).skipDepth ≤ (openElements before).length := by
    rw [skipDepth_feed]
    exact level_le_length_opened before
  rw [closed, List.length_nil, Nat.le_zero] at bound
  exact emits_iff.mpr bound

/-- Since some point more elements of the name were opened than closed. -/
def LeftOpen (name : String) (before : List HtmlEvent) : Prop :=
  ∃ recent, recent <:+ before ∧ recent.countP (fun event => event.closes == some name) <
    recent.countP (fun event => event.opens == some name)

/-- Since some point there were more start tags of skipped elements than end tags. -/
def Counted (before : List HtmlEvent) : Prop :=
  ∃ recent, recent <:+ before ∧ recent.countP (fun event => event.closes.isSome) <
    recent.countP (fun event => event.opens.isSome)

theorem openElements_ne_nil_iff {before : List HtmlEvent} :
    openElements before ≠ [] ↔ ∃ name, LeftOpen name before := by
  have apart : ∀ (name : String) (event : HtmlEvent), (event.opens == some name) = true →
      (event.closes == some name) = false := by
    intro name event isOpening
    rw [HtmlEvent.opens_apart event name (beq_iff_eq.mp isOpening)]
    rfl
  have ofName : ∀ name, name ∈ openElements before ↔ LeftOpen name before := by
    intro name
    rw [← List.count_pos_iff, openElements, count_opened HtmlEvent.opens_apart,
      lt_level_iff (apart name)]
    simp only [Nat.add_zero, LeftOpen]
  constructor
  · intro isOpen
    obtain ⟨name, member⟩ := List.exists_mem_of_ne_nil _ isOpen
    exact ⟨name, (ofName name).mp member⟩
  · rintro ⟨name, left⟩
    exact List.ne_nil_of_mem ((ofName name).mpr left)

theorem emits_iff_not_counted {before : List HtmlEvent} {text : String} :
    Emits before text ↔ ¬ Counted before := by
  have apart : ∀ event : HtmlEvent, event.opens.isSome = true → event.closes.isSome = false := by
    intro event isOpening
    obtain ⟨name, isName⟩ := Option.isSome_iff_exists.mp isOpening
    rw [HtmlEvent.opens_apart event name isName]
    rfl
  have positive : 0 < (feed before).skipDepth ↔ Counted before := by
    rw [skipDepth_feed, lt_level_iff apart]
    simp only [Nat.add_zero, Counted]
  rw [emits_iff, ← positive]
  omega

/-- Every text comes out exactly if no skipped element is open where it stands. -/
def SkipsExactly (events : List HtmlEvent) : Prop :=
  ∀ before text after, events = before ++ .data text :: after →
    (Emits before text ↔ openElements before = [])

/-- Elements that are closed in turn are skipped exactly. -/
theorem skipsExactly_of_closedInTurn {events : List HtmlEvent}
    (inTurn : ClosedInTurn HtmlEvent.opens HtmlEvent.closes events) : SkipsExactly events := by
  intro before text after whole
  have earlier : ClosedInTurn HtmlEvent.opens HtmlEvent.closes before := by
    rw [whole] at inTurn
    exact inTurn.of_append
  rw [emits_iff, skipDepth_feed, earlier.level_eq, List.length_eq_zero_iff]
  rfl

/-- The extractor skips exactly if, wherever text follows a skipped element that was left open,
the skipped start tags are still ahead of all skipped end tags. -/
theorem skips_exactly_iff (events : List HtmlEvent) :
    SkipsExactly events ↔
      ∀ before text after, events = before ++ .data text :: after →
        ∀ name, LeftOpen name before → Counted before := by
  constructor
  · intro exact before text after whole name left
    by_contra lost
    have emitted : Emits before text := emits_iff_not_counted.mpr lost
    exact openElements_ne_nil_iff.mpr ⟨name, left⟩ ((exact before text after whole).mp emitted)
  · intro counted before text after whole
    constructor
    · intro emitted
      by_contra isOpen
      obtain ⟨name, left⟩ := openElements_ne_nil_iff.mp isOpen
      exact emits_iff_not_counted.mp emitted (counted before text after whole name left)
    · intro closed
      exact emits_of_closed closed text

/-- The end tag of another skipped name lets the text of a template out. -/
theorem template_text_emitted :
    ¬ SkipsExactly
      [.startTag "template" [], .endTag "svg", .data "secret", .endTag "template"] := by
  intro claimed
  have emitted : Emits [.startTag "template" [], .endTag "svg"] "secret" := by
    rw [Emits]
    decide
  have closed := (claimed [.startTag "template" [], .endTag "svg"] "secret" [.endTag "template"]
    rfl).mp emitted
  revert closed
  decide

end TextExtractor

/-! ## The page -/

/-- `\n\s*\n+` -/
def blankLines : Regex Char :=
  .seq (.char (· == '\n')) (.seq (.star (.char isSpace)) (.plus (.char (· == '\n'))))

def maxExtractedChars : Nat := 5000000

/-- `parse_html`, from the events on. -/
def parseHtml (events : List HtmlEvent) : List (Option Nat × String) :=
  let parts := (TextExtractor.feed events).parts
  let text := stripChars
    (blankLines.sub (fun _ => ['\n', '\n']) (parts.flatMap String.toList))
  [(none, String.ofList (text.take maxExtractedChars))]

/-- The characters of a text that are no white space. -/
def visible (text : List Char) : List Char := text.filter fun c => !isSpace c

theorem visible_eq_nil {text : List Char} (blank : text.all isSpace = true) :
    visible text = [] := by
  rw [visible, List.filter_eq_nil_iff]
  intro c member
  simp [List.all_eq_true.mp blank c member]

theorem visible_blankLines : ∀ text ∈ blankLines.language, visible text = [] := by
  have isBlank : ∀ c, (c == '\n') = true → isSpace c = true := by
    intro c isBreak
    rw [beq_iff_eq.mp isBreak]
    decide
  rintro _ ⟨_, ⟨c, first, rfl⟩, _, ⟨middle, inMiddle, _, ⟨_, ⟨d, second, rfl⟩, last, inLast, rfl⟩,
    rfl⟩, rfl⟩
  have middleBlank : middle.all isSpace = true := Regex.mem_star_char.mp inMiddle
  have lastBlank : last.all isSpace = true := by
    rw [List.all_eq_true]
    intro e member
    exact isBlank e (List.all_eq_true.mp (Regex.mem_star_char.mp inLast) e member)
  apply visible_eq_nil
  simp only [List.all_append, List.all_cons, List.all_nil, isBlank c first, isBlank d second,
    middleBlank, lastBlank, Bool.and_true]

theorem visible_dropWhile (text : List Char) : visible (text.dropWhile isSpace) = visible text := by
  induction text with
  | nil => rfl
  | cons c rest ih =>
      by_cases blank : isSpace c = true
      · rw [List.dropWhile_cons_of_pos blank, ih]
        simp [visible, blank]
      · rw [List.dropWhile_cons_of_neg blank]

theorem visible_stripChars (text : List Char) : visible (stripChars text) = visible text := by
  have reversed : ∀ text : List Char, visible text.reverse = (visible text).reverse := by
    intro text
    exact List.filter_reverse ..
  rw [stripChars, List.rdropWhile, reversed, visible_dropWhile, reversed, List.reverse_reverse,
    visible_dropWhile]

/-- Past the limit of a page its text is cut off; up to there nothing visible is lost or added. -/
theorem parseHtml_visible (events : List HtmlEvent) : ∃ text, parseHtml events = [(none, text)] ∧
    visible text.toList <+:
      (TextExtractor.feed events).parts.flatMap fun part => visible part.toList := by
  have silent : ∀ _ : List Char, visible ['\n', '\n'] = [] :=
    fun _ => visible_eq_nil (by decide)
  have substituted := @Regex.filter_sub Char blankLines rfl (fun c => !isSpace c)
    (fun _ => ['\n', '\n']) visible_blankLines silent
    ((TextExtractor.feed events).parts.flatMap String.toList)
  refine ⟨_, rfl, ?_⟩
  rw [String.toList_ofList]
  refine ((List.take_prefix maxExtractedChars _).filter _).trans ?_
  rw [← visible, visible_stripChars, visible, substituted, List.filter_flatMap]
  exact List.prefix_rfl

end ProductionRag
