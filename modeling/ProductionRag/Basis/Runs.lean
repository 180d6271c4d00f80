import Mathlib.Data.List.Basic
import Mathlib.Data.List.TakeWhile
import Mathlib.Tactic.Common

/-!
# The words of a text

The maximal runs of a text between separators.  Whatever is cut at separators, or joined
by them again, has the same runs.
-/

set_option autoImplicit false

namespace Basis

universe u

variable {α : Type u}

/-- The runs of the text, the first of them continuing the given one. -/
def runsFrom (isSep : α → Bool) : List α → List α → List (List α)
  | run, [] => if run.isEmpty then [] else [run]
  | run, c :: rest =>
    if isSep c then
      if run.isEmpty then runsFrom isSep [] rest else run :: runsFrom isSep [] rest
    else runsFrom isSep (run ++ [c]) rest

/-- The maximal runs without separators. -/
def runs (isSep : α → Bool) (text : List α) : List (List α) := runsFrom isSep [] text

/-- A run: not empty, and without separators. -/
def IsRun (isSep : α → Bool) (word : List α) : Prop :=
  word ≠ [] ∧ ∀ c ∈ word, isSep c = false

section Runs

variable {isSep : α → Bool}

theorem runsFrom_append_sep (run first rest : List α) {c : α} (sep : isSep c = true) :
    runsFrom isSep run (first ++ c :: rest) = runsFrom isSep run first ++ runs isSep rest := by
  induction first generalizing run with
  | nil =>
      simp only [List.nil_append, runsFrom, sep, if_true, runs]
      split <;> rfl
  | cons d first ih =>
      simp only [List.cons_append, runsFrom]
      split
      · split
        · exact ih []
        · rw [ih [], List.cons_append]
      · exact ih _

/-- A separator ends a run. -/
theorem runs_append_sep (first rest : List α) {c : α} (sep : isSep c = true) :
    runs isSep (first ++ c :: rest) = runs isSep first ++ runs isSep rest :=
  runsFrom_append_sep [] first rest sep

theorem runs_cons_sep (rest : List α) {c : α} (sep : isSep c = true) :
    runs isSep (c :: rest) = runs isSep rest :=
  runs_append_sep [] rest sep

theorem runs_seps_append {seps : List α} (rest : List α) (all : ∀ c ∈ seps, isSep c = true) :
    runs isSep (seps ++ rest) = runs isSep rest := by
  induction seps with
  | nil => rfl
  | cons c seps ih =>
      obtain ⟨sep, others⟩ := List.forall_mem_cons.mp all
      rw [List.cons_append, runs_cons_sep _ sep, ih others]

theorem runs_append_seps {seps : List α} (first : List α) (all : ∀ c ∈ seps, isSep c = true) :
    runs isSep (first ++ seps) = runs isSep first := by
  cases seps with
  | nil => rw [List.append_nil]
  | cons c seps =>
      obtain ⟨sep, others⟩ := List.forall_mem_cons.mp all
      have blank := runs_seps_append [] others
      rw [List.append_nil] at blank
      rw [runs_append_sep first seps sep, blank]
      exact List.append_nil _

theorem runsFrom_word {run word : List α} (nonempty : run ++ word ≠ [])
    (free : ∀ c ∈ word, isSep c = false) : runsFrom isSep run word = [run ++ word] := by
  induction word generalizing run with
  | nil =>
      rw [List.append_nil] at nonempty ⊢
      rw [runsFrom, if_neg]
      simpa using nonempty
  | cons c word ih =>
      obtain ⟨notSep, others⟩ := List.forall_mem_cons.mp free
      rw [runsFrom, notSep, if_neg Bool.false_ne_true, ih (by simp) others, List.append_assoc]
      rfl

theorem runs_word {word : List α} (isRun : IsRun isSep word) : runs isSep word = [word] :=
  runsFrom_word isRun.1 isRun.2

theorem isRun_of_mem_runsFrom {run text word : List α} (free : ∀ c ∈ run, isSep c = false)
    (member : word ∈ runsFrom isSep run text) : IsRun isSep word := by
  induction text generalizing run with
  | nil =>
      simp only [runsFrom] at member
      split at member
      · cases member
      · rename_i nonempty
        obtain rfl := List.mem_singleton.mp member
        exact ⟨by simpa using nonempty, free⟩
  | cons c text ih =>
      simp only [runsFrom] at member
      split at member
      · split at member
        · exact ih (List.forall_mem_nil _) member
        · rename_i nonempty
          rcases List.mem_cons.mp member with rfl | later
          · exact ⟨by simpa using nonempty, free⟩
          · exact ih (List.forall_mem_nil _) later
      · rename_i notSep
        refine ih ?_ member
        intro d inRun
        rcases List.mem_append.mp inRun with before | last
        · exact free d before
        · rw [List.mem_singleton.mp last]
          simpa using notSep

theorem isRun_of_mem_runs {text word : List α} (member : word ∈ runs isSep text) :
    IsRun isSep word :=
  isRun_of_mem_runsFrom (List.forall_mem_nil _) member

/-- A text that begins with a run. -/
theorem runs_word_append {word : List α} (isRun : IsRun isSep word) (rest : List α) :
    runs isSep (word ++ rest) =
      (word ++ rest.takeWhile (!isSep ·)) :: runs isSep (rest.dropWhile (!isSep ·)) := by
  have first : IsRun isSep (word ++ rest.takeWhile (!isSep ·)) := by
    refine ⟨List.append_ne_nil_of_left_ne_nil isRun.1 _, fun c member => ?_⟩
    rcases List.mem_append.mp member with inWord | taken
    · exact isRun.2 c inWord
    · simpa using List.mem_takeWhile_imp taken
  have whole : word ++ rest =
      (word ++ rest.takeWhile (!isSep ·)) ++ rest.dropWhile (!isSep ·) := by
    rw [List.append_assoc, List.takeWhile_append_dropWhile]
  rw [whole]
  cases after : rest.dropWhile (!isSep ·) with
  | nil =>
      rw [List.append_nil, runs_word first]
      rfl
  | cons c later =>
      have sep : isSep c = true := by
        have some : rest.dropWhile (!isSep ·) ≠ [] := by simp [after]
        have stops := List.head_dropWhile_not (!isSep ·) some
        simpa [after] using stops
      rw [runs_append_sep _ _ sep, runs_word first, runs_cons_sep _ sep]
      rfl

/-- The first run of a text, and what comes after it. -/
theorem runs_eq_cons {text word : List α} {words : List (List α)}
    (same : runs isSep text = word :: words) :
    ∃ seps rest, text = seps ++ word ++ rest ∧ (∀ c ∈ seps, isSep c = true) ∧
      runs isSep rest = words := by
  have leading : ∀ c ∈ text.takeWhile isSep, isSep c = true := fun c member =>
    List.mem_takeWhile_imp member
  have whole : text = text.takeWhile isSep ++ text.dropWhile isSep :=
    List.takeWhile_append_dropWhile.symm
  rw [whole, runs_seps_append _ leading] at same
  cases after : text.dropWhile isSep with
  | nil =>
      rw [after] at same
      cases same
  | cons c rest =>
      have notSep : isSep c = false := by
        have some : text.dropWhile isSep ≠ [] := by simp [after]
        have stops := List.head_dropWhile_not isSep some
        simpa [after] using stops
      have isRun : IsRun isSep [c] := ⟨by simp, by simpa using notSep⟩
      rw [after, ← List.singleton_append, runs_word_append isRun, List.cons.injEq] at same
      obtain ⟨rfl, others⟩ := same
      refine ⟨text.takeWhile isSep, rest.dropWhile (!isSep ·), ?_, leading, others⟩
      conv_lhs => rw [whole, after]
      rw [List.append_assoc, List.append_assoc, List.takeWhile_append_dropWhile]
      rfl

/-- Lines joined by a separator have the runs of the lines. -/
theorem runs_intercalate {c : α} (sep : isSep c = true) (lines : List (List α)) :
    runs isSep ([c].intercalate lines) = lines.flatMap (runs isSep) := by
  induction lines with
  | nil => rfl
  | cons line lines ih =>
      cases lines with
      | nil => simp [List.intercalate]
      | cons next lines =>
          have joined : [c].intercalate (line :: next :: lines) =
              line ++ c :: [c].intercalate (next :: lines) := by
            simp [List.intercalate]
          rw [joined, runs_append_sep _ _ sep, ih]
          exact List.flatMap_cons.symm

/-- Joined runs fall apart into the same runs. -/
theorem runs_intercalate_words {c : α} (sep : isSep c = true) {words : List (List α)}
    (areRuns : ∀ word ∈ words, IsRun isSep word) :
    runs isSep ([c].intercalate words) = words := by
  rw [runs_intercalate sep]
  induction words with
  | nil => rfl
  | cons word words ih =>
      obtain ⟨first, others⟩ := List.forall_mem_cons.mp areRuns
      rw [List.flatMap_cons, runs_word first, ih others]
      rfl

end Runs

end Basis
