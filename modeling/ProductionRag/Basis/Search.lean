import ProductionRag.Basis.Regex

/-!
# Searching

Without word boundaries a search finds a word of the language anywhere in a text.  A word found
in two texts with a gap between them lies in one of the two or reaches across the gap, if no
word begins or ends with what the gap is made of.
-/

set_option autoImplicit false

namespace Basis

universe u

variable {α : Type u}

namespace Regex

theorem search_iff {r : Regex α} (free : r.boundaryFree = true) {text : List α} :
    r.search text = true ↔
      ∃ left word right, text = left ++ word ++ right ∧ word ∈ r.language := by
  rw [search, List.any_eq_true]
  constructor
  · rintro ⟨place, _, found⟩
    rw [Bool.not_eq_true', List.isEmpty_eq_false_iff_exists_mem] at found
    obtain ⟨next, member⟩ := found
    obtain ⟨word, inLanguage, whole, _⟩ :=
      (matches_iff_language free).mp (mem_ends_iff.mp member)
    have rest : text.drop place = word ++ next.rest := whole
    refine ⟨text.take place, word, next.rest, ?_, inLanguage⟩
    rw [List.append_assoc, ← rest, List.take_append_drop]
  · rintro ⟨left, word, right, rfl, inLanguage⟩
    refine ⟨left.length, ?_, ?_⟩
    · rw [List.mem_range, List.length_append, List.length_append]
      omega
    · rw [Bool.not_eq_true', List.isEmpty_eq_false_iff_exists_mem]
      refine ⟨Cursor.advance _ word right, mem_ends_iff.mpr
        ((matches_iff_language free).mpr ⟨word, inLanguage, ?_, rfl⟩)⟩
      rw [List.append_assoc, List.drop_left]
      rfl

/-- The word neither begins nor ends with an element of the class. -/
structure Edged (p : α → Bool) (word : List α) : Prop where
  first : ∃ c rest, word = c :: rest ∧ p c = false
  last : ∃ rest c, word = rest ++ [c] ∧ p c = false

theorem Edged.between {p : α → Bool} {left right : List α} (isLeft : Edged p left)
    (isRight : Edged p right) (middle : List α) : Edged p (left ++ middle ++ right) := by
  obtain ⟨c, rest, rfl, first⟩ := isLeft.first
  obtain ⟨rest', d, rfl, last⟩ := isRight.last
  exact ⟨⟨c, rest ++ middle ++ (rest' ++ [d]), rfl, first⟩,
    ⟨c :: rest ++ middle ++ rest', d, by simp only [List.append_assoc], last⟩⟩

theorem Edged.nil_of_append {p : α → Bool} {start gap : List α} (edged : Edged p (start ++ gap))
    (isGap : ∀ c ∈ gap, p c = true) : gap = [] := by
  obtain ⟨rest, c, same, other⟩ := edged.last
  rcases List.eq_nil_or_concat' gap with rfl | ⟨gap, d, rfl⟩
  · rfl
  · rw [← List.append_assoc] at same
    obtain ⟨_, last⟩ := List.append_inj' same rfl
    rw [← (List.cons.inj last).1, isGap d (by simp)] at other
    cases other

/-- What a search finds in two texts with a gap between them. -/
theorem search_between {p : α → Bool} {r : Regex α} (free : r.boundaryFree = true)
    (edged : ∀ word ∈ r.language, Edged p word) {left gap right : List α}
    (isGap : ∀ c ∈ gap, p c = true) :
    r.search (left ++ gap ++ right) = true ↔
      r.search left = true ∨ r.search right = true ∨
        ∃ start rest, start <:+ left ∧ rest <+: right ∧ start ++ gap ++ rest ∈ r.language := by
  rw [search_iff free, search_iff free, search_iff free]
  constructor
  · rintro ⟨before, word, after, whole, inLanguage⟩
    rw [List.append_assoc, List.append_assoc] at whole
    rcases List.append_eq_append_iff.mp whole with ⟨x, rfl, inside⟩ | ⟨x, rfl, inside⟩
    · -- The word begins behind the left text.
      rcases List.append_eq_append_iff.mp inside with ⟨y, rfl, rfl⟩ | ⟨y, rfl, tail⟩
      · exact .inr (.inl ⟨y, word, after, by rw [List.append_assoc], inLanguage⟩)
      · cases y with
        | nil => exact .inr (.inl ⟨[], word, after, tail.symm, inLanguage⟩)
        | cons c y =>
            obtain ⟨d, rest, rfl, other⟩ := (edged word inLanguage).first
            obtain ⟨rfl, _⟩ := List.cons.inj tail
            rw [isGap d (by simp)] at other
            cases other
    · -- It begins in the left text.
      rcases List.append_eq_append_iff.mp inside with ⟨y, rfl, rfl⟩ | ⟨y, rfl, tail⟩
      · exact .inl ⟨before, word, y, by rw [List.append_assoc], inLanguage⟩
      · rcases List.append_eq_append_iff.mp tail with ⟨z, rfl, rfl⟩ | ⟨z, rfl, rfl⟩
        · refine .inr (.inr ⟨x, z, List.suffix_append _ _, List.prefix_append _ _, ?_⟩)
          rwa [List.append_assoc]
        · have none : y = [] := (edged _ inLanguage).nil_of_append
            fun c member => isGap c (List.mem_append_left _ member)
          subst none
          rw [List.append_nil] at inLanguage
          exact .inl ⟨before, x, [], by rw [List.append_nil], inLanguage⟩
  · rintro (⟨before, word, after, rfl, inLanguage⟩ | ⟨before, word, after, rfl, inLanguage⟩ |
      ⟨start, rest, ⟨before, rfl⟩, ⟨after, rfl⟩, inLanguage⟩)
    · exact ⟨before, word, after ++ gap ++ right, by simp only [List.append_assoc], inLanguage⟩
    · exact ⟨left ++ gap ++ before, word, after, by simp only [List.append_assoc], inLanguage⟩
    · exact ⟨before, _, after, by simp only [List.append_assoc], inLanguage⟩

end Regex

end Basis
