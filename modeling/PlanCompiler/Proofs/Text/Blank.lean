import PlanCompiler.Text.Blank
import PlanCompiler.Text.Quoted

/-!
# Trimmed lines

Trimming leaves exactly the texts alone that have no blank at either end, and its results are
such texts. A text is divided at its line feeds, so no line has one.

## Main definitions

* `Text.IsTrimmed`: a text is not empty and has no blank at either end.

## Main results

* `Text.trim_eq_self`, `Text.isTrimmed_trim`: what trimming leaves alone;
* `Text.lines_append`: the first line of a text;
* `Text.newline_notMem_of_mem_lines`: lines have no line feeds.
-/

namespace PlanCompiler.Text

/-- A text is not empty and has no blank at either end. -/
def IsTrimmed (chars : List Char) : Prop :=
  chars ≠ [] ∧ (∀ c ∈ chars.head?, isBlank c = false) ∧ ∀ c ∈ chars.getLast?, isBlank c = false

instance (chars : List Char) : Decidable (IsTrimmed chars) :=
  @instDecidableAnd _ _ _ (@instDecidableAnd _ _ (Option.decidableForallMem chars.head?)
    (Option.decidableForallMem chars.getLast?))

/-! ## Trimming -/

/-- A text that starts with no blank loses nothing at its start. -/
theorem dropWhile_eq_self {chars : List Char} (h : ∀ c ∈ chars.head?, isBlank c = false) :
    chars.dropWhile isBlank = chars := by
  cases chars with
  | nil => rfl
  | cons c rest => rw [List.dropWhile_cons_of_neg (by simp [h c rfl])]

/-- A trimmed text is trimmed to itself. -/
theorem trim_eq_self {chars : List Char} (h : IsTrimmed chars) : trim chars = chars := by
  rw [trim, dropWhile_eq_self h.2.1, dropWhile_eq_self, List.reverse_reverse]
  rw [List.head?_reverse]
  exact h.2.2

/-- Dropping blanks leaves none in front. -/
theorem isBlank_head_dropWhile {chars : List Char} {c : Char}
    (h : c ∈ (chars.dropWhile isBlank).head?) : isBlank c = false := by
  induction chars with
  | nil => cases h
  | cons first rest ih =>
    by_cases blank : isBlank first = true
    · rw [List.dropWhile_cons_of_pos blank] at h
      exact ih h
    · rw [List.dropWhile_cons_of_neg blank] at h
      cases h
      simpa using blank

/-- Trimming drops the leading blanks and some characters at the end. -/
theorem exists_dropWhile_eq_trim_append (chars : List Char) :
    ∃ dropped, chars.dropWhile isBlank = trim chars ++ dropped := by
  obtain ⟨taken, split⟩ :=
    List.dropWhile_suffix isBlank (l := (chars.dropWhile isBlank).reverse)
  exact ⟨taken.reverse, by rw [trim, ← List.reverse_append, split, List.reverse_reverse]⟩

/-- What is left by trimming is trimmed. -/
theorem isTrimmed_trim {chars : List Char} (nonempty : trim chars ≠ []) :
    IsTrimmed (trim chars) := by
  refine ⟨nonempty, fun c first => ?_, fun c last => ?_⟩
  · -- the first character is still that of the text without leading blanks
    apply @isBlank_head_dropWhile chars
    obtain ⟨dropped, whole⟩ := exists_dropWhile_eq_trim_append chars
    rw [whole, List.head?_append, first]
    rfl
  · rw [trim, List.getLast?_reverse] at last
    exact isBlank_head_dropWhile last

/-- A text has a last character, which is no blank. -/
def EndsFilled (chars : List Char) : Prop :=
  ∃ front last, chars = front ++ [last] ∧ isBlank last = false

/-- How a text ends does not depend on what is in front. -/
theorem EndsFilled.append {others : List Char} (chars : List Char) (h : EndsFilled others) :
    EndsFilled (chars ++ others) := by
  obtain ⟨front, last, rfl, filled⟩ := h
  exact ⟨chars ++ front, last, (List.append_assoc _ _ _).symm, filled⟩

/-- A text with no blank at either end is trimmed. -/
theorem EndsFilled.isTrimmed {chars : List Char} (h : EndsFilled chars)
    (first : ∀ c ∈ chars.head?, isBlank c = false) : IsTrimmed chars := by
  obtain ⟨front, last, rfl, filled⟩ := h
  refine ⟨List.append_ne_nil_of_right_ne_nil _ (List.cons_ne_nil _ _), first, ?_⟩
  rw [List.getLast?_concat]
  rintro _ ⟨⟩
  exact filled

/-- A trimmed text ends with no blank. -/
theorem IsTrimmed.endsFilled {chars : List Char} (h : IsTrimmed chars) : EndsFilled chars :=
  ⟨_, _, (List.dropLast_concat_getLast h.1).symm, h.2.2 _ (List.getLast?_eq_some_getLast h.1)⟩

/-- Trimming adds no characters. -/
theorem mem_of_mem_trim {chars : List Char} {c : Char} (h : c ∈ trim chars) : c ∈ chars := by
  rw [trim, List.mem_reverse] at h
  exact (List.dropWhile_sublist _).mem (List.mem_reverse.1 ((List.dropWhile_sublist _).mem h))

/-- Leading blanks are dropped first. -/
theorem trim_cons_of_isBlank {c : Char} {chars : List Char} (h : isBlank c = true) :
    trim (c :: chars) = trim chars := by
  rw [trim, trim, List.dropWhile_cons_of_pos h]

/-! ## Lines -/

/-- A line is divided from the rest at its line feed. -/
theorem lines_append {line rest : List Char} (h : '\n' ∉ line) :
    lines (line ++ '\n' :: rest) = line :: lines rest := by
  induction line with
  | nil => rfl
  | cons c line ih =>
    rw [List.mem_cons, not_or] at h
    rw [List.cons_append, lines, if_neg (Ne.symm h.1), ih h.2]

/-- A line has no line feed. -/
theorem newline_notMem_of_mem_lines {chars line : List Char} (h : line ∈ lines chars) :
    '\n' ∉ line := by
  induction chars generalizing line with
  | nil => cases h
  | cons c rest ih =>
    rw [lines] at h
    by_cases newline : c = '\n'
    · rw [if_pos newline] at h
      rcases List.mem_cons.1 h with rfl | h
      · exact List.not_mem_nil
      · exact ih h
    -- the character joins the first of the other lines
    · rw [if_neg newline] at h
      cases others : lines rest with
      | nil =>
        rw [others] at h
        obtain rfl := List.mem_singleton.1 h
        rw [List.mem_singleton]
        exact Ne.symm newline
      | cons first others' =>
        rw [others] at h ih
        rcases List.mem_cons.1 h with rfl | h
        · rw [List.mem_cons, not_or]
          exact ⟨Ne.symm newline, ih List.mem_cons_self⟩
        · exact ih (List.mem_cons_of_mem _ h)

/-! ## Quotes -/

/-- Doubling quotes adds no other characters. -/
theorem mem_of_mem_doubleQuotes {chars : List Char} {c : Char} (h : c ∈ doubleQuotes chars) :
    c ∈ chars := by
  induction chars with
  | nil => exact h
  | cons first rest ih =>
    rw [doubleQuotes] at h
    -- only quotes are doubled, and a doubled quote was one
    split at h
    · rename_i quote
      rw [List.mem_cons, List.mem_cons] at h
      rcases h with rfl | rfl | h
      · exact List.mem_cons.2 (Or.inl quote.symm)
      · exact List.mem_cons.2 (Or.inl quote.symm)
      · exact List.mem_cons_of_mem _ (ih h)
    · rcases List.mem_cons.1 h with rfl | h
      · exact List.mem_cons_self
      · exact List.mem_cons_of_mem _ (ih h)

/-- A quoted text has its quotes around it, and those in it doubled. -/
theorem toList_quoted (text : String) :
    (quoted text).toList = '\'' :: (doubleQuotes text.toList ++ ['\'']) := by
  simp [quoted]

end PlanCompiler.Text
