import PlanCompiler.Plan.Token
import PlanCompiler.Proofs.Outcome
import PlanCompiler.Proofs.Text.Blank

/-!
# Tokens of printed text

What is printed is divided into the tokens that were meant, whatever stands around it, as long as
an atom or a quoted text is followed by a character that ends it.

## Main definitions

* `Token.Separates`: a text does not continue an atom or a quoted text before it;
* `Token.Scans`: a text is divided into certain tokens in front of every separating text.

## Main results

* `Token.Scans.mark`, `.blank`, `.atom`, `.quoted`, `.append`: how texts are put together;
* `Token.Scans.ofLine_eq`: the tokens of a whole line;
* `Token.newline_notMem_of_ofLine`: quoted texts of a line have no line feeds.
-/

namespace PlanCompiler.Token

/-- A character that ends an atom. -/
def isEnd (c : Char) : Bool := (mark? c).isSome || Text.isBlank c

/-- A text starts with a character that ends an atom, or is empty. -/
def Separates (chars : List Char) : Prop := ∀ c ∈ chars.head?, isEnd c = true

/-- A text is divided into certain tokens in front of every text that separates. -/
def Scans (chars : List Char) (tokens : List Token) : Prop :=
  ∀ column rest, Separates rest → ∃ column',
    scanGap column (chars ++ rest) = (scanGap column' rest).map (tokens ++ ·)

/-- A text that starts with the end of an atom separates. -/
theorem Separates.cons {c : Char} {chars : List Char} (h : isEnd c = true) :
    Separates (c :: chars) := by
  rintro _ ⟨⟩
  exact h

/-- Two texts that separate do so in a row. -/
theorem Separates.append {chars rest : List Char} (first : Separates chars)
    (second : Separates rest) : Separates (chars ++ rest) := by
  cases chars with
  | nil => exact second
  | cons c chars => exact .cons (first c rfl)

/-! ## Single characters -/

/-- A character goes on with an atom if it is neither a mark nor a blank. -/
theorem isEnd_eq_false_iff {c : Char} :
    isEnd c = false ↔ mark? c = none ∧ Text.isBlank c = false := by
  rw [isEnd, Bool.or_eq_false_iff, Option.isSome_eq_false_iff, Option.isNone_iff_eq_none]

/-- A blank is no mark. -/
theorem mark?_eq_none_of_isBlank {c : Char} (h : Text.isBlank c = true) : mark? c = none := by
  unfold mark?
  split <;> first | rfl | exact absurd h (by decide)

/-- A mark is no quote. -/
theorem ne_quote_of_mark? {c : Char} {token : Token} (h : mark? c = some token) : c ≠ '\'' := by
  rintro rfl
  cases h

/-- A blank is no quote. -/
theorem ne_quote_of_isBlank {c : Char} (h : Text.isBlank c = true) : c ≠ '\'' := by
  rintro rfl
  exact absurd h (by decide)

/-- Between tokens, a mark is a token by itself. -/
theorem scanGap_mark {column : Nat} {c : Char} {token : Token} {rest : List Char}
    (h : mark? c = some token) :
    scanGap column (c :: rest) = (scanGap (column + 1) rest).map (token :: ·) := by
  rw [scanGap, if_neg (ne_quote_of_mark? h), h]
  cases scanGap (column + 1) rest <;> rfl

/-- Between tokens, a blank is passed over. -/
theorem scanGap_blank {column : Nat} {c : Char} {rest : List Char} (h : Text.isBlank c = true) :
    scanGap column (c :: rest) = scanGap (column + c.utf8Size) rest := by
  rw [scanGap, if_neg (ne_quote_of_isBlank h), mark?_eq_none_of_isBlank h, if_pos h]

/-- An atom ends in front of a separating text. -/
theorem scanAtom_separates (column : Nat) (taken : List Char) {rest : List Char}
    (h : Separates rest) : ∃ column', scanAtom column taken rest =
      (scanGap column' rest).map (.atom (String.ofList taken.reverse) :: ·) := by
  cases rest with
  | nil => exact ⟨column, rfl⟩
  | cons c rest =>
    refine ⟨column, ?_⟩
    have isEnd := h c rfl
    rw [scanAtom]
    cases mark : mark? c with
    -- a mark ends the word as well as a blank does
    | some token =>
      rw [scanGap_mark mark]
      cases scanGap (column + 1) rest <;> rfl
    | none =>
      have blank : Text.isBlank c = true := by simpa [Token.isEnd, mark] using isEnd
      rw [scanGap_blank blank, if_pos blank]
      cases scanGap (column + c.utf8Size) rest <;> rfl

/-- An atom goes on to the end of its characters if a separating text follows. -/
theorem scanAtom_append (column : Nat) (taken : List Char) {chars rest : List Char}
    (inside : ∀ c ∈ chars, isEnd c = false) (h : Separates rest) :
    ∃ column', scanAtom column taken (chars ++ rest) =
      (scanGap column' rest).map (.atom (String.ofList (taken.reverse ++ chars)) :: ·) := by
  induction chars generalizing column taken with
  | nil =>
    rw [List.append_nil]
    exact scanAtom_separates column taken h
  | cons c chars ih =>
    have ⟨unmarked, filled⟩ := isEnd_eq_false_iff.1 (inside c List.mem_cons_self)
    obtain ⟨column', found⟩ := ih (column + c.utf8Size) (c :: taken) fun c' member =>
      inside c' (List.mem_cons_of_mem _ member)
    refine ⟨column', ?_⟩
    rw [List.cons_append, scanAtom, unmarked, if_neg (by simp [filled]), found, List.reverse_cons,
      List.append_assoc]
    rfl

/-- A text that separates starts with no quote. -/
theorem Separates.ne_quote {rest : List Char} (h : Separates rest) (others : List Char) :
    rest ≠ '\'' :: others := by
  rintro rfl
  exact absurd (h '\'' rfl) (by decide)

/-- A quoted text ends at a quote that no other quote follows. -/
theorem scanQuoted_close (start column : Nat) (taken : List Char) {rest : List Char}
    (single : ∀ others, rest ≠ '\'' :: others) : scanQuoted start column taken ('\'' :: rest) =
      (scanGap (column + 1) rest).map (.quoted (String.ofList taken.reverse) :: ·) := by
  rw [scanQuoted]
  · cases scanGap (column + 1) rest <;> rfl
  · exact single

/-- Any character but a quote goes on with a quoted text. -/
theorem scanQuoted_other (start column : Nat) (taken : List Char) {c : Char} {rest : List Char}
    (h : c ≠ '\'') : scanQuoted start column taken (c :: rest) =
      scanQuoted start (column + c.utf8Size) (c :: taken) rest := by
  rw [scanQuoted]
  · rintro others rfl
    exact absurd rfl h
  · rintro rfl
    exact absurd rfl h

/-- Inside a quoted text a quote is written twice. -/
theorem scanQuoted_append (start column : Nat) (taken : List Char) {chars rest : List Char}
    (h : Separates rest) :
    ∃ column', scanQuoted start column taken (Text.doubleQuotes chars ++ '\'' :: rest) =
      (scanGap column' rest).map (.quoted (String.ofList (taken.reverse ++ chars)) :: ·) := by
  induction chars generalizing column taken with
  | nil =>
    rw [Text.doubleQuotes, List.nil_append, List.append_nil]
    exact ⟨column + 1, scanQuoted_close start column taken h.ne_quote⟩
  | cons c chars ih =>
    rw [Text.doubleQuotes]
    -- a quote is written twice, so it does not end the text
    by_cases quote : c = '\''
    · obtain ⟨column', found⟩ := ih (column + 2) ('\'' :: taken)
      refine ⟨column', ?_⟩
      rw [if_pos quote, List.cons_append, List.cons_append, scanQuoted, found, quote,
        List.reverse_cons, List.append_assoc]
      rfl
    · obtain ⟨column', found⟩ := ih (column + c.utf8Size) (c :: taken)
      refine ⟨column', ?_⟩
      rw [if_neg quote, List.cons_append, scanQuoted_other _ _ _ quote, found, List.reverse_cons,
        List.append_assoc]
      rfl

/-! ## Texts and their tokens -/

namespace Scans

variable {chars others : List Char} {tokens more : List Token}

/-- The empty text has no tokens. -/
theorem nil : Scans [] [] := by
  intro column rest _
  refine ⟨column, ?_⟩
  cases found : scanGap column rest <;> simp [Except.map, found]

/-- A mark in front of a text adds its token. -/
theorem mark {c : Char} {token : Token} (h : mark? c = some token) (later : Scans chars tokens) :
    Scans (c :: chars) (token :: tokens) := by
  intro column rest separates
  obtain ⟨column', found⟩ := later (column + 1) rest separates
  refine ⟨column', ?_⟩
  rw [List.cons_append, scanGap_mark h, found]
  cases scanGap column' rest <;> rfl

/-- A blank in front of a text adds no token. -/
theorem blank {c : Char} (h : Text.isBlank c = true) (later : Scans chars tokens) :
    Scans (c :: chars) tokens := by
  intro column rest separates
  rw [List.cons_append, scanGap_blank h]
  exact later _ rest separates

/-- Characters that end no atom make one. -/
theorem atom (first : ∀ c ∈ chars.head?, c ≠ '\'') (nonempty : chars ≠ [])
    (inside : ∀ c ∈ chars, isEnd c = false) : Scans chars [.atom (String.ofList chars)] := by
  intro column rest separates
  obtain ⟨c, later, rfl⟩ := List.exists_cons_of_ne_nil nonempty
  have ⟨unmarked, filled⟩ := isEnd_eq_false_iff.1 (inside c List.mem_cons_self)
  obtain ⟨column', found⟩ := scanAtom_append (column + c.utf8Size) [c]
    (fun c' member => inside c' (List.mem_cons_of_mem _ member)) separates
  refine ⟨column', ?_⟩
  rw [List.cons_append, scanGap, if_neg (first c rfl), unmarked]
  dsimp only
  rw [if_neg (by simp [filled]), found]
  rfl

/-- A quoted text is read back from between its quotes. -/
theorem quoted (text : String) : Scans (Text.quoted text).toList [.quoted text] := by
  intro column rest separates
  obtain ⟨column', found⟩ := @scanQuoted_append column (column + 1) [] text.toList rest separates
  refine ⟨column', ?_⟩
  rw [Text.toList_quoted, List.cons_append, List.append_assoc, scanGap, if_pos rfl,
    List.singleton_append, found, List.reverse_nil, List.nil_append, String.ofList_toList]
  rfl

/-- Texts are scanned one after the other if the second one ends the first. -/
theorem append (first : Scans chars tokens) (second : Scans others more) (ends : Separates others) :
    Scans (chars ++ others) (tokens ++ more) := by
  intro column rest separates
  -- the second text ends the last token of the first, so that both can be scanned apart
  obtain ⟨column', found⟩ := first column (others ++ rest) (ends.append separates)
  obtain ⟨column'', found'⟩ := second column' rest separates
  refine ⟨column'', ?_⟩
  rw [List.append_assoc, found, found']
  cases scanGap column'' rest <;> simp [Except.map]

/-- The tokens of a whole line. -/
theorem ofLine_eq (h : Scans chars tokens) : ofLine chars = .ok tokens := by
  obtain ⟨column, found⟩ := h 1 [] nofun
  rw [List.append_nil] at found
  rw [ofLine, found]
  simp [scanGap, Except.map]

end Scans

/-! ## Words -/

/-- A text is a single atom. -/
def IsWord (s : String) : Prop :=
  s.toList ≠ [] ∧ (∀ c ∈ s.toList.head?, c ≠ '\'') ∧ ∀ c ∈ s.toList, isEnd c = false

instance (s : String) : Decidable (IsWord s) :=
  -- only the characters of the word are tried, not all characters
  @instDecidableAnd _ _ _ (@instDecidableAnd _ _ (Option.decidableForallMem s.toList.head?)
    (List.decidableBAll _ s.toList))

/-- The test of all characters, read for one of them. -/
theorem isEnd_eq_false_of_all {chars : List Char} (h : (chars.all fun c => !isEnd c) = true) :
    ∀ c ∈ chars, isEnd c = false := by
  simpa using h

/-- A word is divided into one atom. -/
theorem Scans.word {s : String} (h : IsWord s) : Scans s.toList [.atom s] := by
  have scans := Scans.atom h.2.1 h.1 h.2.2
  rwa [String.ofList_toList] at scans

/-- A text after a blank. -/
theorem Scans.operand {text : String} {others : List Char} {tokens more : List Token}
    (first : Scans text.toList tokens) (second : Scans others more) (separates : Separates others) :
    Scans (' ' :: (text.toList ++ others)) (tokens ++ more) :=
  .blank rfl (first.append second separates)

/-- An operation: a parenthesis, a word, the operands and a parenthesis. -/
theorem Scans.paren {word : String} {operands : List Char} {tokens : List Token} (h : IsWord word)
    (scans : Scans operands tokens) (separates : Separates operands) :
    Scans ('(' :: (word.toList ++ (operands ++ [')'])))
      (.openParen :: .atom word :: (tokens ++ [.closeParen])) := by
  have close : Scans [')'] [.closeParen] := .mark rfl .nil
  have closes : Separates [')'] := .cons rfl
  exact .mark rfl ((Scans.word h).append (scans.append close closes) (separates.append closes))

/-- A word goes on with characters that do not end it. -/
theorem IsWord.append {s t : String} (h : IsWord s) (inside : ∀ c ∈ t.toList, isEnd c = false) :
    IsWord (s ++ t) := by
  obtain ⟨nonempty, first, others⟩ := h
  obtain ⟨c, rest, chars⟩ := List.exists_cons_of_ne_nil nonempty
  rw [IsWord, String.toList_append, chars]
  rw [chars] at first others
  refine ⟨List.cons_ne_nil _ _, first, fun c member => ?_⟩
  rcases List.mem_append.1 member with member | member
  · exact others c member
  · exact inside c member

/-- Characters that cannot end an atom make up a word, unless a quote comes first. -/
theorem isWord_of_toList {s : String} {first : Char} {rest : List Char}
    (chars : s.toList = first :: rest) (quote : first ≠ '\'')
    (inside : ∀ c ∈ first :: rest, isEnd c = false) : IsWord s := by
  rw [IsWord, chars]
  refine ⟨List.cons_ne_nil _ _, ?_, inside⟩
  rintro _ ⟨⟩
  exact quote

/-- A word has no line feed. -/
theorem IsWord.newline_notMem {s : String} (h : IsWord s) : '\n' ∉ s.toList :=
  fun member => absurd (h.2.2 _ member) (by decide)

/-- A word ends with no blank. -/
theorem IsWord.endsFilled {s : String} (h : IsWord s) : Text.EndsFilled s.toList :=
  ⟨_, _, (List.dropLast_concat_getLast h.1).symm,
    (isEnd_eq_false_iff.1 (h.2.2 _ (List.getLast_mem h.1))).2⟩

/-- Letters and digits go on with an atom. -/
theorem isEnd_of_isAlphanum {c : Char} (h : c.isAlphanum = true) : isEnd c = false := by
  rw [isEnd_eq_false_iff]
  constructor
  · unfold mark?
    split <;> first | rfl | exact absurd h (by decide)
  -- letters and digits lie between the digit zero and the small z, where nothing is blank
  · have range : 48 ≤ c.toNat ∧ c.toNat ≤ 122 := by
      have ranges : ((decide ('A'.val ≤ c.val ∧ c.val ≤ 'Z'.val) ||
          (decide ('a'.val ≤ c.val) && decide (c.val ≤ 'z'.val))) ||
          (decide ('0'.val ≤ c.val) && decide (c.val ≤ '9'.val))) = true := h
      simp only [Bool.or_eq_true, Bool.and_eq_true, decide_eq_true_eq,
        UInt32.le_iff_toNat_le] at ranges
      simp at ranges
      have same : c.toNat = c.val.toNat := rfl
      omega
    simp only [Text.isBlank, Text.blankRanges, List.any_cons, List.any_nil]
    simp
    omega

/-- Digits go on with an atom. -/
theorem isEnd_of_isDigit {c : Char} (h : c.isDigit = true) : isEnd c = false :=
  isEnd_of_isAlphanum (by rw [Char.isAlphanum, h, Bool.or_true])

/-! ## The characters of quoted texts -/

/-- No quoted text has a line feed. -/
def OnOneLine (tokens : List Token) : Prop :=
  ∀ text, .quoted text ∈ tokens → '\n' ∉ text.toList

/-- A token in front adds no line feed unless it is a quoted text with one. -/
theorem OnOneLine.cons {token : Token} {tokens : List Token}
    (first : ∀ text, token = .quoted text → '\n' ∉ text.toList) (h : OnOneLine tokens) :
    OnOneLine (token :: tokens) := by
  intro text member
  rcases List.mem_cons.1 member with equal | member
  · exact first text equal.symm
  · exact h text member

/-- The token of a mark is no quoted text. -/
theorem ne_quoted_of_mark? {c : Char} {token : Token} (h : mark? c = some token) (text : String) :
    token ≠ .quoted text := by
  rintro rfl
  unfold mark? at h
  split at h <;> cases h

/-- A mark in front adds no line feed. -/
theorem OnOneLine.mark {c : Char} {token : Token} {tokens : List Token}
    (marked : mark? c = some token) (h : OnOneLine tokens) : OnOneLine (token :: tokens) :=
  h.cons fun text equal => absurd equal (ne_quoted_of_mark? marked text)

/-- An atom in front adds no line feed. -/
theorem OnOneLine.atom {text : String} {tokens : List Token} (h : OnOneLine tokens) :
    OnOneLine (.atom text :: tokens) :=
  h.cons fun _ => nofun

/-- What follows the end of a token has no line feeds if it is shorter than some text. -/
def GapsBelow (length : Nat) : Prop :=
  ∀ (column : Nat) (rest : List Char), rest.length < length → '\n' ∉ rest →
    Gives (scanGap column rest) OnOneLine

/-- What is known below a length is known below every shorter one. -/
theorem GapsBelow.mono {length length' : Nat} (gaps : GapsBelow length)
    (shorter : length' ≤ length) : GapsBelow length' :=
  fun column rest short => gaps column rest (Nat.lt_of_lt_of_le short shorter)

/-- An atom has no line feeds, and it is followed by the end of a token. -/
theorem gives_onOneLine_scanAtom {chars : List Char} (gaps : GapsBelow chars.length)
    (line : '\n' ∉ chars) (column : Nat) (taken : List Char) :
    Gives (scanAtom column taken chars) OnOneLine := by
  induction chars generalizing column taken with
  | nil => exact .ok (.atom nofun)
  | cons c rest ih =>
    have later := mt (List.mem_cons_of_mem c) line
    have gap (column : Nat) := gaps column rest rest.length.lt_succ_self later
    rw [scanAtom]
    cases marked : mark? c with
    -- the word ends here, and what is behind it is a gap again
    | some token => exact (gap _).bind fun tokens onOneLine => .ok (.atom (.mark marked onOneLine))
    | none =>
      dsimp only
      split
      · exact (gap _).bind fun tokens onOneLine => .ok (.atom onOneLine)
      · exact ih (gaps.mono (Nat.le_succ _)) later _ _

/-- A quoted text has the characters of the line, but for every second quote. -/
theorem gives_onOneLine_scanQuoted {chars : List Char} (gaps : GapsBelow chars.length)
    (line : '\n' ∉ chars) {taken : List Char} (inside : '\n' ∉ taken) (start column : Nat) :
    Gives (scanQuoted start column taken chars) OnOneLine := by
  cases chars with
  | nil => exact .error _
  | cons c rest =>
    rw [List.mem_cons, not_or] at line
    have taken' : '\n' ∉ c :: taken := not_or.2 ⟨line.1, inside⟩ ∘ List.mem_cons.1
    by_cases quote : c = '\''
    · subst quote
      by_cases double : ∃ others, rest = '\'' :: others
      · -- a quote that is written twice belongs to the text
        obtain ⟨others, rfl⟩ := double
        rw [scanQuoted]
        exact gives_onOneLine_scanQuoted (gaps.mono (Nat.le_add_right _ 2))
          (mt (List.mem_cons_of_mem _) line.2)
          taken' _ _
      · rw [scanQuoted_close _ _ _ fun others same => double ⟨others, same⟩]
        intro tokens found
        obtain ⟨tokens, later, rfl⟩ := map_eq_ok_iff.1 found
        refine .cons ?_ (gaps _ rest rest.length.lt_succ_self line.2 tokens later)
        rintro text ⟨⟩
        rwa [String.toList_ofList, List.mem_reverse]
    · rw [scanQuoted_other _ _ _ quote]
      exact gives_onOneLine_scanQuoted (gaps.mono (Nat.le_succ _)) line.2 taken' _ _
termination_by chars.length

/-- Quoted texts only have characters of the line. -/
theorem gives_onOneLine_scanGap {chars : List Char} (line : '\n' ∉ chars) (column : Nat) :
    Gives (scanGap column chars) OnOneLine := by
  cases chars with
  | nil => exact .ok nofun
  | cons c rest =>
    -- every scanner takes a character, so that what comes after its token is shorter
    have gaps : GapsBelow (rest.length + 1) := fun column later shorter line =>
      gives_onOneLine_scanGap line column
    have later := mt (List.mem_cons_of_mem c) line
    rw [scanGap]
    split
    · exact gives_onOneLine_scanQuoted (gaps.mono (Nat.le_succ _)) later List.not_mem_nil _ _
    · cases marked : mark? c with
      | some token =>
        exact (gaps _ rest rest.length.lt_succ_self later).bind fun tokens onOneLine =>
          .ok (.mark marked onOneLine)
      | none =>
        dsimp only
        split
        · exact gaps _ rest rest.length.lt_succ_self later
        · exact gives_onOneLine_scanAtom (gaps.mono (Nat.le_succ _)) later _ _
termination_by chars.length

end PlanCompiler.Token
