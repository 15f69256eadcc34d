import PlanCompiler.Config.Reader
import PlanCompiler.Proofs.Config.Settings
import PlanCompiler.Proofs.Json.Natural
import PlanCompiler.Proofs.Json.Parts

/-!
# Reading the values of settings

The value of each setting is a part of the text that can be read on its own. The other settings and
what follows have no influence on it, except that a batch size must not go on as a longer number.

## Main definitions

* `Config.readValue`: reads the value of a setting.

## Main results

* `Config.readField_eq`: reading a setting changes only that setting;
* `Config.readSize_eq_ok_iff`: batch sizes are written in decimal and are in range;
* `Config.takesParts_readValue`: values are parts of the text.
-/

namespace PlanCompiler.Config

open Json

variable {text rest : List Char}

/-- Reads the value of a setting. -/
def readValue : (field : Field) → Reading field.Value
  | .workDirectory => readString "path string"
  | .compiler => readString "a string"
  | .arguments => readArray
  | .artifact => readArtifact
  | .keepArtifacts => readBool
  | .warningsAsErrors => readBool
  | .vectorSize => readSize

/-- A setting is read by the reader for its values. -/
theorem readField_eq {config : Config} {field : Field} :
    config.readField field text =
      readValue field text >>= fun (value, rest) => .ok (config.set field value, rest) := by
  cases field <;> rfl

/-! ## Words and marks -/

/-- A value of the wrong kind is refused. -/
theorem wrongKind_ne_ok {α : Type} {expected : String} {a : α} :
    (wrongKind expected text : Except ConfigError α) ≠ .ok a := by
  unfold wrongKind
  intro found
  obtain ⟨_, -, result⟩ := bind_eq_ok_iff.1 found
  cases result

/-- A word is read exactly where it stands. -/
theorem readWord_eq_ok_iff {expected : List Char} :
    readWord expected text = .ok rest ↔ text = expected ++ rest := by
  rw [readWord, mapError_eq_ok_iff, word_eq_ok_iff]

/-- A colon is read exactly behind blanks. -/
theorem readColon_eq_ok_iff : readColon text = .ok rest ↔ skipBlanks text = ':' :: rest := by
  unfold readColon
  split
  · rename_i found
    rw [found, Except.ok.injEq, List.cons.injEq, and_iff_right rfl]
  · rename_i found
    simp [found]
  · rename_i other _
    exact iff_of_false (by simp) fun found => other _ found

/-- A word with its first character is a part of the text. -/
theorem exists_isPart_word {α : Type} {reader : Reading α} {c : Char} {word : List Char} {a b : α}
    (opened : ∀ text, reader (c :: text) = readWord word text >>= fun rest => .ok (a, rest))
    (found : reader (c :: text) = .ok (b, rest))
    (plain : (c :: word).all isPlain = true) (ends : EndsFilled (c :: word)) :
    ∃ part, c :: text = part ++ rest ∧ IsPart reader anything .outside .outside part b := by
  rw [opened] at found
  obtain ⟨after, read, result⟩ := bind_eq_ok_iff.1 found
  obtain ⟨rfl, rfl⟩ := Prod.mk.inj (Except.ok.inj result)
  obtain rfl := readWord_eq_ok_iff.1 read
  refine ⟨c :: word, rfl, uncut_of_isPlain (List.all_eq_true.1 plain), ends, fun rest _ => ?_⟩
  rw [List.cons_append, opened, readWord_eq_ok_iff.2 rfl]
  rfl

/-- A colon may come first. -/
theorem takesParts_colon {α : Type} {reader : Reading α} {follows : List Char → Prop}
    {there : Nat → Place} (h : TakesParts reader follows .outside there) :
    TakesParts (fun text => readColon text >>= reader) follows .outside there := by
  intro text a rest found
  obtain ⟨behind, colon, read⟩ := bind_eq_ok_iff.1 found
  obtain ⟨part, rfl, isPart⟩ := h behind a rest read
  obtain ⟨before, blank, rfl, skipped⟩ := exists_blanks_append (readColon_eq_ok_iff.1 colon)
  refine ⟨before ++ ':' :: part, by simp, ?_,
    (isPart.ends.cons ':').append before, fun rest follow => ?_⟩
  · exact (uncut_of_allBlank blank).append
      (Uncut.cons (fun _ => rfl) (.inl (by decide)) isPart.uncut)
  · rw [List.append_assoc]
    exact bind_eq_ok_iff.2 ⟨_, readColon_eq_ok_iff.2 (skipped _), isPart.read rest follow⟩

/-! ## Strings -/

/-- The contents of a string are taken up to its quote, whatever follows. -/
theorem takesParts_readContents : TakesParts readContents anything .quoted .outside := by
  intro text s rest found
  unfold readContents at found
  split at found
  · cases found
  · rename_i contents rest' read
    obtain ⟨rfl, rfl⟩ := Prod.mk.inj (Except.ok.inj found)
    obtain ⟨part, rfl, isPart⟩ := takesParts_string text contents rest' read
    refine ⟨part, rfl, isPart.uncut, isPart.ends, fun rest follow => ?_⟩
    rw [readContents, isPart.read rest follow]

/-- A string is taken up to its end, whatever follows. -/
theorem takesParts_readString (expected : String) :
    TakesParts (readString expected) anything .outside .outside := by
  refine .of_skipBlanks (fun text => ?_) fun text s rest filled found => ?_
  · simp only [readString, skipBlanks_skipBlanks]
  · simp only [readString, filled] at found
    split at found
    · obtain ⟨part, rfl, isPart⟩ := takesParts_readContents _ s rest found
      exact ⟨'"' :: part, rfl, isPart.cons (fun _ => rfl) (.inl (by decide)) fun _ => rfl⟩
    · exact absurd found wrongKind_ne_ok

/-! ## Truth values -/

/-- A truth value is taken up to its end, whatever follows. -/
theorem takesParts_readBool : TakesParts readBool anything .outside .outside := by
  refine .of_skipBlanks (fun text => ?_) fun text value rest filled found => ?_
  · simp only [readBool, skipBlanks_skipBlanks]
  · have read := found
    simp only [readBool, filled] at read
    split at read
    · exact exists_isPart_word (fun _ => rfl) found (by decide)
        ⟨['t', 'r', 'u'], 'e', rfl, by decide⟩
    · exact exists_isPart_word (fun _ => rfl) found (by decide)
        ⟨['f', 'a', 'l', 's'], 'e', rfl, by decide⟩
    · exact absurd read wrongKind_ne_ok

/-! ## Forms of compiled programs -/

/-- A null is taken up to its end, whatever follows. -/
theorem takesParts_readNull : TakesParts readNull anything .outside .outside := by
  refine .of_skipBlanks (fun text => ?_) fun text value rest filled found => ?_
  · simp only [readNull, skipBlanks_skipBlanks]
  · have read := found
    simp only [readNull, filled] at read
    split at read
    · exact exists_isPart_word (fun _ => rfl) found (by decide)
        ⟨['n', 'u', 'l'], 'l', rfl, by decide⟩
    · exact absurd read wrongKind_ne_ok

/-- The name of an artifact's kind is read exactly from a string that names one. -/
theorem readArtifactName_eq_ok_iff {kind : ArtifactKind} :
    readArtifactName text = .ok (kind, rest) ↔ ∃ contents name,
      skipBlanks text = '"' :: contents ∧ readContents contents = .ok (name, rest) ∧
        artifactNamed name = .ok kind := by
  constructor
  · intro found
    unfold readArtifactName at found
    split at found
    -- only a string is taken for a name
    · rename_i contents start
      obtain ⟨⟨name, after⟩, read, found⟩ := bind_eq_ok_iff.1 found
      obtain ⟨kind, named, result⟩ := bind_eq_ok_iff.1 found
      obtain ⟨rfl, rfl⟩ := Prod.mk.inj (Except.ok.inj result)
      exact ⟨contents, name, start, read, named⟩
    · cases found
    · cases found
  · rintro ⟨contents, name, start, read, named⟩
    unfold readArtifactName
    rw [start]
    exact bind_eq_ok_iff.2 ⟨_, read, bind_eq_ok_iff.2 ⟨_, named, rfl⟩⟩

/-- The name of an artifact's kind is taken up to its end, whatever follows. -/
theorem takesParts_readArtifactName :
    TakesParts readArtifactName anything .outside .outside := by
  intro text kind rest found
  obtain ⟨contents, name, start, read, named⟩ := readArtifactName_eq_ok_iff.1 found
  obtain ⟨before, blank, rfl, skipped⟩ := exists_blanks_append start
  obtain ⟨part, rfl, isPart⟩ := takesParts_readContents contents name rest read
  refine ⟨before ++ '"' :: part, by simp, (uncut_of_allBlank blank).append isPart.uncut.string,
    (isPart.ends.cons _).append before, fun rest follow => ?_⟩
  rw [List.append_assoc]
  exact readArtifactName_eq_ok_iff.2 ⟨_, _, skipped _, isPart.read rest follow, named⟩

/-- A form is named, or an object has its name. -/
theorem readArtifact_eq_ok_iff {kind : ArtifactKind} :
    readArtifact text = .ok (kind, rest) ↔ readArtifactName text = .ok (kind, rest) ∨
      ∃ afterBrace afterName afterColon afterNull, skipBlanks text = '{' :: afterBrace ∧
        readArtifactName afterBrace = .ok (kind, afterName) ∧
        readColon afterName = .ok afterColon ∧ readNull afterColon = .ok ((), afterNull) ∧
        skipBlanks afterNull = '}' :: rest := by
  constructor
  · intro found
    unfold readArtifact at found
    split at found
    · rename_i afterBrace brace
      obtain ⟨⟨kind, afterName⟩, named, found⟩ := bind_eq_ok_iff.1 found
      obtain ⟨afterColon, colon, found⟩ := bind_eq_ok_iff.1 found
      obtain ⟨⟨_, afterNull⟩, null, found⟩ := bind_eq_ok_iff.1 found
      dsimp only at found
      split at found
      · rename_i closing
        obtain ⟨rfl, rfl⟩ := Prod.mk.inj (Except.ok.inj found)
        exact .inr ⟨_, _, _, _, brace, named, colon, null, closing⟩
      · cases found
      · cases found
    · -- without a brace, the blanks are skipped twice
      left
      rwa [readArtifactName, skipBlanks_skipBlanks, ← readArtifactName] at found
  · rintro (found | ⟨_, _, _, _, brace, named, colon, null, closing⟩)
    · obtain ⟨contents, name, start, read⟩ := readArtifactName_eq_ok_iff.1 found
      unfold readArtifact
      rw [start]
      exact readArtifactName_eq_ok_iff.2 ⟨contents, name, rfl, read⟩
    · unfold readArtifact
      rw [brace]
      refine bind_eq_ok_iff.2 ⟨_, named, bind_eq_ok_iff.2 ⟨_, colon, ?_⟩⟩
      refine bind_eq_ok_iff.2 ⟨_, null, ?_⟩
      dsimp only
      rw [closing]
      rfl

/-- An artifact's kind is taken up to its end, as a string or as an object. -/
theorem takesParts_readArtifact : TakesParts readArtifact anything .outside .outside := by
  intro text kind rest found
  -- a name may stand by itself, or with null behind it as the only member of an object
  obtain found | ⟨_, _, _, _, brace, named, colon, null, closing⟩ := readArtifact_eq_ok_iff.1 found
  · obtain ⟨part, rfl, isPart⟩ := takesParts_readArtifactName text kind rest found
    exact ⟨part, rfl, isPart.uncut, isPart.ends,
      fun rest follow => readArtifact_eq_ok_iff.2 (.inl (isPart.read rest follow))⟩
  · obtain ⟨before, blank, rfl, skipped⟩ := exists_blanks_append brace
    obtain ⟨name, rfl, isName⟩ := takesParts_readArtifactName _ kind _ named
    obtain ⟨value, rfl, isValue⟩ := takesParts_colon takesParts_readNull _ _ _
      (bind_eq_ok_iff.2 ⟨_, colon, null⟩)
    obtain ⟨gap, blank', rfl, skipped'⟩ := exists_blanks_append closing
    have inside : Uncut .inside .outside (name ++ (value ++ (gap ++ ['}']))) :=
      isName.uncut.deeper.append (isValue.uncut.deeper.append (uncut_closing blank' fun _ => rfl))
    have ends : EndsFilled (gap ++ ['}']) := ⟨gap, '}', rfl, by decide⟩
    refine ⟨before ++ '{' :: (name ++ (value ++ (gap ++ ['}']))), by simp,
      (uncut_of_allBlank blank).append (Uncut.cons (fun _ => rfl) (.inl (by decide)) inside),
      (((ends.append value).append name).cons _).append before, fun rest follow => ?_⟩
    obtain ⟨_, colon, null⟩ := bind_eq_ok_iff.1 (isValue.read (gap ++ '}' :: rest) trivial)
    simp only [List.append_assoc, List.cons_append, List.nil_append]
    exact readArtifact_eq_ok_iff.2 (.inr
      ⟨_, _, _, _, skipped _, isName.read _ trivial, colon, null, skipped' _⟩)

/-! ## Arguments -/

/-- What arguments are read from: an argument, which is the last one or has others behind a
comma. -/
theorem exists_of_readStrings {strings : List String}
    (found : readStrings text = .ok (strings, rest)) :
    ∃ contents first after,
      skipBlanks text = '"' :: contents ∧ readContents contents = .ok (first, after) ∧
        (skipBlanks after = ']' :: rest ∧ strings = [first] ∨ ∃ tail others,
          skipBlanks after = ',' :: tail ∧ readStrings tail = .ok (others, rest) ∧
            strings = first :: others) := by
  rw [readStrings] at found
  -- the outer cases are what the text starts with, the inner ones what is behind an argument
  split at found
  · rename_i contents start
    split at found
    · cases found
    · rename_i first after read
      refine ⟨contents, first, after, start, read, ?_⟩
      split at found
      · rename_i last
        obtain ⟨rfl, rfl⟩ := Prod.mk.inj (Except.ok.inj found)
        exact .inl ⟨last, rfl⟩
      · cases found
      · rename_i tail comma
        split at found
        · cases found
        · obtain ⟨⟨others, behind⟩, more, result⟩ := bind_eq_ok_iff.1 found
          obtain ⟨rfl, rfl⟩ := Prod.mk.inj (Except.ok.inj result)
          exact .inr ⟨tail, others, comma, more, rfl⟩
      · cases found
  · exact absurd found wrongKind_ne_ok

section

variable {contents after : List Char} {first : String} (start : skipBlanks text = '"' :: contents)
  (read : readContents contents = .ok (first, after))
include start read

/-- The last argument has a bracket behind it. -/
theorem readStrings_last (last : skipBlanks after = ']' :: rest) :
    readStrings text = .ok ([first], rest) := by
  rw [readStrings]
  split
  · rename_i start'
    obtain ⟨-, rfl⟩ := List.cons.inj (start.symm.trans start')
    split
    · rename_i failed
      cases read.symm.trans failed
    · rename_i read'
      obtain ⟨rfl, rfl⟩ := Prod.mk.inj (Except.ok.inj (read.symm.trans read'))
      split <;> simp_all
  · rename_i other
    exact absurd start (other _)

/-- Any other argument has a comma behind it, and then the other ones. -/
theorem readStrings_comma {tail : List Char} {others : List String}
    (comma : skipBlanks after = ',' :: tail) (more : readStrings tail = .ok (others, rest)) :
    readStrings text = .ok (first :: others, rest) := by
  rw [readStrings]
  split
  · rename_i start'
    obtain ⟨-, rfl⟩ := List.cons.inj (start.symm.trans start')
    split
    · rename_i failed
      cases read.symm.trans failed
    · rename_i read'
      obtain ⟨rfl, rfl⟩ := Prod.mk.inj (Except.ok.inj (read.symm.trans read'))
      split
      case h_3 tail' comma' =>
        obtain ⟨-, rfl⟩ := List.cons.inj (comma.symm.trans comma')
        split
        · -- an argument was read, so no bracket is next
          rename_i bracket
          rw [readStrings, bracket] at more
          exact absurd more wrongKind_ne_ok
        · rw [more]
          rfl
      all_goals simp_all
  · rename_i other
    exact absurd start (other _)

end

/-- An argument is the last one, or a comma and others follow. -/
theorem readStrings_eq_ok_iff {strings : List String} :
    readStrings text = .ok (strings, rest) ↔ ∃ contents first after,
      skipBlanks text = '"' :: contents ∧ readContents contents = .ok (first, after) ∧
        (skipBlanks after = ']' :: rest ∧ strings = [first] ∨ ∃ tail others,
          skipBlanks after = ',' :: tail ∧ readStrings tail = .ok (others, rest) ∧
            strings = first :: others) := by
  refine ⟨exists_of_readStrings, ?_⟩
  rintro ⟨contents, first, after, start, read, ⟨last, rfl⟩ | ⟨tail, others, comma, more, rfl⟩⟩
  · exact readStrings_last start read last
  · exact readStrings_comma start read comma more

/-- The arguments of an array, up to its closing bracket. -/
theorem takesParts_readStrings : TakesParts readStrings anything .inside .outside := by
  intro text strings rest found
  -- the recursion is that of the list of arguments
  induction strings generalizing text with
  | nil =>
    obtain ⟨_, _, _, -, -, ⟨-, none⟩ | ⟨_, _, -, -, none⟩⟩ := readStrings_eq_ok_iff.1 found
    · cases none
    · cases none
  | cons argument arguments ih =>
    obtain ⟨contents, first, after, start, read, more⟩ := readStrings_eq_ok_iff.1 found
    obtain ⟨before, blank, rfl, skipped⟩ := exists_blanks_append start
    obtain ⟨part, rfl, isPart⟩ := takesParts_readContents contents first after read
    have uncut : Uncut .inside .inside (before ++ '"' :: part) :=
      ((uncut_of_allBlank blank).append isPart.uncut.string).deeper
    obtain ⟨last, rfl, rfl⟩ | ⟨tail, others, comma, next, rfl, rfl⟩ :
        (skipBlanks after = ']' :: rest ∧ argument = first ∧ arguments = []) ∨ ∃ tail others,
          skipBlanks after = ',' :: tail ∧ readStrings tail = .ok (others, rest) ∧
            argument = first ∧ arguments = others := by
      simpa only [List.cons.injEq] using more
    · obtain ⟨gap, blank', rfl, skipped'⟩ := exists_blanks_append last
      refine ⟨(before ++ '"' :: part) ++ (gap ++ [']']), by simp,
        uncut.append (uncut_closing blank' fun _ => rfl),
        EndsFilled.append _ ⟨gap, ']', rfl, by decide⟩, fun rest follow => ?_⟩
      simp only [List.append_assoc, List.cons_append, List.nil_append]
      exact readStrings_eq_ok_iff.2 ⟨_, _, _, skipped _, isPart.read _ trivial,
        .inl ⟨skipped' _, rfl⟩⟩
    · obtain ⟨gap, blank', rfl, skipped'⟩ := exists_blanks_append comma
      obtain ⟨other, rfl, isOther⟩ := ih _ next
      have comma : Uncut .inside .outside (gap ++ ',' :: other) :=
        (uncut_of_allBlank blank').deeper.append
          (Uncut.cons (fun _ => rfl) (.inr Place.inside_ne) isOther.uncut)
      refine ⟨(before ++ '"' :: part) ++ (gap ++ ',' :: other), by simp, uncut.append comma,
        EndsFilled.append _ ((isOther.ends.cons ',').append gap), fun rest follow => ?_⟩
      simp only [List.append_assoc, List.cons_append]
      exact readStrings_eq_ok_iff.2 ⟨_, _, _, skipped _, isPart.read _ trivial,
        .inr ⟨_, _, skipped' _, isOther.read rest follow, rfl⟩⟩

/-- An array is taken up to its end, whatever follows. -/
theorem takesParts_readArray : TakesParts readArray anything .outside .outside := by
  refine .of_skipBlanks (fun text => ?_) fun text strings rest filled found => ?_
  · simp only [readArray, skipBlanks_skipBlanks]
  · simp only [readArray, filled] at found
    split at found
    · split at found
      · cases found
      · rename_i bracket
        obtain ⟨rfl, rfl⟩ := Prod.mk.inj (Except.ok.inj found)
        obtain ⟨gap, blank, rfl, skipped⟩ := exists_blanks_append bracket
        refine ⟨'[' :: (gap ++ [']']), by simp,
          Uncut.cons (fun _ => rfl) (.inl (by decide)) (uncut_closing blank fun _ => rfl),
          EndsFilled.cons _ ⟨gap, ']', rfl, by decide⟩, fun rest _ => ?_⟩
        simp only [readArray, List.cons_append, List.append_assoc, List.nil_append,
          skipBlanks_cons_of_eq filled, skipped]
      · obtain ⟨part, rfl, isPart⟩ := takesParts_readStrings _ strings rest found
        refine ⟨'[' :: part, rfl, Uncut.cons (fun _ => rfl) (.inl (by decide)) isPart.uncut,
          isPart.ends.cons _, fun rest follow => ?_⟩
        -- the part starts with a quote
        have read := isPart.read rest follow
        obtain ⟨contents, _, _, start, -⟩ := readStrings_eq_ok_iff.1 read
        simp only [readArray, List.cons_append, skipBlanks_cons_of_eq filled, start]
        exact read
    · exact absurd found wrongKind_ne_ok

/-! ## Batch sizes -/

/-- A size is accepted exactly if it is a natural number in the range. -/
theorem checkSize_eq_ok_iff {number : Number} {n : Nat} :
    checkSize number = .ok n ↔ number = .natural n ∧ 1 ≤ n ∧ n ≤ VectorSize.greatest := by
  cases number with
  | natural m =>
    rw [checkSize, Number.natural.injEq]
    split
    · rename_i inRange
      rw [Except.ok.injEq]
      exact (and_iff_left_of_imp fun same => same ▸ inRange).symm
    · rename_i outside
      exact iff_of_false (by simp) fun found => outside (found.1 ▸ found.2)
  | negative m => simp [checkSize]
  | float x => simp [checkSize]

/-- A size is read exactly from a natural number in the range. -/
theorem checkSize_number_eq_ok_iff {isNegative : Bool} {n : Nat} :
    ((number isNegative text).mapError ConfigError.json >>= fun (number, rest) =>
        checkSize number >>= fun n => .ok (n, rest)) = .ok (n, rest) ↔
      (1 ≤ n ∧ n ≤ VectorSize.greatest) ∧ number isNegative text = .ok (.natural n, rest) := by
  constructor
  · intro found
    obtain ⟨⟨number, after⟩, read, found⟩ := bind_eq_ok_iff.1 found
    obtain ⟨m, checked, result⟩ := bind_eq_ok_iff.1 found
    obtain ⟨rfl, rfl⟩ := Prod.mk.inj (Except.ok.inj result)
    obtain ⟨rfl, inRange⟩ := checkSize_eq_ok_iff.1 checked
    exact ⟨inRange, mapError_eq_ok_iff.1 read⟩
  · intro ⟨inRange, read⟩
    exact bind_eq_ok_iff.2 ⟨_, mapError_eq_ok_iff.2 read,
      bind_eq_ok_iff.2 ⟨n, checkSize_eq_ok_iff.2 ⟨rfl, inRange⟩, rfl⟩⟩

/-- Batch sizes are written in decimal and are in range. -/
theorem readSize_eq_ok_iff {n : Nat} :
    readSize text = .ok (n, rest) ↔ (1 ≤ n ∧ n ≤ VectorSize.greatest) ∧
      skipBlanks text = Nat.toDigits 10 n ++ rest ∧ EndsNumber rest := by
  have small (inRange : 1 ≤ n ∧ n ≤ VectorSize.greatest) : n < UInt64.size :=
    Nat.lt_of_le_of_lt inRange.2 (by decide)
  -- a written number starts with a digit
  have first {c : Char} {tail : List Char} (start : c :: tail = Nat.toDigits 10 n ++ rest) :
      c.isDigit = true := by
    obtain ⟨digit, digits, written⟩ :=
      List.exists_cons_of_ne_nil (Nat.toDigits_ne_nil (n := n) (b := 10))
    rw [written, List.cons_append, List.cons.injEq] at start
    rw [start.1]
    exact Numeral.isDigit_of_mem_toDigits (written ▸ List.mem_cons_self)
  unfold readSize
  dsimp only
  split
  · rename_i tail sign
    rw [sign]
    -- a sign is read as one of a number, which is not natural then
    refine iff_of_false (fun found => ?_) fun ⟨_, start, _⟩ => ?_
    · have read := (checkSize_number_eq_ok_iff.1 found).2
      exact absurd (number_eq_natural_iff.1 read).1 (by decide)
    · exact absurd (first start) (by decide)
  · rename_i none
    rw [none]
    refine iff_of_false (by simp) fun found => ?_
    exact Nat.toDigits_ne_nil (List.append_eq_nil_iff.1 found.2.1.symm).1
  · rename_i c tail _ start
    rw [start]
    split
    · rw [checkSize_number_eq_ok_iff, number_eq_natural_iff, and_iff_right rfl]
      exact and_congr_right fun inRange => and_iff_right (small inRange)
    · rename_i other
      exact iff_of_false wrongKind_ne_ok fun ⟨_, start, _⟩ => other (first start)

/-- The digits of a number end with no blank. -/
theorem endsFilled_toDigits (n : Nat) : EndsFilled (Nat.toDigits 10 n) :=
  endsFilled_of_forall Nat.toDigits_ne_nil fun _ digit =>
    isBlank_eq_false_of_isDigit (Numeral.isDigit_of_mem_toDigits digit)

/-- A size is taken up to the end of its number. -/
theorem takesParts_readSize : TakesParts readSize EndsNumber .outside .outside := by
  intro text n rest found
  obtain ⟨inRange, start, -⟩ := readSize_eq_ok_iff.1 found
  obtain ⟨c, digits, written⟩ :=
    List.exists_cons_of_ne_nil (Nat.toDigits_ne_nil (n := n) (b := 10))
  have plain : Uncut .outside .outside (Nat.toDigits 10 n) :=
    uncut_of_isPlain fun _ member => isPlain_of_isDigit (Numeral.isDigit_of_mem_toDigits member)
  have filled := endsFilled_toDigits n
  rw [written] at start plain filled
  obtain ⟨before, blank, rfl, skipped⟩ := exists_blanks_append start
  refine ⟨before ++ c :: digits, by simp, (uncut_of_allBlank blank).append plain,
    filled.append before, fun rest ends => readSize_eq_ok_iff.2 ⟨inRange, ?_, ends⟩⟩
  rw [List.append_assoc, written]
  exact skipped _

/-- The value of a setting is a part of the text. -/
theorem takesParts_readValue (field : Field) :
    TakesParts (readValue field) EndsNumber .outside .outside := by
  cases field with
  | workDirectory => exact (takesParts_readString _).mono
  | compiler => exact (takesParts_readString _).mono
  | arguments => exact takesParts_readArray.mono
  | artifact => exact takesParts_readArtifact.mono
  | keepArtifacts => exact takesParts_readBool.mono
  | warningsAsErrors => exact takesParts_readBool.mono
  | vectorSize => exact takesParts_readSize

end PlanCompiler.Config
