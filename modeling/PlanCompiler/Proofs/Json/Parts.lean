import PlanCompiler.Proofs.Json.Members
import PlanCompiler.Proofs.Outcome

/-!
# Parts that are read

A reader that succeeds has taken a part off the front of its text, and it takes the same part off
any other text, with the same result. Only numbers may go on behind their end, so for some readers
there is a condition on what follows. Since a part is not cut where members are separated, readers
of members and the division into members agree.

## Main definitions

* `Json.IsPart`: a part of a text is read as a value, whatever follows it;
* `Json.TakesParts`: every value of a reader is that of such a part.

## Main results

* `Json.TakesParts.of_skipBlanks`: parts with blanks in front;
* `Json.word_eq_ok_iff`, `Json.takesParts_string`: the parts of texts that are spelled out.
-/

namespace PlanCompiler.Json

variable {ε α β : Type}

/-- A reader takes the part off any text that goes on with what may follow, and the value is the
same. The part is not cut, and no blank is at its end. -/
structure IsPart (reader : List Char → Except ε (α × List Char)) (follows : List Char → Prop)
    (here there : Nat → Place) (part : List Char) (a : α) : Prop where
  /-- The part leads from one place to another. -/
  uncut : Uncut here there part
  /-- There is a last character, and it is no blank. -/
  ends : EndsFilled part
  /-- The reader stops behind the part. -/
  read : ∀ rest, follows rest → reader (part ++ rest) = .ok (a, rest)

/-- What a reader takes off a text is a part of it. -/
def TakesParts (reader : List Char → Except ε (α × List Char)) (follows : List Char → Prop)
    (here there : Nat → Place) : Prop :=
  ∀ text a rest, reader text = .ok (a, rest) →
    ∃ part, text = part ++ rest ∧ IsPart reader follows here there part a

/-- Anything may follow. -/
def anything : List Char → Prop := fun _ => True

variable {reader whole : List Char → Except ε (α × List Char)} {follows : List Char → Prop}
  {here there further : Nat → Place} {part : List Char} {a : α}

namespace IsPart

/-- Fewer continuations may be allowed. -/
theorem mono (h : IsPart reader anything here there part a) :
    IsPart reader follows here there part a :=
  ⟨h.uncut, h.ends, fun rest _ => h.read rest trivial⟩

/-- One more character is in front. -/
theorem cons {c : Char} (h : IsPart reader follows there further part a)
    (leads : ∀ depth, (here depth).next c = there depth)
    (kept : c ≠ ',' ∨ ∀ depth, here depth ≠ .outside 0)
    (opened : ∀ rest, whole (c :: rest) = reader rest) :
    IsPart whole follows here further (c :: part) a where
  uncut := h.uncut.cons leads kept
  ends := h.ends.cons c
  read rest follow := (opened _).trans (h.read rest follow)

/-- A part is not empty. -/
theorem ne_nil (h : IsPart reader follows here there part a) : part ≠ [] := by
  obtain ⟨front, c, rfl, -⟩ := h.ends
  exact List.append_ne_nil_of_right_ne_nil _ (List.cons_ne_nil _ _)

end IsPart

namespace TakesParts

/-- A reader that takes its part whatever follows does so in front of less. -/
theorem mono (h : TakesParts reader anything here there) :
    TakesParts reader follows here there := by
  intro text a rest found
  obtain ⟨part, whole, isPart⟩ := h text a rest found
  exact ⟨part, whole, isPart.mono⟩

/-- Where blanks in front are skipped, only texts without them have to be looked at. -/
theorem of_skipBlanks (skips : ∀ text, reader (skipBlanks text) = reader text)
    (h : ∀ text a rest, skipBlanks text = text → reader text = .ok (a, rest) →
      ∃ part, text = part ++ rest ∧ IsPart reader follows .outside there part a) :
    TakesParts reader follows .outside there := by
  intro text a rest found
  rw [← skips] at found
  obtain ⟨part, split, isPart⟩ := h _ a rest (skipBlanks_skipBlanks text) found
  -- the part starts where the blanks end
  obtain ⟨c, part, rfl⟩ := List.exists_cons_of_ne_nil isPart.ne_nil
  obtain ⟨before, blank, rfl, skipped⟩ := exists_blanks_append split
  refine ⟨before ++ c :: part, by simp, (uncut_of_allBlank blank).append isPart.uncut,
    isPart.ends.append before, fun rest follow => ?_⟩
  rw [List.append_assoc, ← skips, List.cons_append, skipped]
  exact isPart.read rest follow

end TakesParts

/-! ## Words -/

/-- A word is read exactly where it stands. -/
theorem word_eq_ok_iff {expected text rest : List Char} :
    word expected text = .ok rest ↔ text = expected ++ rest := by
  induction expected generalizing text with
  | nil => rw [word, Except.ok.injEq, List.nil_append]
  | cons first expected ih =>
    cases text with
    | nil => simp [word]
    | cons c text =>
      rw [word, List.cons_append, List.cons.injEq]
      split
      · rename_i same
        rw [ih, and_iff_right same]
      · rename_i other
        exact iff_of_false (by simp) fun found => other found.1

/-! ## Strings -/

/-- In a string, a hexadecimal digit has no meaning of its own. -/
theorem ordinary_of_hexDigit? {c : Char} {value : Nat} (digit : hexDigit? c = some value) :
    c ≠ '"' ∧ c ≠ '\\' ∧ isBlank c = false := by
  have other (d : Char) (none : hexDigit? d = none) : c ≠ d := by
    rintro rfl
    rw [none] at digit
    cases digit
  refine ⟨other _ (by decide), other _ (by decide), ?_⟩
  rw [isBlank, decide_eq_false_iff_not]
  rintro (rfl | rfl | rfl | rfl)
  · exact other ' ' (by decide) rfl
  · exact other '\t' (by decide) rfl
  · exact other '\n' (by decide) rfl
  · exact other '\r' (by decide) rfl

/-- A hexadecimal digit in a string is no cut. -/
theorem uncut_of_hexDigit? {c : Char} {value : Nat} (digit : hexDigit? c = some value) :
    Uncut .quoted .quoted [c] := by
  obtain ⟨quote, backslash, -⟩ := ordinary_of_hexDigit? digit
  exact Uncut.char (fun _ => Place.next_quoted quote backslash) (.inr Place.quoted_ne)

/-- Four hexadecimal digits are taken whatever follows. -/
theorem takesParts_fourDigits : TakesParts fourDigits anything .quoted .quoted := by
  intro text n rest found
  unfold fourDigits at found
  split at found
  · cases found
  · split at found
    · split at found
      · rename_i a b c d after _ _ _ _ _ _ _ _ _ first second third fourth
        obtain ⟨rfl, rfl⟩ := Prod.mk.inj (Except.ok.inj found)
        have uncut : Uncut .quoted .quoted [a, b, c, d] :=
          (uncut_of_hexDigit? first).append ((uncut_of_hexDigit? second).append
            ((uncut_of_hexDigit? third).append (uncut_of_hexDigit? fourth)))
        refine ⟨[a, b, c, d], rfl, uncut,
          ⟨[a, b, c], d, rfl, (ordinary_of_hexDigit? fourth).2.2⟩, fun rest _ => ?_⟩
        -- four characters have at least four bytes
        have long : ¬ byteCount (a :: b :: c :: d :: rest) < 4 := by
          have := a.utf8Size_pos
          have := b.utf8Size_pos
          have := c.utf8Size_pos
          have := d.utf8Size_pos
          simp only [byteCount]
          omega
        show fourDigits (a :: b :: c :: d :: rest) = _
        rw [fourDigits, if_neg long]
        simp only [first, second, third, fourth]
      · cases found
    · cases found

/-- The second half of a pair is taken whatever follows. -/
theorem takesParts_secondHalf (high : Nat) :
    TakesParts (secondHalf high) anything .quoted .quoted := by
  intro text c rest found
  unfold secondHalf at found
  split at found
  · cases found
  · cases found
  · rename_i tail
    obtain ⟨⟨low, after⟩, digits, result⟩ := bind_eq_ok_iff.1 found
    dsimp only at result
    split at result
    · rename_i inRange
      obtain ⟨rfl, rfl⟩ := Prod.mk.inj (Except.ok.inj result)
      obtain ⟨part, rfl, isPart⟩ := takesParts_fourDigits tail low after digits
      -- the second half is an escape of its own, with a backslash and four digits
      have uncut : Uncut .quoted .quoted ('\\' :: 'u' :: part) :=
        Uncut.backslash.append (Uncut.cons (fun _ => rfl) (.inr Place.escaped_ne) isPart.uncut)
      refine ⟨'\\' :: 'u' :: part, rfl, uncut, (isPart.ends.cons _).cons _, fun rest follow => ?_⟩
      show (fourDigits (part ++ rest) >>= _) = _
      rw [isPart.read rest follow]
      show ite _ _ _ = _
      rw [if_pos inRange]
    · cases result
  · cases found

/-- An escaped character is one part. -/
theorem isPart_escape_char {escaped c : Char} (filled : isBlank escaped = false)
    (read : ∀ rest, escape (escaped :: rest) = .ok (c, rest)) :
    IsPart escape anything .escaped .quoted [escaped] c where
  uncut := Uncut.char (fun _ => rfl) (.inr Place.escaped_ne)
  ends := ⟨[], escaped, rfl, filled⟩
  read rest _ := read rest

/-- An escape is taken whatever follows. -/
theorem takesParts_escape : TakesParts escape anything .escaped .quoted := by
  intro text c rest found
  unfold escape at found
  split at found
  case h_1 => cases found
  case h_11 => cases found
  case h_10 tail =>
    obtain ⟨⟨unit, after⟩, digits, result⟩ := bind_eq_ok_iff.1 found
    obtain ⟨part, rfl, isPart⟩ := takesParts_fourDigits tail unit after digits
    dsimp only at result
    have reads (rest : List Char) : escape ('u' :: (part ++ rest)) =
        if 0xDC00 ≤ unit ∧ unit ≤ 0xDFFF then .error .malformed
        else if 0xD800 ≤ unit ∧ unit ≤ 0xDBFF then secondHalf unit rest
        else .ok (Char.ofNat unit, rest) := by
      show (fourDigits (part ++ rest) >>= _) = _
      rw [isPart.read rest trivial]
      rfl
    split at result
    · cases result
    · rename_i notSecond
      split at result
      · -- the first half of a pair, so that a second half has been read as well
        rename_i isFirst
        obtain ⟨other, rfl, isOther⟩ := takesParts_secondHalf unit _ c rest result
        refine ⟨'u' :: (part ++ other), by simp,
          Uncut.cons (fun _ => rfl) (.inr Place.escaped_ne) (isPart.uncut.append isOther.uncut),
          (isOther.ends.append part).cons _, fun rest follow => ?_⟩
        rw [List.cons_append, List.append_assoc, reads, if_neg notSecond, if_pos isFirst,
          isOther.read rest follow]
      · rename_i isWhole
        obtain ⟨rfl, rfl⟩ := Prod.mk.inj (Except.ok.inj result)
        refine ⟨'u' :: part, rfl, Uncut.cons (fun _ => rfl) (.inr Place.escaped_ne) isPart.uncut,
          isPart.ends.cons _, fun rest _ => ?_⟩
        rw [List.cons_append, reads, if_neg notSecond, if_neg isWhole]
  -- the other escapes are single characters
  all_goals
    obtain ⟨rfl, rfl⟩ := Prod.mk.inj (Except.ok.inj found)
    exact ⟨[_], rfl, isPart_escape_char (by decide) fun _ => rfl⟩

/-- Behind a backslash, the escaped character comes first and the others follow. -/
theorem string_backslash {text rest : List Char} {c : Char} (read : escape text = .ok (c, rest)) :
    string ('\\' :: text) =
      string rest >>= fun (contents, rest) => .ok (c :: contents, rest) := by
  rw [string]
  split
  · rename_i failed
    cases failed.symm.trans read
  · rename_i found
    obtain ⟨rfl, rfl⟩ := Prod.mk.inj (Except.ok.inj (found.symm.trans read))
    rfl

/-- Every other character but a quote or a control character stands for itself. -/
theorem string_cons {text : List Char} {c : Char} (quote : c ≠ '"') (backslash : c ≠ '\\')
    (printable : ¬ c.toNat < 0x20) :
    string (c :: text) = string text >>= fun (contents, rest) => .ok (c :: contents, rest) := by
  rw [string.eq_4 _ _ quote backslash, if_neg printable]

/-- A string is taken up to its quote, whatever follows. -/
theorem takesParts_string : TakesParts string anything .quoted .outside := by
  intro text contents rest found
  -- a string ends with a quote, or goes on behind an escape or a character of its own
  fun_induction string text generalizing contents rest with
  | case1 => cases found
  | case2 tail =>
    obtain ⟨rfl, rfl⟩ := Prod.mk.inj (Except.ok.inj found)
    refine ⟨['"'], rfl, Uncut.char (fun _ => rfl) (.inr Place.quoted_ne), ⟨[], '"', rfl, by decide⟩,
      fun rest _ => ?_⟩
    rw [List.singleton_append, string]
  | case3 => cases found
  | case4 tail c after escaped ih =>
    obtain ⟨⟨others, last⟩, read, result⟩ := bind_eq_ok_iff.1 found
    obtain ⟨rfl, rfl⟩ := Prod.mk.inj (Except.ok.inj result)
    obtain ⟨escape, rfl, isEscape⟩ := takesParts_escape tail c after escaped
    obtain ⟨part, rfl, isPart⟩ := ih others last read
    refine ⟨'\\' :: (escape ++ part), by simp, ?_, (isPart.ends.append escape).cons _,
      fun rest follow => ?_⟩
    · exact Uncut.backslash.append (isEscape.uncut.append isPart.uncut)
    · rw [List.cons_append, List.append_assoc, string_backslash (isEscape.read _ trivial),
        isPart.read rest follow]
      rfl
  | case5 => cases found
  | case6 c tail quote backslash printable ih =>
    obtain ⟨⟨others, last⟩, read, result⟩ := bind_eq_ok_iff.1 found
    obtain ⟨rfl, rfl⟩ := Prod.mk.inj (Except.ok.inj result)
    obtain ⟨part, rfl, isPart⟩ := ih others last read
    refine ⟨c :: part, rfl, ?_, isPart.ends.cons c, fun rest follow => ?_⟩
    · exact Uncut.cons (fun _ => Place.next_quoted quote backslash) (.inr Place.quoted_ne)
        isPart.uncut
    · rw [List.cons_append, string_cons quote backslash printable, isPart.read rest follow]
      rfl

end PlanCompiler.Json
