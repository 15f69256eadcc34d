import Mathlib.Data.List.Basic
import Mathlib.Data.List.DropRight
import PlanCompiler.Json.Text

/-!
# Members of objects

The members of an object are the parts of its text between the commas that stand outside of strings
and of further brackets, without the blanks around them. They are found without looking at what they
say: a text is cut while brackets are counted and strings are passed over. So it makes sense to
speak of the members of a text in another order, with any blanks between them.

## Main definitions

* `Json.trim`: a text without the blanks at its ends;
* `Json.pieces`: a text that is cut at its commas;
* `Json.Uncut`: a part of a text that is not cut, and where it leads;
* `Json.members?`: the members of an object;
* `Json.name?`, `Json.value?`: the name and the value of a member;
* `Json.object`: the object with given members.

## Main results

* `Json.trim_append`: what is found between blanks;
* `Json.intercalate_pieces`, `Json.pieces_intercalate`: cutting undoes joining;
* `Json.interior?_eq_some_iff`: the texts of objects;
* `Json.members?_object`: the members of the object with given members.
-/

namespace PlanCompiler.Json

/-! ## Trimming -/

/-- The text without the blanks at its ends. -/
def trim (text : List Char) : List Char := (skipBlanks text).rdropWhile isBlank

/-- A text consists of blanks. -/
def AllBlank (text : List Char) : Prop := ∀ c ∈ text, isBlank c = true

/-- A text has a first character, which is no blank. -/
def StartsFilled (text : List Char) : Prop := ∃ c rest, text = c :: rest ∧ isBlank c = false

/-- A text has a last character, which is no blank. -/
def EndsFilled (text : List Char) : Prop := ∃ front c, text = front ++ [c] ∧ isBlank c = false

variable {text before after : List Char}

/-- The empty text consists of blanks. -/
theorem allBlank_nil : AllBlank [] := List.forall_mem_nil _

/-- Skipping blanks leaves nothing exactly if the text consists of them. -/
theorem skipBlanks_eq_nil_iff : skipBlanks text = [] ↔ AllBlank text :=
  List.dropWhile_eq_nil_iff

/-- Blanks in front of a text are skipped. -/
theorem skipBlanks_append (blank : AllBlank before) :
    skipBlanks (before ++ text) = skipBlanks text :=
  List.dropWhile_append_of_pos blank

/-- A text that starts with no blank loses nothing. -/
theorem StartsFilled.skipBlanks_eq (h : StartsFilled text) : skipBlanks text = text := by
  obtain ⟨c, rest, rfl, filled⟩ := h
  exact List.dropWhile_cons_of_neg (by simp [filled])

/-- How a text starts does not depend on what follows. -/
theorem StartsFilled.append (h : StartsFilled text) (after : List Char) :
    StartsFilled (text ++ after) := by
  obtain ⟨c, rest, rfl, filled⟩ := h
  exact ⟨c, rest ++ after, rfl, filled⟩

/-- How a text ends does not depend on what is in front. -/
theorem EndsFilled.append (before : List Char) (h : EndsFilled text) :
    EndsFilled (before ++ text) := by
  obtain ⟨front, c, rfl, filled⟩ := h
  exact ⟨before ++ front, c, (List.append_assoc _ _ _).symm, filled⟩

/-- One more character in front does not change how a text ends. -/
theorem EndsFilled.cons (c : Char) (h : EndsFilled text) : EndsFilled (c :: text) :=
  h.append [c]

/-- Blanks are skipped at once. -/
@[simp]
theorem skipBlanks_skipBlanks (text : List Char) : skipBlanks (skipBlanks text) = skipBlanks text :=
  List.dropWhile_idempotent isBlank text

/-- What is skipped are blanks. -/
theorem exists_blanks (text : List Char) :
    ∃ before, AllBlank before ∧ text = before ++ skipBlanks text :=
  ⟨text.takeWhile isBlank, fun _ => List.mem_takeWhile_imp, List.takeWhile_append_dropWhile.symm⟩

/-- What is left behind the blanks starts with none. -/
theorem startsFilled_skipBlanks (nonempty : skipBlanks text ≠ []) :
    StartsFilled (skipBlanks text) := by
  obtain ⟨c, rest, found⟩ := List.exists_cons_of_ne_nil nonempty
  have first : (skipBlanks text).head nonempty = c := by simp only [found, List.head_cons]
  exact ⟨c, rest, found, first ▸ List.head_dropWhile_not isBlank nonempty⟩

/-- A text without blanks. -/
theorem endsFilled_of_forall (nonempty : text ≠ []) (filled : ∀ c ∈ text, isBlank c = false) :
    EndsFilled text :=
  ⟨_, _, (List.dropLast_concat_getLast nonempty).symm, filled _ (List.getLast_mem nonempty)⟩

/-- A digit is no blank. -/
theorem isBlank_eq_false_of_isDigit {c : Char} (digit : c.isDigit = true) : isBlank c = false := by
  rw [isBlank, decide_eq_false_iff_not]
  rintro (rfl | rfl | rfl | rfl) <;> exact absurd digit (by decide)

/-- The first character that is not skipped, and the blanks in front of it. -/
theorem exists_blanks_append {c : Char} {rest : List Char} (found : skipBlanks text = c :: rest) :
    ∃ before, AllBlank before ∧ text = before ++ c :: rest ∧
      ∀ others, skipBlanks (before ++ c :: others) = c :: others := by
  obtain ⟨before, blank, whole⟩ := exists_blanks text
  have nonempty : skipBlanks text ≠ [] := by simp [found]
  obtain ⟨_, _, first, filled⟩ := startsFilled_skipBlanks nonempty
  obtain ⟨rfl, -⟩ := List.cons.inj (found.symm.trans first)
  refine ⟨before, blank, found ▸ whole, fun others => ?_⟩
  rw [skipBlanks_append blank]
  exact StartsFilled.skipBlanks_eq ⟨c, others, rfl, filled⟩

/-- Whether blanks are skipped depends on the first character only. -/
theorem skipBlanks_cons_of_eq {c : Char} {rest : List Char}
    (same : skipBlanks (c :: rest) = c :: rest) (others : List Char) :
    skipBlanks (c :: others) = c :: others := by
  obtain ⟨before, -, whole, skipped⟩ := exists_blanks_append same
  obtain rfl := List.self_eq_append_left.1 whole
  exact skipped others

/-- Blanks behind a text are dropped. -/
theorem rdropWhile_append (blank : AllBlank after) (h : EndsFilled text) :
    (text ++ after).rdropWhile isBlank = text := by
  obtain ⟨front, c, rfl, filled⟩ := h
  rw [List.rdropWhile, List.reverse_append, List.dropWhile_append_of_pos, List.reverse_append,
    List.reverse_singleton, List.singleton_append, List.dropWhile_cons_of_neg (by simp [filled])]
  · simp
  · simpa [AllBlank] using blank

/-- A text that is found between blanks. -/
theorem trim_append (blank : AllBlank before) (blank' : AllBlank after)
    (starts : StartsFilled text) (ends : EndsFilled text) :
    trim (before ++ (text ++ after)) = text := by
  rw [trim, skipBlanks_append blank, (starts.append after).skipBlanks_eq,
    rdropWhile_append blank' ends]

/-- A text without blanks at its ends is trimmed to itself. -/
theorem trim_eq_self (starts : StartsFilled text) (ends : EndsFilled text) : trim text = text := by
  rw [trim, starts.skipBlanks_eq, ← List.append_nil text, rdropWhile_append allBlank_nil ends,
    List.append_nil]

/-- Trimming drops blanks at both ends. -/
theorem exists_trim (text : List Char) :
    ∃ before after, AllBlank before ∧ AllBlank after ∧ text = before ++ (trim text ++ after) := by
  obtain ⟨before, blank, whole⟩ := exists_blanks text
  refine ⟨before, (skipBlanks text).rtakeWhile isBlank, blank,
    fun _ => List.mem_rtakeWhile_imp, ?_⟩
  rw [trim, List.rdropWhile_append_rtakeWhile]
  exact whole

/-- Trimming leaves nothing exactly if the text consists of blanks. -/
theorem trim_eq_nil_iff : trim text = [] ↔ AllBlank text := by
  constructor
  · intro empty
    obtain ⟨before, after, blank, blank', whole⟩ := exists_trim text
    rw [empty, List.nil_append] at whole
    rw [whole]
    intro c member
    exact (List.mem_append.1 member).elim (blank c) (blank' c)
  · intro blank
    rw [trim, skipBlanks_eq_nil_iff.2 blank]
    rfl

/-- A trimmed text starts with no blank. -/
theorem startsFilled_trim (nonempty : trim text ≠ []) : StartsFilled (trim text) := by
  obtain ⟨dropped, whole⟩ := List.rdropWhile_prefix isBlank (l := skipBlanks text)
  have skipped : skipBlanks text ≠ [] := by
    intro none
    rw [trim, none] at nonempty
    exact nonempty rfl
  obtain ⟨c, rest, found, filled⟩ := startsFilled_skipBlanks skipped
  obtain ⟨first, others, start⟩ := List.exists_cons_of_ne_nil nonempty
  rw [← trim, start, found, List.cons_append, List.cons.injEq] at whole
  exact ⟨first, others, start, whole.1 ▸ filled⟩

/-- A trimmed text ends with no blank. -/
theorem endsFilled_trim (nonempty : trim text ≠ []) : EndsFilled (trim text) := by
  have filled := List.rdropWhile_last_not isBlank (skipBlanks text) nonempty
  exact ⟨_, _, (List.dropLast_concat_getLast nonempty).symm, eq_false_of_ne_true filled⟩

/-! ## Cutting -/

/-- Where a character of a text stands. -/
inductive Place where
  /-- Outside of strings, and inside of so many brackets. -/
  | outside (depth : Nat)
  /-- In a string. -/
  | quoted (depth : Nat)
  /-- In a string and behind a backslash. -/
  | escaped (depth : Nat)
deriving DecidableEq, Repr

/-- Where the next character stands. -/
def Place.next : Place → Char → Place
  | .outside depth, c =>
    if c = '"' then .quoted depth
    else if c = '{' ∨ c = '[' then .outside (depth + 1)
    else if c = '}' ∨ c = ']' then .outside (depth - 1)
    else .outside depth
  | .quoted depth, c =>
    if c = '"' then .outside depth
    else if c = '\\' then .escaped depth
    else .quoted depth
  | .escaped depth, _ => .quoted depth

/-- Inside of one more bracket. -/
def Place.inside (depth : Nat) : Place := .outside (depth + 1)

/-- Characters of a string but its quote and the backslash stay inside. -/
theorem Place.next_quoted {depth : Nat} {c : Char} (quote : c ≠ '"') (backslash : c ≠ '\\') :
    Place.next (.quoted depth) c = .quoted depth := by
  rw [next, if_neg quote, if_neg backslash]

/-- Inside a bracket no text is cut. -/
theorem Place.inside_ne (depth : Nat) : inside depth ≠ outside 0 := by
  rw [inside, Ne, outside.injEq]
  exact Nat.succ_ne_zero depth

/-- Inside a string no text is cut. -/
theorem Place.quoted_ne (depth : Nat) : quoted depth ≠ outside 0 := Place.noConfusion

/-- Behind a backslash no text is cut. -/
theorem Place.escaped_ne (depth : Nat) : escaped depth ≠ outside 0 := Place.noConfusion

/-- The pieces of a text between the commas outside of strings and brackets. -/
def pieces (place : Place) : List Char → List (List Char)
  | [] => [[]]
  | c :: rest =>
    if c = ',' ∧ place = .outside 0 then [] :: pieces place rest
    else (pieces (place.next c) rest).modifyHead (c :: ·)

/-- There is at least one piece. -/
theorem pieces_ne_nil (place : Place) (text : List Char) : pieces place text ≠ [] := by
  induction text generalizing place with
  | nil => exact List.cons_ne_nil _ _
  | cons c rest ih =>
    rw [pieces]
    split
    · exact List.cons_ne_nil _ _
    · rw [Ne, List.modifyHead_eq_nil_iff]
      exact ih _

/-- Joining the pieces gives the text. -/
theorem intercalate_pieces (place : Place) (text : List Char) :
    [','].intercalate (pieces place text) = text := by
  induction text generalizing place with
  | nil => rfl
  | cons c rest ih =>
    rw [pieces]
    split
    · rename_i cut
      rw [List.intercalate_cons_of_ne_nil (pieces_ne_nil _ _), ih, cut.1]
      rfl
    · -- the character joins the first piece
      have joined := ih (place.next c)
      obtain ⟨first, others, found⟩ :=
        List.exists_cons_of_ne_nil (pieces_ne_nil (place.next c) rest)
      rw [found] at joined ⊢
      rw [List.modifyHead_cons, List.intercalate_cons_cons_left, joined]

/-- A part of a text that leads from one place to another, for any number of brackets around it,
and has no comma at which the text is cut. -/
def Uncut (here there : Nat → Place) (part : List Char) : Prop :=
  ∀ depth rest, pieces (here depth) (part ++ rest) =
    (pieces (there depth) rest).modifyHead (part ++ ·)

namespace Uncut

variable {here there further : Nat → Place} {part others : List Char}

/-- The empty part leads nowhere. -/
theorem nil (here : Nat → Place) : Uncut here here [] := by
  intro depth rest
  cases found : pieces (here depth) rest <;> simp [found]

/-- Parts without cuts are put together where one leads to the other. -/
theorem append (h : Uncut here there part) (next : Uncut there further others) :
    Uncut here further (part ++ others) := by
  intro depth rest
  rw [List.append_assoc, h depth, next depth, List.modifyHead_modifyHead]
  congr 1
  funext piece
  exact (List.append_assoc _ _ _).symm

/-- A single character. -/
theorem char {c : Char} (leads : ∀ depth, (here depth).next c = there depth)
    (kept : c ≠ ',' ∨ ∀ depth, here depth ≠ .outside 0) : Uncut here there [c] := by
  intro depth rest
  rw [List.singleton_append, pieces, if_neg, leads]
  · rfl
  · rintro ⟨comma, outermost⟩
    exact kept.elim (fun other => other comma) fun deeper => deeper depth outermost

/-- A character at which the text is not cut can stand in front. -/
theorem cons {c : Char} (leads : ∀ depth, (here depth).next c = there depth)
    (kept : c ≠ ',' ∨ ∀ depth, here depth ≠ .outside 0) (h : Uncut there further part) :
    Uncut here further (c :: part) :=
  (char leads kept).append h

/-- There may be one more bracket around the part. -/
theorem deeper (h : Uncut .outside .outside part) : Uncut .inside .inside part :=
  fun depth => h (depth + 1)

/-- A string, with the contents and the quote behind them. -/
theorem string (h : Uncut .quoted .outside part) : Uncut .outside .outside ('"' :: part) :=
  cons (fun _ => rfl) (.inl (by decide)) h

/-- A backslash in a string. -/
theorem backslash : Uncut .quoted .escaped ['\\'] := char (fun _ => rfl) (.inr Place.quoted_ne)

end Uncut

/-- A character without a meaning for the place of the next one. -/
def isPlain (c : Char) : Bool := ¬ ['"', ',', '{', '}', '[', ']'].contains c

/-- Outside of strings, plain characters change nothing. -/
theorem uncut_of_isPlain {part : List Char} (plain : ∀ c ∈ part, isPlain c = true) :
    Uncut .outside .outside part := by
  induction part with
  | nil => exact Uncut.nil _
  | cons c rest ih =>
    obtain ⟨first, others⟩ := List.forall_mem_cons.1 plain
    simp only [isPlain, List.contains_cons, List.contains_nil, Bool.or_false, Bool.or_eq_true,
      beq_iff_eq, not_or, decide_eq_true_iff] at first
    refine Uncut.cons (fun depth => ?_) (.inl first.2.1) (ih others)
    simp [Place.next, first]

/-- A blank has no meaning for the place of the next character. -/
theorem isPlain_of_isBlank {c : Char} (blank : isBlank c = true) : isPlain c = true := by
  simp only [isBlank, decide_eq_true_iff] at blank
  rcases blank with rfl | rfl | rfl | rfl <;> decide

/-- A digit has no meaning for the place of the next character. -/
theorem isPlain_of_isDigit {c : Char} (digit : c.isDigit = true) : isPlain c = true := by
  have (other : Char) (plain : other.isDigit = false) : c ≠ other := by
    rintro rfl
    rw [plain] at digit
    cases digit
  simp [isPlain, this]

/-- A text is not cut at blanks. -/
theorem uncut_of_allBlank {part : List Char} (blank : AllBlank part) :
    Uncut .outside .outside part :=
  uncut_of_isPlain fun c member => isPlain_of_isBlank (blank c member)

/-- Blanks and a closing bracket. -/
theorem uncut_closing {blanks : List Char} {c : Char} (blank : AllBlank blanks)
    (closes : ∀ depth, (Place.inside depth).next c = .outside depth) :
    Uncut .inside .outside (blanks ++ [c]) :=
  (uncut_of_allBlank blank).deeper.append (Uncut.char closes (.inr Place.inside_ne))

/-- Parts that are not cut are the pieces of the text in which they are joined. -/
theorem pieces_intercalate {parts : List (List Char)} (nonempty : parts ≠ [])
    (uncut : ∀ part ∈ parts, Uncut .outside .outside part) :
    pieces (.outside 0) ([','].intercalate parts) = parts := by
  induction parts with
  | nil => exact absurd rfl nonempty
  | cons part others ih =>
    obtain ⟨first, rest⟩ := List.forall_mem_cons.1 uncut
    cases others with
    | nil => simpa [pieces] using first 0 []
    | cons second others =>
      -- the part is not cut, and after it comes the comma at which the text is
      rw [List.intercalate_cons_cons, List.append_assoc, first 0, List.singleton_append, pieces,
        if_pos ⟨rfl, rfl⟩, ih (List.cons_ne_nil _ _) rest, List.modifyHead_cons, List.append_nil]

example : pieces (.outside 0) "1,[2,3],\"4,\\\"5\"".toList =
    ["1".toList, "[2,3]".toList, "\"4,\\\"5\"".toList] := by decide

/-! ## Objects -/

/-- The text between the braces of an object. -/
def interior? (text : List Char) : Option (List Char) :=
  match trim text with
  | '{' :: rest => if rest.getLast? = some '}' then some rest.dropLast else none
  | _ => none

/-- The parts of the text between the braces of an object, one for each member. -/
def parts (interior : List Char) : List (List Char) :=
  if trim interior = [] then [] else pieces (.outside 0) interior

/-- The members of an object, without the blanks around them. -/
def members? (text : List Char) : Option (List (List Char)) :=
  (interior? text).map fun interior => (parts interior).map trim

/-- The name of a member, and the text of its value. -/
def nameAndValue? (member : List Char) : Option (String × List Char) :=
  match skipBlanks member with
  | '"' :: rest =>
    match string rest with
    | .ok (name, rest) =>
      match skipBlanks rest with
      | ':' :: value => some (String.ofList name, trim value)
      | _ => none
    | .error _ => none
  | _ => none

/-- The name of a member. Its escapes are resolved. -/
def name? (member : List Char) : Option String := (nameAndValue? member).map (·.1)

/-- The text of the value of a member, without the blanks around it. -/
def value? (member : List Char) : Option (List Char) := (nameAndValue? member).map (·.2)

/-- The object with given members. -/
def object (members : List (List Char)) : List Char :=
  '{' :: ([','].intercalate members ++ ['}'])

/-- The interior stands between the outermost braces, which have only blanks around them. -/
theorem interior?_eq_some_iff {interior : List Char} :
    interior? text = some interior ↔ ∃ before after, AllBlank before ∧ AllBlank after ∧
      text = before ++ '{' :: (interior ++ '}' :: after) := by
  constructor
  · intro found
    obtain ⟨before, after, blank, blank', whole⟩ := exists_trim text
    unfold interior? at found
    split at found
    · rename_i rest trimmed
      split at found
      · rename_i last
        obtain rfl := Option.some.inj found
        refine ⟨before, after, blank, blank', ?_⟩
        -- the brace at the end is no part of the interior
        have split : rest = rest.dropLast ++ ['}'] := (List.dropLast_append_getLast? _ last).symm
        rw [whole, trimmed, split]
        simp
      · cases found
    · cases found
  · rintro ⟨before, after, blank, blank', rfl⟩
    have trimmed : trim (before ++ '{' :: (interior ++ '}' :: after)) =
        '{' :: (interior ++ ['}']) := by
      have starts : StartsFilled ('{' :: (interior ++ ['}'])) := ⟨_, _, rfl, by decide⟩
      have ends : EndsFilled ('{' :: (interior ++ ['}'])) := ⟨'{' :: interior, '}', rfl, by decide⟩
      simpa using trim_append blank blank' starts ends
    rw [interior?, trimmed]
    simp

/-- What is inside of an object is known from the object. -/
theorem eq_of_append_brace_eq {interior interior' after' : List Char} (blank : AllBlank after)
    (blank' : AllBlank after') (same : interior ++ '}' :: after = interior' ++ '}' :: after') :
    interior = interior' := by
  have ends (inside : List Char) : EndsFilled (inside ++ ['}']) := ⟨inside, '}', rfl, by decide⟩
  have trimmed := congrArg (List.rdropWhile isBlank) same
  rw [List.append_cons, List.append_cons interior', rdropWhile_append blank (ends interior),
    rdropWhile_append blank' (ends interior')] at trimmed
  exact List.append_cancel_right trimmed

/-- The members of an object are found in the order in which they are given. -/
theorem members?_object {members : List (List Char)}
    (starts : ∀ member ∈ members, StartsFilled member)
    (ends : ∀ member ∈ members, EndsFilled member)
    (uncut : ∀ member ∈ members, Uncut .outside .outside member) :
    members? (object members) = some members := by
  have inside : interior? (object members) = some ([','].intercalate members) :=
    interior?_eq_some_iff.2 ⟨[], [], allBlank_nil, allBlank_nil, rfl⟩
  rw [members?, inside, Option.map_some, Option.some.injEq]
  cases members with
  | nil => rfl
  | cons first others =>
    have nonblank : trim ([','].intercalate (first :: others)) ≠ [] := by
      rw [Ne, trim_eq_nil_iff]
      obtain ⟨c, rest, rfl, filled⟩ := starts first List.mem_cons_self
      intro blank
      rw [List.intercalate_cons_cons_left] at blank
      rw [blank c List.mem_cons_self] at filled
      cases filled
    rw [parts, if_neg nonblank, pieces_intercalate (List.cons_ne_nil _ _) uncut]
    -- there are no blanks around the members
    refine (List.map_congr_left fun member found => ?_).trans (List.map_id _)
    exact trim_eq_self (starts member found) (ends member found)

end PlanCompiler.Json
