import PlanCompiler.Proofs.Code.Literal

/-!
# Operands that stand by themselves

An expression is put together from the texts of its operands, so what binds to a part of an operand
only would change its meaning. The text of an operand is atomic if nothing can: it is a variable
with members and elements, a call, a string literal, or it stands in parentheses that are closed at
its end. Which it is shows in its outline, which has a single item for all that stands in a pair of
brackets.

## Main definitions

* `Bracket.outline`: what stands outside of brackets, if brackets match;
* `IsAtomic`: the text of an operand stands by itself;
* `Code.Spans`: what some code is put together from.

## Main results

* `Code.Spans.isAtomic`: code is atomic if the outline of its fixed texts shows it, whatever stands
  in the brackets between them;
* `isAtomic_stringLiteral`, `isAtomic_intLiteral`, `isAtomic_floatLiteral`, `isAtomic_dateLiteral`.
-/

namespace PlanCompiler

open Lexeme (scan after startsWord endsWord isWordChar)

/-! ## Outlines -/

/-- The brackets of expressions. -/
inductive Bracket where
  /-- Parentheses. -/
  | round
  /-- The brackets of indices. -/
  | square
deriving DecidableEq, Repr

/-- What stands outside of brackets. -/
inductive Item where
  /-- An identifier. -/
  | name
  /-- A word that starts with a digit. -/
  | number
  /-- A string literal. -/
  | literal
  /-- Any other character. -/
  | sign (c : Char)
  /-- A pair of brackets with all that stands in it. -/
  | group (bracket : Bracket)
deriving DecidableEq, Repr

/-- The item that a lexeme is outside of brackets. -/
def Item.of : Lexeme → Item
  | .word chars => if chars.head?.any Char.isDigit then .number else .name
  | .literal => .literal
  | .sign c => .sign c

namespace Bracket

/-- Closes a bracket, which has to be the one that was opened last. -/
def leave (bracket : Bracket) : List Bracket → Option (List Bracket × List Item)
  | [] => none
  | last :: outer =>
    if last = bracket then some (outer, if outer = [] then [.group bracket] else []) else none

/-- The open brackets after a lexeme, and what it adds to the outline. -/
def enter (opened : List Bracket) (lexeme : Lexeme) : Option (List Bracket × List Item) :=
  if lexeme = .sign '(' then some (round :: opened, [])
  else if lexeme = .sign '[' then some (square :: opened, [])
  else if lexeme = .sign ')' then round.leave opened
  else if lexeme = .sign ']' then square.leave opened
  else some (opened, if opened = [] then [.of lexeme] else [])

/-- The open brackets after some lexemes, and what stands outside of brackets. Every closing bracket
has to match. -/
def outline (opened : List Bracket) : List Lexeme → Option (List Bracket × List Item)
  | [] => some (opened, [])
  | lexeme :: rest =>
    (enter opened lexeme).bind fun entered =>
      (outline entered.1 rest).map fun others => (others.1, entered.2 ++ others.2)

section

variable {opened opened' opened'' outer : List Bracket} {items items' : List Item}

/-- Lexemes are outlined one after the other. -/
theorem outline_append {front back : List Lexeme}
    (first : outline opened front = some (opened', items))
    (second : outline opened' back = some (opened'', items')) :
    outline opened (front ++ back) = some (opened'', items ++ items') := by
  induction front generalizing opened items with
  | nil =>
    cases first
    exact second
  | cons lexeme front ih =>
    rw [outline, Option.bind_eq_some_iff] at first
    obtain ⟨entered, found, first⟩ := first
    obtain ⟨others, found', same⟩ := Option.map_eq_some_iff.1 first
    cases same
    rw [List.cons_append, outline, found, Option.bind_some, ih found', Option.map_some,
      List.append_assoc]

/-- A bracket is left in the same way inside further open brackets, where nothing is shown. -/
theorem leave_inside (nested : outer ≠ []) {bracket : Bracket}
    (left : bracket.leave opened = some (opened', items)) :
    bracket.leave (opened ++ outer) = some (opened' ++ outer, []) := by
  cases opened with
  | nil => cases left
  | cons last inner =>
    rw [leave] at left
    split at left
    · rename_i same
      cases left
      rw [List.cons_append, leave, if_pos same, if_neg (by simp [nested])]
    · cases left

/-- A lexeme acts in the same way inside further open brackets, where nothing is shown. -/
theorem enter_inside (nested : outer ≠ []) {lexeme : Lexeme}
    (entered : enter opened lexeme = some (opened', items)) :
    enter (opened ++ outer) lexeme = some (opened' ++ outer, []) := by
  have inside : opened ++ outer ≠ [] := List.append_ne_nil_of_right_ne_nil _ nested
  rw [enter] at entered
  rw [enter, if_neg inside]
  split_ifs at entered ⊢
  · cases entered
    rfl
  · cases entered
    rfl
  · exact leave_inside nested entered
  · exact leave_inside nested entered
  -- any other lexeme leaves the brackets as they are, whether it shows or not
  all_goals
    cases entered
    rfl

/-- Inside of other brackets nothing of an outline shows. -/
theorem outline_inside (nested : outer ≠ []) {lexemes : List Lexeme}
    (outlined : outline opened lexemes = some (opened', items)) :
    outline (opened ++ outer) lexemes = some (opened' ++ outer, []) := by
  induction lexemes generalizing opened items with
  | nil =>
    cases outlined
    rfl
  | cons lexeme rest ih =>
    rw [outline, Option.bind_eq_some_iff] at outlined
    obtain ⟨entered, found, outlined⟩ := outlined
    obtain ⟨others, found', same⟩ := Option.map_eq_some_iff.1 outlined
    cases same
    rw [outline, enter_inside nested found, Option.bind_some, ih found']
    rfl

/-- A word is shown outside brackets and hidden inside. -/
theorem outline_word (opened : List Bracket) (chars : List Char) :
    outline opened [.word chars] =
      some (opened, if opened = [] then [.of (.word chars)] else []) := by
  rw [outline, enter, if_neg nofun, if_neg nofun, if_neg nofun, if_neg nofun, Option.bind_some,
    outline, Option.map_some, List.append_nil]

/-- A lexeme is a bracket. -/
def isBracket (lexeme : Lexeme) : Bool :=
  [.sign '(', .sign ')', .sign '[', .sign ']'].contains lexeme

/-- Without brackets everything is outside of them. -/
theorem outline_of_notBracket {lexemes : List Lexeme}
    (none : ∀ lexeme ∈ lexemes, isBracket lexeme = false) :
    outline [] lexemes = some ([], lexemes.map Item.of) := by
  induction lexemes with
  | nil => rfl
  | cons lexeme rest ih =>
    obtain ⟨first, others⟩ := List.forall_mem_cons.1 none
    simp only [isBracket, List.contains_eq_mem, List.mem_cons, List.not_mem_nil, or_false,
      decide_eq_false_iff_not, not_or] at first
    obtain ⟨noRound, noRoundEnd, noSquare, noSquareEnd⟩ := first
    rw [outline, enter, if_neg noRound, if_neg noSquare, if_neg noRoundEnd, if_neg noSquareEnd,
      if_pos rfl, Option.bind_some, ih others]
    rfl

end

end Bracket

/-! ## Atomic texts -/

namespace Item

/-- Members and elements of something. A member is reached by a point or an arrow. -/
def isAccess : List Item → Bool
  | [] => true
  | .sign '.' :: .name :: rest => isAccess rest
  | .sign '-' :: .sign '>' :: .name :: rest => isAccess rest
  | .group .square :: rest => isAccess rest
  | _ => false

/-- The outline of an operand that stands by itself: a variable with members and elements, a call, a
string literal or something in parentheses. -/
def isOperand : List Item → Bool
  | [.name, .group .round] => true
  | .name :: rest => isAccess rest
  | [.literal] => true
  | [.group .round] => true
  | _ => false

end Item

/-- A character that is no blank. -/
def isSolid (c : Char) : Bool := c ≠ ' ' ∧ c ≠ '\t'

/-- The text of an operand stands by itself: it has the outline of one, from its first character to
its last, and does not end inside of a string literal. -/
structure IsAtomic (text : String) : Prop where
  outside : after .outside text.toList = .outside
  first : text.toList.head?.any isSolid = true
  last : text.toList.getLast?.any isSolid = true
  operand : ∃ items, Bracket.outline [] (scan .outside text.toList) = some ([], items) ∧
    Item.isOperand items = true

/-- The same as a check of the outline. -/
theorem isAtomic_iff {text : String} :
    IsAtomic text ↔ after .outside text.toList = .outside ∧
      text.toList.head?.any isSolid = true ∧ text.toList.getLast?.any isSolid = true ∧
      (Bracket.outline [] (scan .outside text.toList)).any
        (fun outlined => outlined.1 = [] && Item.isOperand outlined.2) = true := by
  constructor
  · rintro ⟨outside, first, last, items, outlined, operand⟩
    exact ⟨outside, first, last, by rw [outlined]; exact operand⟩
  · rintro ⟨outside, first, last, shown⟩
    obtain ⟨⟨opened, items⟩, outlined, operand⟩ := (Option.any_eq_true _ _).1 shown
    simp only [Bool.and_eq_true, decide_eq_true_iff] at operand
    exact ⟨outside, first, last, items, operand.1 ▸ outlined, operand.2⟩

instance (text : String) : Decidable (IsAtomic text) := decidable_of_iff' _ isAtomic_iff

/-- Brackets in a string literal do not count, and those in front do not make up for others. -/
example : IsAtomic "kiln_like(s0.c1[f1_sel[i]], \")\")" ∧ ¬ IsAtomic "(a) + (b)" ∧
    ¬ IsAtomic "(int64_t)a" := by
  decide +kernel

/-- A text that closes all of its brackets and opens those that it closes. -/
structure IsBalanced (chars : List Char) : Prop where
  outside : after .outside chars = .outside
  outlined : ∃ items, Bracket.outline [] (scan .outside chars) = some ([], items)

/-- An atomic text has balanced brackets. -/
theorem IsAtomic.isBalanced {text : String} (atomic : IsAtomic text) : IsBalanced text.toList :=
  ⟨atomic.outside, atomic.operand.imp fun _ shown => shown.1⟩

namespace IsBalanced

/-- The empty text is balanced. -/
theorem nil : IsBalanced [] := ⟨rfl, [], rfl⟩

/-- Balanced texts that do not run into each other are balanced together. -/
theorem append {front back : List Char} (first : IsBalanced front) (second : IsBalanced back)
    (apart : endsWord front = true → startsWord back = false) : IsBalanced (front ++ back) := by
  obtain ⟨items, outlined⟩ := first.outlined
  obtain ⟨items', outlined'⟩ := second.outlined
  refine ⟨?_, items ++ items', ?_⟩
  · rw [Lexeme.after_append, first.outside, second.outside]
  · rw [Lexeme.scan_append fun _ => apart, first.outside]
    exact Bracket.outline_append outlined outlined'

/-- A text without round or square brackets is balanced. -/
theorem of_notMem {chars : List Char} (outside : after .outside chars = .outside)
    (none : ∀ c ∈ ['(', ')', '[', ']'], c ∉ chars) : IsBalanced chars := by
  refine ⟨outside, _, Bracket.outline_of_notBracket fun lexeme member => ?_⟩
  rw [Bracket.isBracket, ← Bool.not_eq_true, List.contains_iff_mem]
  intro bracket
  simp only [List.mem_cons, List.not_mem_nil, or_false] at bracket none
  rcases bracket with rfl | rfl | rfl | rfl <;>
    exact none _ (by simp) (Lexeme.mem_of_sign_mem_scan member)

/-- A numeral is balanced. -/
theorem of_isNumeral {chars : List Char} (numeral : IsNumeral chars) : IsBalanced chars := by
  refine of_notMem (Lexeme.after_of_notMem (numeral.notMem (by decide))) fun c bracket => ?_
  simp only [List.mem_cons, List.not_mem_nil, or_false] at bracket
  rcases bracket with rfl | rfl | rfl | rfl <;> exact numeral.notMem (by decide)

end IsBalanced

/-- A text is the name of something: a word that does not start with a digit. -/
def IsName (text : String) : Prop :=
  IsIdentifier text ∧ text.toList.head?.any (fun c => !c.isDigit) = true

instance (text : String) : Decidable (IsName text) := inferInstanceAs (Decidable (_ ∧ _))

namespace IsName

/-- A name is not empty. -/
theorem ne_nil {text : String} (named : IsName text) : text.toList ≠ [] := by
  intro empty
  have first := named.2
  rw [empty] at first
  cases first

/-- A name lexes to one word. -/
theorem scan_eq {text : String} (named : IsName text) :
    scan .outside text.toList = [.word text.toList] :=
  Lexeme.scan_word named.ne_nil named.1

/-- A name in an outline. -/
theorem item_eq {text : String} (named : IsName text) : Item.of (.word text.toList) = .name := by
  have first := named.2
  rw [Item.of]
  cases spelled : text.toList with
  | nil => exact absurd spelled named.ne_nil
  | cons c rest => simp_all

/-- More of a word behind a name is a name. -/
theorem append {a b : String} (named : IsName a) (word : IsIdentifier b) : IsName (a ++ b) := by
  refine ⟨named.1.append word, ?_⟩
  rw [String.toList_append, List.head?_append_of_ne_nil _ named.ne_nil]
  exact named.2

end IsName

/-- A word's character is solid. -/
theorem isSolid_of_isWordChar {c : Char} (word : isWordChar c = true) : isSolid c = true := by
  rw [isSolid, decide_eq_true_iff]
  constructor <;> rintro rfl <;> exact absurd word (by decide)

/-- The first and the last character of a name are no blanks. -/
theorem IsName.first {text : String} (named : IsName text) :
    text.toList.head?.any isSolid = true := by
  cases spelled : text.toList with
  | nil => exact absurd spelled named.ne_nil
  | cons c rest => exact isSolid_of_isWordChar (named.1 c (spelled ▸ List.mem_cons_self))

/-- A name ends in a solid character. -/
theorem IsName.last {text : String} (named : IsName text) :
    text.toList.getLast?.any isSolid = true := by
  rw [List.getLast?_eq_some_getLast named.ne_nil]
  exact isSolid_of_isWordChar (named.1 _ (List.getLast_mem named.ne_nil))

/-- The variables of nodes are names, and so are all functions and types. -/
theorem Name.isName_text {name : Name} (word : IsIdentifier name.text) : IsName name.text := by
  refine ⟨word, ?_⟩
  cases other : name.node? with
  | none =>
    obtain ⟨rest, spelled⟩ := name.exists_toList_text other
    rw [spelled]
    rfl
  | some node =>
    cases name <;> cases other
    rename_i owner part
    rw [Name.toList_text_ofNode]
    cases owner <;> rfl

/-! ## Code from its parts -/

namespace Code

namespace Atom

/-- What an operand is put together from. -/
inductive Segment where
  /-- Fixed text. -/
  | fixed (text : String)
  /-- A name. -/
  | name
  /-- Anything that closes the brackets that it opens. -/
  | inner
deriving DecidableEq, Repr

/-- Some code is such a part. -/
def Segment.Is (code : Code) : Segment → Prop
  | .fixed text => code = text
  | .name => IsName code.text
  | .inner => IsBalanced code.chars

/-- What is known of the parts that stand in front of the next one. -/
structure Shape where
  /-- The open brackets, the last one first. -/
  opened : List Bracket := []
  /-- What stands outside of brackets. -/
  items : List Item := []
  /-- The last character may belong to a word. -/
  ends : Bool := false
  /-- The first character is no blank. -/
  first : Bool := false
  /-- The last character is no blank. -/
  last : Bool := false
deriving DecidableEq, Repr

namespace Shape

/-- What is known once a part follows, if it can. The part that comes first is a name or starts with
a character that is no blank. -/
def next? (shape : Shape) : Segment → Option Shape
  | .fixed text =>
    let chars := text.toList
    if after .outside chars = .outside ∧ chars ≠ [] ∧ (shape.ends && startsWord chars) = false ∧
        (shape.first || chars.head?.any isSolid) then
      (Bracket.outline shape.opened (scan .outside chars)).map fun outlined =>
        { opened := outlined.1
          items := shape.items ++ outlined.2
          ends := endsWord chars
          first := true
          last := chars.getLast?.any isSolid }
    else none
  | .name =>
    if shape.ends then none
    else some
      { opened := shape.opened
        items := shape.items ++ if shape.opened = [] then [.name] else []
        ends := true
        first := true
        last := true }
  | .inner =>
    -- inside of brackets its outline does not show
    if shape.ends ∨ shape.opened = [] ∨ !shape.first then none
    else some { shape with ends := true, last := false }

/-- What is known of some parts, the last one first. -/
def of? : List Segment → Option Shape
  | [] => some {}
  | part :: earlier => (of? earlier).bind fun shape => shape.next? part

/-- What is known of some parts makes them an operand. -/
def isOperand (shape : Shape) : Bool :=
  shape.opened = [] ∧ shape.first ∧ shape.last ∧ Item.isOperand shape.items

end Shape

/-- The characters of some parts are as it is known of them. -/
structure Shows (shape : Shape) (chars : List Char) : Prop where
  outside : after .outside chars = .outside
  outlined : Bracket.outline [] (scan .outside chars) = some (shape.opened, shape.items)
  ends : endsWord chars = true → shape.ends = true
  first : shape.first = true → chars.head?.any isSolid = true
  last : shape.last = true → chars.getLast?.any isSolid = true
  started : shape.first = false → chars = []

/-- The empty text shows nothing. -/
theorem shows_nil : Shows {} [] where
  outside := rfl
  outlined := rfl
  ends := id
  first := nofun
  last := nofun
  started _ := rfl

/-- The first character stays the first one. -/
theorem head?_append_any {front back : List Char} {p : Char → Bool}
    (first : front.head?.any p = true ∨ front = [] ∧ back.head?.any p = true) :
    (front ++ back).head?.any p = true := by
  rcases first with first | ⟨rfl, first⟩
  · cases front with
    | nil => cases first
    | cons c front => exact first
  · exact first

/-- What holds of the back's last character holds of the whole text's. -/
theorem getLast?_append_any {front back : List Char} {p : Char → Bool}
    (last : back.getLast?.any p = true) : (front ++ back).getLast?.any p = true := by
  have nonempty : back ≠ [] := by
    rintro rfl
    cases last
  rwa [List.getLast?_append_of_ne_nil _ nonempty]

section

variable {shape shape' : Shape} {front : List Char}

/-- Characters that follow are outlined on their own, behind the brackets that are open. -/
theorem Shows.outline_append (shows : Shows shape front) {back : List Char}
    {opened : List Bracket} {items : List Item}
    (apart : shape.ends = true → startsWord back = false)
    (outlined : Bracket.outline shape.opened (scan .outside back) = some (opened, items)) :
    Bracket.outline [] (scan .outside (front ++ back)) = some (opened, shape.items ++ items) := by
  rw [Lexeme.scan_append fun _ ends => apart (shows.ends ends), shows.outside]
  exact Bracket.outline_append shows.outlined outlined

/-- Characters that follow are outside of literals if they are on their own. -/
theorem Shows.after_append (shows : Shows shape front) {back : List Char}
    (closed : after .outside back = .outside) : after .outside (front ++ back) = .outside := by
  rw [Lexeme.after_append, shows.outside, closed]

/-- Either the first character was known before, or it is that of the characters that follow. -/
theorem Shows.head?_append (shows : Shows shape front) {back : List Char}
    (first : shape.first = false → back.head?.any isSolid = true) :
    (front ++ back).head?.any isSolid = true := by
  refine head?_append_any ?_
  cases started : shape.first with
  | true => exact .inl (shows.first started)
  | false => exact .inr ⟨shows.started started, first started⟩

/-- A fixed text that can follow. -/
theorem Shows.next_fixed (shows : Shows shape front) {text : String}
    (found : shape.next? (.fixed text) = some shape') : Shows shape' (front ++ text.toList) := by
  rw [Shape.next?] at found
  split at found
  · rename_i passed
    obtain ⟨closed, nonempty, apart, first⟩ := passed
    obtain ⟨outlined, known, rfl⟩ := Option.map_eq_some_iff.1 found
    refine ⟨shows.after_append closed, shows.outline_append (fun ends => ?_) known, fun ends => ?_,
      fun _ => shows.head?_append fun started => ?_, getLast?_append_any, nofun⟩
    · rwa [ends, Bool.true_and] at apart
    · rwa [Lexeme.endsWord_append _ nonempty] at ends
    · simpa [started] using first
  · cases found

/-- A name that can follow. -/
theorem Shows.next_name (shows : Shows shape front) {text : String} (named : IsName text)
    (found : shape.next? .name = some shape') : Shows shape' (front ++ text.toList) := by
  rw [Shape.next?] at found
  split at found
  · cases found
  rename_i apart
  cases found
  refine ⟨shows.after_append (Lexeme.after_of_forall named.1),
    shows.outline_append (fun ends => absurd ends apart) ?_, fun _ => rfl,
    fun _ => shows.head?_append fun _ => named.first,
    fun _ => getLast?_append_any named.last, nofun⟩
  rw [named.scan_eq, Bracket.outline_word, named.item_eq]

/-- Balanced characters that can follow, which is inside of brackets only. -/
theorem Shows.next_inner (shows : Shows shape front) {back : List Char} (balanced : IsBalanced back)
    (found : shape.next? .inner = some shape') : Shows shape' (front ++ back) := by
  rw [Shape.next?] at found
  split at found
  · cases found
  rename_i ready
  simp only [not_or, Bool.not_eq_true, Bool.not_eq_false'] at ready
  obtain ⟨apart, nested, started⟩ := ready
  cases found
  -- none of the outline shows, since the brackets around it stay open
  obtain ⟨items, outlined⟩ := balanced.outlined
  have shown := shows.outline_append (fun ends => absurd ends (by simp [apart]))
    (Bracket.outline_inside nested outlined)
  rw [List.append_nil, List.nil_append] at shown
  exact ⟨shows.after_append balanced.outside, shown, fun _ => rfl,
    fun _ => head?_append_any (.inl (shows.first started)), nofun,
    fun absent => absurd (started.symm.trans absent) nofun⟩

/-- What is known of a part that follows holds of its characters. -/
theorem Shows.next (shows : Shows shape front) {part : Segment} {code : Code} (is : part.Is code)
    (found : shape.next? part = some shape') : Shows shape' (front ++ code.chars) := by
  cases part with
  | fixed text =>
    obtain rfl : code = text := is
    rw [chars_text]
    exact shows.next_fixed found
  | name => exact shows.next_name is found
  | inner => exact shows.next_inner is found

end

end Atom

open Atom

/-- Code is put together from some parts; the last one comes first. -/
inductive Spans : List Segment → Code → Prop
  | one {part : Segment} {code : Code} : part.Is code → Spans [part] code
  | add {parts : List Segment} {part : Segment} {code more : Code} : Spans parts code →
      part.Is more → Spans (part :: parts) (code ++ more)

namespace Spans

/-- A fixed text spans the shape of one fixed part. -/
theorem start (text : String) : Spans [.fixed text] text := .one rfl

variable {parts : List Segment} {code more : Code}

/-- A name spans the shape of one name. -/
theorem startName (named : IsName code.text) : Spans [.name] code := .one named

/-- A span is prolonged by a fixed text. -/
theorem text (spans : Spans parts code) (text : String) :
    Spans (.fixed text :: parts) (code ++ text) :=
  spans.add rfl

/-- A span is prolonged by a name. -/
theorem name (spans : Spans parts code) (named : IsName more.text) :
    Spans (.name :: parts) (code ++ more) :=
  spans.add named

/-- A span is prolonged by a balanced text. -/
theorem inner (spans : Spans parts code) (balanced : IsBalanced more.chars) :
    Spans (.inner :: parts) (code ++ more) :=
  spans.add balanced

/-- A span is prolonged by an atomic operand. -/
theorem operand (spans : Spans parts code) (atomic : IsAtomic more.text) :
    Spans (.inner :: parts) (code ++ more) :=
  spans.inner atomic.isBalanced

/-- A span shows the shape that is computed from its parts. -/
theorem shows (spans : Spans parts code) {shape : Shape} (found : Shape.of? parts = some shape) :
    Shows shape code.chars := by
  induction spans generalizing shape with
  | one is => exact shows_nil.next is found
  | add _ is ih =>
    rw [Shape.of?, Option.bind_eq_some_iff] at found
    obtain ⟨earlier, known, found⟩ := found
    rw [chars_append]
    exact (ih known).next is found

/-- Code is atomic if its fixed texts make an operand of it, whatever stands between them. -/
theorem isAtomic (spans : Spans parts code)
    (passed : (Shape.of? parts).any Shape.isOperand = true := by rfl) : IsAtomic code.text := by
  obtain ⟨shape, found, operand⟩ := (Option.any_eq_true _ _).1 passed
  rw [Shape.isOperand, decide_eq_true_iff] at operand
  obtain ⟨closed, first, last, operand⟩ := operand
  have shows := spans.shows found
  exact ⟨shows.outside, shows.first first, shows.last last, shape.items, closed ▸ shows.outlined,
    operand⟩

end Spans

variable {code : Code}

/-- A name is atomic. -/
theorem isAtomic_of_isName (named : IsName code.text) : IsAtomic code.text :=
  (Spans.startName named).isAtomic

/-- An identifier is a name. -/
theorem isName_name {name : Name} (word : IsIdentifier name.text) : IsName (name : Code).text := by
  rw [String.toList_inj.1 (chars_name name)]
  exact Name.isName_text word

/-- A fixed text is atomic if its shape passes the test. -/
theorem isAtomic_text {fixed : String}
    (passed : (Shape.of? [.fixed fixed]).any Shape.isOperand = true := by rfl) :
    IsAtomic (fixed : Code).text :=
  (Spans.start fixed).isAtomic passed

/-- Texts that are the same are atomic together. -/
theorem isAtomic_congr {code' : Code} (atomic : IsAtomic code.text)
    (same : code'.chars = code.chars) : IsAtomic code'.text := by
  rwa [String.toList_inj.1 same]

/-- A fixed text that is a name stays one as code. -/
theorem isName_text {fixed : String} (named : IsName fixed) : IsName (fixed : Code).text := by
  rwa [String.toList_inj.1 (chars_text fixed)]

/-- An array is a variable or a member of one. -/
inductive IsArray : Code → Prop
  | name {name : Name} (word : IsIdentifier name.text) : IsArray name
  | member {record : Name} (word : IsIdentifier record.text) {name : String}
      (named : IsName name) : IsArray (.member record name)

/-- An element of an array is atomic, whatever balanced index it has. -/
theorem IsArray.isAtomic_element {array index : Code} (isArray : IsArray array)
    (balanced : IsBalanced index.chars) : IsAtomic (array.element index).text := by
  cases isArray with
  | name word =>
    exact (Spans.startName (isName_name word) |>.text "[" |>.inner balanced |>.text "]").isAtomic
  | member word named =>
    exact (Spans.startName (isName_name word) |>.text "." |>.name (isName_text named) |>.text "["
      |>.inner balanced |>.text "]").isAtomic

/-- A separator has no brackets, and belongs to no word. -/
def isSeparator (chars : List Char) : Bool :=
  !startsWord chars && !endsWord chars && !chars.isEmpty && after .outside chars = .outside &&
    ['(', ')', '[', ']'].all fun c => !chars.contains c

section

variable {separator : String} (passed : isSeparator separator.toList = true)
include passed

/-- Balanced codes with a separator between them are balanced. -/
theorem isBalanced_append_separator_append {a b : Code} (first : IsBalanced a.chars)
    (second : IsBalanced b.chars) : IsBalanced (a ++ separator ++ b).chars := by
  simp only [isSeparator, Bool.and_eq_true, Bool.not_eq_true', List.isEmpty_eq_false_iff,
    decide_eq_true_iff, List.all_eq_true, List.contains_eq_mem, decide_eq_false_iff_not] at passed
  obtain ⟨⟨⟨⟨starts, ends⟩, nonempty⟩, outside⟩, none⟩ := passed
  rw [chars_append, chars_append, chars_text]
  refine .append (.append first (.of_notMem outside none) fun _ => starts) second ?_
  rw [Lexeme.endsWord_append _ nonempty, ends]
  exact nofun

/-- Balanced codes joined by a separator are balanced. -/
theorem isBalanced_separated {codes : List Code}
    (balanced : ∀ code ∈ codes, IsBalanced code.chars) :
    IsBalanced (separated separator codes).chars := by
  induction codes with
  | nil => exact .nil
  | cons first rest ih =>
    obtain ⟨firstBalanced, others⟩ := List.forall_mem_cons.1 balanced
    cases rest with
    | nil => exact firstBalanced
    | cons second rest =>
      exact isBalanced_append_separator_append passed firstBalanced (ih others)

end

/-- A call of a function is atomic if its arguments close their brackets. -/
theorem isAtomic_call {function : Name} (word : IsIdentifier function.text) {arguments : List Code}
    (atomic : ∀ argument ∈ arguments, IsAtomic argument.text) :
    IsAtomic (call function arguments).text := by
  have inner : IsBalanced (separated ", " arguments).chars :=
    isBalanced_separated (by decide +kernel) fun argument member =>
      (atomic argument member).isBalanced
  exact (Spans.startName (isName_name word) |>.text "(" |>.inner inner |>.text ")").isAtomic

/-! ## Literals -/

/-- A string literal is atomic, whatever it contains. -/
theorem isAtomic_literal (contents : String) : IsAtomic (literal contents).text := by
  have chars : (literal contents).text.toList = (stringLiteral contents).toList :=
    chars_literal contents
  refine ⟨?_, ?_, ?_, [.literal], ?_, rfl⟩ <;> rw [chars]
  · exact Lexeme.after_stringLiteral contents
  · rw [stringLiteral, String.toList_ofList]
    rfl
  · rw [stringLiteral, String.toList_ofList, ← List.cons_append]
    exact getLast?_append_any rfl
  · rw [Lexeme.scan_stringLiteral]
    rfl

/-- A number between fixed texts. -/
theorem isBalanced_toString_int (n : Int) : IsBalanced ((toString n : String) : Code).chars := by
  rw [chars_text]
  exact .of_isNumeral (isNumeral_toString_int n)

/-- An integer literal is atomic: the negative ones carry parentheses. -/
theorem isAtomic_intLiteral (n : Int64) : IsAtomic (intLiteral n : Code).text := by
  rw [intLiteral]
  split
  · exact isAtomic_text
  · refine isAtomic_congr (Spans.start "INT64_C(" |>.inner (isBalanced_toString_int n.toInt)
      |>.text ")").isAtomic ?_
    simp

/-- A float literal is atomic. -/
theorem isAtomic_floatLiteral (x : Binary64) : IsAtomic (floatLiteral x : Code).text := by
  rw [floatLiteral]
  split_ifs
  · exact isAtomic_text
  · exact isAtomic_text
  · exact isAtomic_text
  · have balanced : IsBalanced ((x.finiteText floatFormat : String) : Code).chars := by
      rw [chars_text]
      exact .of_isNumeral (isNumeral_finiteText _ _)
    refine isAtomic_congr (Spans.start "(" |>.inner balanced |>.text ")").isAtomic ?_
    simp

/-- A date literal is atomic. -/
theorem isAtomic_dateLiteral (days : Int32) : IsAtomic (dateLiteral days : Code).text := by
  refine isAtomic_congr (Spans.start "((int32_t)" |>.inner (isBalanced_toString_int days.toInt)
    |>.text ")").isAtomic ?_
  simp [dateLiteral]

end Code

end PlanCompiler
