import PlanCompiler.Proofs.Code.Literal

/-!
# Programs without their string literals

A string literal goes from a double quote to the next one, where a backslash takes the meaning of
the character behind it. Replacing each literal by a token leaves the code around the literals.
Whatever a literal contains, it is replaced as a whole: no contents end it early or let it go on.
Code whose pieces all end outside of literals is therefore replaced piece by piece, and what is left
of it does not depend on the contents of its literals.

## Main definitions

* `withoutLiterals`: a text with a token for each string literal;
* `Code.masked`: code with empty literals;
* `Code.IsClosed`: all pieces of some code end outside of literals.

## Main results

* `Spot.erase_stringLiteral`: a literal is replaced as a whole, whatever its contents;
* `Code.erase_chars_eq_of_masked_eq`: closed code with other contents in its literals.
-/

namespace PlanCompiler

/-! ## Texts without string literals -/

/-- Where a character stands. -/
structure Spot where
  /-- A string literal is open. -/
  inLiteral : Bool
  /-- A backslash in front of the character takes its meaning. -/
  escaped : Bool
deriving DecidableEq, Repr

namespace Spot

/-- Outside of string literals. -/
def outside : Spot := { inLiteral := false, escaped := false }

/-- In a string literal. -/
def inside : Spot := { inLiteral := true, escaped := false }

/-- Where the character after a given one stands. -/
def next (spot : Spot) (c : Char) : Spot :=
  if spot.escaped then { spot with escaped := false }
  else if c = '\\' then { spot with escaped := true }
  else if c = '"' then { spot with inLiteral := !spot.inLiteral }
  else spot

/-- Where the character after a text stands. -/
def after (spot : Spot) (chars : List Char) : Spot := chars.foldl next spot

/-- What is left of a character: nothing in a string literal, which is replaced by a token where it
starts. -/
def keep (token : List Char) (spot : Spot) (c : Char) : List Char :=
  if spot.inLiteral then [] else if (spot.next c).inLiteral then token else [c]

/-- A text with a token for each string literal. -/
def erase (token : List Char) : Spot → List Char → List Char
  | _, [] => []
  | spot, c :: rest => keep token spot c ++ erase token (spot.next c) rest

end Spot

/-- A text with a token for each string literal. -/
def withoutLiterals (token text : String) : String :=
  String.ofList (Spot.outside.erase token.toList text.toList)

example : withoutLiterals "S" "f(\"a\\\"b\", '\\n', \"\");" = "f(S, '\\n', S);" := by
  decide +kernel

namespace Spot

variable {token : List Char} {spot : Spot} {front back chars : List Char}

/-- The first character leads to the place of the others. -/
theorem after_cons (spot : Spot) (c : Char) (rest : List Char) :
    spot.after (c :: rest) = (spot.next c).after rest :=
  rfl

/-- A text leads on from where the text in front of it led. -/
theorem after_append : spot.after (front ++ back) = (spot.after front).after back :=
  List.foldl_append

/-- Literals are erased part by part. -/
theorem erase_append :
    spot.erase token (front ++ back) =
      spot.erase token front ++ (spot.after front).erase token back := by
  induction front generalizing spot with
  | nil => rfl
  | cons c front ih => rw [List.cons_append, erase, ih, erase, after_cons, List.append_assoc]

/-! ## Characters without a meaning -/

/-- A character that neither opens a literal nor takes the meaning of the next one. -/
def IsPlainChar (c : Char) : Prop := c ≠ '"' ∧ c ≠ '\\'

/-- A character of words is plain. -/
theorem isPlainChar_of_isWordChar {c : Char} (wordChar : Lexeme.isWordChar c = true) :
    IsPlainChar c := by
  constructor <;> rintro rfl <;> exact absurd wordChar (by decide)

/-- A digit is plain. -/
theorem isPlainChar_of_isDigit {c : Char} (digit : c.isDigit = true) : IsPlainChar c :=
  isPlainChar_of_isWordChar (Lexeme.isWordChar_of_isDigit digit)

/-- A plain character that is not escaped stays in place. -/
theorem next_of_isPlainChar {c : Char} (plain : IsPlainChar c) (unescaped : spot.escaped = false) :
    spot.next c = spot := by
  rw [next, unescaped, if_neg Bool.false_ne_true, if_neg plain.2, if_neg plain.1]

/-- Plain characters that are not escaped stay in place. -/
theorem after_of_isPlainChar (plain : ∀ c ∈ chars, IsPlainChar c)
    (unescaped : spot.escaped = false) : spot.after chars = spot := by
  induction chars with
  | nil => rfl
  | cons c rest ih =>
    obtain ⟨first, others⟩ := List.forall_mem_cons.1 plain
    rw [after_cons, next_of_isPlainChar first unescaped, ih others]

/-- Text without quotes and backslashes is kept. -/
theorem erase_outside_of_isPlainChar (plain : ∀ c ∈ chars, IsPlainChar c) :
    outside.erase token chars = chars := by
  induction chars with
  | nil => rfl
  | cons c rest ih =>
    obtain ⟨first, others⟩ := List.forall_mem_cons.1 plain
    have stays : outside.next c = outside := next_of_isPlainChar first rfl
    have kept : keep token outside c = [c] := by
      rw [keep, stays]
      rfl
    rw [erase, kept, stays, ih others, List.singleton_append]

/-! ## String literals -/

/-- Nothing is left of characters that do not leave a literal. -/
structure Stays (chars : List Char) : Prop where
  /-- The literal goes on behind them. -/
  goesOn : inside.after chars = inside
  /-- Nothing is left of them. -/
  vanishes : ∀ token, inside.erase token chars = []

namespace Stays

/-- The empty text stays inside of a literal. -/
theorem nil : Stays [] := ⟨rfl, fun _ => rfl⟩

/-- Texts that stay inside do so in a row. -/
theorem append (first : Stays front) (second : Stays back) : Stays (front ++ back) := by
  refine ⟨?_, fun token => ?_⟩
  · rw [after_append, first.goesOn, second.goesOn]
  · rw [erase_append, first.vanishes, first.goesOn, second.vanishes, List.append_nil]

/-- Plain characters stay inside of a literal. -/
theorem of_isPlainChar (plain : ∀ c ∈ chars, IsPlainChar c) : Stays chars := by
  induction chars with
  | nil => exact .nil
  | cons c rest ih =>
    obtain ⟨first, others⟩ := List.forall_mem_cons.1 plain
    have stays : inside.next c = inside := next_of_isPlainChar first rfl
    refine ⟨?_, fun token => ?_⟩
    · rw [after_cons, stays, (ih others).goesOn]
    · rw [erase, stays, (ih others).vanishes]
      rfl

/-- A backslash and the character behind it. -/
theorem escape (c : Char) : Stays ['\\', c] := ⟨rfl, fun _ => rfl⟩

/-- An escaped byte stays inside of a literal. -/
theorem stringByte (byte : UInt8) : Stays (Code.stringByte byte) := by
  rcases Lexeme.stringByte_cases byte with ⟨c, ordinary, written⟩ | ⟨c, digits, -, all, written⟩
  · rw [Lexeme.isOrdinary, decide_eq_true_iff] at ordinary
    rw [written]
    exact .of_isPlainChar (List.forall_mem_singleton.2 ⟨ordinary.1, ordinary.2.1⟩)
  · rw [written]
    exact (escape c).append (.of_isPlainChar fun d member => isPlainChar_of_isDigit (all d member))

/-- The escaped bytes of a literal stay inside. -/
theorem flatMap_stringByte (bytes : List UInt8) : Stays (bytes.flatMap Code.stringByte) := by
  induction bytes with
  | nil => exact .nil
  | cons byte rest ih => exact (stringByte byte).append ih

end Stays

section

variable (contents : String)

/-- Behind a string literal, the text is outside again. -/
theorem after_stringLiteral : outside.after (Code.stringLiteral contents).toList = outside := by
  have stays := Stays.flatMap_stringByte contents.toUTF8.data.toList
  rw [Code.stringLiteral, String.toList_ofList, after_cons, after_append]
  exact congrArg (after · ['"']) stays.goesOn

/-- A string literal is replaced by the token, whatever its contents. -/
theorem erase_stringLiteral :
    outside.erase token (Code.stringLiteral contents).toList = token := by
  have stays := Stays.flatMap_stringByte contents.toUTF8.data.toList
  have opened : outside.next '"' = inside := rfl
  rw [Code.stringLiteral, String.toList_ofList, erase, opened, erase_append, stays.vanishes,
    stays.goesOn, List.nil_append]
  exact List.append_nil token

end

end Spot

/-! ## Code -/

/-- A piece without the contents of its literal. -/
def Piece.masked : Piece → Piece
  | .literal _ => .literal ""
  | piece => piece

/-- A piece ends outside of literals. -/
def Piece.IsClosed (piece : Piece) : Prop := Spot.outside.after piece.toText.toList = .outside

namespace Code

/-- Code with empty literals. -/
def masked (code : Code) : Code := ⟨code.pieces.map Piece.masked⟩

/-- Every piece ends outside of literals. -/
def IsClosed (code : Code) : Prop := ∀ piece ∈ code.pieces, piece.IsClosed

section

variable {code code' : Code} {token : List Char}

/-- Code in a row is masked part by part. -/
@[simp]
theorem masked_append (a b : Code) : (a ++ b).masked = a.masked ++ b.masked :=
  congrArg mk List.map_append

/-- Masking leaves a fixed text alone. -/
@[simp]
theorem masked_text (fixed : String) : (fixed : Code).masked = fixed := rfl

/-- Masking leaves a name alone. -/
@[simp]
theorem masked_name (name : Name) : (name : Code).masked = name := rfl

/-- Masking empties a literal. -/
@[simp]
theorem masked_literal (contents : String) : (literal contents).masked = literal "" := rfl

/-- Closed code ends outside of literals. -/
theorem after_chars_of_isClosed (closed : code.IsClosed) :
    Spot.outside.after code.chars = .outside := by
  rw [chars_eq_flatMap]
  obtain ⟨pieces⟩ := code
  induction pieces with
  | nil => rfl
  | cons piece rest ih =>
    obtain ⟨first, others⟩ := List.forall_mem_cons.1 closed
    rw [List.flatMap_cons, Spot.after_append, first]
    exact ih others

/-- Closed code is replaced piece by piece. -/
theorem erase_chars_of_isClosed (closed : code.IsClosed) :
    Spot.outside.erase token code.chars =
      code.pieces.flatMap fun piece => Spot.outside.erase token piece.toText.toList := by
  rw [chars_eq_flatMap]
  obtain ⟨pieces⟩ := code
  induction pieces with
  | nil => rfl
  | cons piece rest ih =>
    obtain ⟨first, others⟩ := List.forall_mem_cons.1 closed
    rw [List.flatMap_cons, Spot.erase_append, first, List.flatMap_cons]
    exact congrArg _ (ih others)

/-- What is left of a piece does not depend on the contents of a literal. -/
theorem erase_piece_masked (piece : Piece) :
    Spot.outside.erase token piece.masked.toText.toList =
      Spot.outside.erase token piece.toText.toList := by
  cases piece with
  | text | name => rfl
  | literal contents => exact (Spot.erase_stringLiteral "").trans (Spot.erase_stringLiteral _).symm

/-- What is left of closed code only depends on the code without the contents of its literals. -/
theorem erase_chars_eq_of_masked_eq (closed : code.IsClosed) (closed' : code'.IsClosed)
    (same : code.masked = code'.masked) :
    Spot.outside.erase token code.chars = Spot.outside.erase token code'.chars := by
  have unmasked (code : Code) :
      (code.pieces.flatMap fun piece => Spot.outside.erase token piece.toText.toList) =
        code.masked.pieces.flatMap fun piece => Spot.outside.erase token piece.toText.toList := by
    rw [masked, List.flatMap_map]
    exact congrArg code.pieces.flatMap (funext fun piece => (erase_piece_masked piece).symm)
  rw [erase_chars_of_isClosed closed, erase_chars_of_isClosed closed', unmasked code,
    unmasked code', same]

end

end Code

end PlanCompiler
