import PlanCompiler.Text.Blank
import PlanCompiler.Text.Quoted

/-!
# Tokens of text plans

A line of a text plan is divided into brackets, commas, quoted texts and atoms. Blanks separate
tokens. A quote only starts a quoted text where no atom is going on, so that `date'1998-09-02'`
is an atom; inside a quoted text a quote is written twice. The only lexical error is a quoted
text that does not end.
-/

namespace PlanCompiler

/-- Token of a line. -/
inductive Token where
  | openParen
  | closeParen
  | openBracket
  | closeBracket
  | comma
  /-- Any other run of characters. -/
  | atom (text : String)
  /-- The text between quotes. -/
  | quoted (text : String)
deriving DecidableEq, Repr

namespace Token

/-- The tokens of one character. -/
def mark? : Char → Option Token
  | '(' => some .openParen
  | ')' => some .closeParen
  | '[' => some .openBracket
  | ']' => some .closeBracket
  | ',' => some .comma
  | _ => none

/-- A token in an error message. -/
def describe : Token → String
  | .openParen => "'('"
  | .closeParen => "')'"
  | .openBracket => "'['"
  | .closeBracket => "']'"
  | .comma => "','"
  | .atom text => "'" ++ text ++ "'"
  | .quoted text => "text " ++ Text.quoted text

/-- A quoted text that starts at a column, counted in bytes from one, and does not end. -/
structure Unterminated where
  column : Nat
deriving DecidableEq, Repr

mutual

/-- The tokens of characters that follow the end of a token. -/
def scanGap (column : Nat) : List Char → Except Unterminated (List Token)
  | [] => .ok []
  | c :: rest =>
    if c = '\'' then scanQuoted column (column + 1) [] rest
    else match mark? c with
      | some token => do .ok (token :: (← scanGap (column + 1) rest))
      | none =>
        if Text.isBlank c then scanGap (column + c.utf8Size) rest
        else scanAtom (column + c.utf8Size) [c] rest

/-- The tokens of characters that follow the characters of an atom, the last of which comes
first. -/
def scanAtom (column : Nat) (taken : List Char) : List Char → Except Unterminated (List Token)
  | [] => .ok [.atom (String.ofList taken.reverse)]
  | c :: rest =>
    match mark? c with
    | some token => do
      .ok (.atom (String.ofList taken.reverse) :: token :: (← scanGap (column + 1) rest))
    | none =>
      if Text.isBlank c then do
        .ok (.atom (String.ofList taken.reverse) :: (← scanGap (column + c.utf8Size) rest))
      else scanAtom (column + c.utf8Size) (c :: taken) rest

/-- The tokens of characters inside a quoted text that starts at a column; the last character
of the text so far comes first. -/
def scanQuoted (start column : Nat) (taken : List Char) :
    List Char → Except Unterminated (List Token)
  | [] => .error { column := start }
  | '\'' :: '\'' :: rest => scanQuoted start (column + 2) ('\'' :: taken) rest
  | '\'' :: rest => do
    .ok (.quoted (String.ofList taken.reverse) :: (← scanGap (column + 1) rest))
  | c :: rest => scanQuoted start (column + c.utf8Size) (c :: taken) rest

end

/-- The tokens of a line. -/
def ofLine (line : List Char) : Except Unterminated (List Token) :=
  scanGap 1 line

end Token

end PlanCompiler
