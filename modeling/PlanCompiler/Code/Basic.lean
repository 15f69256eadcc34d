import PlanCompiler.Code.Literal
import PlanCompiler.Code.Name

/-!
# Pieces of the generated program

Code is a list of pieces: fixed text, names and string literals. A text of a plan, such as a
table name, only ever becomes part of a program as a literal. No identifier extends over two
pieces.
-/

namespace PlanCompiler

/-- A piece of code. -/
inductive Piece where
  /-- Text that is taken as it is. -/
  | text (fixed : String)
  /-- An identifier. -/
  | name (identifier : Name)
  /-- A string literal with given contents. -/
  | literal (contents : String)
deriving DecidableEq, Repr

/-- The text of a piece. -/
def Piece.toText : Piece → String
  | .text fixed => fixed
  | .name identifier => identifier.text
  | .literal contents => Code.stringLiteral contents

/-- A part of the program. -/
structure Code where
  /-- Its pieces, in order. -/
  pieces : List Piece
deriving DecidableEq, Repr

namespace Code

/-- The text of a part of the program. -/
def text (code : Code) : String := String.join (code.pieces.map Piece.toText)

/-- No code. -/
def empty : Code := ⟨[]⟩

/-- A string literal. -/
def literal (contents : String) : Code := ⟨[.literal contents]⟩

instance : Append Code := ⟨fun a b => ⟨a.pieces ++ b.pieces⟩⟩

instance : Coe String Code := ⟨fun fixed => ⟨[.text fixed]⟩⟩

instance : Coe Name Code := ⟨fun identifier => ⟨[.name identifier]⟩⟩

/-- The pieces of code in a row. -/
@[simp]
theorem pieces_append (a b : Code) : (a ++ b).pieces = a.pieces ++ b.pieces := rfl

/-- Parts with a separator between them. -/
def separated (separator : Code) : List Code → Code
  | [] => empty
  | [part] => part
  | part :: rest => part ++ separator ++ separated separator rest

/-- A call of a function. -/
def call (function : Name) (arguments : List Code) : Code :=
  function ++ "(" ++ separated ", " arguments ++ ")"

/-- A call of a helper function. -/
def help (helper : Helper) (arguments : List Code) : Code :=
  call (.helper helper) arguments

/-- A member of a record. -/
def member (record : Code) (name : String) : Code := record ++ "." ++ name

/-- An element of an array. -/
def element (array index : Code) : Code := array ++ "[" ++ index ++ "]"

end Code

end PlanCompiler
