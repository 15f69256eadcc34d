import PlanCompiler.Code.Statement

/-!
# Definitions of the generated program

Types, functions and variables outside of the main function, and the variables at its top. A
buffer is a pointer to memory that the program has to release; the members of a record that are
buffers have to be released too.
-/

namespace PlanCompiler

/-- A member of a record. -/
structure Member where
  /-- Type of the member, or of the elements of a buffer. -/
  type : String
  /-- Name of the member. -/
  name : String
  /-- The member points to memory of its own. -/
  isBuffer : Bool
deriving DecidableEq, Repr

namespace Member

/-- A member that is a number. -/
def size (name : String) : Member := { type := "size_t", name, isBuffer := false }

/-- A member that points to memory. -/
def buffer (type name : String) : Member := { type, name, isBuffer := true }

/-- The line of a member. -/
def line (member : Member) : Line :=
  { indent := 1
    code := member.type ++ (if member.isBuffer then " *" else " ") ++ member.name ++ ";" }

end Member

/-- A definition outside of the main function. -/
inductive Definition where
  /-- A type with members. -/
  | record (name : Name) (members : List Member)
  /-- A variable. -/
  | global (code : Code)
  /-- A function, with the lines of a comment. -/
  | function (comment : List String) (result : String) (name : Name) (parameters : List Code)
      (body : List Statement)
deriving Repr

namespace Definition

/-- The lines of a definition and an empty one after them. -/
def lines : Definition → List Line
  | .record name members =>
    { indent := 0, code := "typedef struct \x7b" } :: (members.map Member.line ++
      [{ indent := 0, code := "\x7d " ++ name ++ ";" }, .blank])
  | .global code => [{ indent := 0, code }, .blank]
  | .function comment result name parameters body =>
    comment.map (fun (text : String) => { indent := 0, code := text }) ++
      { indent := 0, code := result ++ " " ++ name ++ "(" ++ .separated ", " parameters ++ ")" } ::
      ((Statement.block .bare body).lines 0 ++ [.blank])

end Definition

/-- A variable at the top of the main function, which its last part can still see. -/
inductive Declaration where
  /-- A variable with a start value. -/
  | plain (type : String) (name : Name) (initial : Code)
  /-- A pointer to memory, none to begin with. -/
  | buffer (type : String) (name : Name)
  /-- A record with all members zero. -/
  | record (type name : Name)
deriving DecidableEq, Repr

namespace Declaration

/-- The line of a declaration. -/
def line : Declaration → Line
  | .plain type name initial =>
    { indent := 1, code := type ++ " " ++ name ++ " = " ++ initial ++ ";" }
  | .buffer type name => { indent := 1, code := type ++ " *" ++ name ++ " = NULL;" }
  | .record type name => { indent := 1, code := type ++ " " ++ name ++ " = \x7b0\x7d;" }

end Declaration

end PlanCompiler
