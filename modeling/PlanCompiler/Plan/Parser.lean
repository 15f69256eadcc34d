import PlanCompiler.Plan.Basic
import PlanCompiler.Plan.LineReader

/-!
# Reading text plans

A text plan has one node on each line; the nodes are numbered in the order of their lines. A
line `database DIRECTORY` names the directory of the tables. Blank lines, and lines that start
with `#`, say nothing.
-/

namespace PlanCompiler

/-- What is wrong with a text plan. -/
inductive TextFault where
  /-- A node line is malformed. -/
  | line (fault : LineFault)
  /-- The line of the database directory names none. -/
  | noPath
  /-- There are two lines for the database directory. -/
  | secondDatabase
  /-- The nodes are no plan. -/
  | invalid (fault : NodeFault)
deriving DecidableEq, Repr

namespace TextFault

/-- The wording of a fault. -/
def message : TextFault → String
  | .line fault => fault.message
  | .noPath => "database path missing"
  | .secondDatabase => "database declared twice"
  | .invalid fault => fault.message

end TextFault

/-- A fault and the line that has it, counted from one. -/
structure TextError where
  /-- Number of the line. -/
  line : Nat
  /-- What is wrong with it. -/
  fault : TextFault
deriving DecidableEq, Repr

namespace TextError

/-- The wording of an error. -/
def message (error : TextError) : String :=
  "line " ++ toString error.line ++ ": " ++ error.fault.message

end TextError

/-- What the lines read so far say. -/
structure Draft where
  /-- The database directory, once it is named. -/
  database : Option String := none
  /-- The nodes, each with the number of its line. -/
  nodes : List (Nat × Node) := []

namespace Draft

/-- The directory of the tables if no line names one. -/
def defaultDatabase : String := "."

/-- The rest of a line that names the database directory. -/
def databaseLine? (line : List Char) : Option (List Char) := do
  let rest ← LineReader.afterWord? "database" line
  guard (rest.head?.all Text.isBlank)
  return Text.trim rest

/-- Adds what a line says. -/
def addLine (draft : Draft) (number : Nat) (raw : List Char) : Except TextError Draft :=
  let line := Text.trim raw
  if line = [] ∨ line.head? = some '#' then .ok draft
  else match databaseLine? line with
    | some path =>
      if path = [] then .error { line := number, fault := .noPath }
      else if draft.database.isSome then .error { line := number, fault := .secondDatabase }
      else .ok { draft with database := some (String.ofList path) }
    | none =>
      match Node.ofLine line with
      | .error fault => .error { line := number, fault := .line fault }
      | .ok node => .ok { draft with nodes := draft.nodes ++ [(number, node)] }

/-- Adds what lines say that are numbered from `number` on. -/
def addLines (draft : Draft) (number : Nat) : List (List Char) → Except TextError Draft
  | [] => .ok draft
  | line :: rest => do
    addLines (← draft.addLine number line) (number + 1) rest

/-- The plan that a draft of `lines` lines describes. -/
def finish (draft : Draft) (lines : Nat) : Except TextError Plan :=
  if draft.nodes = [] then .error { line := max lines 1, fault := .invalid .noNodes }
  else (Plan.ofNodes (draft.database.getD defaultDatabase) (draft.nodes.map (·.2))).mapError
    fun error =>
      { line := (draft.nodes.map (·.1)).getD error.node 0, fault := .invalid error.fault }

end Draft

namespace Plan

/-- The plan that a text describes. -/
def parse (source : String) : Except TextError Plan := do
  let lines := Text.lines source.toList
  ((← Draft.addLines {} 1 lines).finish lines.length)

end Plan

end PlanCompiler
