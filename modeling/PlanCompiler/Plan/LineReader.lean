import PlanCompiler.Binary64.Text
import PlanCompiler.Calendar
import PlanCompiler.Plan.Node
import PlanCompiler.Plan.Token

/-!
# Reading one line of a text plan

A node line is an operator and its operands; expressions are written with the operator first, in
parentheses. The reader goes through the tokens once and reports the first token that does not
fit.

Repetitions are bounded by the number of tokens: every element takes at least one.
-/

namespace PlanCompiler

/-- What is wrong with a node line. -/
inductive LineFault where
  /-- A quoted text does not end. -/
  | unterminated (column : Nat)
  /-- The line ends where something is expected. -/
  | missing (what : String)
  /-- Something else is expected in the place of a token. -/
  | mismatch (what : String) (found : Token)
  /-- A certain word is expected in the place of another one. -/
  | wrongWord (expected found : String)
  /-- A word names no operator. -/
  | unknownOperator (word : String)
  /-- A scanned column has no colon. -/
  | scanColumn (text : String)
  /-- The position of a scanned column is no number. -/
  | columnIndex (text : String)
  /-- A scanned column has no type of that name. -/
  | columnType (text : String)
  /-- A word is no reference to a column. -/
  | columnReference (text : String)
  /-- A date literal names no day. -/
  | date (text : String)
  /-- A word is no literal. -/
  | literal (text : String)
  /-- A word is no number. -/
  | number (what text : String)
  /-- A word names no aggregate. -/
  | aggregate (text : String)
  /-- An expression nests too deeply. -/
  | nesting
  /-- A connective joins no operands. -/
  | noOperands (connective : Connective)
  /-- A pattern has to be a quoted text. -/
  | pattern (found : Token)
  /-- No expression starts with this token. -/
  | unexpected (token : Token)
  /-- The line goes on after its node. -/
  | extra (token : Token)
deriving DecidableEq, Repr

namespace LineFault

/-- The wording of a fault. -/
def message : LineFault → String
  | .unterminated column => "unterminated text starting at column " ++ toString column
  | .missing what => "expected " ++ what
  | .mismatch what found => "expected " ++ what ++ ", found " ++ found.describe
  | .wrongWord expected found => "expected '" ++ expected ++ "', found '" ++ found ++ "'"
  | .unknownOperator word => "unknown operator '" ++ word ++ "'"
  | .scanColumn text => "expected <index>:<type>, found '" ++ text ++ "'"
  | .columnIndex text => "invalid column index '" ++ text ++ "'"
  | .columnType text => "unknown column type '" ++ text ++ "'"
  | .columnReference text => "expected column reference $N, found '" ++ text ++ "'"
  | .date text => "invalid date '" ++ text ++ "'"
  | .literal text => "unexpected '" ++ text ++ "'"
  | .number what text => "invalid " ++ what ++ " '" ++ text ++ "'"
  | .aggregate text => "unknown aggregate '" ++ text ++ "'"
  | .nesting => "expression nesting exceeds " ++ toString Expr.maxDepth
  | .noOperands connective => "(" ++ connective.word ++ ") needs at least one operand"
  | .pattern found => "expected quoted like pattern, found " ++ found.describe
  | .unexpected token => "unexpected " ++ token.describe
  | .extra token => "unexpected " ++ token.describe ++ " at end of line"

end LineFault

/-- A computation that takes tokens from the front of a line. -/
abbrev LineReader (α : Type) := StateT (List Token) (Except LineFault) α

namespace LineReader

/-- Stops with a fault. -/
def fail {α : Type} (fault : LineFault) : LineReader α := fun _ => .error fault

/-- The next token. -/
def next (what : String) : LineReader Token := fun tokens =>
  match tokens with
  | [] => .error (.missing what)
  | token :: rest => .ok (token, rest)

/-- The next token, which must be an atom. -/
def atom (what : String) : LineReader String := do
  match ← next what with
  | .atom text => return text
  | other => fail (.mismatch what other)

/-- A certain token. -/
def expect (expected : Token) : LineReader Unit := do
  let found ← next expected.describe
  if found ≠ expected then fail (.mismatch expected.describe found)

/-- A certain word. -/
def keyword (word : String) : LineReader Unit := do
  let found ← atom word
  if found ≠ word then fail (.wrongWord word found)

/-- A 32 bit number. -/
def number (what : String) : LineReader UInt32 := do
  let text ← atom what
  match Numeral.uint32? text.toList with
  | some n => return n
  | none => fail (.number what text)

/-- The position of an input node. -/
def inputNode : LineReader UInt32 := number "input node"

/-- At most `rounds` elements, up to the tokens that end the repetition. -/
def elementsUntil {α : Type} (ends : List Token → Bool) (element : LineReader α) :
    (rounds : Nat) → LineReader (List α)
  | 0 => pure []
  | rounds + 1 => do
    if ends (← get) then return []
    else
      let first ← element
      let others ← elementsUntil ends element rounds
      return first :: others

/-- Elements, up to the tokens that end the repetition. -/
def many {α : Type} (ends : List Token → Bool) (element : LineReader α) : LineReader (List α) := do
  elementsUntil ends element (← get).length

/-- Elements up to the end of the line. -/
def manyToEnd {α : Type} (element : LineReader α) : LineReader (List α) :=
  many List.isEmpty element

/-- The characters after a word, if the text starts with it. -/
def afterWord? (word : String) (chars : List Char) : Option (List Char) :=
  if word.toList.isPrefixOf chars then some (chars.drop word.length) else none

/-- The reference to a column, such as `$3`. -/
def columnOfText (text : String) : Except LineFault UInt32 :=
  match (afterWord? "$" text.toList).bind Numeral.uint32? with
  | some column => .ok column
  | none => .error (.columnReference text)

/-- The text of a date literal, without its name and its quotes. -/
def dateLiteral? (text : String) : Option String := do
  let rest ← afterWord? "date'" text.toList
  guard (rest.getLast? = some '\'')
  return String.ofList rest.dropLast

/-- The literal that an atom stands for: a column reference, a date, an integer or a float. -/
def literalOfText (text : String) : Except LineFault Expr :=
  if text.toList.head? = some '$' then (columnOfText text).map .column
  else match dateLiteral? text with
    | some date =>
      match Calendar.parseDate? date with
      | some days => .ok (.date days)
      | none => .error (.date date)
    | none =>
      match Numeral.int64? text.toList with
      | some value => .ok (.int value)
      | none =>
        match Binary64.ofText? text.toList with
        | some value => .ok (.float value)
        | none => .error (.literal text)

/-- No operand follows: the line or the list of operands ends. -/
def operandsEnd : List Token → Bool
  | [] | .closeParen :: _ => true
  | _ => false

/-- The operands of a connective, of which there must be one. -/
def operandsOf (connective : Connective) (operand : LineReader Expr) : LineReader Expr := do
  let operands ← many operandsEnd operand
  if operands.isEmpty then fail (.noOperands connective)
  return .junction connective operands

/-- The operands of an expression that starts with a word, given the reader of operands. -/
def operation (operand : LineReader Expr) (word : String) : LineReader Expr := do
  if word = "and" then operandsOf .and operand
  else if word = "or" then operandsOf .or operand
  else if word = "not" then return .not (← operand)
  else if word = "like" then
    let value ← operand
    match ← next "like pattern" with
    | .quoted pattern => return .like value pattern
    | other => fail (.pattern other)
  else if word = "case" then
    let condition ← operand
    let consequent ← operand
    let alternative ← operand
    return .case condition consequent alternative
  else match BinaryOp.ofSymbol? word with
    | none => fail (.unknownOperator word)
    | some op =>
      let lhs ← operand
      let rhs ← operand
      return .binary op lhs rhs

/-- An expression that nests at most `levels` deep. -/
def expr : (levels : Nat) → LineReader Expr
  | 0 => fail .nesting
  | levels + 1 => do
    match ← next "expression" with
    | .atom text => (literalOfText text : Except LineFault Expr)
    | .quoted text => return .text text
    | .openParen =>
      let word ← atom "operator"
      let e ← operation (expr levels) word
      expect .closeParen
      return e
    | other => fail (.unexpected other)

/-- The column that an atom such as `4:float` describes. -/
def scanColumnOfText (text : String) : Except LineFault ScanColumn :=
  match text.toList.dropWhile (· ≠ ':') with
  | [] => .error (.scanColumn text)
  | _ :: typeName =>
    -- The first colon divides, further ones belong to the type.
    let indexText := text.toList.takeWhile (· ≠ ':')
    match Numeral.uint32? indexText with
    | none => .error (.columnIndex (String.ofList indexText))
    | some index =>
      match DataType.ofName? (String.ofList typeName) with
      | none => .error (.columnType (String.ofList typeName))
      | some type => .ok { index, type }

/-- A scanned column. -/
def scanColumn : LineReader ScanColumn := do
  scanColumnOfText (← atom "scan column")

/-- A column reference. -/
def columnReference (what : String) : LineReader UInt32 := do
  columnOfText (← atom what)

/-- An aggregate. -/
def aggregate : LineReader Aggregate := do
  let name ← atom "aggregate"
  if name = "count" then return .count
  else if name = "sum" then return .sum (← columnReference "sum column")
  else if name = "min" then return .min (← columnReference "min column")
  else if name = "max" then return .max (← columnReference "max column")
  else fail (.aggregate name)

/-- The rest of a list of columns after an element, at most `rounds` further elements. -/
def moreColumns : (rounds : Nat) → LineReader (List UInt32)
  | 0 => pure []
  | rounds + 1 => do
    match ← next "',' or ']'" with
    | .comma =>
      let column ← number "group column"
      let others ← moreColumns rounds
      return column :: others
    | .closeBracket => return []
    | other => fail (.mismatch "',' or ']'" other)

/-- A list of columns in brackets, with commas between them. -/
def columnList : LineReader (List UInt32) := do
  expect .openBracket
  if (← get).head? = some .closeBracket then
    expect .closeBracket
    return []
  else
    let first ← number "group column"
    -- One round more than tokens are left, so that the last one can find the line ended.
    let others ← moreColumns ((← get).length + 1)
    return first :: others

/-- The operands of an operator. -/
def operands (operator : String) : LineReader Node := do
  if operator = "scan" then
    let table ← atom "table name"
    return .scan table (← manyToEnd scanColumn)
  else if operator = "filter" then
    let input ← inputNode
    return .filter input (← expr Expr.maxDepth)
  else if operator = "project" then
    let input ← inputNode
    return .project input (← manyToEnd (expr Expr.maxDepth))
  else if operator = "join" then
    let left ← inputNode
    let right ← inputNode
    let leftKey ← number "left key"
    let rightKey ← number "right key"
    return .join left right leftKey rightKey
  else if operator = "aggregate" then
    let input ← inputNode
    keyword "group"
    let groupBy ← columnList
    return .aggregate input groupBy (← manyToEnd aggregate)
  else fail (.unknownOperator operator)

/-- A node, up to the end of the line. -/
def node : LineReader Node := do
  let node ← operands (← atom "operator")
  match ← get with
  | [] => return node
  | token :: _ => fail (.extra token)

end LineReader

/-- The node that a line declares. -/
def Node.ofLine (line : List Char) : Except LineFault Node := do
  let tokens ← (Token.ofLine line).mapError fun error => .unterminated error.column
  let (node, _) ← LineReader.node.run tokens
  return node

end PlanCompiler
