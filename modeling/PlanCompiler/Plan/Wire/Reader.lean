import PlanCompiler.Plan.Basic
import PlanCompiler.Plan.Wire.Cursor

/-!
# Reading plans in binary

`Plan.decode` reads the encoding of a plan and reports the first malformed byte, or the first
byte of the first node that validation rejects. Expressions are read with a number of levels
that they may still nest.
-/

namespace PlanCompiler

namespace Wire.Reader

/-- An expression that nests at most `levels` deep. -/
def expr : (levels : Nat) → Reader Expr
  | 0 => do fail (← here) .nesting
  | levels + 1 => do
    let start ← here
    let byte ← byte "expression tag"
    match ExprTag.ofByte? byte with
    | none => fail start (.exprTag byte)
    | some .column => return .column (← word "column reference")
    | some .int => return .int (UInt64.ofNat (← number 8 "integer literal")).toInt64
    | some .float => return .float ⟨UInt64.ofNat (← number 8 "float literal")⟩
    | some .date => return .date (← word "date literal").toInt32
    | some .text => return .text (← string "text literal")
    | some .binary =>
      let operatorAt ← here
      let tag ← Reader.byte "binary operator"
      match BinaryOp.ofTag? tag with
      | none => fail operatorAt (.operatorTag tag)
      | some op =>
        let lhs ← expr levels
        let rhs ← expr levels
        return .binary op lhs rhs
    | some (.junction connective) =>
      let countAt ← here
      let n ← count "operand count" 1
      if n = 0 then fail countAt .emptyJunction
      return .junction connective (← replicate (expr levels) n)
    | some .not => return .not (← expr levels)
    | some .case =>
      let condition ← expr levels
      let consequent ← expr levels
      let alternative ← expr levels
      return .case condition consequent alternative
    | some .like =>
      let value ← expr levels
      return .like value (← string "like pattern")

/-- A scanned column. -/
def scanColumn : Reader ScanColumn := do
  let index ← word "column index"
  let typeAt ← here
  let tag ← byte "column type"
  match DataType.ofTag? tag with
  | some type => return { index, type }
  | none => fail typeAt (.columnType tag)

/-- An aggregate. -/
def aggregate : Reader Aggregate := do
  let start ← here
  let tag ← byte "aggregate kind"
  if tag = 0 then return .sum (← word "sum column")
  else if tag = 1 then return .count
  else if tag = 2 then return .min (← word "min column")
  else if tag = 3 then return .max (← word "max column")
  else fail start (.aggregateKind tag)

/-- The body of a node with a given tag, which stands at `tagAt`. -/
def nodeBody (tagAt : Nat) (tag : UInt8) : Reader Node := do
  if tag = 1 then
    let table ← string "table name"
    let n ← count "column count" 5
    return .scan table (← replicate scanColumn n)
  else if tag = 2 then
    let input ← word "filter input"
    return .filter input (← expr Expr.maxDepth)
  else if tag = 3 then
    let input ← word "project input"
    let n ← count "expression count" 1
    return .project input (← replicate (expr Expr.maxDepth) n)
  else if tag = 4 then
    let left ← word "join left input"
    let right ← word "join right input"
    let leftKey ← word "join left key"
    let rightKey ← word "join right key"
    return .join left right leftKey rightKey
  else if tag = 5 then
    let input ← word "aggregate input"
    let groups ← count "group column count" 4
    let groupBy ← replicate (word "group column") groups
    let n ← count "aggregate count" 1
    return .aggregate input groupBy (← replicate aggregate n)
  else fail tagAt (.nodeTag tag)

/-- A node and the position of its tag. -/
def node : Reader (Nat × Node) := do
  let tagAt ← here
  let tag ← byte "node tag"
  let lengthAt ← here
  let length ← number 4 "node length"
  -- The length is checked before the tag is looked at.
  let left ← remaining
  if left < length then fail lengthAt (.bodyLength length left)
  let node ← delimited length (nodeBody tagAt tag) fun count node => .unread count node.name
  return (tagAt, node)

/-- The database directory and the nodes of a plan, which take up the whole buffer. -/
def nodes : Reader (String × List (Nat × Node)) := do
  if (← take magic.length "magic") ≠ magic then fail 0 .badMagic
  let versionAt ← here
  let found ← number 2 "version"
  if found ≠ version.toNat then fail versionAt (.version found)
  let database ← string "database path"
  let countAt ← here
  -- Every node has at least a tag and a length.
  let n ← count "node count" 5
  if n = 0 then fail countAt .noNodes
  let nodes ← replicate node n
  let left ← remaining
  if left ≠ 0 then fail (← here) (.trailing left)
  return (database, nodes)

end Wire.Reader

namespace Plan

/-- The plan that a buffer encodes. -/
def decode (buffer : List UInt8) : Except Wire.DecodeError Plan := do
  let ((database, placed), _) ← Wire.Reader.nodes.run (Wire.Cursor.start buffer)
  (Plan.ofNodes database (placed.map (·.2))).mapError fun error =>
    { offset := (placed.map (·.1)).getD error.node 0, fault := .invalid error.fault }

end Plan

end PlanCompiler
