import PlanCompiler.Plan.Basic
import PlanCompiler.Plan.Wire.Format

/-!
# Writing plans in binary

The encoding of a plan as a list of bytes. Lengths are written as 32 bit numbers; a list or a
string of 2^32 or more elements is outside the format.
-/

namespace PlanCompiler

namespace Wire

/-- A 32 bit number. -/
def word (n : Nat) : List UInt8 := littleEndian 4 n

/-- A string: its length and its bytes. -/
def string (s : String) : List UInt8 :=
  word s.utf8ByteSize ++ s.toUTF8.data.toList

/-- A list: its length and its elements. -/
def sequence {α : Type} (element : α → List UInt8) (elements : List α) : List UInt8 :=
  word elements.length ++ elements.flatMap element

end Wire

namespace Expr

mutual

/-- The encoding of an expression. -/
def encode : Expr → List UInt8
  | .column index => Wire.ExprTag.column.byte :: Wire.word index.toNat
  | .int value => Wire.ExprTag.int.byte :: Wire.littleEndian 8 value.toUInt64.toNat
  | .float value => Wire.ExprTag.float.byte :: Wire.littleEndian 8 value.bits.toNat
  | .date days => Wire.ExprTag.date.byte :: Wire.word days.toUInt32.toNat
  | .text value => Wire.ExprTag.text.byte :: Wire.string value
  | .binary op lhs rhs => Wire.ExprTag.binary.byte :: op.tag :: (lhs.encode ++ rhs.encode)
  | .junction connective operands =>
    (Wire.ExprTag.junction connective).byte :: (Wire.word operands.length ++ encodeAll operands)
  | .not operand => Wire.ExprTag.not.byte :: operand.encode
  | .case condition consequent alternative =>
    Wire.ExprTag.case.byte :: (condition.encode ++ consequent.encode ++ alternative.encode)
  | .like value pattern => Wire.ExprTag.like.byte :: (value.encode ++ Wire.string pattern)

/-- The encodings of some expressions, one after the other. -/
def encodeAll : List Expr → List UInt8
  | [] => []
  | first :: rest => first.encode ++ encodeAll rest

end

end Expr

namespace Node

/-- The encoding of a scanned column. Columns of type `bool`, which no plan has, get a tag that
stands for no type. -/
def encodeColumn (column : ScanColumn) : List UInt8 :=
  Wire.word column.index.toNat ++ [column.type.tag?.getD 0xFF]

/-- The encoding of an aggregate: its tag and its column, if it has one. -/
def encodeAggregate (aggregate : Aggregate) : List UInt8 :=
  aggregate.tag :: (aggregate.column?.map fun column => Wire.word column.toNat).getD []

/-- The body of an encoded node. -/
def encodeBody : Node → List UInt8
  | .scan table columns => Wire.string table ++ Wire.sequence encodeColumn columns
  | .filter input predicate => Wire.word input.toNat ++ predicate.encode
  | .project input expressions =>
    Wire.word input.toNat ++ Wire.word expressions.length ++ Expr.encodeAll expressions
  | .join left right leftKey rightKey =>
    Wire.word left.toNat ++ Wire.word right.toNat ++ Wire.word leftKey.toNat ++
      Wire.word rightKey.toNat
  | .aggregate input groupBy aggregates =>
    Wire.word input.toNat ++ Wire.sequence (fun column => Wire.word column.toNat) groupBy ++
      Wire.sequence encodeAggregate aggregates

/-- The encoding of a node: its tag, the length of its body and the body. -/
def encode (node : Node) : List UInt8 :=
  node.tag :: (Wire.word node.encodeBody.length ++ node.encodeBody)

end Node

namespace Wire

/-- What comes before the nodes of a plan. -/
def header (database : String) (count : Nat) : List UInt8 :=
  magic ++ littleEndian 2 version.toNat ++ string database ++ word count

/-- The encoding of a database directory and some nodes, which need not be a plan. -/
def encodeNodes (database : String) (nodes : List Node) : List UInt8 :=
  header database nodes.length ++ nodes.flatMap Node.encode

end Wire

namespace Plan

/-- The encoding of a plan. -/
def encode (plan : Plan) : List UInt8 :=
  Wire.encodeNodes plan.database plan.nodes

end Plan

end PlanCompiler
