import PlanCompiler.DataType
import PlanCompiler.Expr.Basic

/-!
# Nodes of a plan

A plan is a list of nodes. A node is a relational operator and names the nodes it reads by their
positions in the list.
-/

namespace PlanCompiler

/-- A column that a scan reads from its table. -/
structure ScanColumn where
  /-- Position of the column in the table file. -/
  index : UInt32
  /-- Type of its values. -/
  type : DataType
deriving DecidableEq, Repr

/-- A summary of the rows of a group. -/
inductive Aggregate where
  /-- Sum of a column. -/
  | sum (column : UInt32)
  /-- Number of rows. -/
  | count
  /-- Least value of a column. -/
  | min (column : UInt32)
  /-- Greatest value of a column. -/
  | max (column : UInt32)
deriving DecidableEq, Repr

namespace Aggregate

/-- Tag of an aggregate in the binary plan format. -/
def tag : Aggregate → UInt8
  | .sum _ => 0
  | .count => 1
  | .min _ => 2
  | .max _ => 3

/-- The column that an aggregate summarises. -/
def column? : Aggregate → Option UInt32
  | .sum column | .min column | .max column => some column
  | .count => none

/-- Name of an aggregate in text plans. -/
def name : Aggregate → String
  | .sum _ => "sum"
  | .count => "count"
  | .min _ => "min"
  | .max _ => "max"

/-- An aggregate is a least or a greatest value. -/
def isExtreme : Aggregate → Bool
  | .min _ | .max _ => true
  | .sum _ | .count => false

/-- An aggregate is a sum. -/
def isSum : Aggregate → Bool
  | .sum _ => true
  | .count | .min _ | .max _ => false

/-- The text of an aggregate in a plan. -/
def print (aggregate : Aggregate) : String :=
  match aggregate.column? with
  | some column => aggregate.name ++ " $" ++ toString column.toNat
  | none => aggregate.name

end Aggregate

/-- A relational operator and the positions of the nodes it reads. -/
inductive Node where
  /-- Reads columns of a table. -/
  | scan (table : String) (columns : List ScanColumn)
  /-- Keeps the rows that satisfy a condition. -/
  | filter (input : UInt32) (predicate : Expr)
  /-- Computes the columns of a new row. -/
  | project (input : UInt32) (expressions : List Expr)
  /-- Pairs the rows that agree on a key column; left columns come first. -/
  | join (left right : UInt32) (leftKey rightKey : UInt32)
  /-- Summarises the rows that agree on the group columns; group columns come first. -/
  | aggregate (input : UInt32) (groupBy : List UInt32) (aggregates : List Aggregate)
deriving Repr

namespace Node

/-- Tag of a node in the binary plan format. -/
def tag : Node → UInt8
  | .scan .. => 1
  | .filter .. => 2
  | .project .. => 3
  | .join .. => 4
  | .aggregate .. => 5

/-- Name of an operator in text plans. -/
def name : Node → String
  | .scan .. => "scan"
  | .filter .. => "filter"
  | .project .. => "project"
  | .join .. => "join"
  | .aggregate .. => "aggregate"

/-- The nodes that a node reads, in the order it consumes them. -/
def inputs : Node → List UInt32
  | .scan .. => []
  | .filter input _ | .project input _ | .aggregate input _ _ => [input]
  | .join left right _ _ => [left, right]

/-- Equality of nodes that compares float literals as numbers. -/
def agrees : Node → Node → Bool
  | .scan table columns, .scan table' columns' => table = table' ∧ columns = columns'
  | .filter input e, .filter input' e' => input = input' ∧ e.agrees e'
  | .project input es, .project input' es' => input = input' ∧ Expr.agreesAll es es'
  | .join left right l r, .join left' right' l' r' =>
    left = left' ∧ right = right' ∧ l = l' ∧ r = r'
  | .aggregate input groupBy aggregates, .aggregate input' groupBy' aggregates' =>
    input = input' ∧ groupBy = groupBy' ∧ aggregates = aggregates'
  | _, _ => false

end Node

end PlanCompiler
