import PlanCompiler.Expr.Printer
import PlanCompiler.Plan.Basic

/-!
# Printed plans

The text form of a plan: a line for the database directory and one line for each node.
-/

namespace PlanCompiler

namespace Node

/-- The line of a node. -/
def print : Node → Except Overflow String
  | .scan table columns =>
    .ok ("scan " ++ table ++ String.join (columns.map fun column =>
      " " ++ toString column.index.toNat ++ ":" ++ column.type.name))
  | .filter input predicate => do
    .ok ("filter " ++ toString input.toNat ++ " " ++ (← predicate.print))
  | .project input expressions => do
    .ok ("project " ++ toString input.toNat ++ (← Expr.printEach expressions))
  | .join left right leftKey rightKey =>
    .ok ("join " ++
      " ".intercalate ([left, right, leftKey, rightKey].map fun n => toString n.toNat))
  | .aggregate input groupBy aggregates =>
    .ok ("aggregate " ++ toString input.toNat ++ " group [" ++
      ", ".intercalate (groupBy.map fun column => toString column.toNat) ++ "]" ++
      String.join (aggregates.map fun aggregate => " " ++ aggregate.print))

/-- The lines of some nodes, each ended by a line feed. -/
def printLines : List Node → Except Overflow String
  | [] => .ok ""
  | node :: rest => do .ok ((← node.print) ++ "\n" ++ (← printLines rest))

end Node

namespace Plan

/-- The text of a plan. It exists unless a date literal lies beyond the calendar. -/
def print (plan : Plan) : Except Overflow String := do
  .ok ("database " ++ plan.database ++ "\n" ++ (← Node.printLines plan.nodes))

end Plan

end PlanCompiler
