import PlanCompiler.Plan.Validity

/-!
# Plans

A plan is a valid list of nodes together with the directory of its tables. Its row types are
those that validation found.
-/

namespace PlanCompiler

/-- A valid query plan. -/
structure Plan where
  /-- Directory of the table files. -/
  database : String
  /-- The operators; each reads earlier ones and the last one is the root. -/
  nodes : List Node
  /-- The row type of each node. -/
  schemas : List Schema
  /-- The nodes are valid and have these row types. -/
  valid : validate nodes = .ok schemas

namespace Plan

/-- The plan with given nodes, if they are valid. -/
def ofNodes (database : String) (nodes : List Node) : Except ValidationError Plan :=
  match h : validate nodes with
  | .ok schemas => .ok { database, nodes, schemas, valid := h }
  | .error error => .error error

/-- Position of the root. -/
def root (plan : Plan) : Nat := plan.nodes.length - 1

/-- The row type of a node. -/
def schema (plan : Plan) (position : Nat) : Schema := plan.schemas.getD position []

/-- The row type of the result. -/
def outputSchema (plan : Plan) : Schema := plan.schema plan.root

/-- The tables that are read, each once, in the order of their first scan. -/
def tables (plan : Plan) : List String :=
  (plan.nodes.filterMap fun
    | .scan table _ => some table
    | _ => none).foldl (fun seen table => if table ∈ seen then seen else seen ++ [table]) []

/-- Equality of plans that compares float literals as numbers. -/
def agrees (p q : Plan) : Bool :=
  p.database = q.database ∧ p.nodes.length = q.nodes.length ∧
    (p.nodes.zip q.nodes).all (fun (a, b) => a.agrees b) ∧ p.schemas = q.schemas

/-- Every plan has a node. -/
theorem nodes_ne_nil (plan : Plan) : plan.nodes ≠ [] := by
  intro h
  have := plan.valid
  simp [validate, h] at this

end Plan

end PlanCompiler
