/-!
# Data types of columns and expressions

The five types a value can have while a query runs. Four of them can be stored in a table and
therefore have a tag in the binary plan format and a name that a plan may write; `bool` is only
produced by expressions.

A schema is the list of the types of a row. `DataType.unify?` gives the common type of two
values of which either may be chosen.
-/

namespace PlanCompiler

/-- Type of a value that flows between the operators of a plan. -/
inductive DataType where
  /-- A signed integer of 64 bits. -/
  | int
  /-- A binary floating point number of 64 bits. -/
  | float
  /-- A day, counted from 1970-01-01. -/
  | date
  /-- A string of bytes, compared bytewise. -/
  | text
  /-- A truth value. Tables never store one. -/
  | bool
deriving DecidableEq, Repr

/-- The types of the columns of a row, in order. -/
abbrev Schema := List DataType

namespace DataType

/-- Every type. -/
def all : List DataType := [.int, .float, .date, .text, .bool]

/-- Tag of a column type in the binary plan format. `bool` has none, since no scan yields it. -/
def tag? : DataType → Option UInt8
  | .int => some 0
  | .float => some 1
  | .date => some 2
  | .text => some 3
  | .bool => none

/-- The column type that a tag stands for. -/
def ofTag? (tag : UInt8) : Option DataType :=
  all.find? (·.tag? = some tag)

/-- Name of a type in text plans and in messages. -/
def name : DataType → String
  | .int => "int"
  | .float => "float"
  | .date => "date"
  | .text => "text"
  | .bool => "bool"

/-- The column type that a text plan names. `bool` cannot be named: no column has that type. -/
def ofName? (name : String) : Option DataType :=
  all.find? fun type => type.tag?.isSome ∧ type.name = name

/-- Numbers can be added up and compared with each other. -/
def isNumeric : DataType → Bool
  | .int | .float => true
  | .date | .text | .bool => false

/-- The common type of two values of which either may be chosen: equal types stay, an integer
beside a float widens, and nothing else mixes. -/
def unify? (a b : DataType) : Option DataType :=
  if a = b then some a
  else if a.isNumeric ∧ b.isNumeric then some .float
  else none

/-- A type is found exactly by its own tag. -/
theorem ofTag?_eq_some_iff {tag : UInt8} {type : DataType} :
    ofTag? tag = some type ↔ type.tag? = some tag := by
  constructor
  · intro h
    simpa using List.find?_some h
  · cases type <;> simp only [tag?, Option.some.injEq, reduceCtorEq, false_implies]
    all_goals rintro rfl; rfl

end DataType

end PlanCompiler
