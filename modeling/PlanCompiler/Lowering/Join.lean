import PlanCompiler.Lowering.Expr
import PlanCompiler.Lowering.Pipeline

/-!
# Joins in the generated program

The rows of the left input are stored in columns that grow. When they are complete, an index is
built over their keys: a table of chain heads by hash, and for each row the next one of its
chain. Both hold row numbers plus one, and zero ends a chain. Each row of the right input then
follows the chain of its key.
-/

namespace PlanCompiler

/-- A join: its position and what it stores of its left input. -/
structure Join where
  /-- Position of the join. -/
  node : Nat
  /-- Types of the stored columns. -/
  stored : Schema
  /-- Position of the key among the stored columns. -/
  key : Nat
  /-- Type of the keys. -/
  keyType : DataType

namespace Join

/-- The join of a node over its left input. -/
def of (node : Nat) (left : Schema) (leftKey : UInt32) : Except LoweringError Join :=
  match left[leftKey.toNat]? with
  | some keyType => .ok { node, stored := left, key := leftKey.toNat, keyType }
  | none => .error (.joinKey leftKey)

/-- The key of a row of the right input. -/
def keyOf (rightKey : UInt32) (row : List Value) : Except LoweringError Value :=
  match row[rightKey.toNat]? with
  | some key => .ok key
  | none => .error (.joinKey rightKey)

/-- A variable of the join. -/
def named (join : Join) (part : String) : Name := .ofNode .join join.node (some part)

/-- A stored column. -/
def column (join : Join) (position : Nat) : Name := join.named s!"c{position}"

/-- The variables of the join. -/
def sections (join : Join) : Sections :=
  .plain "size_t" (join.named "rows") "0" ++ .plain "size_t" (join.named "cap") "0" ++
    .plain "size_t" (join.named "mask") "0" ++
    .concat (join.stored.zipIdx.map fun (type, k) => .buffer type.representation (join.column k)) ++
    .buffer "size_t" (join.named "heads") ++ .buffer "size_t" (join.named "next")

/-- Stores a row of the left input. -/
def store (join : Join) (row : List Value) : List Statement :=
  let rows := join.named "rows"
  let cap := join.named "cap"
  .block (.control ("if (" ++ rows ++ " == " ++ cap ++ ")"))
    (.line (cap ++ " = " ++ cap ++ " ? " ++ cap ++ " * 2 : 1024;") ::
      row.zipIdx.map fun (_, k) =>
        .line ("KILN_RESIZE(" ++ join.column k ++ ", " ++ cap ++ ");")) ::
    (row.zipIdx.map (fun (value, k) =>
      .line (.element (join.column k) rows ++ " = " ++ value.code ++ ";")) ++
      [.line (rows ++ "++;")])

/-- Builds the index over the stored rows. -/
def buildIndex (join : Join) : List Statement :=
  let rows := join.named "rows"
  let mask := join.named "mask"
  let heads := join.named "heads"
  let next := join.named "next"
  let row := join.named "b"
  let bucket := join.named "h"
  let key : Value := { code := .element (join.column join.key) row, type := join.keyType }
  [.line (mask ++ " = " ++ .help .tableSize [rows] ++ " - 1;"),
    .line (heads ++ " = calloc(" ++ mask ++ " + 1, sizeof(size_t));"),
    .control ("if (!" ++ heads ++ ")") "KILN_FAIL(KILN_ALLOC_ERROR);",
    .line ("KILN_RESIZE(" ++ next ++ ", " ++ rows ++ " + 1);"),
    .block (.upTo row rows)
      [.declare "const size_t " bucket (" = (size_t)" ++ key.hash ++ " & " ++ mask ++ ";"),
        .line (.element next row ++ " = " ++ .element heads bucket ++ ";"),
        .line (.element heads bucket ++ " = " ++ row ++ " + 1;")]]

/-- Looks for the stored rows with the key of a row of the right input; the open place comes
after one has been found. -/
def probe (join : Join) (checked : Bool) (key : Value) : Context :=
  let wanted := join.named "k"
  let link := join.named "e"
  let found := join.named "m"
  let wantedValue : Value := { code := wanted, type := key.type }
  [.enter .bare,
    .run (.declare (key.type.representation ++ " const ") wanted (" = " ++ key.code ++ ";")),
    .enter (.loop none link
      (.element (join.named "heads")
        ("(size_t)" ++ wantedValue.hash ++ " & " ++ join.named "mask"))
      (link ++ " != 0")
      (link ++ " = " ++ .element (join.named "next") (link ++ " - 1"))),
    .run (.declare "const size_t " found (" = " ++ link ++ " - 1;"))] ++
    (if checked then
      [.run (.line ("KILN_CHECK(" ++ found ++ " < " ++ join.named "rows" ++ ");"))]
    else []) ++
    [.run (.control
      ("if (!" ++ Value.sameKey key.type (.element (join.column join.key) found) wanted ++ ")")
      "continue;")]

/-- The stored row that has been found. -/
def found (join : Join) : List Value :=
  join.stored.zipIdx.map fun (type, k) =>
    { code := .element (join.column k) (join.named "m"), type }

end Join

end PlanCompiler
