import PlanCompiler.Json.Number
import PlanCompiler.Text.Visible

/-!
# What was found in place of a value

A description of the value at the front of a JSON text, for messages that say that another kind of
value was expected. Sequences and maps are recognised by their first character and not read.
-/

namespace PlanCompiler.Json

/-- Floats in messages have the shortest digits that read back; powers of ten are written from
`1e+16` on and below `0.00001`, a positive power with a plus sign. -/
def messageFormat : FloatFormat :=
  { lowest := -5, beyond := 16, plus := true, width := 1, tie := .even }

/-- A value, as far as messages describe it. -/
inductive Found where
  | null
  | boolean (value : Bool)
  | number (value : Number)
  | string (value : String)
  | sequence
  | map
deriving DecidableEq, Repr

namespace Found

/-- The description of a value. -/
def text : Found → String
  | .null => "null"
  | .boolean value => "boolean \x60" ++ toString value ++ "\x60"
  | .number (.natural n) => "integer \x60" ++ toString n ++ "\x60"
  | .number (.negative n) => "integer \x60-" ++ toString n ++ "\x60"
  | .number (.float x) => "floating point \x60" ++ x.finiteText messageFormat ++ "\x60"
  | .string value => "string " ++ Text.visible value
  | .sequence => "sequence"
  | .map => "map"

/-- The value at the front of a text. -/
def ofText : List Char → Except Fault Found
  | [] => .error .incomplete
  | '[' :: _ => .ok .sequence
  | '{' :: _ => .ok .map
  | 'n' :: rest => do
    let _ ← word ['u', 'l', 'l'] rest
    .ok .null
  | 't' :: rest => do
    let _ ← word ['r', 'u', 'e'] rest
    .ok (.boolean true)
  | 'f' :: rest => do
    let _ ← word ['a', 'l', 's', 'e'] rest
    .ok (.boolean false)
  | '"' :: rest => do .ok (.string (String.ofList (← Json.string rest).1))
  | '-' :: rest => do .ok (.number (← Json.number true rest).1)
  | c :: rest =>
    if c.isDigit then do .ok (.number (← Json.number false (c :: rest)).1) else .error .malformed

end Found

end PlanCompiler.Json
