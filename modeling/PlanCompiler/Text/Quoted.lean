/-!
# Quoted text

A text between single quotes, in which a quote is written twice.
-/

namespace PlanCompiler.Text

/-- The characters between the quotes: every quote is written twice. -/
def doubleQuotes : List Char → List Char
  | [] => []
  | c :: rest => if c = '\'' then '\'' :: '\'' :: doubleQuotes rest else c :: doubleQuotes rest

/-- A text in single quotes. -/
def quoted (text : String) : String :=
  "'" ++ String.ofList (doubleQuotes text.toList) ++ "'"

end PlanCompiler.Text
